/-
# The shortest decimal that reads back

Among the decimals that are read as a given number, `shortest` takes one with the fewest digits,
and of several the nearest; if two are equally near, the larger.  The search tries the decimals
with 1, 2, …, 17 significant digits, of which only the two around the value matter, and it tests
each by reading it back.  Should none be read back, the exact value is taken.
-/
import Reckoner.Number.Numeral

namespace Reckoner.Number

/-! ## 1. The grid of decimals around a value -/

/-- The number of digits before the point: the least `k` with `value < 10 ^ k`, for a positive
value.  The binary logarithm gives an estimate that is at most two too small. -/
def digitsBeforePoint (numerator denominator : Nat) : Int :=
  let estimate := floorLog2 numerator denominator * 30103 / 100000
  let above (k : Int) : Bool :=
    let scaled := scale 10 (-k) (numerator, denominator)
    scaled.1 < scaled.2
  if above estimate then estimate
  else if above (estimate + 1) then estimate + 1
  else estimate + 2

def dropZeros (d : Decimal) : Decimal :=
  if d.digits ≠ 0 ∧ d.digits % 10 = 0 then dropZeros ⟨d.digits / 10, d.exponent + 1⟩ else d
termination_by d.digits
decreasing_by omega

/-- Of the two multiples of `10 ^ exponent` around the value, the nearer one that is read as the
given bits.  There need not be one: then the grid is too coarse for the value. -/
def hitOnGrid (bits numerator denominator : Nat) (exponent : Int) : Option Decimal :=
  let scaled := scale 10 (-exponent) (numerator, denominator)
  let below : Decimal := ⟨scaled.1 / scaled.2, exponent⟩
  let above : Decimal := ⟨scaled.1 / scaled.2 + 1, exponent⟩
  let ordered :=
    if 2 * (scaled.1 % scaled.2) < scaled.2 then [below, above] else [above, below]
  ordered.find? (fun d => d.toBits == bits)

/-! ## 2. The search -/

/-- The magnitude written out in full.  Every power of two is a decimal, with at most as many places
as the power, so nothing is rounded here. -/
def Magnitude.toDecimal (s : Magnitude) : Decimal :=
  ⟨s.mantissa * Nat.pow 2 s.exponent.toNat * Nat.pow 5 (-s.exponent).toNat, min s.exponent 0⟩

/-- The shortest decimal that is read as the positive magnitude.  Grids are tried from the coarsest
on; if none of 17 digits were hit, the magnitude would be written out in full. -/
def shortest (s : Magnitude) : Decimal :=
  let (numerator, denominator) := s.fraction
  let top := digitsBeforePoint numerator denominator
  let hit := (List.range 17).findSome? fun n =>
    hitOnGrid s.toBits numerator denominator (top - (n + 1 : Nat))
  dropZeros (hit.getD s.toDecimal)

section Example

/-- 0.1, 0.1 + 0.2, the least positive number, and a tie between two equally near decimals. -/
example : shortest (.ofBits 0x3FB999999999999A) = ⟨1, -1⟩ ∧
    shortest (.ofBits 0x3FD3333333333334) = ⟨30000000000000004, -17⟩ ∧
    shortest (.ofBits 1) = ⟨5, -324⟩ ∧
    shortest (.ofBits 0x3E60000000000000) = ⟨29802322387695313, -24⟩ := by decide +kernel

end Example

end Reckoner.Number
