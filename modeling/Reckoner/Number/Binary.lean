/-
# Binary floating-point numbers, taken apart and put together

A finite number is a sign and a magnitude `mantissa * 2 ^ exponent` (`Shape`); the shape is read
off the 64 bits.  In the other direction `nearestBits` gives the bits of the number nearest to a
quotient of two naturals, ties to the even mantissa, too large a quotient giving infinity.  All of
it is arithmetic on naturals, so that nothing depends on how the machine rounds.
-/

namespace Reckoner.Number

/-! ## 1. Taking a number apart -/

/-- The magnitude `mantissa * 2 ^ exponent`.  The same value has several of them; that of a number
is the one with the least exponent that 53 bits allow. -/
structure Magnitude where
  mantissa : Nat
  exponent : Int
  deriving Repr, DecidableEq

/-- What a number is. -/
inductive Shape where
  | notANumber
  | infinite (negative : Bool)
  | finite (negative : Bool) (size : Magnitude)
  deriving Repr, DecidableEq

/-- The bit pattern of positive infinity. -/
def infinityBits : Nat := 2047 * Nat.pow 2 52

def signBit : Nat := Nat.pow 2 63

/-- The magnitude behind the low 63 bits of a finite number. -/
def Magnitude.ofBits (bits : Nat) : Magnitude :=
  let hidden := Nat.pow 2 52
  if bits / hidden = 0 then ⟨bits, -1074⟩
  else ⟨hidden + bits % hidden, (bits / hidden : Nat) - 1075⟩

/-- The bits of a magnitude whose mantissa has 53 bits, or fewer at the least exponent.  A
mantissa of `2 ^ 53` carries into the exponent, and beyond the greatest exponent lies infinity. -/
def Magnitude.toBits (s : Magnitude) : Nat :=
  min ((s.exponent + 1074).toNat * Nat.pow 2 52 + s.mantissa) infinityBits

/-- The shape behind 64 bits. -/
def Shape.ofBits (bits : Nat) : Shape :=
  let negative := signBit ≤ bits
  let low := bits % signBit
  if low < infinityBits then .finite negative (.ofBits low)
  else if low = infinityBits then .infinite negative
  else .notANumber

/-- The shape of a number. -/
def shape (x : Float) : Shape := .ofBits x.toBits.toNat

def ofSignBits (negative : Bool) (bits : Nat) : Float :=
  .ofBits (.ofNat (bits + if negative then signBit else 0))

/-! ## 2. Rounding a quotient -/

/-- `numerator / denominator` to the nearest natural, a half to the even one. -/
def divideToEven (numerator denominator : Nat) : Nat :=
  let quotient := numerator / denominator
  let twice := 2 * (numerator % denominator)
  if twice < denominator ∨ (twice = denominator ∧ quotient % 2 = 0) then quotient
  else quotient + 1

/-- Multiplies a fraction by `base ^ exponent`. -/
def scale (base : Nat) (exponent : Int) (fraction : Nat × Nat) : Nat × Nat :=
  (fraction.1 * base.pow exponent.toNat, fraction.2 * base.pow (-exponent).toNat)

/-- The whole part of the binary logarithm of a positive quotient. -/
def floorLog2 (numerator denominator : Nat) : Int :=
  let estimate : Int := (numerator.log2 : Int) - denominator.log2
  let scaled := scale 2 (-estimate) (numerator, denominator)
  if scaled.2 ≤ scaled.1 then estimate else estimate - 1

/-- The exponent at which a positive quotient is rounded: 53 bits of it stay, or as many as lie
above the least exponent. -/
def roundingExponent (numerator denominator : Nat) : Int :=
  max (floorLog2 numerator denominator - 52) (-1074)

/-- The quotient rounded to a magnitude. -/
def nearest (numerator denominator : Nat) : Magnitude :=
  if numerator = 0 then ⟨0, -1074⟩
  else
    let exponent := roundingExponent numerator denominator
    let scaled := scale 2 (-exponent) (numerator, denominator)
    ⟨divideToEven scaled.1 scaled.2, exponent⟩

def nearestBits (numerator denominator : Nat) : Nat := (nearest numerator denominator).toBits

/-! ## 3. The exact value -/

def Magnitude.fraction (s : Magnitude) : Nat × Nat := scale 2 s.exponent (s.mantissa, 1)

/-- The magnitude as a natural, if it is one. -/
def Magnitude.natural? (s : Magnitude) : Option Nat :=
  let (numerator, denominator) := s.fraction
  if numerator % denominator = 0 then some (numerator / denominator) else none

section Example

/-- One third, the least positive number, half of it (a tie), and a number that is too large. -/
example : nearestBits 1 3 = 0x3FD5555555555555 ∧ nearestBits 1 (2 ^ 1074) = 1 ∧
    nearestBits 1 (2 ^ 1075) = 0 ∧ nearestBits (2 ^ 1024) 1 = infinityBits := by decide +kernel

example : Shape.ofBits 0xC004000000000000 = .finite true ⟨5 * 2 ^ 50, -51⟩ := by decide +kernel

end Example

end Reckoner.Number
