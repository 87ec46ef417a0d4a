/-
# Numbers in JSON texts

How a written number becomes a floating-point one.  The digits are gathered into a significand as
long as it fits into 64 bits; digits that do not fit only count for their place.  The significand
is then scaled by a power of ten in one multiplication or division (`scaleByTen`), so the result is
near the written number but not always the nearest.  A number too large to be finite is refused.
-/
import Reckoner.Json.Value
import Reckoner.Number.Numeral

namespace Reckoner.Json

open Number

/-- Appends digits to a significand while it stays below `2 ^ 64`, and counts the digits that are
left over. -/
def gatherDigits (significand : Nat) : List Char → Nat × Nat
  | [] => (significand, 0)
  | c :: rest =>
    let longer := 10 * significand + (c.toNat - 48)
    if longer < Nat.pow 2 64 then gatherDigits longer rest else (significand, rest.length + 1)

def powerOfTen (n : Nat) : Float := (Decimal.mk 1 n).toNumber false

/-- Divides by `10 ^ n`, in several steps if that power is not finite. -/
def divideByTens (x : Float) (n : Nat) : Float :=
  if n ≤ 308 then x / powerOfTen n
  else if x == 0 then x
  else divideByTens (x / powerOfTen 308) (n - 308)
termination_by n

/-- Multiplies by `10 ^ exponent`, unless the result is infinite.  A written number that is too
large is an error of the document and not infinity. -/
def scaleByTen (x : Float) (exponent : Int) : Option Float :=
  if exponent < 0 then some (divideByTens x exponent.natAbs)
  else if exponent ≤ 308 then
    let y := x * powerOfTen exponent.natAbs
    if y.isInf then none else some y
  else if x == 0 then some x
  else none

/-- The floating-point number for a written one.  Digits beyond the significand are counted into the
exponent, so the result can differ from the nearest number in its last place. -/
def Numeral.toFloat? (n : Numeral) : Option Float :=
  let fraction := n.fraction.getD []
  let (whole, wholeLeft) := gatherDigits 0 n.whole
  let (significand, fractionLeft) := gatherDigits whole fraction
  let places : Int := (fraction.length : Int) - fractionLeft
  let exponent : Int := match n.exponent with
    | none => 0
    | some (negative, digits) =>
      if negative then -(digitsValue digits : Int) else digitsValue digits
  (scaleByTen (UInt64.ofNat significand).toFloat (wholeLeft - places + exponent)).map fun x =>
    if n.negative then -x else x

/-- The natural number below `2 ^ 64` that is written without sign, point and exponent. -/
def Numeral.toNat? (n : Numeral) : Option Nat :=
  if n.negative || n.fraction.isSome || n.exponent.isSome then none
  else
    let value := digitsValue n.whole
    if value < Nat.pow 2 64 then some value else none

end Reckoner.Json
