/-
# Decimal numerals

A decimal is `digits * 10 ^ exponent`.  This module reads numerals -- digits with an optional
point, an optional exponent, or one of the words for infinity and for what is not a number -- and
gives the number nearest to what is written (`readNumber`).  The shape of a numeral is a little
grammar over characters, read from left to right; rounding happens once, at the end.
-/
import Reckoner.Number.Binary

namespace Reckoner.Number

/-! ## 1. Decimals -/

/-- The value `digits * 10 ^ exponent`. -/
structure Decimal where
  digits : Nat
  exponent : Int
  deriving Repr, DecidableEq

def Decimal.fraction (d : Decimal) : Nat × Nat := scale 10 d.exponent (d.digits, 1)

/-- The low bits of the number nearest to the decimal.  Exponents that leave no doubt are settled
without computing the power: `digits` lies between 1 and `10 ^ (log2 digits + 1)`. -/
def Decimal.toBits (d : Decimal) : Nat :=
  if d.digits = 0 then 0
  else if 310 ≤ d.exponent then infinityBits
  else if d.exponent + d.digits.log2 + 1 ≤ -330 then 0
  else nearestBits d.fraction.1 d.fraction.2

def Decimal.toNumber (negative : Bool) (d : Decimal) : Float := ofSignBits negative d.toBits

/-! ## 2. Reading -/

/-- The value of a list of decimal digits. -/
def digitsValue (text : List Char) : Nat := text.foldl (fun n c => 10 * n + (c.toNat - 48)) 0

def spanDigits (text : List Char) : List Char × List Char :=
  (text.takeWhile Char.isDigit, text.dropWhile Char.isDigit)

/-- An optional sign: whether it is a minus, and what follows.  A plus is read over. -/
def readSign : List Char → Bool × List Char
  | '-' :: rest => (true, rest)
  | '+' :: rest => (false, rest)
  | text => (false, text)

/-- The digits after the point, if there is one, and what follows. -/
def readFraction : List Char → List Char × List Char
  | '.' :: rest => spanDigits rest
  | text => ([], text)

/-- An exponent that takes up the whole text, or nothing at all. -/
def readExponent : List Char → Option Int
  | [] => some 0
  | mark :: rest =>
    if mark = 'e' ∨ mark = 'E' then
      let (negative, digits) := readSign rest
      if digits.isEmpty || !digits.all Char.isDigit then none
      else some (if negative then -(digitsValue digits : Int) else digitsValue digits)
    else none

/-- A decimal without a sign. -/
def readDecimal (text : List Char) : Option Decimal :=
  let (whole, afterWhole) := spanDigits text
  let (fraction, afterFraction) := readFraction afterWhole
  if whole.isEmpty && fraction.isEmpty then none
  else (readExponent afterFraction).map fun exponent =>
    ⟨digitsValue (whole ++ fraction), exponent - fraction.length⟩

/-- The number that is not a number. -/
def notANumber : Float := .ofBits 0x7FF8000000000000

/-- A word for a special value, in any letter case. -/
def readWord (negative : Bool) (text : List Char) : Option Float :=
  let word := text.map Char.toLower
  if word = ['i', 'n', 'f'] ∨ word = ['i', 'n', 'f', 'i', 'n', 'i', 't', 'y'] then
    some (ofSignBits negative infinityBits)
  else if word = ['n', 'a', 'n'] then some notANumber
  else none

inductive NumeralFault where
  | empty
  | malformed
  deriving Repr, DecidableEq

def NumeralFault.message : NumeralFault → String
  | .empty => "cannot parse float from empty string"
  | .malformed => "invalid float literal"

/-- The number that a text writes.  A word such as `inf` is looked for where no decimal is found. -/
def readNumber (text : List Char) : Except NumeralFault Float :=
  if text.isEmpty then .error .empty
  else
    let (negative, unsigned) := readSign text
    match readDecimal unsigned with
    | some d => .ok (d.toNumber negative)
    | none =>
      match readWord negative unsigned with
      | some x => .ok x
      | none => .error .malformed

section Example

example : readDecimal ['0', '1', '.', '5', 'e', '-', '3'] = some ⟨15, -4⟩ := by decide +kernel

/-- A point needs a digit on one side, and an exponent needs digits. -/
example : readDecimal ['.'] = none ∧ readDecimal ['5', '.'] = some ⟨5, 0⟩ ∧
    readDecimal ['1', 'e'] = none := by decide +kernel

/-- 2 ^ 53 + 1 lies halfway between two numbers and is read as the even one. -/
example : (Decimal.mk 9007199254740993 0).toBits = (Decimal.mk 9007199254740992 0).toBits := by
  decide +kernel

end Example

end Reckoner.Number
