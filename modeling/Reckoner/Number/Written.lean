/-
# Written numbers

Two ways to write a number, both positional, without an exponent.  `display` writes the shortest
digits that read back.  `render` is what formulas and results show: whole numbers below `10 ^ 15`
as integers (zero without a sign), every other number as `display` does, with the decimal
separator in place of the point.
-/
import Reckoner.Number.Shortest

namespace Reckoner.Number

/-! ## 1. Layout -/

/-- The digits of a decimal, with a point where it belongs. -/
def Decimal.layout (d : Decimal) : List Char :=
  let digits := Nat.toDigits 10 d.digits
  if 0 ≤ d.exponent then digits ++ List.replicate d.exponent.toNat '0'
  else
    let places := (-d.exponent).toNat
    let padded := List.replicate (places + 1 - digits.length) '0' ++ digits
    padded.take (padded.length - places) ++ '.' :: padded.drop (padded.length - places)

def signed (negative : Bool) (text : List Char) : List Char :=
  if negative then '-' :: text else text

/-! ## 2. Numbers -/

/-- A magnitude by its shortest digits. -/
def Magnitude.display (s : Magnitude) : List Char :=
  if s.mantissa = 0 then ['0'] else (shortest s).layout

/-- A shape by its shortest digits, or by the word for it. -/
def Shape.display : Shape → List Char
  | .notANumber => ['N', 'a', 'N']
  | .infinite negative => signed negative ['i', 'n', 'f']
  | .finite negative size => signed negative size.display

/-- Integers from here on are no longer written as such. -/
def integerLimit : Nat := Nat.pow 10 15

/-- An integer, zero without a sign. -/
def integerText (negative : Bool) (n : Nat) : List Char :=
  signed (negative && n != 0) (Nat.toDigits 10 n)

/-- A shape as results show it. -/
def Shape.render (separator : Char) (x : Shape) : List Char :=
  let separated := x.display.map fun c => if c = '.' then separator else c
  match x with
  | .finite negative size =>
    match size.natural? with
    | some n => if n < integerLimit then integerText negative n else separated
    | none => separated
  | _ => separated

def display (x : Float) : String := String.ofList (shape x).display

/-- A number as results show it, with the given decimal separator. -/
def render (x : Float) (separator : Char) : String := String.ofList ((shape x).render separator)

section Example

/-- 2.5 with a comma, minus zero, 10 ^ 15 and a small number. -/
example : (Shape.ofBits 0x4004000000000000).render ',' = ['2', ',', '5'] ∧
    (Shape.ofBits 0x8000000000000000).render '.' = ['0'] ∧
    (Shape.ofBits 0x8000000000000000).display = ['-', '0'] ∧
    (Decimal.mk 1 15).layout = "1000000000000000".toList ∧
    (Decimal.mk 1 (-7)).layout = "0.0000001".toList := by decide +kernel

end Example

end Reckoner.Number
