/-
# The built-in functions

Forty-one functions: elementary and trigonometric ones, bounds and powers, conversions between
days, hours and minutes, and functions that look at a sign.  Only `RND` draws from the random
source; all the others are computed from their arguments.
-/
import Reckoner.Callable
import Reckoner.Number.Remainder
import Reckoner.Chance.Source

namespace Reckoner.Builtin

open Chance

/-! ## 1. Elementary functions -/

/-- Rounds to the nearest whole number, a half upward. -/
def roundHalfUp (x : Float) : Float := if x - x.floor ≥ 0.5 then x.floor + 1 else x.floor

/-- The sign as 1, -1 or 0. -/
def sign (x : Float) : Float := if x > 0 then 1 else if x < 0 then -1 else 0

/-- What is left of a number without its whole part, with its sign. -/
def fraction (x : Float) : Float := x - Number.truncate x

/-- The logarithm to base 10, or to the base given as second argument. -/
def logarithm : List Float → Float
  | [x, base] => x.log / base.log
  | args => (args.getD 0 0).log10

/-- The larger of two numbers; what is not a number gives way to what is, and of two equal numbers
(zeros may differ in sign) it is the second. -/
def larger (x y : Float) : Float := if x.isNaN || x ≤ y then y else x

/-- The smaller of two numbers; what is not a number gives way to what is, and of two equal numbers
it is the second. -/
def smaller (x y : Float) : Float := if x.isNaN || y ≤ x then y else x

/-- A random whole number below `n`; zero, without drawing, if `n` is not positive. -/
def randomBelow {σ : Type} [Source σ] (n : Float) (source : σ) : Float × σ :=
  if n ≤ 0 || n.isNaN then (0, source)
  else
    let (x, next) := draw source
    ((x * n).floor, next)

/-! ## 2. Times and signs -/

def roundToHundredths (x : Float) : Float := roundHalfUp (x * 100) / 100

/-- 1 for true and 0 for false. -/
def flag (condition : Bool) : Float := if condition then 1 else 0

/-! ## 3. The registry -/

variable {σ : Type}

def elementary : List (Callable σ) :=
  [.unary "ABS" Float.abs, .unary "SGN" sign, .unary "SIGN" sign, .unary "INT" Float.floor,
   .unary "TRUNC" Float.floor, .unary "FLOOR" Float.floor, .unary "CEIL" Float.ceil,
   .unary "ROUND" roundHalfUp, .unary "FRAC" fraction, .unary "SQRT" Float.sqrt,
   .unary "LN" Float.log, .unary "EXP" Float.exp,
   ⟨"LOG", 1, some 2, fun args source => (.ok (logarithm args), source), false⟩]

def trigonometric : List (Callable σ) :=
  [.unary "SIN" Float.sin, .unary "COS" Float.cos, .unary "TAN" Float.tan,
   .unary "ASIN" Float.asin, .unary "ACOS" Float.acos, .unary "ATAN" Float.atan,
   .unary "SINH" Float.sinh, .unary "COSH" Float.cosh, .unary "TANH" Float.tanh]

/-- `LIMINF` bounds its first argument from below, `LIMSUP` from above. -/
def boundsAndPowers : List (Callable σ) :=
  [.binary "MAX" larger, .binary "MIN" smaller, .binary "LIMINF" larger,
   .binary "LIMSUP" smaller, .binary "POWER" Float.pow, .binary "POW" Float.pow]

/-- Conversions to a smaller unit give whole units, those to a larger unit hundredths. -/
def conversions : List (Callable σ) :=
  [.unary "DAYS2MINS" fun x => (x * 1440).floor,
   .unary "DAYS2HOURS" fun x => (x * 24).floor,
   .unary "HOURS2MINS" fun x => (x * 60).floor,
   .unary "HOURS2DAYS" fun x => roundToHundredths (x / 24),
   .unary "MINS2HOURS" fun x => roundToHundredths (x / 60),
   .unary "MINS2DAYS" fun x => roundToHundredths (x / 1440)]

def signTests : List (Callable σ) :=
  [.unary "VALPO" fun x => if x > 0 then x else 0,
   .unary "VALNE" fun x => if x < 0 then x else 0,
   .unary "IFPO" fun x => flag (x > 0),
   .unary "IFNE" fun x => flag (x < 0),
   .unary "IFZE" fun x => flag (x == 0),
   .unary "IFNZ" fun x => flag (x != 0)]

/-- The only function that draws. -/
def random [Source σ] : Callable σ :=
  ⟨"RND", 1, some 1, fun args source =>
    let (x, next) := randomBelow (args.getD 0 0) source
    (.ok x, next), true⟩

def registry [Source σ] : Registry σ :=
  .ofList (elementary ++ [random] ++ trigonometric ++ boundsAndPowers ++ conversions ++ signTests)

end Reckoner.Builtin
