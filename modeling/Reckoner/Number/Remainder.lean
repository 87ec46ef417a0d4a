/-
# Remainder and whole part

The remainder of a truncated division is exact: both numbers are multiples of a common power of
two, and so is the remainder, which has the sign of the dividend (`remainder`).
-/
import Reckoner.Number.Numeral

namespace Reckoner.Number

/-- The remainder of two magnitudes, the second positive, as a multiple of a common power. -/
def Magnitude.remainder (s t : Magnitude) : Magnitude :=
  let exponent := min s.exponent t.exponent
  let multiple (u : Magnitude) : Nat := u.mantissa * Nat.pow 2 (u.exponent - exponent).toNat
  ⟨multiple s % multiple t, exponent⟩

/-- The remainder of dividing `x` by `y`, with the sign of `x`.  A finite `x` stays as it is under
an infinite `y`; where no remainder exists the result is not a number. -/
def remainder (x y : Float) : Float :=
  match shape x, shape y with
  | .finite negative s, .finite _ t =>
    if t.mantissa = 0 then notANumber
    else
      let (numerator, denominator) := (s.remainder t).fraction
      ofSignBits negative (nearestBits numerator denominator)
  | .finite _ _, .infinite _ => x
  | _, _ => notANumber

/-- The whole part, toward zero. -/
def truncate (x : Float) : Float := if x < 0 then x.ceil else x.floor

section Example

/-- 14.5 leaves 1 after nine times 1.5. -/
example : (Magnitude.mk 29 (-1)).remainder (Magnitude.mk 3 (-1)) = ⟨2, -1⟩ := by decide +kernel

end Example

end Reckoner.Number
