/-
# White space and controls

The Unicode property `White_Space` (25 characters) and the control characters.  Trimming a text
removes white space at both ends and nothing else (`trimChars_eq_self`).
-/

namespace Reckoner.Text

/-! ## 1. The two classes -/

/-- Closed ranges of the white-space characters, in ascending order. -/
def blankRanges : List (Nat × Nat) :=
  [(0x09, 0x0D), (0x20, 0x20), (0x85, 0x85), (0xA0, 0xA0), (0x1680, 0x1680), (0x2000, 0x200A),
   (0x2028, 0x2029), (0x202F, 0x202F), (0x205F, 0x205F), (0x3000, 0x3000)]

/-- Whether one of the closed ranges holds `n`. -/
def inRanges (ranges : List (Nat × Nat)) (n : Nat) : Bool :=
  ranges.any (fun r => r.1 ≤ n && n ≤ r.2)

def isBlank (c : Char) : Bool := inRanges blankRanges c.toNat

def isControl (c : Char) : Bool := c.toNat < 0x20 || (0x7F ≤ c.toNat && c.toNat ≤ 0x9F)

/-! ## 2. Trimming -/

/-- The text without white space at its ends.  White space inside stays. -/
def trimChars (s : List Char) : List Char :=
  ((s.dropWhile isBlank).reverse.dropWhile isBlank).reverse

/-- A text without white space stays as it is. -/
theorem trimChars_eq_self {s : List Char} (h : ∀ c ∈ s, isBlank c = false) : trimChars s = s := by
  have hkeep : ∀ {t : List Char}, (∀ c ∈ t, isBlank c = false) → t.dropWhile isBlank = t := by
    intro t ht
    cases t with
    | nil => rfl
    | cons c rest => rw [List.dropWhile_cons_of_neg (by simp [ht c List.mem_cons_self])]
  have hreverse : ∀ c ∈ s.reverse, isBlank c = false := by
    intro c hc
    exact h c (List.mem_reverse.mp hc)
  rw [trimChars, hkeep h, hkeep hreverse, List.reverse_reverse]

section Example

/-- The property has 25 members; a zero-width space is none of them. -/
example : (blankRanges.map (fun r => r.2 + 1 - r.1)).sum = 25 ∧ isBlank '\u200b' = false := by
  decide

example : trimChars "\u3000 1 + 1\u00a0\t".toList = "1 + 1".toList := by decide

end Example

end Reckoner.Text
