/-
# Upper case

Names are compared after full, locale-free upper-casing: `ß` becomes `SS`, `ſ` becomes `S`.  A
character may therefore become several (`upperChar`), and the upper case of a text is the
concatenation over its characters (`toList_uppercase`).
-/
import Reckoner.Text.CaseTable

namespace Reckoner.Text

/-! ## 1. One character -/

/-- The upper case of a character, as the list of characters it becomes. -/
def upperChar (c : Char) : List Char :=
  if c.toNat < 128 then [c.toUpper]
  else match expansions.find? (fun e => e.1 == c.toNat) with
    | some e => e.2.map Char.ofNat
    | none => match caseRuns.find? (fun r => r.covers c.toNat) with
      | some r => [Char.ofNat (c.toNat + r.shift).toNat]
      | none => [c]

theorem upperChar_ascii {c : Char} (h : c.toNat < 128) : upperChar c = [c.toUpper] := by
  simp [upperChar, h]

/-! ## 2. Texts -/

def uppercase (s : String) : String := String.ofList (s.toList.flatMap upperChar)

@[simp] theorem toList_uppercase (s : String) :
    (uppercase s).toList = s.toList.flatMap upperChar := by
  simp [uppercase]

section Example

/-- A sharp s takes two letters, a ligature is taken apart, and other characters stay. -/
example : ("straße ﬁ x1€".toList.flatMap upperChar) = "STRASSE FI X1€".toList := by decide +kernel

end Example

end Reckoner.Text
