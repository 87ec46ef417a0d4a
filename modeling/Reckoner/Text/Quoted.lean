/-
# Quoted texts

How a formula is quoted inside a log record: between double quotes, with short escapes for the
usual controls and `\u{…}` (lower-case hexadecimal) for every other character that does not print
or would attach itself to the character before it.
-/
import Reckoner.Text.Blank
import Reckoner.Text.PrintTable

namespace Reckoner.Text

/-- Whether the character stands for itself between quotes. -/
def printsAsItself (c : Char) : Bool :=
  if c.toNat < 0x80 then !isControl c
  else !inRanges unprintable c.toNat && !inRanges joining c.toNat

/-- One character between double quotes. -/
def escapeChar (c : Char) : List Char :=
  match c with
  | '\t' => ['\\', 't']
  | '\r' => ['\\', 'r']
  | '\n' => ['\\', 'n']
  | '\x00' => ['\\', '0']
  | '"' => ['\\', '"']
  | '\\' => ['\\', '\\']
  | c =>
    if printsAsItself c then [c]
    else ['\\', 'u', '\x7b'] ++ Nat.toDigits 16 c.toNat ++ ['\x7d']

def quote (s : String) : String :=
  String.ofList (['"'] ++ s.toList.flatMap escapeChar ++ ['"'])

section Example

example : "é\n'\u200b\u0301".toList.flatMap escapeChar =
    "é\\n'\\u\x7b200b\x7d\\u\x7b301\x7d".toList := by
  decide +kernel

/-- A filler is a letter that shows nothing; a voicing mark of half width and a visarga
take a place of their own, unlike a mark that joins the letter before it. -/
example : printsAsItself '\u115f' = false ∧ printsAsItself '\uff9e' = true ∧
    printsAsItself '\u0903' = true ∧ printsAsItself '\u0cc0' = false := by
  decide +kernel

end Example

end Reckoner.Text
