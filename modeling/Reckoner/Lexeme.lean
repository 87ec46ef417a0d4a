/-
# Lexemes: how a formula is cut

A formula is first normalised: spaces go, letters become upper case, and points and commas become
the decimal separator.  What is left is cut from left to right.  At each place the first character,
and whether an operand is due, say which lexeme begins there, and the lexeme is as long as it can
be:

* a number: digits and separators, after a minus if an operand is due;
* a word: a letter or an underscore, then letters, digits and underscores;
* a mark: any other character by itself.

`Lexeme.text_split` says that a cut loses nothing, `Lexeme.length_split` that it makes the text
shorter.
-/
import Reckoner.Config
import Reckoner.Number.Numeral

namespace Reckoner

/-! ## 1. Normalised formulas -/

/-- The text that is cut: no spaces, upper case, one separator.  Points and commas both become the
separator, whichever of them the configuration names, so a formula may be written either way. -/
def normalize (separator : Char) (formula : List Char) : List Char :=
  ((formula.filter (· ≠ ' ')).flatMap Text.upperChar).map fun c =>
    if c = '.' ∨ c = ',' then separator else c

/-- The characters that a normalised formula may have. -/
def inAlphabet (separator : Char) (c : Char) : Bool :=
  c.isDigit || c.isUpper || c == separator || Config.marks.contains c

/-! ## 2. Lexemes -/

/-- A piece of a normalised formula. -/
inductive Lexeme where
  | number (text : List Char)
  | word (text : List Char)
  | mark (c : Char)
  deriving Repr, DecidableEq

namespace Lexeme

def isWordStart (c : Char) : Bool := c.isAlpha || c == '_'

def isWordPart (c : Char) : Bool := c.isAlphanum || c == '_'

def isNumberPart (separator c : Char) : Bool := c.isDigit || c == separator

def text : Lexeme → List Char
  | number t => t
  | word t => t
  | mark c => [c]

/-- The lexeme at the head of a text that begins with `c`, and what follows it.  A minus begins a
number where an operand is due. -/
def split (separator : Char) (operandDue : Bool) (c : Char) (rest : List Char) :
    Lexeme × List Char :=
  if c.isDigit || (c == '-' && operandDue) then
    (number (c :: rest.takeWhile (isNumberPart separator)),
      rest.dropWhile (isNumberPart separator))
  else if isWordStart c then
    (word (c :: rest.takeWhile isWordPart), rest.dropWhile isWordPart)
  else (mark c, rest)

/-- A lexeme and what follows it are the text that was cut.  So nothing is skipped between lexemes,
and a scan can be followed by what it has read already. -/
theorem text_split (separator : Char) (operandDue : Bool) (c : Char) (rest : List Char) :
    (split separator operandDue c rest).1.text ++ (split separator operandDue c rest).2
      = c :: rest := by
  unfold split
  split
  · simp [text]
  · split <;> simp [text]

theorem length_split (separator : Char) (operandDue : Bool) (c : Char) (rest : List Char) :
    (split separator operandDue c rest).2.length ≤ rest.length := by
  unfold split
  split
  · exact (List.dropWhile_sublist _).length_le
  · split
    · exact (List.dropWhile_sublist _).length_le
    · exact Nat.le_refl _

/-- The name of a number: its characters, with a zero after a separator at the end. -/
def numberName (separator : Char) (text : List Char) : List Char :=
  if text.getLast? = some separator then text ++ ['0'] else text

/-- The value of a number, if its text is one: at most one separator, and some digit. -/
def numberValue? (separator : Char) (text : List Char) : Option Float :=
  if !separator.isDigit && 1 < text.count separator then none
  else
    let numeral := (numberName separator text).map fun c => if c = separator then '.' else c
    (Number.readNumber numeral).toOption

end Lexeme

section Example

/-- A minus is a sign where an operand is due, and a number takes all its digits. -/
example : Lexeme.split '.' true '-' ['1', '.', '5', '+'] = (.number ['-', '1', '.', '5'], ['+']) ∧
    Lexeme.split '.' false '-' ['1'] = (.mark '-', ['1']) := by decide

end Example

end Reckoner
