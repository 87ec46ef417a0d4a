/-
# Lexicons: what lexemes mean

A lexicon knows the decimal separator and what names stand for.  It turns each lexeme of a formula
into an atom: numbers and constants become values, other words variables with their present value,
words before an opening bracket functions.  `Lexicon.scan` appends the atoms of a text to a
sequence, whose last atom says whether an operand is due.  A malformed number ends the scan, and
what was appended before it stays.
-/
import Reckoner.Atom.Sequence
import Reckoner.Lexeme

namespace Reckoner

/-! ## 1. Words and numbers -/

/-- What names and numbers in a formula mean.  This is all that the scanner needs of a session, so
two sessions with one lexicon cut formulas alike. -/
structure Lexicon where
  separator : Char
  constants : Constants
  bindings : NameTable Float

namespace Lexicon

/-- The atom of a word that is not called: a constant if there is one, else a variable, and a
variable that is not bound is zero. -/
def operand (lexicon : Lexicon) (name : String) : Atom :=
  match lexicon.constants.get? name with
  | some value => .number name value
  | none => .var name ((lexicon.bindings.get? name).getD 0)

/-- The atom of a lexeme, given the character after it: a number must not run into a word, and a
word before an opening bracket is a function. -/
def atom? (lexicon : Lexicon) (lexeme : Lexeme) (following : Option Char) : Option Atom :=
  match lexeme with
  | .number text =>
    if following.any Lexeme.isWordStart then none
    else (Lexeme.numberValue? lexicon.separator text).map fun value =>
      .number (String.ofList (Lexeme.numberName lexicon.separator text)) value
  | .word text =>
    let name := String.ofList text
    some (if following = some '(' then .function name else lexicon.operand name)
  | .mark c =>
    some (if c = '(' ∨ c = ')' then .bracket c else if c = ';' then .comma else .operator c)

/-! ## 2. Formulas -/

/-- What comes of cutting a text into a sequence of atoms.  The sequence is there in any case, and
what was cut before an error stays in it. -/
structure Scan where
  /-- Whether the end of the text was reached, or why not. -/
  ending : Except FormulaError Unit
  /-- The sequence with the atoms that were offered to it. -/
  sequence : AtomSeq
  log : List Record

/-- Cuts a normalised text and offers its atoms, up to the first malformed number.  The report is
that of the offers. -/
def scanning (lexicon : Lexicon) : List Char → AtomSeq → Scan
  | [], out => ⟨.ok (), out, []⟩
  | c :: rest, out =>
    let cut := Lexeme.split lexicon.separator out.expectsOperand c rest
    match lexicon.atom? cut.1 cut.2.head? with
    | none => ⟨.error .malformed, out, []⟩
    | some a =>
      let offered := out.offer a
      let later := lexicon.scanning cut.2 offered.sequence
      { later with log := offered.log ++ later.log }
termination_by text => text.length
decreasing_by
  exact Nat.lt_succ_of_le (Lexeme.length_split ..)

/-- Cuts a formula and offers its atoms.  A character outside the alphabet is found before the first
atom; that a formula was cut to its end is reported. -/
def tokenizing (lexicon : Lexicon) (formula : String) (out : AtomSeq) : Scan :=
  let text := normalize lexicon.separator formula.toList
  if text.all (inAlphabet lexicon.separator) then
    let cut := lexicon.scanning text out
    match cut.ending with
    | .error _ => cut
    | .ok () =>
      { cut with log := cut.log ++ [.tokenized (String.ofList text) cut.sequence.size] }
  else ⟨.error .invalidCharacter, out, []⟩

/-- How the cut of a normalised text ends, and the sequence that it leaves.  This is `scanning`
without its report, which depends on the room in the sequence and not on the text. -/
def scan (lexicon : Lexicon) (text : List Char) (out : AtomSeq) :
    Except FormulaError Unit × AtomSeq :=
  let cut := lexicon.scanning text out
  (cut.ending, cut.sequence)

/-- How the cut of a formula ends, and the sequence that it leaves. -/
def tokenize (lexicon : Lexicon) (formula : String) (out : AtomSeq) :
    Except FormulaError Unit × AtomSeq :=
  let cut := lexicon.tokenizing formula out
  (cut.ending, cut.sequence)

/-! ## 3. Small lemmas -/

theorem scan_nil (lexicon : Lexicon) (out : AtomSeq) : lexicon.scan [] out = (.ok (), out) := by
  rw [scan, scanning]

section Scan

variable {lexicon : Lexicon} {c : Char} {rest : List Char} {out : AtomSeq}
  {cut : Lexeme × List Char}
  (hcut : Lexeme.split lexicon.separator out.expectsOperand c rest = cut)

include hcut

/-- A malformed number ends a scan. -/
theorem scan_of_none (h : lexicon.atom? cut.1 cut.2.head? = none) :
    lexicon.scan (c :: rest) out = (.error .malformed, out) := by
  rw [scan, scanning]
  simp only [hcut, h]

/-- An atom is offered, and the scan goes on behind its lexeme. -/
theorem scan_of_some {a : Atom} (h : lexicon.atom? cut.1 cut.2.head? = some a) :
    lexicon.scan (c :: rest) out = lexicon.scan cut.2 (out.push a) := by
  rw [scan, scanning]
  simp only [hcut, h]
  rfl

end Scan

theorem tokenize_eq_scan (lexicon : Lexicon) (formula : String) (out : AtomSeq) :
    lexicon.tokenize formula out =
      if (normalize lexicon.separator formula.toList).all (inAlphabet lexicon.separator) then
        lexicon.scan (normalize lexicon.separator formula.toList) out
      else (.error .invalidCharacter, out) := by
  simp only [tokenize, tokenizing, scan]
  split
  · split <;> rfl
  · rfl

/-- Induction along a scan: at the end of the text, at a malformed number, and for an atom that is
offered. -/
theorem scan_induct (lexicon : Lexicon) {motive : List Char → AtomSeq → Prop}
    (done : ∀ out, motive [] out)
    (stop : ∀ c rest out cut,
      Lexeme.split lexicon.separator out.expectsOperand c rest = cut →
      lexicon.atom? cut.1 cut.2.head? = none → motive (c :: rest) out)
    (next : ∀ c rest out cut a,
      Lexeme.split lexicon.separator out.expectsOperand c rest = cut →
      lexicon.atom? cut.1 cut.2.head? = some a → motive cut.2 (out.push a) →
      motive (c :: rest) out)
    (text : List Char) (out : AtomSeq) : motive text out := by
  fun_induction lexicon.scanning text out with
  | case1 out => exact done out
  | case2 c rest out cut hatom => exact stop c rest out cut rfl hatom
  | case3 c rest out cut a hatom offered later ih => exact next c rest out cut a rfl hatom ih

end Lexicon

end Reckoner
