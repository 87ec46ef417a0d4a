/-
# How texts are read

`Lexicon.Reads` says what a normalised text is read as, without the sequence that the scanner fills:
the atoms of the text in order, where whether an operand is due is known from the atom before.
`Lexicon.scan_of_reads` and `Lexicon.reads_of_scan` say that the scanner does nothing else as long
as there is room.

What is read is a row of tokens (`Token`): literals, words and marks.  A token can be read wherever
it is allowed and is not continued by the character after it (`Lexicon.Reads.token`), and nothing
but such tokens is ever cut from a text (`Token.exists_of_split`).
-/
import Mathlib.Data.Bool.AllAny
import Reckoner.Lexicon
import Reckoner.Proofs.Literal
import Reckoner.Proofs.Sequence

namespace Reckoner

/-! ## 1. The atoms of a text -/

/-- The text is read as these atoms, when an operand is due at its beginning or not.  This is the
scanner without a sequence: no atom is dropped, and what is due follows from the atom read last. -/
inductive Lexicon.Reads (lexicon : Lexicon) : Bool → List Char → List Atom → Prop
  | done {operandDue : Bool} : Reads lexicon operandDue [] []
  | next {operandDue : Bool} {c : Char} {rest after : List Char} {lexeme : Lexeme} {a : Atom}
      {atoms : List Atom}
      (hsplit : Lexeme.split lexicon.separator operandDue c rest = (lexeme, after))
      (hatom : lexicon.atom? lexeme after.head? = some a)
      (h : Reads lexicon a.expectsOperand after atoms) :
      Reads lexicon operandDue (c :: rest) (a :: atoms)

namespace Lexicon

/-- **With room for all of them, the scanner appends the atoms of the text.**  No atom is dropped,
so what the sequence ends with is always the atom that was read last. -/
theorem scan_of_reads {lexicon : Lexicon} {operandDue : Bool} {text : List Char}
    {atoms : List Atom} (h : lexicon.Reads operandDue text atoms) :
    ∀ {out : AtomSeq}, out.expectsOperand = operandDue → out.Fits atoms.length →
      lexicon.scan text out = (.ok (), out.pushAll atoms) := by
  induction h with
  | done =>
    intro out _ _
    rw [scan_nil]
    rfl
  | @next operandDue c rest after lexeme a atoms hsplit hatom h ih =>
    intro out hdue hfits
    have haccepts : out.accepts = true := AtomSeq.Fits.accepts hfits
    rw [scan_of_some (hdue ▸ hsplit) hatom]
    exact ih (AtomSeq.expectsOperand_push haccepts a) ((AtomSeq.fits_push haccepts a _).mpr hfits)

/-- What every push keeps, the scanner keeps, since it does nothing else to its sequence. -/
theorem scan_preserves {lexicon : Lexicon} {P : AtomSeq → Prop}
    (hpush : ∀ s a, P s → P (s.push a)) {text : List Char} {out : AtomSeq} (h : P out) :
    P (lexicon.scan text out).2 := by
  induction text, out using lexicon.scan_induct with
  | done out => rwa [scan_nil]
  | stop c rest out cut hcut hatom => rwa [scan_of_none hcut hatom]
  | next c rest out cut a hcut hatom ih =>
    rw [scan_of_some hcut hatom]
    exact ih (hpush out a h)

theorem overflowed_scan {lexicon : Lexicon} {text : List Char} {out : AtomSeq}
    (h : out.overflowed = true) : (lexicon.scan text out).2.overflowed = true := by
  apply scan_preserves (P := fun s => s.overflowed = true) _ h
  exact fun s a hs => AtomSeq.overflowed_push_of_overflowed hs a

/-- **If the scanner comes to the end and drops nothing, it has read the text.**  Both conditions
are needed: after an atom is dropped the scanner still takes the last one that was kept for the one
before. -/
theorem reads_of_scan {lexicon : Lexicon} {text : List Char} {out written : AtomSeq}
    (h : lexicon.scan text out = (.ok (), written)) (hkept : written.overflowed = false) :
    ∃ atoms, lexicon.Reads out.expectsOperand text atoms ∧ written = out.pushAll atoms := by
  induction text, out using lexicon.scan_induct with
  | done out =>
    rw [scan_nil] at h
    cases h
    exact ⟨[], .done, rfl⟩
  | stop c rest out cut hcut hatom =>
    rw [scan_of_none hcut hatom] at h
    cases h
  | next c rest out cut a hcut hatom ih =>
    rw [scan_of_some hcut hatom] at h
    obtain ⟨atoms, hreads, rfl⟩ := ih h
    -- had the atom been dropped, the sequence would remember it
    have haccepts : out.accepts = true := by
      by_cases haccepts : out.accepts = true
      · exact haccepts
      · have hdropped : (out.push a).overflowed = true := by
          rw [AtomSeq.overflowed_push, Bool.eq_false_iff.mpr haccepts, Bool.not_false,
            Bool.or_true]
        have hover : (lexicon.scan cut.2 (out.push a)).2.overflowed = true :=
          overflowed_scan hdropped
        rw [h, hkept] at hover
        cases hover
    rw [AtomSeq.expectsOperand_push haccepts] at hreads
    exact ⟨a :: atoms, .next hcut hatom hreads, rfl⟩

end Lexicon

/-- A name is read as a value or as a variable, under its own name. -/
theorem Lexicon.operand_cases (lexicon : Lexicon) (name : String) :
    ∃ x, lexicon.operand name = .number name x ∨ lexicon.operand name = .var name x := by
  unfold Lexicon.operand
  split
  · exact ⟨_, Or.inl rfl⟩
  · exact ⟨_, Or.inr rfl⟩

theorem Atom.not_expectsOperand {a : Atom} (h : a.isOperand = true) : a.expectsOperand = false := by
  unfold Atom.isOperand at h
  unfold Atom.expectsOperand Atom.isOpenBracket
  split at h <;> simp_all

/-! ## 2. Tokens -/

/-- A piece of a formula that has a meaning by itself.  A token knows what it is, while a lexeme is
a text of some class: a minus is a token as an operator, and part of one as a sign. -/
inductive Token where
  | literal (l : Literal)
  | name (w : Word)
  /-- A word before an opening bracket. -/
  | function (w : Word)
  | opening
  | closing
  | comma
  /-- An operator, or a separator by itself. -/
  | operator (c : Char)

namespace Token

/-- Whether the character is read as an operator when it stands by itself. -/
def isOperator (separator c : Char) : Bool :=
  c == separator || ['+', '-', '*', '/', '%', '^'].contains c

/-- Whether the character begins neither a number nor a word. -/
def isMark (separator c : Char) : Bool := isOperator separator c || ['(', ')', ';'].contains c

def text (separator : Char) : Token → List Char
  | literal l => l.text separator
  | name w => w.text
  | function w => w.text
  | opening => ['(']
  | closing => [')']
  | comma => [';']
  | operator c => [c]

def lexeme (separator : Char) : Token → Lexeme
  | literal l => .number (l.text separator)
  | name w => .word w.text
  | function w => .word w.text
  | opening => .mark '('
  | closing => .mark ')'
  | comma => .mark ';'
  | operator c => .mark c

def atom (lexicon : Lexicon) : Token → Atom
  | literal l => .number (l.name lexicon.separator) l.value
  | name w => lexicon.operand w.name
  | function w => .function w.name
  | opening => .bracket '('
  | closing => .bracket ')'
  | comma => .comma
  | operator c => .operator c

/-- Whether the token can stand where an operand is due, or where none is.  Only a minus is judged
by its place: it is the sign of a literal or an operator, never both. -/
def Allowed (separator : Char) (operandDue : Bool) : Token → Prop
  | literal l => l.negative = true → operandDue = true
  | operator c => isOperator separator c = true ∧ (c = '-' → operandDue = false)
  | _ => True

/-- Whether the token is not continued by the character after it.  A number must not run into a word
either, since the scanner refuses that; and the bracket after a word makes it a function. -/
def EndsBefore (separator : Char) (following : Option Char) : Token → Prop
  | literal _ =>
    ∀ c ∈ following, Lexeme.isNumberPart separator c = false ∧ Lexeme.isWordStart c = false
  | name _ => ∀ c ∈ following, Lexeme.isWordPart c = false ∧ c ≠ '('
  | function _ => following = some '('
  | _ => True

end Token

theorem Separates.of_isMark {separator c : Char} (hsep : Separates separator)
    (h : Token.isMark separator c = true) : c.isDigit = false ∧ Lexeme.isWordStart c = false := by
  simp only [Token.isMark, Token.isOperator, Bool.or_eq_true, beq_iff_eq,
    List.contains_iff_mem] at h
  rcases h with (rfl | h) | h
  · exact ⟨hsep.not_isDigit, hsep.not_isWordStart⟩
  · have hoperators : ∀ d ∈ ['+', '-', '*', '/', '%', '^'],
        d.isDigit = false ∧ Lexeme.isWordStart d = false := List.all_iff_forall_prop.mp rfl
    exact hoperators c h
  · have hbrackets : ∀ d ∈ ['(', ')', ';'], d.isDigit = false ∧ Lexeme.isWordStart d = false :=
      List.all_iff_forall_prop.mp rfl
    exact hbrackets c h

theorem Separates.of_isOperator {separator c : Char} (hsep : Separates separator)
    (h : Token.isOperator separator c = true) : ¬ (c = '(' ∨ c = ')') ∧ c ≠ ';' := by
  simp only [Token.isOperator, Bool.or_eq_true, beq_iff_eq, List.contains_iff_mem] at h
  rcases h with rfl | h
  · have hmarks : ∀ d ∈ ['(', ')', ';'], d ∈ Config.marks := List.all_iff_forall_prop.mp rfl
    constructor
    · rintro (hc | hc)
      · exact hsep.not_mem_marks (hmarks c (by simp [hc]))
      · exact hsep.not_mem_marks (hmarks c (by simp [hc]))
    · intro hc
      exact hsep.not_mem_marks (hmarks c (by simp [hc]))
  · have hoperators : ∀ d ∈ ['+', '-', '*', '/', '%', '^'],
        ¬ (d = '(' ∨ d = ')') ∧ d ≠ ';' := List.all_iff_forall_prop.mp rfl
    exact hoperators c h

/-! ## 3. Tokens are read -/

/-- A literal begins with a digit or a minus, and goes on with digits and separators. -/
theorem Literal.text_eq_cons (separator : Char) (l : Literal) :
    ∃ c tail, l.text separator = c :: tail ∧ (c.isDigit = true ∨ c = '-' ∧ l.negative = true) ∧
      ∀ d ∈ tail, Lexeme.isNumberPart separator d = true := by
  have hwhole : ∀ d ∈ l.whole, Lexeme.isNumberPart separator d = true := by
    intro d hd
    simp [Lexeme.isNumberPart, isDigit_of_mem_whole hd]
  have hplaces : ∀ d ∈ l.places.elim [] (separator :: ·),
      Lexeme.isNumberPart separator d = true := by
    intro d hd
    cases hp : l.places with
    | none => simp [hp] at hd
    | some digits =>
      rw [hp] at hd
      rcases List.mem_cons.mp hd with rfl | hd
      · simp [Lexeme.isNumberPart]
      · simp [Lexeme.isNumberPart, isDigit_of_mem_places hp hd]
  cases hn : l.negative with
  | true =>
    refine ⟨'-', l.whole ++ l.places.elim [] (separator :: ·), by simp [text, sign, hn],
      Or.inr ⟨rfl, rfl⟩, ?_⟩
    intro d hd
    rcases List.mem_append.mp hd with hd | hd
    · exact hwhole d hd
    · exact hplaces d hd
  | false =>
    have hbegins := l.begins
    rw [hn] at hbegins
    cases hw : l.whole with
    | nil => simp [hw] at hbegins
    | cons c rest =>
      have hdigit : c.isDigit = true := isDigit_of_mem_whole (hw ▸ List.mem_cons_self)
      refine ⟨c, rest ++ l.places.elim [] (separator :: ·), by simp [text, sign, hn, hw],
        Or.inl hdigit, ?_⟩
      intro d hd
      rw [hw] at hwhole
      rcases List.mem_append.mp hd with hd | hd
      · exact hwhole d (List.mem_cons_of_mem c hd)
      · exact hplaces d hd

theorem Word.isWordStart_first (w : Word) :
    w.first.isDigit = false ∧ w.first ≠ '-' ∧ Lexeme.isWordStart w.first = true := by
  have h := w.first_valid
  simp only [Bool.or_eq_true, beq_iff_eq] at h
  rcases h with h | h
  · rw [isUpper_iff] at h
    refine ⟨?_, ?_, by simp [Lexeme.isWordStart, isAlpha_eq, isUpper_iff.mpr h]⟩
    · simp only [Bool.eq_false_iff, Ne, Char.isDigit_iff_toNat, Char.reduceToNat]
      omega
    · rintro hminus
      rw [hminus] at h
      revert h
      decide
  · rw [h]
    decide

theorem Word.isWordPart_rest (w : Word) : ∀ c ∈ w.rest, Lexeme.isWordPart c = true := by
  intro c hc
  have h := List.all_eq_true.mp w.rest_valid c hc
  simp only [Bool.or_eq_true, beq_iff_eq] at h
  rcases h with (h | h) | h <;>
    simp [Lexeme.isWordPart, Char.isAlphanum, isAlpha_eq, h]

theorem Literal.split_text {separator : Char} {l : Literal} {operandDue : Bool} {rest : List Char}
    (hsign : l.negative = true → operandDue = true)
    (hends : ∀ d ∈ rest.head?, Lexeme.isNumberPart separator d = false) :
    ∃ c tail, l.text separator = c :: tail ∧
      Lexeme.split separator operandDue c (tail ++ rest) =
        (.number (l.text separator), rest) := by
  obtain ⟨c, tail, htext, hc, htail⟩ := l.text_eq_cons separator
  obtain ⟨htake, hdrop⟩ := span_append _ htail hends
  have hbegins : (c.isDigit || (c == '-' && operandDue)) = true := by
    rcases hc with hc | ⟨rfl, hn⟩
    · simp [hc]
    · simp [hsign hn]
  refine ⟨c, tail, htext, ?_⟩
  rw [Lexeme.split, if_pos hbegins, htake, hdrop, htext]

/-- A literal before something else than a word is read as its value. -/
theorem Lexicon.atom?_literal {lexicon : Lexicon} (hsep : Separates lexicon.separator)
    (l : Literal) {following : Option Char}
    (hends : ∀ d ∈ following, Lexeme.isWordStart d = false) :
    lexicon.atom? (.number (l.text lexicon.separator)) following =
      some (.number (l.name lexicon.separator) l.value) := by
  have hfollowing : ¬ following.any Lexeme.isWordStart = true := by
    rw [Option.any_eq_true]
    rintro ⟨d, hd, hstart⟩
    rw [hends d hd] at hstart
    cases hstart
  rw [atom?, if_neg hfollowing, l.numberValue?_text hsep, l.numberName_text hsep]
  rfl

theorem Word.split_text (separator : Char) (w : Word) (operandDue : Bool) {rest : List Char}
    (hends : ∀ c ∈ rest.head?, Lexeme.isWordPart c = false) :
    Lexeme.split separator operandDue w.first (w.rest ++ rest) = (.word w.text, rest) := by
  obtain ⟨hdigit, hminus, hstart⟩ := w.isWordStart_first
  obtain ⟨htake, hdrop⟩ := span_append Lexeme.isWordPart w.isWordPart_rest hends
  rw [Lexeme.split, if_neg (by simp [hdigit, hminus]), if_pos hstart, htake, hdrop]
  rfl

theorem Lexeme.split_mark {separator c : Char} (hdigit : c.isDigit = false)
    (hstart : isWordStart c = false) {operandDue : Bool} (hminus : c = '-' → operandDue = false)
    (rest : List Char) : split separator operandDue c rest = (.mark c, rest) := by
  have hnumber : ¬ (c.isDigit || (c == '-' && operandDue)) = true := by
    cases operandDue with
    | false => simp [hdigit]
    | true =>
      have hne : c ≠ '-' := by
        intro h
        cases hminus h
      simp [hdigit, hne]
  rw [split, if_neg hnumber, if_neg (by simp [hstart])]

/-- A mark is cut by itself. -/
theorem Separates.split_mark {separator c : Char} (hsep : Separates separator)
    (hc : Token.isMark separator c = true) {operandDue : Bool}
    (hminus : c = '-' → operandDue = false) (rest : List Char) :
    Lexeme.split separator operandDue c rest = (.mark c, rest) := by
  obtain ⟨hdigit, hstart⟩ := hsep.of_isMark hc
  exact Lexeme.split_mark hdigit hstart hminus rest

namespace Token

/-- **A token is cut as a whole, and read as its atom.**  The three kinds of lexeme are three
lemmas; a function is a word whose next character is a bracket. -/
theorem split_text {lexicon : Lexicon} (hsep : Separates lexicon.separator) {operandDue : Bool}
    {t : Token} {rest : List Char} (hallowed : t.Allowed lexicon.separator operandDue)
    (hends : t.EndsBefore lexicon.separator rest.head?) :
    ∃ c tail, t.text lexicon.separator = c :: tail ∧
      Lexeme.split lexicon.separator operandDue c (tail ++ rest) =
        (t.lexeme lexicon.separator, rest) ∧
      lexicon.atom? (t.lexeme lexicon.separator) rest.head? = some (t.atom lexicon) := by
  cases t with
  | literal l =>
    obtain ⟨c, tail, htext, hsplit⟩ := l.split_text hallowed fun d hd => (hends d hd).1
    exact ⟨c, tail, htext, hsplit, Lexicon.atom?_literal hsep l fun d hd => (hends d hd).2⟩
  | name w =>
    have hword : ∀ c ∈ rest.head?, Lexeme.isWordPart c = false := by
      intro c hc
      exact (hends c hc).1
    have hnot : rest.head? ≠ some '(' := by
      intro h
      exact (hends '(' h).2 rfl
    refine ⟨w.first, w.rest, rfl, w.split_text _ _ hword, ?_⟩
    simp only [lexeme, Lexicon.atom?, if_neg hnot]
    rfl
  | function w =>
    have hopen : rest.head? = some '(' := hends
    have hword : ∀ c ∈ rest.head?, Lexeme.isWordPart c = false := by
      intro c hc
      rw [hopen] at hc
      cases hc
      decide
    refine ⟨w.first, w.rest, rfl, w.split_text _ _ hword, ?_⟩
    simp only [lexeme, Lexicon.atom?, if_pos hopen]
    rfl
  | opening => exact ⟨'(', [], rfl, hsep.split_mark (by simp [isMark]) (by simp) _, rfl⟩
  | closing => exact ⟨')', [], rfl, hsep.split_mark (by simp [isMark]) (by simp) _, rfl⟩
  | comma => exact ⟨';', [], rfl, hsep.split_mark (by simp [isMark]) (by simp) _, rfl⟩
  | operator c =>
    obtain ⟨hbracket, hcomma⟩ := hsep.of_isOperator hallowed.1
    refine ⟨c, [], rfl, hsep.split_mark (by simp [isMark, hallowed.1]) hallowed.2 _, ?_⟩
    rw [lexeme, Lexicon.atom?, if_neg hbracket, if_neg hcomma]
    rfl

end Token

/-- **A token is read in front of what is read.** -/
theorem Lexicon.Reads.token {lexicon : Lexicon} (hsep : Separates lexicon.separator)
    {operandDue : Bool} {t : Token} {rest : List Char} {atoms : List Atom}
    (hallowed : t.Allowed lexicon.separator operandDue)
    (hends : t.EndsBefore lexicon.separator rest.head?)
    (h : lexicon.Reads (t.atom lexicon).expectsOperand rest atoms) :
    lexicon.Reads operandDue (t.text lexicon.separator ++ rest) (t.atom lexicon :: atoms) := by
  obtain ⟨c, tail, htext, hsplit, hatom⟩ := Token.split_text hsep hallowed hends
  rw [htext]
  exact .next hsplit hatom h

/-! ## 4. Nothing but tokens is read -/

theorem Separates.isUpper_of_inAlphabet {separator c : Char} (hsep : Separates separator)
    (h : inAlphabet separator c = true) (hc : c.isAlpha = true) : c.isUpper = true := by
  simp only [inAlphabet, Bool.or_eq_true, beq_iff_eq, List.contains_iff_mem] at h
  rcases h with ((h | h) | rfl) | h
  · have hnone := not_isWordStart_of_isDigit h
    simp [Lexeme.isWordStart, hc] at hnone
  · exact h
  · rw [hsep.not_isAlpha] at hc
    cases hc
  · have hmarks : ∀ d ∈ Config.marks, d.isAlpha = false := List.all_iff_forall_prop.mp rfl
    rw [hmarks c h] at hc
    cases hc

/-- What can go on a word, in the alphabet. -/
theorem Separates.wordPart_of_inAlphabet {separator c : Char} (hsep : Separates separator)
    (h : inAlphabet separator c = true) (hc : Lexeme.isWordPart c = true) :
    (c.isUpper || c.isDigit || c == '_') = true := by
  simp only [Lexeme.isWordPart, Char.isAlphanum, Bool.or_eq_true] at hc
  rcases hc with (hc | hc) | hc
  · simp [hsep.isUpper_of_inAlphabet h hc]
  · simp [hc]
  · simp [hc]

theorem isMark_of_inAlphabet {separator c : Char} (h : inAlphabet separator c = true)
    (hdigit : c.isDigit = false) (hstart : Lexeme.isWordStart c = false) :
    Token.isMark separator c = true := by
  simp only [inAlphabet, Bool.or_eq_true, beq_iff_eq, List.contains_iff_mem] at h
  rcases h with ((h | h) | rfl) | h
  · rw [hdigit] at h
    cases h
  · simp [Lexeme.isWordStart, isAlpha_eq, h] at hstart
  · simp [Token.isMark, Token.isOperator]
  · have hmarks : ∀ d ∈ Config.marks, Lexeme.isWordStart d = false →
        d ∈ ['+', '-', '*', '/', '%', '^'] ∨ d ∈ ['(', ')', ';'] := List.all_iff_forall_prop.mp rfl
    rcases hmarks c h hstart with h | h
    · simp only [Token.isMark, Token.isOperator, List.contains_iff_mem.mpr h, Bool.or_true,
        Bool.true_or]
    · simp only [Token.isMark, List.contains_iff_mem.mpr h, Bool.or_true]

/-- A token stands at the beginning of a text: it is allowed there, ends before what is left, and
gives the atom `a`. -/
structure Token.Begins (lexicon : Lexicon) (operandDue : Bool) (text after : List Char) (a : Atom)
    (t : Token) : Prop where
  atom_eq : a = t.atom lexicon
  text_eq : t.text lexicon.separator ++ after = text
  allowed : t.Allowed lexicon.separator operandDue
  ends : t.EndsBefore lexicon.separator after.head?

theorem Token.Begins.mem_text {lexicon : Lexicon} {operandDue : Bool} {text after : List Char}
    {a : Atom} {t : Token} (h : t.Begins lexicon operandDue text after a) {d : Char}
    (hd : d ∈ after) : d ∈ text := by
  rw [← h.text_eq]
  exact List.mem_append_right _ hd

section Cut

variable {lexicon : Lexicon} {operandDue : Bool} {c : Char} {rest : List Char} {a : Atom}

theorem Token.exists_of_number (hsep : Separates lexicon.separator)
    (hbegins : c.isDigit = true ∨ c = '-' ∧ operandDue = true)
    (hatom : lexicon.atom? (.number (c :: rest.takeWhile (Lexeme.isNumberPart lexicon.separator)))
      (rest.dropWhile (Lexeme.isNumberPart lexicon.separator)).head? = some a) :
    ∃ t : Token, t.Begins lexicon operandDue (c :: rest)
      (rest.dropWhile (Lexeme.isNumberPart lexicon.separator)) a := by
  simp only [Lexicon.atom?] at hatom
  split at hatom
  · cases hatom
  · rename_i hfollowing
    obtain ⟨x, hvalue, rfl⟩ := Option.map_eq_some_iff.mp hatom
    obtain ⟨l, htext, rfl⟩ := Literal.exists_literal hsep (hbegins.imp_right And.left)
      (List.all_eq_true.mp List.all_takeWhile) hvalue
    refine ⟨.literal l, ?_, ?_, ?_, ?_⟩
    · rw [← htext, l.numberName_text hsep]
      rfl
    · rw [Token.text, htext, List.cons_append, List.takeWhile_append_dropWhile]
    · intro hn
      rcases hbegins with hdigit | ⟨-, hdue⟩
      · -- a literal with a sign does not begin with a digit
        have hminus : c = '-' := by
          simp only [Literal.text, Literal.sign, hn, if_true, List.cons_append] at htext
          exact (List.cons.inj htext).1.symm
        rw [hminus] at hdigit
        cases hdigit
      · exact hdue
    · intro d hd
      constructor
      · exact head?_dropWhile _ _ d hd
      · by_cases hstart : Lexeme.isWordStart d = true
        · have hany := (Option.any_eq_true _ _).mpr ⟨d, hd, hstart⟩
          exact absurd hany hfollowing
        · exact Bool.eq_false_iff.mpr hstart

theorem Word.exists_of_cut (hsep : Separates lexicon.separator)
    (halphabet : ∀ d ∈ c :: rest, inAlphabet lexicon.separator d = true)
    (hstart : Lexeme.isWordStart c = true) :
    ∃ w : Word, w.text = c :: rest.takeWhile Lexeme.isWordPart := by
  have hfirst : (c.isUpper || c == '_') = true := by
    simp only [Lexeme.isWordStart, Bool.or_eq_true] at hstart
    rcases hstart with h | h
    · simp [hsep.isUpper_of_inAlphabet (halphabet c List.mem_cons_self) h]
    · simp [h]
  have hrest : (rest.takeWhile Lexeme.isWordPart).all
      (fun c => c.isUpper || c.isDigit || c == '_') = true := by
    rw [List.all_eq_true]
    intro d hd
    have hmem : d ∈ rest := (List.takeWhile_sublist _).subset hd
    exact hsep.wordPart_of_inAlphabet (halphabet d (List.mem_cons_of_mem c hmem))
      (List.all_eq_true.mp List.all_takeWhile d hd)
  exact ⟨⟨c, _, hfirst, hrest⟩, rfl⟩

theorem Token.exists_of_word (hsep : Separates lexicon.separator)
    (halphabet : ∀ d ∈ c :: rest, inAlphabet lexicon.separator d = true)
    (hstart : Lexeme.isWordStart c = true)
    (hatom : lexicon.atom? (.word (c :: rest.takeWhile Lexeme.isWordPart))
      (rest.dropWhile Lexeme.isWordPart).head? = some a) :
    ∃ t : Token, t.Begins lexicon operandDue (c :: rest) (rest.dropWhile Lexeme.isWordPart) a := by
  obtain ⟨w, hw⟩ := Word.exists_of_cut hsep halphabet hstart
  have htext : w.text ++ rest.dropWhile Lexeme.isWordPart = c :: rest := by
    rw [hw, List.cons_append, List.takeWhile_append_dropWhile]
  simp only [Lexicon.atom?, ← hw, Option.some.injEq] at hatom
  split at hatom
  · rename_i hopen
    exact ⟨.function w, hatom.symm, htext, trivial, hopen⟩
  · rename_i hopen
    refine ⟨.name w, hatom.symm, htext, trivial, ?_⟩
    intro d hd
    constructor
    · exact head?_dropWhile _ _ d hd
    · rintro rfl
      exact hopen hd

theorem Token.exists_of_mark (hc : Token.isMark lexicon.separator c = true)
    (hminus : c = '-' → operandDue = false)
    (hatom : lexicon.atom? (.mark c) rest.head? = some a) :
    ∃ t : Token, t.Begins lexicon operandDue (c :: rest) rest a := by
  simp only [Lexicon.atom?, Option.some.injEq] at hatom
  split at hatom
  · rename_i hbracket
    rcases hbracket with rfl | rfl
    · exact ⟨.opening, hatom.symm, rfl, trivial, trivial⟩
    · exact ⟨.closing, hatom.symm, rfl, trivial, trivial⟩
  · rename_i hbracket
    split at hatom
    · rename_i hcomma
      exact ⟨.comma, hatom.symm, by rw [hcomma]; rfl, trivial, trivial⟩
    · rename_i hcomma
      have hother : ['(', ')', ';'].contains c = false := by
        rw [not_or] at hbracket
        simp [hbracket, hcomma]
      have hoperator : Token.isOperator lexicon.separator c = true := by
        simpa only [Token.isMark, hother, Bool.or_false] using hc
      exact ⟨.operator c, hatom.symm, rfl, ⟨hoperator, hminus⟩, trivial⟩

/-- **What is cut from a text over the alphabet is a token.**  The alphabet is needed for words,
which must be in upper case, and for marks, which must be known. -/
theorem Token.exists_of_split {after : List Char} {lexeme : Lexeme}
    (hsep : Separates lexicon.separator)
    (halphabet : ∀ d ∈ c :: rest, inAlphabet lexicon.separator d = true)
    (hsplit : Lexeme.split lexicon.separator operandDue c rest = (lexeme, after))
    (hatom : lexicon.atom? lexeme after.head? = some a) :
    ∃ t : Token, t.Begins lexicon operandDue (c :: rest) after a := by
  unfold Lexeme.split at hsplit
  split at hsplit
  · rename_i hbegins
    cases hsplit
    exact Token.exists_of_number hsep (by simpa using hbegins) hatom
  · rename_i hnumber
    simp only [Bool.or_eq_true, Bool.and_eq_true, not_or, Bool.not_eq_true, beq_iff_eq,
      not_and] at hnumber
    split at hsplit
    · rename_i hstart
      cases hsplit
      exact Token.exists_of_word hsep halphabet hstart hatom
    · rename_i hstart
      cases hsplit
      have hmark := isMark_of_inAlphabet (halphabet c List.mem_cons_self) hnumber.1
        (by simpa using hstart)
      exact Token.exists_of_mark hmark hnumber.2 hatom

end Cut

/-- **All atoms of a text are tokens.** -/
theorem Lexicon.Reads.exists_token {lexicon : Lexicon} (hsep : Separates lexicon.separator)
    {operandDue : Bool} {text : List Char} {atoms : List Atom}
    (h : lexicon.Reads operandDue text atoms)
    (halphabet : ∀ c ∈ text, inAlphabet lexicon.separator c = true) :
    ∀ a ∈ atoms, ∃ t : Token, a = t.atom lexicon := by
  induction h with
  | done => simp
  | @next operandDue c rest after lexeme a atoms hsplit hatom h ih =>
    obtain ⟨t, ht⟩ := Token.exists_of_split hsep halphabet hsplit hatom
    have hafter : ∀ d ∈ after, inAlphabet lexicon.separator d = true := by
      intro d hd
      exact halphabet d (ht.mem_text hd)
    intro b hb
    rcases List.mem_cons.mp hb with rfl | hb
    · exact ⟨t, ht.atom_eq⟩
    · exact ih hafter b hb

end Reckoner
