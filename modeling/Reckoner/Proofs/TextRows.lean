/-
# Texts are rows

The atoms of a text are a row, perhaps with faults, if every closing bracket closes something and no
two atoms meet that must not (`Follows`).  The scanner sees to the rest: a number or a name ends
where neither can go on, so that where no operand is due none begins, and a function is a word
before an opening bracket.
-/
import Reckoner.Proofs.Machine
import Reckoner.Proofs.Reading
import Reckoner.Proofs.Rows

namespace Reckoner

/-! ## 1. What may follow what -/

/-- All brackets are closed, and each was opened before.  At the beginning `depth` of them are open
already. -/
structure Closed (depth : Nat) (atoms : List Atom) : Prop where
  never : ClosesOpen depth atoms
  all : depth + atoms.countP Atom.isOpenBracket = atoms.countP Atom.isCloseBracket

namespace Closed

variable {depth : Nat} {rest : List Atom}

theorem of_open (h : Closed depth (.bracket '(' :: rest)) : Closed (depth + 1) rest := by
  refine ⟨h.never.of_open rfl rfl, ?_⟩
  have hall := h.all
  rw [List.countP_cons_of_pos rfl, List.countP_cons_of_neg (by decide)] at hall
  omega

theorem of_close (h : Closed depth (.bracket ')' :: rest)) :
    ∃ outer, depth = outer + 1 ∧ Closed outer rest := by
  obtain ⟨outer, rfl, hrest⟩ := h.never.of_close rfl rfl
  refine ⟨outer, rfl, hrest, ?_⟩
  have hall := h.all
  rw [List.countP_cons_of_neg (by decide), List.countP_cons_of_pos rfl] at hall
  omega

theorem of_other {a : Atom} (h : Closed depth (a :: rest)) (ha : a.kind ≠ .bracket) :
    Closed depth rest := by
  have hopen : a.isOpenBracket = false := by simp [Atom.isOpenBracket, ha]
  have hclose : a.isCloseBracket = false := by simp [Atom.isCloseBracket, ha]
  refine ⟨h.never.of_other hopen hclose, ?_⟩
  have hall := h.all
  rw [List.countP_cons_of_neg (by simp [hopen]), List.countP_cons_of_neg (by simp [hclose])] at hall
  exact hall

theorem eq_zero (h : Closed depth []) : depth = 0 := by simpa using h.all

end Closed

def Atom.isStart (a : Atom) : Bool :=
  a.kind = .value || a.kind = .var || a.kind = .function || a.isOpenBracket

/-- The atom `b` may stand directly after `a`: no number or variable runs into a bracket, and
nothing that is closed runs into an operand, a function or a bracket. -/
structure Follows (a b : Atom) : Prop where
  after_operand : a.kind = .value ∨ a.kind = .var → b.isOpenBracket = false
  after_closing : a.isCloseBracket = true →
    b.isOpenBracket = false ∧ b.kind ≠ .value ∧ b.kind ≠ .var ∧ b.kind ≠ .function

def Token.next : Token → Due
  | literal _ | name _ | closing => .connector
  | function _ => .arguments
  | opening | comma | operator _ => .operand

/-- What is due fits what comes: arguments are opened by a bracket, and no operand begins where a
connector is due.  The scanner sees to the first, the second must be asked of the text. -/
def Starts (due : Due) (text : List Char) (atoms : List Atom) : Prop :=
  match due with
  | .operand => True
  | .arguments => text.head? = some '('
  | .connector => ∀ b ∈ atoms.head?, b.isStart = false

/-! ## 2. One token -/

section Tokens

variable {lexicon : Lexicon}

theorem Token.EndsBefore.not_begins {t : Token} {following : Option Char}
    (ht : (∃ l, t = .literal l) ∨ ∃ w, t = .name w)
    (h : t.EndsBefore lexicon.separator following) :
    ∀ c ∈ following, c.isDigit = false ∧ Lexeme.isWordStart c = false := by
  intro c hc
  rcases ht with ⟨l, rfl⟩ | ⟨w, rfl⟩
  · have hpart := (h c hc).1
    simp only [Lexeme.isNumberPart, Bool.or_eq_false_iff] at hpart
    exact ⟨hpart.1, (h c hc).2⟩
  · have hpart := (h c hc).1
    simp only [Lexeme.isWordPart, Char.isAlphanum, Bool.or_eq_false_iff] at hpart
    exact ⟨hpart.1.2, by simp [Lexeme.isWordStart, hpart]⟩

/-- Where no operand is due, operands and functions begin with a digit or a letter.  A minus there
is an operator. -/
theorem Token.Begins.first {text after : List Char} {a : Atom} {t : Token}
    (h : t.Begins lexicon false text after a) (ha : a.isOperand = true ∨ a.kind = .function) :
    ∃ c ∈ text.head?, c.isDigit = true ∨ Lexeme.isWordStart c = true := by
  have hword : ∀ w : Word, t.text lexicon.separator = w.text →
      ∃ c ∈ text.head?, c.isDigit = true ∨ Lexeme.isWordStart c = true := by
    intro w hw
    rw [← h.text_eq, hw]
    exact ⟨w.first, rfl, Or.inr w.isWordStart_first.2.2⟩
  cases t with
  | literal l =>
    obtain ⟨c, tail, htext, hc, -⟩ := l.text_eq_cons lexicon.separator
    have hdigit : c.isDigit = true := by
      rcases hc with hc | ⟨-, hn⟩
      · exact hc
      · cases h.allowed hn
    rw [← h.text_eq, Token.text, htext]
    exact ⟨c, rfl, Or.inl hdigit⟩
  | name w => exact hword w rfl
  | function w => exact hword w rfl
  | _ =>
    rw [h.atom_eq] at ha
    rcases ha with ha | ha <;> cases ha

theorem Token.kind_of_word {t : Token} (ht : (∃ l, t = .literal l) ∨ ∃ w, t = .name w) :
    (t.atom lexicon).kind = .value ∨ (t.atom lexicon).kind = .var := by
  rcases ht with ⟨l, rfl⟩ | ⟨w, rfl⟩
  · exact Or.inl rfl
  · obtain ⟨x, hx | hx⟩ := lexicon.operand_cases w.name
    · exact Or.inl (congrArg Atom.kind hx)
    · exact Or.inr (congrArg Atom.kind hx)

theorem Token.Begins.not_isStart (hsep : Separates lexicon.separator) {operandDue : Bool}
    {text after : List Char} {a : Atom} {atoms : List Atom} {t : Token}
    (ht : t.Begins lexicon operandDue text after a)
    (hword : (∃ l, t = .literal l) ∨ ∃ w, t = .name w)
    (halphabet : ∀ c ∈ after, inAlphabet lexicon.separator c = true)
    (h : lexicon.Reads a.expectsOperand after atoms)
    (hfollows : ∀ b ∈ atoms.head?, Follows a b) : ∀ b ∈ atoms.head?, b.isStart = false := by
  intro b hb
  have hkind : a.kind = .value ∨ a.kind = .var := ht.atom_eq ▸ Token.kind_of_word hword
  have ha : a.isOperand = true := Evaluation.isOperand_iff.mpr (by simp [or_assoc.symm, hkind])
  have hopen := (hfollows b hb).after_operand hkind
  have hnot := Token.EndsBefore.not_begins hword ht.ends
  rw [Atom.not_expectsOperand ha] at h
  cases h with
  | done => cases hb
  | @next _ c rest after lexeme b' atoms hsplit hatom h =>
    cases hb
    obtain ⟨t', ht'⟩ := Token.exists_of_split hsep halphabet hsplit hatom
    have hbegins : ¬ (b.isOperand = true ∨ b.kind = .function) := by
      intro hb
      obtain ⟨d, hd, hfirst⟩ := ht'.first hb
      obtain ⟨hdigit, hstart⟩ := hnot d hd
      rw [hdigit, hstart] at hfirst
      rcases hfirst with hfirst | hfirst <;> cases hfirst
    rw [Evaluation.isOperand_iff] at hbegins
    simp only [not_or] at hbegins
    simp [Atom.isStart, hbegins, hopen]

/-- After a token, what is due fits what comes. -/
theorem starts_next (hsep : Separates lexicon.separator) {operandDue : Bool}
    {text after : List Char} {a : Atom} {atoms : List Atom} {t : Token}
    (ht : t.Begins lexicon operandDue text after a)
    (halphabet : ∀ c ∈ after, inAlphabet lexicon.separator c = true)
    (h : lexicon.Reads a.expectsOperand after atoms)
    (hfollows : ∀ b ∈ atoms.head?, Follows a b) : Starts t.next after atoms := by
  cases t with
  | literal l => exact ht.not_isStart hsep (Or.inl ⟨l, rfl⟩) halphabet h hfollows
  | name w => exact ht.not_isStart hsep (Or.inr ⟨w, rfl⟩) halphabet h hfollows
  | function w => exact ht.ends
  | closing =>
    intro b hb
    obtain ⟨hopen, hvalue, hvar, hfunction⟩ :=
      (hfollows b hb).after_closing (ht.atom_eq ▸ rfl)
    simp [Atom.isStart, hopen, hvalue, hvar, hfunction]
  | opening => exact trivial
  | comma => exact trivial
  | operator c => exact trivial

theorem Token.isOpenBracket_or_isCloseBracket {t : Token}
    (h : (t.atom lexicon).kind = .bracket) :
    (t.atom lexicon).isOpenBracket = true ∨ (t.atom lexicon).isCloseBracket = true := by
  cases t with
  | opening => exact Or.inl rfl
  | closing => exact Or.inr rfl
  | name w =>
    have hword : ((Token.name w).atom lexicon).kind = .value ∨
        ((Token.name w).atom lexicon).kind = .var := Token.kind_of_word (Or.inr ⟨w, rfl⟩)
    rw [h] at hword
    rcases hword with hword | hword <;> cases hword
  | _ => cases h

theorem Token.Begins.eq_opening (hsep : Separates lexicon.separator) {operandDue : Bool}
    {text after : List Char} {a : Atom} {t : Token} (ht : t.Begins lexicon operandDue text after a)
    (h : text.head? = some '(') : t = .opening := by
  rw [← ht.text_eq] at h
  have hword : ∀ w : Word, w.first ≠ '(' := by
    intro w hw
    have hstart := w.isWordStart_first.2.2
    rw [hw] at hstart
    cases hstart
  cases t with
  | literal l =>
    obtain ⟨c, tail, htext, hc, -⟩ := l.text_eq_cons lexicon.separator
    rw [Token.text, htext] at h
    cases h
    rcases hc with hc | ⟨hc, -⟩ <;> cases hc
  | name w => exact absurd (Option.some.inj h) (hword w)
  | function w => exact absurd (Option.some.inj h) (hword w)
  | opening => rfl
  | closing => cases h
  | comma => cases h
  | operator c => exact absurd (Or.inl (Option.some.inj h)) (hsep.of_isOperator ht.allowed.1).1

theorem Starts.ne_arguments (hsep : Separates lexicon.separator) {operandDue : Bool}
    {text after : List Char} {a : Atom} {atoms : List Atom} {t : Token} {due : Due}
    (h : Starts due text (a :: atoms)) (ht : t.Begins lexicon operandDue text after a)
    (hne : t ≠ .opening) : due ≠ .arguments := by
  rintro rfl
  exact hne (ht.eq_opening hsep h)

/-- No operand begins where a connector is due. -/
theorem Starts.ne_connector {text : List Char} {a : Atom} {atoms : List Atom} {due : Due}
    (h : Starts due text (a :: atoms)) (ha : a.isStart = true) : due ≠ .connector := by
  rintro rfl
  rw [h a rfl] at ha
  cases ha

theorem Due.eq_operand {due : Due} (harguments : due ≠ .arguments) (hconnector : due ≠ .connector) :
    due = .operand := by
  cases due with
  | operand => rfl
  | arguments => exact absurd rfl harguments
  | connector => exact absurd rfl hconnector

theorem exists_row_of_operand {due : Due} {depth : Nat} {a : Atom} {atoms : List Atom}
    (hdue : due = .operand) (ha : a.kind = .value ∨ a.kind = .var)
    (hclosed : Closed depth (a :: atoms))
    (hnext : ∀ depth, Closed depth atoms → ∃ faults, Row .connector depth faults atoms) :
    ∃ faults, Row due depth faults (a :: atoms) := by
  have hoperand : a.isOperand = true :=
    Evaluation.isOperand_iff.mpr (by simp [or_assoc.symm, ha])
  obtain ⟨faults, hrow⟩ := hnext depth (hclosed.of_other (ne_bracket_of_isOperand hoperand))
  exact ⟨faults, hdue ▸ .operand hoperand hrow⟩

/-- A connector goes on a row; where an operand is due, it is a fault. -/
theorem exists_row_of_connector {due : Due} {depth : Nat} {c : Atom} {atoms : List Atom}
    (hdue : due ≠ .arguments) (hc : c.isConnector = true) (hclosed : Closed depth (c :: atoms))
    (hnext : ∀ depth, Closed depth atoms → ∃ faults, Row .operand depth faults atoms) :
    ∃ faults, Row due depth faults (c :: atoms) := by
  obtain ⟨faults, hrow⟩ := hnext depth (hclosed.of_other (ne_bracket_of_isConnector hc))
  cases due with
  | operand => exact ⟨faults + 1, .missingConnector hc hrow⟩
  | arguments => exact absurd rfl hdue
  | connector => exact ⟨faults, .connector hc hrow⟩

/-- **A token goes on a row**, perhaps with one more fault.  There is a case for each kind of token,
and in it for what is due; what cannot meet is excluded by `Starts`. -/
theorem Token.Begins.exists_row (hsep : Separates lexicon.separator) {operandDue : Bool}
    {text after : List Char} {a : Atom} {atoms : List Atom} {t : Token}
    (ht : t.Begins lexicon operandDue text after a) {due : Due} {depth : Nat}
    (hstarts : Starts due text (a :: atoms)) (hclosed : Closed depth (a :: atoms))
    (hnext : ∀ depth, Closed depth atoms → ∃ faults, Row t.next depth faults atoms) :
    ∃ faults, Row due depth faults (a :: atoms) := by
  have harguments : t ≠ .opening → due ≠ .arguments := hstarts.ne_arguments hsep ht
  have hconnector : a.isStart = true → due ≠ .connector := hstarts.ne_connector
  have hword : (∃ l, t = .literal l) ∨ (∃ w, t = .name w) → a.kind = .value ∨ a.kind = .var := by
    intro h
    rw [ht.atom_eq]
    exact Token.kind_of_word h
  have hstart : a.kind = .value ∨ a.kind = .var → a.isStart = true := by
    rintro (h | h) <;> simp [Atom.isStart, h]
  cases t with
  | literal l =>
    have hkind := hword (Or.inl ⟨l, rfl⟩)
    have hdue := Due.eq_operand (harguments (by simp)) (hconnector (hstart hkind))
    exact exists_row_of_operand hdue hkind hclosed hnext
  | name w =>
    have hkind := hword (Or.inr ⟨w, rfl⟩)
    have hdue := Due.eq_operand (harguments (by simp)) (hconnector (hstart hkind))
    exact exists_row_of_operand hdue hkind hclosed hnext
  | function w =>
    obtain rfl : a = .function w.name := ht.atom_eq
    have hdue := Due.eq_operand (harguments (by simp)) (hconnector rfl)
    obtain ⟨faults, hrow⟩ := hnext depth
      (hclosed.of_other (by simp [Atom.function, Atom.named]))
    exact ⟨faults, hdue ▸ .function rfl hrow⟩
  | opening =>
    obtain rfl : a = .bracket '(' := ht.atom_eq
    obtain ⟨faults, hrow⟩ := hnext (depth + 1) hclosed.of_open
    exact ⟨faults, .opening (hconnector rfl) hrow⟩
  | closing =>
    obtain rfl : a = .bracket ')' := ht.atom_eq
    obtain ⟨outer, rfl, hrest⟩ := hclosed.of_close
    obtain ⟨faults, hrow⟩ := hnext outer hrest
    cases due with
    | operand => exact ⟨faults + 1, .missingClosing hrow⟩
    | arguments => exact absurd rfl (harguments (by simp))
    | connector => exact ⟨faults, .closing hrow⟩
  | comma =>
    exact exists_row_of_connector (harguments (by simp)) (ht.atom_eq ▸ rfl) hclosed hnext
  | operator c =>
    exact exists_row_of_connector (harguments (by simp)) (ht.atom_eq ▸ rfl) hclosed hnext

end Tokens

/-! ## 3. All tokens -/

/-- **The atoms of a text are a row**, if every closing bracket closes something and nothing runs
into what must not follow it. -/
theorem Lexicon.Reads.exists_row {lexicon : Lexicon} (hsep : Separates lexicon.separator)
    {operandDue : Bool} {text : List Char} {atoms : List Atom}
    (h : lexicon.Reads operandDue text atoms)
    (halphabet : ∀ c ∈ text, inAlphabet lexicon.separator c = true)
    (hfollows : ∀ a b, [a, b] <:+: atoms → Follows a b) :
    ∀ {due : Due} {depth : Nat}, Starts due text atoms → Closed depth atoms →
      ∃ faults, Row due depth faults atoms := by
  induction h with
  | done =>
    intro due depth hstarts hclosed
    rw [hclosed.eq_zero]
    cases due with
    | operand => exact ⟨1, .missingEnd⟩
    | arguments => cases hstarts
    | connector => exact ⟨0, .done⟩
  | @next operandDue c rest after lexeme a atoms hsplit hatom h ih =>
    intro due depth hstarts hclosed
    obtain ⟨t, ht⟩ := Token.exists_of_split hsep halphabet hsplit hatom
    have hafter : ∀ d ∈ after, inAlphabet lexicon.separator d = true := by
      intro d hd
      exact halphabet d (ht.mem_text hd)
    have hhead : ∀ b ∈ atoms.head?, Follows a b := by
      intro b hb
      cases atoms with
      | nil => cases hb
      | cons b' rest =>
        cases hb
        exact hfollows a b (List.prefix_append [a, b] rest).isInfix
    have htail : ∀ a' b, [a', b] <:+: atoms → Follows a' b := by
      intro a' b hab
      exact hfollows a' b (List.infix_cons hab)
    have hnext := starts_next hsep ht hafter h hhead
    apply ht.exists_row hsep hstarts hclosed
    intro depth hrest
    exact ih hafter htail hnext hrest

end Reckoner
