/-
# What a failure is about

A formula whose value cannot be computed fails at one of its atoms, and the failure says how
(`Evaluation.Fails`): a division at a `/`, an operator without a meaning at that operator, an
unknown function or a wrong number of arguments at that function.  `Session.failure_cases` puts
this together with the ways in which a formula fails before anything is computed.

Atoms come from lexemes, so that a failure can be pointed at in the text
(`Session.culprit_of_error`): a function is a word before an opening bracket, and an operator
without a meaning is a decimal separator that belongs to no number.
-/
import Reckoner.Proofs.Cuts
import Reckoner.Proofs.Memory
import Reckoner.Proofs.Stages

namespace Reckoner

/-! ## 1. At an atom -/

namespace Evaluation

/-- How an atom can fail when it is run. -/
inductive Fails {σ : Type} (registry : Registry σ) (a : Atom) : FormulaError → Prop
  | malformed : Fails registry a .malformed
  | division (hkind : a.kind = .operator) (hname : a.name = Op.divide.char.toString) :
      Fails registry a .divisionByZero
  | operator (hkind : a.kind = .operator) (hname : ∀ op : Op, a.name ≠ op.char.toString) :
      Fails registry a (.unknownOperator a.name)
  | undefined (hkind : a.kind = .function) (hname : registry.get? a.name = none) :
      Fails registry a (.undefinedFunction a.name)
  | arity (hkind : a.kind = .function) (hname : registry.get? a.name ≠ none) :
      Fails registry a (.arityMismatch a.name)

/-- An operator fails to divide, or it has no meaning. -/
theorem error_applyOperator {op : String} {x y : Float} {e : FormulaError}
    (h : applyOperator op x y = .error e) :
    (op = Op.divide.char.toString ∧ e = .divisionByZero) ∨
      ((∀ o : Op, op ≠ o.char.toString) ∧ e = .unknownOperator op) := by
  unfold applyOperator at h
  split at h
  · cases h
  · rename_i hpower
    split at h
    · rename_i hdivide
      split at h
      · cases h
        exact Or.inl ⟨hdivide, rfl⟩
      · cases h
    · rename_i hdivide
      repeat' split at h
      all_goals cases h
      rename_i htimes hmodulo hplus hminus
      refine Or.inr ⟨?_, rfl⟩
      intro o
      cases o with
      | plus => exact hplus
      | minus => exact hminus
      | times => exact htimes
      | divide => exact hdivide
      | modulo => exact hmodulo
      | power => exact hpower

variable {σ : Type} [Chance.Source σ]

/-- **A step fails at its atom.**  An error that shows a name shows that of the atom, which is of
the kind that can have such an error. -/
theorem fails_of_step {a : Atom} {stack : List Atom} {source next : σ} {e : FormulaError}
    (h : step Builtin.registry a stack source = (.error e, next)) :
    Fails (Builtin.registry (σ := σ)) a e := by
  cases hkind : a.kind with
  | operator =>
    simp only [step, hkind, operate] at h
    split at h
    · cases h
      exact .malformed
    · split at h
      · cases h
        exact .malformed
      · obtain ⟨hresult, -⟩ := Prod.mk.inj h
        rw [Except.map.eq_def] at hresult
        split at hresult
        · rename_i hfails
          cases hresult
          rcases error_applyOperator hfails with ⟨hname, rfl⟩ | ⟨hname, rfl⟩
          · exact .division hkind hname
          · exact .operator hkind hname
        · cases hresult
  | function =>
    simp only [step, hkind, call] at h
    split at h
    · cases h
      exact .malformed
    · obtain ⟨hresult, -⟩ := Prod.mk.inj h
      rw [Except.map.eq_def] at hresult
      split at hresult
      · rename_i hfails
        cases hresult
        rcases Builtin.error_call hfails with ⟨hname, rfl⟩ | ⟨hname, rfl⟩
        · exact .undefined hkind hname
        · exact .arity hkind hname
      · cases hresult
  | value | var | result | comma =>
    simp only [step, hkind] at h
    cases h
  | bracket | error | blank =>
    simp only [step, hkind] at h
    cases h
    exact .malformed

/-- **A run fails at one of its atoms**, or its stack is not an answer. -/
theorem fails_of_runFrom {atoms stack : List Atom} {source : σ} {e : FormulaError}
    (h : (runFrom Builtin.registry atoms stack source).outcome = .error e) :
    e = .malformed ∨ ∃ a ∈ atoms, Fails (Builtin.registry (σ := σ)) a e := by
  induction atoms generalizing stack source with
  | nil =>
    have hanswer : answer stack = .error e := h
    unfold answer at hanswer
    split at hanswer
    · split at hanswer
      · cases hanswer
      · cases hanswer
        exact Or.inl rfl
    · cases hanswer
      exact Or.inl rfl
  | cons a rest ih =>
    rw [runFrom] at h
    rcases hstep : step Builtin.registry a stack source with ⟨e' | after, next⟩
    · rw [hstep] at h
      cases h
      exact Or.inr ⟨a, List.mem_cons_self, fails_of_step hstep⟩
    · rw [hstep] at h
      obtain hmalformed | ⟨b, hb, hfails⟩ := ih h
      · exact Or.inl hmalformed
      · exact Or.inr ⟨b, List.mem_cons_of_mem a hb, hfails⟩

end Evaluation

namespace Session

variable {σ : Type} [Chance.Source σ] {s : Session σ} {formula : String} {e : FormulaError}

/-- **All ways to fail.**  The formula is not cut, or malformed, or it is read and fails at one of
its atoms. -/
theorem failure_cases (h : (s.evaluate formula).outcome = .error e) :
    (s.cut formula).1 = .error e ∨ e = .malformed ∨
      ∃ atoms, s.Accepts formula atoms ∧
        ∃ a ∈ atoms, Evaluation.Fails (Builtin.registry (σ := σ)) a e := by
  rcases hcut : s.cut formula with ⟨e' | _, written⟩
  · rw [evaluate_of_error hcut] at h
    cases h
    exact Or.inl rfl
  · right
    cases hover : written.overflowed with
    | true =>
      rw [evaluate_of_overflowed hcut hover] at h
      cases h
      exact Or.inl rfl
    | false =>
      obtain ⟨atoms, haccepts⟩ := accepts_of_cut hcut hover
      rw [haccepts.leaves.outcome, Except.map.eq_def] at h
      split at h
      · rename_i hfails
        cases h
        obtain rfl | ⟨a, ha, hat⟩ := Evaluation.fails_of_runFrom hfails
        · exact Or.inl rfl
        · exact Or.inr ⟨atoms, haccepts, a, mem_of_mem_postOrder ha, hat⟩
      · cases h

end Session

/-! ## 2. In the text -/

section Lexemes

variable {lexicon : Lexicon} {lexemes : List Lexeme} {a : Atom}

theorem Lexicon.Emits.exists_means {atoms : List Atom} (h : lexicon.Emits lexemes atoms)
    (ha : a ∈ atoms) : ∃ front l back, lexemes = front ++ l :: back ∧
      lexicon.Means (back.flatMap Lexeme.text).head? l a := by
  induction h with
  | nil => cases ha
  | @cons l lexemes b atoms hmeans h ih =>
    rcases List.mem_cons.mp ha with rfl | ha
    · exact ⟨[], l, lexemes, rfl, hmeans⟩
    · obtain ⟨front, l', back, rfl, hmeans'⟩ := ih ha
      exact ⟨l :: front, l', back, rfl, hmeans'⟩

theorem Lexeme.WellFormed.eq_opening {separator : Char} {l : Lexeme} (h : l.WellFormed separator)
    (hopen : l.text.head? = some '(') : l = .mark '(' := by
  cases l with
  | number t =>
    obtain ⟨l, rfl⟩ := h
    obtain ⟨c, tail, htext, hc, -⟩ := l.text_eq_cons separator
    rw [Lexeme.text, htext] at hopen
    obtain rfl : c = '(' := Option.some.inj hopen
    rcases hc with hdigit | ⟨hminus, -⟩
    · cases hdigit
    · cases hminus
  | word t =>
    obtain ⟨w, rfl⟩ := h
    have hfirst : w.first = '(' := Option.some.inj hopen
    have hstart := w.isWordStart_first.2.2
    rw [hfirst] at hstart
    cases hstart
  | mark c => rw [Option.some.inj hopen]

end Lexemes

/-- The name is called in the text: a word right before an opening bracket. -/
def Called (separator : Char) (text : List Char) (name : String) : Prop :=
  ∃ front word back, Cut separator true text (front ++ .word word :: .mark '(' :: back) ∧
    name = String.ofList word

/-- What a text has in it that fails in this way.  A malformed formula has no single place to name,
so nothing is asked of it, and no formula at all fails over the configuration. -/
def Culprit {σ : Type} (registry : Registry σ) (separator : Char) (text : List Char) :
    FormulaError → Prop
  | .invalidCharacter => ∃ c ∈ text, inAlphabet separator c = false
  | .malformed => True
  | .divisionByZero => '/' ∈ text
  | .undefinedFunction name => Called separator text name ∧ registry.get? name = none
  | .arityMismatch name => Called separator text name ∧ registry.get? name ≠ none
  | .unknownOperator op =>
    op = separator.toString ∧
      ∃ lexemes, Cut separator true text lexemes ∧ .mark separator ∈ lexemes
  | .invalidConfig _ => False

section Origins

variable {lexicon : Lexicon} {text : List Char} {lexemes : List Lexeme} {atoms : List Atom}
  {a : Atom}

/-- **A function is called** where it comes from.  The scanner reads a word as a function only if
the next character is an opening bracket, and in a cut this is a lexeme of its own. -/
theorem Cut.called (hcut : Cut lexicon.separator true text lexemes)
    (hemits : lexicon.Emits lexemes atoms) (ha : a ∈ atoms) (hkind : a.kind = .function) :
    Called lexicon.separator text a.name := by
  obtain ⟨front, l, back, rfl, hmeans⟩ := hemits.exists_means ha
  cases hmeans with
  | function word hopen =>
    have hwell : ∀ l ∈ back, l.WellFormed lexicon.separator := by
      intro l hl
      exact hcut.wellFormed l (by simp [hl])
    rw [head?_flatMap_text hwell] at hopen
    -- the character after the word is the text of the next lexeme
    cases back with
    | nil => cases hopen
    | cons next back =>
      rw [(hwell next List.mem_cons_self).eq_opening hopen] at hcut
      exact ⟨front, word, back, hcut, rfl⟩
  | _ => cases hkind

/-- **An operator is a mark** of the text, and the separator if it has no meaning. -/
theorem Cut.operator (hcut : Cut lexicon.separator true text lexemes)
    (hemits : lexicon.Emits lexemes atoms)
    (halphabet : ∀ c ∈ text, inAlphabet lexicon.separator c = true) (ha : a ∈ atoms)
    (hkind : a.kind = .operator) :
    ∃ c, a.name = c.toString ∧ .mark c ∈ lexemes ∧
      (c = lexicon.separator ∨ ∃ op : Op, c = op.char) := by
  obtain ⟨front, l, back, rfl, hmeans⟩ := hemits.exists_means ha
  cases hmeans with
  | @operator c hbracket hcomma =>
    have hmem : Lexeme.mark c ∈ front ++ .mark c :: back := by simp
    have hc : c ∈ text := by
      rw [← hcut.text_eq, List.mem_flatMap]
      exact ⟨.mark c, hmem, List.mem_singleton_self c⟩
    obtain ⟨hdigit, hstart⟩ := hcut.wellFormed _ hmem
    have hmark := isMark_of_inAlphabet (halphabet c hc) hdigit hstart
    refine ⟨c, rfl, hmem, ?_⟩
    rw [not_or] at hbracket
    simp only [Token.isMark, Token.isOperator, Bool.or_eq_true, beq_iff_eq,
      List.contains_iff_mem, List.mem_cons, List.not_mem_nil, or_false] at hmark
    rcases hmark with (hsep | hop) | hc
    · exact Or.inl hsep
    · right
      rcases hop with rfl | rfl | rfl | rfl | rfl | rfl
      · exact ⟨.plus, rfl⟩
      · exact ⟨.minus, rfl⟩
      · exact ⟨.times, rfl⟩
      · exact ⟨.divide, rfl⟩
      · exact ⟨.modulo, rfl⟩
      · exact ⟨.power, rfl⟩
    · rcases hc with hc | hc | hc
      · exact absurd hc hbracket.1
      · exact absurd hc hbracket.2
      · exact absurd hc hcomma
  | _ => cases hkind

/-- **What an atom fails over is in the text.** -/
theorem Cut.culprit {σ : Type} {registry : Registry σ} {e : FormulaError}
    (hcut : Cut lexicon.separator true text lexemes) (hemits : lexicon.Emits lexemes atoms)
    (halphabet : ∀ c ∈ text, inAlphabet lexicon.separator c = true) (ha : a ∈ atoms)
    (h : Evaluation.Fails registry a e) : Culprit registry lexicon.separator text e := by
  cases h with
  | malformed => trivial
  | division hkind hname =>
    obtain ⟨c, hc, hmem, -⟩ := hcut.operator hemits halphabet ha hkind
    rw [hname] at hc
    obtain rfl : Op.divide.char = c := by simpa using hc
    rw [Culprit, ← hcut.text_eq, List.mem_flatMap]
    exact ⟨_, hmem, List.mem_singleton_self _⟩
  | operator hkind hname =>
    obtain ⟨c, hc, hmem, rfl | ⟨op, rfl⟩⟩ := hcut.operator hemits halphabet ha hkind
    · exact ⟨hc, lexemes, hcut, hmem⟩
    · exact absurd hc (hname op)
  | undefined hkind hname => exact ⟨hcut.called hemits ha hkind, hname⟩
  | arity hkind hname => exact ⟨hcut.called hemits ha hkind, hname⟩

end Origins

/-! ## 3. Formulas -/

/-- A formula is refused for a character outside the alphabet before anything is cut. -/
theorem Lexicon.tokenize_invalid {lexicon : Lexicon} {formula : String} {out : AtomSeq}
    (h : (lexicon.tokenize formula out).1 = .error .invalidCharacter) :
    (∃ c ∈ normalize lexicon.separator formula.toList, inAlphabet lexicon.separator c = false) ∧
      (lexicon.tokenize formula out).2 = out := by
  rw [tokenize_eq_scan] at h ⊢
  split
  · rename_i halphabet
    rw [if_pos halphabet] at h
    rcases lexicon.scan_ok_or_malformed (normalize lexicon.separator formula.toList) out
      with hends | hends <;> rw [hends] at h <;> cases h
  · rename_i halphabet
    exact ⟨by simpa using halphabet, rfl⟩

namespace Session

variable {σ : Type} [Chance.Source σ]

/-- **A failure has a culprit in the text of the formula**; one for a character outside the alphabet
leaves no atoms. -/
theorem culprit_of_error {s : Session σ} (hcheck : s.config.check = .ok ()) {formula : String}
    {e : FormulaError} (h : (s.evaluate formula).outcome = .error e) :
    Culprit (Builtin.registry (σ := σ)) s.config.separator
      (normalize s.config.separator formula.toList) e ∧
    (e = .invalidCharacter → (s.evaluate formula).session.written.toList = [] ∧
      (s.evaluate formula).session.arranged.toList = []) := by
  have hsep := Config.separates hcheck
  rcases failure_cases h with hcut | rfl | ⟨atoms, haccepts, a, ha, hfails⟩
  · obtain rfl | rfl := Lexicon.error_tokenize hcut
    · obtain ⟨hoffends, hnothing⟩ := Lexicon.tokenize_invalid hcut
      refine ⟨hoffends, fun _ => ?_⟩
      have hempty : (s.cut formula).2.toList = [] := congrArg AtomSeq.toList hnothing
      rw [written_evaluate, hempty]
      obtain ⟨hok, -⟩ | ⟨-, harranged⟩ := s.arranged_evaluate formula
      · rw [hok] at hcut
        cases hcut
      · exact ⟨rfl, harranged⟩
    · exact ⟨trivial, by simp⟩
  · exact ⟨trivial, by simp⟩
  · obtain ⟨lexemes, hcut, hemits⟩ := haccepts.reads.exists_cut hsep haccepts.alphabet
    refine ⟨hcut.culprit hemits haccepts.alphabet ha hfails, ?_⟩
    rintro rfl
    cases hfails

/-- A failure of each kind, under a comma as separator. -/
theorem culprit_of_error_each :
    let s : Session Chance.Cycle :=
      (Session.fresh { Config.standard with separator := ',' } (.ofList [])).bind "n" 2
    let failures : List (String × FormulaError) :=
      [("(1.5).n", .unknownOperator ","), ("max(foo(1);2)", .undefinedFunction "FOO"),
       ("2*max(1)", .arityMismatch "MAX"), ("1/(n-2)", .divisionByZero),
       ("n$2", .invalidCharacter)]
    s.config.check = .ok () ∧
    ∀ f ∈ failures, (s.evaluate f.1).outcome = .error f.2 ∧
      Culprit (Builtin.registry (σ := Chance.Cycle)) ',' (normalize ',' f.1.toList) f.2 := by
  intro s failures
  have hcheck : s.config.check = .ok () := rfl
  have hlast : ∀ f ∈ failures, (s.evaluate f.1).session.lastError = some f.2 :=
    List.all_iff_forall_prop.mp (by decide +kernel)
  refine ⟨hcheck, ?_⟩
  intro f hf
  have houtcome := ((remembersEnd_evaluate s f.1).lastError_iff f.2).mp (hlast f hf)
  exact ⟨houtcome, (culprit_of_error hcheck houtcome).1⟩

end Session

end Reckoner
