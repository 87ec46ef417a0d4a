/-
# Answers and failures on one line

Neither a number nor the message of a failure ever contains the end of a line, under any separator
that is allowed.  A number is written with digits, signs, the separator and a few letters
(`Number.oneLine_render`).  A failure shows at most the name of an atom of its formula
(`Session.failureOf_evaluate`), and names are spelled in the alphabet of formulas
(`Lexicon.spelled_tokenize`), which has no such character.
-/
import Reckoner.Proofs.Failures

namespace Reckoner

/-- The text stays on one line. -/
def OneLine (text : String) : Prop := '\n' ∉ text.toList

theorem OneLine.append {s t : String} (hs : OneLine s) (ht : OneLine t) : OneLine (s ++ t) := by
  rw [OneLine, String.toList_append, List.mem_append]
  rintro (h | h)
  · exact hs h
  · exact ht h

/-- A line is a text on one line and its end. -/
def IsLine (text : String) : Prop := ∃ body, OneLine body ∧ text = body ++ "\n"

/-! ## 1. Numbers -/

namespace Number

theorem not_mem_toDigits (n : Nat) : '\n' ∉ Nat.toDigits 10 n := by
  intro h
  have hdigit := Nat.isDigit_of_mem_toDigits (by decide) (by decide) h
  cases hdigit

theorem not_mem_layout (d : Decimal) : '\n' ∉ d.layout := by
  have hdigits := not_mem_toDigits d.digits
  unfold Decimal.layout
  split
  · simp [hdigits, List.mem_replicate]
  · -- both parts of the padded digits are digits
    have hpadded : '\n' ∉
        List.replicate ((-d.exponent).toNat + 1 - (Nat.toDigits 10 d.digits).length)
        '0' ++ Nat.toDigits 10 d.digits := by
      simp [hdigits, List.mem_replicate]
    simp only [List.mem_append, List.mem_cons, not_or]
    refine ⟨fun h => hpadded (List.mem_of_mem_take h), by decide, ?_⟩
    exact fun h => hpadded (List.mem_of_mem_drop h)

theorem not_mem_signed {negative : Bool} {text : List Char} (h : '\n' ∉ text) :
    '\n' ∉ signed negative text := by
  unfold signed
  split
  · simp [h]
  · exact h

theorem not_mem_display (x : Shape) : '\n' ∉ x.display := by
  cases x with
  | notANumber => decide
  | infinite negative => exact not_mem_signed (by decide)
  | finite negative size =>
    apply not_mem_signed
    unfold Magnitude.display
    split
    · decide
    · exact not_mem_layout _

/-- **A number is written on one line.** -/
theorem oneLine_render (x : Float) {separator : Char} (hsep : separator ≠ '\n') :
    OneLine (render x separator) := by
  have hseparated : '\n' ∉ (shape x).display.map fun c => if c = '.' then separator else c := by
    intro h
    obtain ⟨c, hc, hnew⟩ := List.mem_map.mp h
    split at hnew
    · exact hsep hnew
    · exact not_mem_display (shape x) (hnew ▸ hc)
  rw [OneLine, render, String.toList_ofList]
  cases hx : shape x with
  | notANumber =>
    rw [hx] at hseparated
    exact hseparated
  | infinite negative =>
    rw [hx] at hseparated
    exact hseparated
  | finite negative size =>
    rw [hx] at hseparated
    simp only [Shape.render]
    split
    · split
      · exact not_mem_signed (not_mem_toDigits _)
      · exact hseparated
    · exact hseparated

end Number

/-! ## 2. Names -/

/-- The name of the atom is spelled in the alphabet of formulas. -/
def Atom.Spelled (separator : Char) (a : Atom) : Prop :=
  ∀ c ∈ a.name.toList, inAlphabet separator c = true

theorem Lexicon.mem_name {lexicon : Lexicon} {lexeme : Lexeme} {following : Option Char} {a : Atom}
    (h : lexicon.atom? lexeme following = some a) {c : Char} (hc : c ∈ a.name.toList) :
    c ∈ lexeme.text ∨ c = '0' := by
  cases lexeme with
  | number text =>
    simp only [atom?] at h
    split at h
    · cases h
    · obtain ⟨x, -, rfl⟩ := Option.map_eq_some_iff.mp h
      simp only [Atom.number, String.toList_ofList, Lexeme.numberName] at hc
      split at hc
      · rcases List.mem_append.mp hc with hc | hc
        · exact Or.inl hc
        · exact Or.inr (List.mem_singleton.mp hc)
      · exact Or.inl hc
  | word text =>
    simp only [atom?, Option.some.injEq] at h
    subst h
    left
    split at hc
    · simpa [Atom.function, Atom.named, Lexeme.text] using hc
    · obtain ⟨x, hx | hx⟩ := lexicon.operand_cases (String.ofList text)
      · simpa [hx, Atom.number, Lexeme.text] using hc
      · simpa [hx, Atom.var, Lexeme.text] using hc
  | mark d =>
    simp only [atom?, Option.some.injEq] at h
    subst h
    left
    split at hc
    · simpa [Atom.bracket, Atom.named, Lexeme.text] using hc
    · split at hc
      · rename_i hcomma
        simpa [Atom.comma, Atom.named, Lexeme.text, hcomma] using hc
      · simpa [Atom.operator, Atom.named, Lexeme.text] using hc

namespace Lexicon

variable {lexicon : Lexicon}

theorem spelled_scan {text : List Char} {out : AtomSeq}
    (htext : ∀ c ∈ text, inAlphabet lexicon.separator c = true)
    (hout : ∀ a ∈ out.toList, a.Spelled lexicon.separator) :
    ∀ a ∈ (lexicon.scan text out).2.toList, a.Spelled lexicon.separator := by
  induction text, out using lexicon.scan_induct with
  | done out => rwa [scan_nil]
  | stop c rest out cut hcut hatom => rwa [scan_of_none hcut hatom]
  | next c rest out cut a hcut hatom ih =>
    rw [scan_of_some hcut hatom]
    have hsplit : cut.1.text ++ cut.2 = c :: rest := hcut ▸ Lexeme.text_split ..
    rw [← hsplit] at htext
    apply ih
    · intro d hd
      exact htext d (List.mem_append_right _ hd)
    · intro b hb
      rw [AtomSeq.toList_push] at hb
      split at hb
      · rcases List.mem_append.mp hb with hb | hb
        · exact hout b hb
        · obtain rfl := List.mem_singleton.mp hb
          intro d hd
          rcases mem_name hatom hd with hd | rfl
          · exact htext d (List.mem_append_left _ hd)
          · rfl
      · exact hout b hb

/-- **The names of atoms are spelled in the alphabet of formulas.**  A character beyond it is
refused before anything is cut, and completing a number adds a zero. -/
theorem spelled_tokenize (formula : String) (limit : Option Nat) :
    ∀ a ∈ (lexicon.tokenize formula (.bounded limit)).2.toList, a.Spelled lexicon.separator := by
  have hnone : ∀ a ∈ (AtomSeq.bounded limit).toList, a.Spelled lexicon.separator := by
    rintro a ⟨⟩
  rw [tokenize_eq_scan]
  split
  · rename_i halphabet
    exact spelled_scan (List.all_eq_true.mp halphabet) hnone
  · exact hnone

end Lexicon

theorem Atom.Spelled.oneLine {separator : Char} {a : Atom} (h : a.Spelled separator)
    (hsep : separator ≠ '\n') : OneLine a.name := by
  intro hmem
  have hend := h '\n' hmem
  have hother : ('\n').isDigit = false ∧ ('\n').isUpper = false ∧
      Config.marks.contains '\n' = false := by decide
  simp only [inAlphabet, hother, Bool.false_or, Bool.or_false, beq_iff_eq] at hend
  exact hsep hend.symm

/-! ## 3. Failures -/

/-- A failure that formulas can have, about one of these atoms if it shows a name.  A failure of the
configuration is none of them. -/
inductive FailureOf (atoms : List Atom) : FormulaError → Prop
  | invalidCharacter : FailureOf atoms .invalidCharacter
  | malformed : FailureOf atoms .malformed
  | divisionByZero : FailureOf atoms .divisionByZero
  | undefinedFunction {a : Atom} (ha : a ∈ atoms) : FailureOf atoms (.undefinedFunction a.name)
  | arityMismatch {a : Atom} (ha : a ∈ atoms) : FailureOf atoms (.arityMismatch a.name)
  | unknownOperator {a : Atom} (ha : a ∈ atoms) : FailureOf atoms (.unknownOperator a.name)

theorem FailureOf.oneLine {atoms : List Atom} {e : FormulaError} (h : FailureOf atoms e)
    (hnames : ∀ a ∈ atoms, OneLine a.name) : OneLine e.message := by
  cases h with
  | invalidCharacter => exact (by decide : '\n' ∉ "Invalid chars on expression".toList)
  | malformed => exact (by decide : '\n' ∉ "Syntax error".toList)
  | divisionByZero => exact (by decide : '\n' ∉ "Divide by zero".toList)
  | undefinedFunction ha =>
    exact .append (by decide : '\n' ∉ "Undefined function: ".toList) (hnames _ ha)
  | arityMismatch ha =>
    exact .append (by decide : '\n' ∉ "Wrong parameters number in: ".toList) (hnames _ ha)
  | unknownOperator ha =>
    exact .append (by decide : '\n' ∉ "Invalid operator: ".toList) (hnames _ ha)

theorem Evaluation.Fails.failureOf {σ : Type} {registry : Registry σ} {atoms : List Atom} {a : Atom}
    {e : FormulaError} (h : Fails registry a e) (ha : a ∈ atoms) : FailureOf atoms e := by
  cases h with
  | malformed => exact .malformed
  | division _ _ => exact .divisionByZero
  | operator _ _ => exact .unknownOperator ha
  | undefined _ _ => exact .undefinedFunction ha
  | arity _ _ => exact .arityMismatch ha

namespace Session

variable {σ : Type} [Chance.Source σ] {s : Session σ} {formula : String} {e : FormulaError}

/-- **A formula fails over one of its atoms.**  These are the atoms as written: post-order adds
none, and results are no names that a failure shows. -/
theorem failureOf_evaluate (h : (s.evaluate formula).outcome = .error e) :
    FailureOf (s.evaluate formula).session.written.toList e := by
  rcases failure_cases h with hcut | rfl | ⟨atoms, haccepts, a, ha, hfails⟩
  · rcases Lexicon.error_tokenize hcut with rfl | rfl
    · exact .invalidCharacter
    · exact .malformed
  · exact .malformed
  · rw [haccepts.leaves.written]
    exact hfails.failureOf ha

/-- **The message of a failure stays on one line**, if the separator does. -/
theorem oneLine_message (hsep : s.config.separator ≠ '\n')
    (h : (s.evaluate formula).outcome = .error e) : OneLine e.message := by
  apply (failureOf_evaluate h).oneLine
  intro a ha
  rw [written_evaluate] at ha
  exact (Lexicon.spelled_tokenize formula _ a ha).oneLine hsep

end Session

end Reckoner
