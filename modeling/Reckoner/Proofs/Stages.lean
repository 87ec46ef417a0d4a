/-
# The stages of one evaluation

`Session.evaluate` normalises a formula, cuts it, rearranges its atoms and runs them.  Here each
stage is tied to what the other modules say about it: how a formula may be spelled
(`normalize_of_spells`), that a text over the alphabet is normalised already (`normalize_eq_self`),
and what an evaluation leaves behind when its formula is read and fits (`Session.Accepts.leaves`).
Conversely only such formulas have an answer (`Session.accepts_of_evaluate`), and it is the value of
an expression (`Session.exists_computes`).
-/
import Reckoner.Proofs.Builtins
import Reckoner.Proofs.Decoding
import Reckoner.Proofs.View

namespace Reckoner

/-! ## 1. Spelling -/

/-- The formula `written` spells the normalised text `text`: letters in any case, points and commas
for the separator, and spaces anywhere.  It says so character by character and does not mention how
texts are normalised. -/
inductive Spells (separator : Char) : List Char → List Char → Prop
  | done : Spells separator [] []
  | space {written text : List Char} (h : Spells separator written text) :
      Spells separator (' ' :: written) text
  | point {c : Char} {written text : List Char} (hc : c = '.' ∨ c = ',')
      (h : Spells separator written text) : Spells separator (c :: written) (separator :: text)
  | letter {c d : Char} {written text : List Char} (hc : c.toNat < 128) (hd : c.toUpper = d)
      (h : Spells separator written text) : Spells separator (c :: written) (d :: text)

theorem point_eq_self {separator d : Char} (hd : inAlphabet separator d = true) :
    (if d = '.' ∨ d = ',' then separator else d) = d := by
  split
  · rename_i hpoint
    have hother : d.isDigit = false ∧ d.isUpper = false ∧ Config.marks.contains d = false := by
      rcases hpoint with rfl | rfl <;> decide
    simp only [inAlphabet, hother, Bool.false_or, Bool.or_false, beq_iff_eq] at hd
    exact hd.symm
  · rfl

theorem Separates.ne_space_of_inAlphabet {separator d : Char} (hsep : Separates separator)
    (hd : inAlphabet separator d = true) : d ≠ ' ' := by
  rintro rfl
  have hother : (' ').isDigit = false ∧ (' ').isUpper = false ∧
      Config.marks.contains ' ' = false := by decide
  simp only [inAlphabet, hother, Bool.false_or, Bool.or_false, beq_iff_eq] at hd
  exact hsep.ne_space hd.symm

theorem normalize_cons {separator c d : Char} (hc : c ≠ ' ') (hupper : Text.upperChar c = [d])
    (hd : inAlphabet separator d = true) (written : List Char) :
    normalize separator (c :: written) = d :: normalize separator written := by
  have hpoint := point_eq_self hd
  simp [normalize, hc, hupper, hpoint]

/-- **A spelling is normalised to the text that it spells.**  By induction on the spelling, a
character at a time; spaces go and the others become what they stand for. -/
theorem normalize_of_spells {separator : Char} (hsep : Separates separator)
    {written text : List Char} (h : Spells separator written text)
    (halphabet : ∀ d ∈ text, inAlphabet separator d = true) :
    normalize separator written = text := by
  induction h with
  | done => rfl
  | @space written text h ih => exact ih halphabet
  | @point c written text hc h ih =>
    have hrest := ih (List.forall_mem_cons.mp halphabet).2
    have hcons : normalize separator (c :: written) = separator :: normalize separator written := by
      rcases hc with rfl | rfl <;> rfl
    rw [hcons, hrest]
  | @letter c d written text hc hd h ih =>
    obtain ⟨hletter, halphabet⟩ := List.forall_mem_cons.mp halphabet
    have hrest := ih halphabet
    have hspace : c ≠ ' ' := by
      rintro rfl
      exact hsep.ne_space_of_inAlphabet hletter hd.symm
    rw [normalize_cons hspace (by rw [Text.upperChar_ascii hc, hd]) hletter, hrest]

theorem upperChar_of_inAlphabet {separator c : Char}
    (hupper : Text.upperChar separator = [separator]) (hc : inAlphabet separator c = true) :
    Text.upperChar c = [c] := by
  have hself : ∀ {d : Char}, d.toNat ≤ 95 → Text.upperChar d = [d] := by
    intro d hd
    have hlower : ¬ ('a'.val ≤ d.val ∧ d.val ≤ 'z'.val) := by
      rintro ⟨ha, -⟩
      have ha : 97 ≤ d.toNat := UInt32.le_iff_toNat_le.mp ha
      omega
    have hsame : d.toUpper = d := dif_neg hlower
    rw [Text.upperChar_ascii (by omega), hsame]
  simp only [inAlphabet, Bool.or_eq_true, beq_iff_eq, List.contains_iff_mem] at hc
  rcases hc with ((hc | hc) | rfl) | hc
  · simp only [Char.isDigit_iff_toNat, Char.reduceToNat] at hc
    exact hself (by omega)
  · rw [isUpper_iff] at hc
    exact hself (by omega)
  · exact hupper
  · have hmarks : ∀ d ∈ Config.marks, d.toNat ≤ 95 := List.all_iff_forall_prop.mp rfl
    exact hself (hmarks c hc)

/-- **A text over the alphabet is normalised already**, if the separator is its own upper case. -/
theorem normalize_eq_self {separator : Char} (hsep : Separates separator)
    (hupper : Text.upperChar separator = [separator]) {text : List Char}
    (halphabet : ∀ d ∈ text, inAlphabet separator d = true) : normalize separator text = text := by
  induction text with
  | nil => rfl
  | cons c rest ih =>
    obtain ⟨hc, hrest⟩ := List.forall_mem_cons.mp halphabet
    rw [normalize_cons (hsep.ne_space_of_inAlphabet hc) (upperChar_of_inAlphabet hupper hc) hc,
      ih hrest]

/-! ## 2. Evaluations -/

theorem Lexicon.tokenize_of_reads {lexicon : Lexicon} {formula : String} {atoms : List Atom}
    {out : AtomSeq}
    (halphabet : ∀ c ∈ normalize lexicon.separator formula.toList,
      inAlphabet lexicon.separator c = true)
    (hreads : lexicon.Reads out.expectsOperand (normalize lexicon.separator formula.toList) atoms)
    (hfits : out.Fits atoms.length) :
    lexicon.tokenize formula out = (.ok (), out.pushAll atoms) := by
  rw [tokenize_eq_scan, if_pos (List.all_eq_true.mpr halphabet)]
  exact scan_of_reads hreads rfl hfits

theorem Lexicon.reads_of_tokenize {lexicon : Lexicon} {formula : String} {out written : AtomSeq}
    (h : lexicon.tokenize formula out = (.ok (), written)) (hkept : written.overflowed = false) :
    (∀ c ∈ normalize lexicon.separator formula.toList, inAlphabet lexicon.separator c = true) ∧
    ∃ atoms, lexicon.Reads out.expectsOperand (normalize lexicon.separator formula.toList) atoms ∧
      written = out.pushAll atoms := by
  rw [tokenize_eq_scan] at h
  split at h
  · rename_i halphabet
    exact ⟨List.all_eq_true.mp halphabet, reads_of_scan h hkept⟩
  · cases h

namespace Session

variable {σ : Type}

/-- The formula is read as these atoms, and there is room for them.  This is what an evaluation asks
of a formula before it is put into post-order. -/
structure Accepts (s : Session σ) (formula : String) (atoms : List Atom) : Prop where
  alphabet : ∀ c ∈ normalize s.config.separator formula.toList,
    inAlphabet s.config.separator c = true
  reads : s.lexicon.Reads true (normalize s.config.separator formula.toList) atoms
  room : ∀ most ∈ s.config.maxAtoms, atoms.length ≤ most

/-- A cleared sequence has room for what its capacity allows. -/
theorem fits_bounded {capacity : Option Nat} {atoms : List Atom} :
    (AtomSeq.bounded capacity).Fits atoms.length ↔ ∀ most ∈ capacity, atoms.length ≤ most := by
  simp [AtomSeq.Fits, AtomSeq.bounded, AtomSeq.size]

theorem accepts_of_cut {s : Session σ} {formula : String} {written : AtomSeq}
    (hcut : s.cut formula = (.ok (), written)) (hkept : written.overflowed = false) :
    ∃ atoms, s.Accepts formula atoms := by
  obtain ⟨halphabet, atoms, hreads, rfl⟩ := Lexicon.reads_of_tokenize hcut hkept
  obtain ⟨-, hfits⟩ := (AtomSeq.overflowed_pushAll ..).mp hkept
  refine ⟨atoms, halphabet, hreads, ?_⟩
  cases atoms with
  | nil => simp
  | cons a rest => exact fits_bounded.mp (hfits (List.cons_ne_nil a rest))

variable [Chance.Source σ]

/-- What an evaluation leaves behind when its formula was cut into these atoms.  The outcome and the
source are those of the run of the post-order, from the source of the session. -/
structure Leaves (s : Session σ) (formula : String) (atoms : List Atom) : Prop where
  written : (s.evaluate formula).session.written.toList = atoms
  arranged : (s.evaluate formula).session.arranged.toList = postOrder atoms
  ended : (s.evaluate formula).session.Ended
    (Reckoner.evaluate Builtin.registry (postOrder atoms) s.source).outcome
  outcome : (s.evaluate formula).outcome =
    (Reckoner.evaluate Builtin.registry (postOrder atoms) s.source).outcome.map Atom.value
  source : (s.evaluate formula).session.source =
    (Reckoner.evaluate Builtin.registry (postOrder atoms) s.source).source

/-- **A formula that is read and fits is rearranged and run.** -/
theorem Accepts.leaves {s : Session σ} {formula : String} {atoms : List Atom}
    (h : s.Accepts formula atoms) : s.Leaves formula atoms := by
  have hfits := fits_bounded.mpr h.room
  have hcut : s.cut formula = (.ok (), (AtomSeq.bounded s.config.maxAtoms).pushAll atoms) :=
    Lexicon.tokenize_of_reads h.alphabet h.reads hfits
  obtain ⟨hwritten, hkept⟩ := pushAll_of_fits hfits
  have hpost := s.fits_postOrder formula
  rw [hcut, hwritten] at hpost
  have harranged := (pushAll_of_fits hpost).1
  have hreset : s.reset.arranged = .bounded s.config.maxAtoms := rfl
  have hsession : (s.evaluate formula).session =
      { s.reset with
        written := (AtomSeq.bounded s.config.maxAtoms).pushAll atoms
        arranged := (AtomSeq.bounded s.config.maxAtoms).pushAll (postOrder atoms)
        source := (Reckoner.evaluate Builtin.registry (postOrder atoms) s.source).source }.store
          (Reckoner.evaluate Builtin.registry (postOrder atoms) s.source).outcome := by
    rw [evaluate_of_kept hcut hkept, session_run]
    simp only [hwritten, hreset, harranged]
    rfl
  constructor
  · rw [hsession, written_store]
    exact hwritten
  · rw [hsession, arranged_store]
    exact harranged
  · rw [hsession]
    exact (s.cleared_reset.with_rows ..).ended_store _
  · rw [evaluate_of_kept hcut hkept, outcome_run]
    simp only [hwritten, hreset, harranged]
    rfl
  · rw [hsession, source_store]

/-- **Only a formula that is read and fits has an answer.**  The other exits are failures. -/
theorem accepts_of_evaluate {s : Session σ} {formula : String} {x : Float}
    (h : (s.evaluate formula).outcome = .ok x) : ∃ atoms, s.Accepts formula atoms := by
  rcases hcut : s.cut formula with ⟨e | _, written⟩
  · rw [evaluate_of_error hcut] at h
    cases h
  · cases hover : written.overflowed with
    | true =>
      rw [evaluate_of_overflowed hcut hover] at h
      cases h
    | false => exact accepts_of_cut hcut hover

/-- **An answer is the value of an expression**, whose post-order was run. -/
structure Computes (s : Session σ) (formula : String) (x : Float) (atoms : List Atom) (t : Expr) :
    Prop where
  accepts : s.Accepts formula atoms
  postOrder_eq : t.postOrder = postOrder atoms
  meaningful : t.Meaningful
  value : (t.eval Builtin.registry s.source).1 = .ok x
  run : (Evaluation.finalStack Builtin.registry (postOrder atoms) [] s.source).1 =
    .ok [t.atom x]
  ended : (s.evaluate formula).session.Ended (.ok (t.atom x))

theorem exists_computes {s : Session σ} {formula : String} {x : Float}
    (h : (s.evaluate formula).outcome = .ok x) : ∃ atoms t, s.Computes formula x atoms t := by
  obtain ⟨atoms, haccepts⟩ := accepts_of_evaluate h
  have hleaves := haccepts.leaves
  rw [hleaves.outcome] at h
  cases hrun : (Reckoner.evaluate Builtin.registry (postOrder atoms) s.source).outcome with
  | error e =>
    rw [hrun] at h
    cases h
  | ok a =>
    rw [hrun] at h
    obtain ⟨hstack, ha⟩ := Evaluation.evaluate_ok_iff.mp ⟨hrun, rfl⟩
    obtain ⟨t, y, -, hatoms, hvalue, rfl⟩ := exists_expr_of_finalStack ha hstack
    have hxy : y = x := by simpa [Except.map, Expr.value_atom hvalue] using h
    subst hxy
    have hmeaningful := Expr.meaningful_of_eval Builtin.needsArguments hvalue
    exact ⟨atoms, t, haccepts, hatoms, hmeaningful, by rw [hvalue], by rw [hstack],
      hrun ▸ hleaves.ended⟩

end Session

end Reckoner
