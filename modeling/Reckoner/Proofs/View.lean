/-
# What can be seen of an evaluation

A caller sees the outcome of an evaluation, its log, and what it leaves in the session: the atoms as
written and in post-order, whether some were dropped, and how the formula ended
(`Session.LooksLike`).  Evaluations agree when all this is the same (`Session.Evaluated.Agrees`).

Once a formula is cut, it is refused, because the cut failed or atoms were dropped, or it is
rearranged and run (`Session.evaluate_eq`, and case by case `evaluate_of_error`,
`evaluate_of_overflowed` and `evaluate_of_kept`).  In no case does the post-order overflow, although
nothing checks it (`Session.overflowed_arranged_evaluate`).  Evaluations of the same cut agree when
the runs do (`Session.agrees_of_cut`).
-/
import Reckoner.Proofs.Conservation
import Reckoner.Proofs.Reading
import Reckoner.Session

namespace Reckoner

theorem Lexicon.fits_zero_tokenize {lexicon : Lexicon} {formula : String} {out : AtomSeq}
    (h : out.Fits 0) : (lexicon.tokenize formula out).2.Fits 0 := by
  simp only [tokenize_eq_scan]
  split
  · exact scan_preserves (P := fun s => s.Fits 0) (fun s a hs => AtomSeq.fits_zero_push hs a) h
  · exact h

theorem Lexicon.capacity_tokenize {lexicon : Lexicon} {formula : String} {out : AtomSeq} :
    (lexicon.tokenize formula out).2.capacity = out.capacity := by
  simp only [tokenize_eq_scan]
  split
  · apply scan_preserves (P := fun s => s.capacity = out.capacity) _ rfl
    intro s a hs
    rw [AtomSeq.capacity_push, hs]
  · rfl

/-- What the offers of a scan report can be read off the sequence that they leave.  So reports need
no induction of their own: what is known of the sequences says what was reported. -/
theorem Lexicon.log_scanning (lexicon : Lexicon) (text : List Char) (out : AtomSeq) :
    (lexicon.scanning text out).log = out.overflowReport (lexicon.scan text out).2 := by
  fun_induction lexicon.scanning text out with
  | case1 out => rw [scan_nil, AtomSeq.overflowReport_self]
  | case2 c rest out cut hatom => rw [scan_of_none rfl hatom, AtomSeq.overflowReport_self]
  | case3 c rest out cut a hatom offered later ih =>
    rw [scan_of_some rfl hatom, ih, AtomSeq.log_offer]
    apply AtomSeq.overflowReport_append (out.capacity_push a)
    · exact fun h => AtomSeq.overflowed_push_of_overflowed h a
    · exact overflowed_scan

/-- A cut reports a drop, and that it came to the end. -/
theorem Lexicon.log_tokenizing (lexicon : Lexicon) (formula : String) (out : AtomSeq) :
    (lexicon.tokenizing formula out).log =
      out.overflowReport (lexicon.tokenize formula out).2 ++
        match (lexicon.tokenize formula out).1 with
        | .error _ => []
        | .ok () =>
          [.tokenized (String.ofList (normalize lexicon.separator formula.toList))
            (lexicon.tokenize formula out).2.size] := by
  rw [tokenize_eq_scan]
  unfold tokenizing
  dsimp only
  split
  · rw [← log_scanning]
    simp only [scan]
    split <;> simp [*]
  · simp [AtomSeq.overflowReport_self]

variable {σ τ : Type}

/-! ## 1. What is seen -/

structure Evaluation.Run.Agrees (a : Run σ) (b : Run τ) : Prop where
  outcome : a.outcome = b.outcome
  steps : a.steps = b.steps

namespace Session

/-- Two sessions show the same of their last formulas.  Variables, configuration and source are no
part of it, since no formula leaves them to be seen. -/
structure LooksLike (s : Session σ) (t : Session τ) : Prop where
  written : s.written.Same t.written
  arranged : s.arranged.Same t.arranged
  lastError : s.lastError = t.lastError
  errorMessage : s.errorMessage = t.errorMessage
  lastAtom : s.lastAtom = t.lastAtom
  trace : s.trace = t.trace

/-- A computed answer is traced by its name, and no other is. -/
theorem trace_eq {s : Session σ} {a : Atom} (h : s.lastAtom = some a) :
    s.trace = if a.kind = .result then some a.name else none := by
  rw [trace, h]
  by_cases hkind : a.kind = .result
  · simp [Option.filter, hkind]
  · simp [Option.filter, hkind]

theorem trace_eq_some_iff {s : Session σ} {a : Atom} (h : s.lastAtom = some a) (name : String) :
    s.trace = some name ↔ a.kind = .result ∧ a.name = name := by
  rw [trace_eq h]
  split <;> simp [*]

theorem LooksLike.of_stored {s : Session σ} {t : Session τ} (hwritten : s.written.Same t.written)
    (harranged : s.arranged.Same t.arranged) (hlastError : s.lastError = t.lastError)
    (herrorMessage : s.errorMessage = t.errorMessage) (hlastAtom : s.lastAtom = t.lastAtom) :
    s.LooksLike t where
  written := hwritten
  arranged := harranged
  lastError := hlastError
  errorMessage := herrorMessage
  lastAtom := hlastAtom
  trace := by rw [Session.trace, Session.trace, hlastAtom]

/-- Nothing is stored of a formula.  An evaluation begins so, and an answer relies on it: it stores
the last atom and nothing else. -/
structure Cleared (s : Session σ) : Prop where
  lastError : s.lastError = none
  errorMessage : s.errorMessage = ""
  lastAtom : s.lastAtom = none

theorem cleared_reset (s : Session σ) : s.reset.Cleared := ⟨rfl, rfl, rfl⟩

/-- Filling the sequences and drawing numbers does not store an end. -/
theorem Cleared.with_rows {s : Session σ} (h : s.Cleared) (source : σ)
    (written arranged : AtomSeq) :
    Cleared { s with source := source, written := written, arranged := arranged } :=
  ⟨h.lastError, h.errorMessage, h.lastAtom⟩

/-- Error, message and atom are those of a formula that ended so.  They are stored apart from each
other, and this is what keeps them together. -/
def Ended (s : Session σ) : Except FormulaError Atom → Prop
  | .ok a => s.lastError = none ∧ s.errorMessage = "" ∧ s.lastAtom = some a
  | .error e =>
    s.lastError = some e ∧ s.errorMessage = e.message ∧ s.lastAtom = some (.failure e.message)

/-- **What is stored at an end tells of it**, if nothing was left from before. -/
theorem Cleared.ended_store {s : Session σ} (h : s.Cleared) (ending : Except FormulaError Atom) :
    (s.store ending).Ended ending := by
  cases ending with
  | ok a => exact ⟨h.lastError, h.errorMessage, rfl⟩
  | error e => exact ⟨rfl, rfl, rfl⟩

theorem LooksLike.of_ended {s : Session σ} {t : Session τ} {ending : Except FormulaError Atom}
    (hwritten : s.written.Same t.written) (harranged : s.arranged.Same t.arranged)
    (hs : s.Ended ending) (ht : t.Ended ending) : s.LooksLike t := by
  cases ending <;> exact .of_stored hwritten harranged (hs.1.trans ht.1.symm)
    (hs.2.1.trans ht.2.1.symm) (hs.2.2.trans ht.2.2.symm)

/-- Two evaluations have the same outcome, report the same, and leave the same to be seen.  Where
the source ends up is told apart from this, because the sources may be of different types. -/
structure Evaluated.Agrees (a : Evaluated σ) (b : Evaluated τ) : Prop where
  outcome : a.outcome = b.outcome
  log : a.log = b.log
  looks : a.session.LooksLike b.session

theorem agrees_finish {s : Session σ} {t : Session τ} (hwritten : s.written.Same t.written)
    (harranged : s.arranged.Same t.arranged) (hs : s.Cleared) (ht : t.Cleared) (formula : String)
    (ending : Except FormulaError Atom) (log : List Record) :
    (s.finish formula ending log).Agrees (t.finish formula ending log) where
  outcome := rfl
  log := rfl
  looks := by
    refine .of_ended ?_ ?_ (hs.ended_store ending) (ht.ended_store ending)
    · rwa [session_finish, session_finish, written_store, written_store]
    · rwa [session_finish, session_finish, arranged_store, arranged_store]

/-! ## 2. On from a cut -/

/-- The formula, cut into an empty sequence.  This is what an evaluation does first, and all that it
needs of the formula. -/
def cut (s : Session σ) (formula : String) : Except FormulaError Unit × AtomSeq :=
  s.lexicon.tokenize formula (.bounded s.config.maxAtoms)

theorem capacity_cut (s : Session σ) (formula : String) :
    (s.cut formula).2.capacity = s.config.maxAtoms := Lexicon.capacity_tokenize

/-- **There is room for the post-order of the atoms that were kept.**  It is no longer than they
are, and they found room in a sequence of the same capacity. -/
theorem fits_postOrder (s : Session σ) (formula : String) :
    (AtomSeq.bounded s.config.maxAtoms).Fits (postOrder (s.cut formula).2.toList).length := by
  intro most hmost
  have hwithin : (s.cut formula).2.Fits 0 :=
    Lexicon.fits_zero_tokenize (AtomSeq.fits_zero_bounded _)
  have hsize := hwithin most ((s.capacity_cut formula).trans hmost)
  have hlength := length_postOrder_le (s.cut formula).2.toList
  rw [AtomSeq.size_eq_length] at hsize
  simp only [AtomSeq.bounded, AtomSeq.size, List.size_toArray, List.length_nil]
  omega

theorem pushAll_of_fits {capacity : Option Nat} {atoms : List Atom}
    (h : (AtomSeq.bounded capacity).Fits atoms.length) :
    ((AtomSeq.bounded capacity).pushAll atoms).toList = atoms ∧
      ((AtomSeq.bounded capacity).pushAll atoms).overflowed = false := by
  constructor
  · exact AtomSeq.toList_pushAll h
  · exact (AtomSeq.overflowed_pushAll ..).mpr ⟨rfl, fun _ => h⟩

section Evaluate

variable {s : Session σ} {formula : String} {written : AtomSeq} [Chance.Source σ]

/-- **An evaluation is decided by its cut**, which also says what was reported of it. -/
theorem evaluate_eq (s : Session σ) (formula : String) : s.evaluate formula =
    let cut := s.cut formula
    let next := { s.reset with written := cut.2 }
    let report := (AtomSeq.bounded s.config.maxAtoms).overflowReport cut.2
    let done := Record.tokenized (String.ofList (normalize s.config.separator formula.toList))
      cut.2.size
    match cut.1 with
    | .error e => next.finish formula (.error e) report
    | .ok () =>
      if cut.2.overflowed then
        next.finish formula (.error .malformed)
          (report ++ [done, .tooLong formula s.config.maxAtoms])
      else next.run formula (report ++ [done]) := by
  have hlog := s.lexicon.log_tokenizing formula (.bounded s.config.maxAtoms)
  unfold evaluate cut Lexicon.tokenize at *
  simp only [lexicon_reset, written_reset, hlog]
  split
  · simp only [*, List.append_nil]
  · simp only [*, List.append_assoc, List.singleton_append]
    rfl

theorem evaluate_of_error {e : FormulaError} (hcut : s.cut formula = (.error e, written)) :
    s.evaluate formula = { s.reset with written }.finish formula (.error e)
      ((AtomSeq.bounded s.config.maxAtoms).overflowReport written) := by
  rw [evaluate_eq, hcut]

theorem evaluate_of_overflowed (hcut : s.cut formula = (.ok (), written))
    (hover : written.overflowed = true) :
    s.evaluate formula = { s.reset with written }.finish formula (.error .malformed)
      ((AtomSeq.bounded s.config.maxAtoms).overflowReport written ++
        [Record.tokenized (String.ofList (normalize s.config.separator formula.toList))
          written.size, Record.tooLong formula s.config.maxAtoms]) := by
  rw [evaluate_eq, hcut]
  simp only [hover, if_true]

theorem evaluate_of_kept (hcut : s.cut formula = (.ok (), written))
    (hkept : written.overflowed = false) :
    s.evaluate formula = { s.reset with written }.run formula
      [.tokenized (String.ofList (normalize s.config.separator formula.toList)) written.size] := by
  rw [evaluate_eq, hcut]
  simp only [hkept, AtomSeq.overflowReport_of_kept hkept]
  rfl

/-- **Once a formula is cut, it is refused or run.**  What is said of all evaluations is proved once
for each of the two. -/
theorem evaluate_cases (s : Session σ) (formula : String) :
    (∃ e log, s.evaluate formula =
      { s.reset with written := (s.cut formula).2 }.finish formula (.error e) log) ∨
    ∃ log, s.evaluate formula = { s.reset with written := (s.cut formula).2 }.run formula log := by
  rcases hcut : s.cut formula with ⟨e | _, written⟩
  · exact Or.inl ⟨e, _, evaluate_of_error hcut⟩
  · cases hover : written.overflowed with
    | true => exact Or.inl ⟨.malformed, _, evaluate_of_overflowed hcut hover⟩
    | false => exact Or.inr ⟨_, evaluate_of_kept hcut hover⟩

end Evaluate

/-! ## 3. What an evaluation leaves -/

section Leaves

variable [Chance.Source σ]

/-- What a run leaves in the session. -/
theorem session_run (s : Session σ) (formula : String) (log : List Record) :
    let result := Reckoner.evaluate Builtin.registry
      (s.arranged.pushAll (postOrder s.written.toList)).toList s.source
    (s.run formula log).session =
      { s with
        arranged := s.arranged.pushAll (postOrder s.written.toList)
        source := result.source }.store result.outcome := rfl

theorem outcome_run (s : Session σ) (formula : String) (log : List Record) :
    (s.run formula log).outcome =
      (Reckoner.evaluate Builtin.registry
        (s.arranged.pushAll (postOrder s.written.toList)).toList s.source).outcome.map
          Atom.value := rfl

/-- The atoms as written are what the formula was cut into, whatever came of them. -/
theorem written_evaluate (s : Session σ) (formula : String) :
    (s.evaluate formula).session.written = (s.cut formula).2 := by
  obtain ⟨e, log, h⟩ | ⟨log, h⟩ := s.evaluate_cases formula
  · rw [h]
    rfl
  · rw [h, session_run, written_store]

theorem bindings_evaluate (s : Session σ) (formula : String) :
    (s.evaluate formula).session.bindings = s.bindings := by
  obtain ⟨e, log, h⟩ | ⟨log, h⟩ := s.evaluate_cases formula
  · rw [h]
    rfl
  · rw [h, session_run, bindings_store]
    rfl

/-- **The post-order never overflows**, whatever is evaluated. -/
theorem overflowed_arranged_evaluate (s : Session σ) (formula : String) :
    (s.evaluate formula).session.arranged.overflowed = false := by
  obtain ⟨e, log, h⟩ | ⟨log, h⟩ := s.evaluate_cases formula
  · rw [h]
    rfl
  · rw [h, session_run, arranged_store]
    exact (pushAll_of_fits (s.fits_postOrder formula)).2

/-- **The atoms are rearranged if the formula was cut and all of it kept**, and else there are
none. -/
theorem arranged_evaluate (s : Session σ) (formula : String) :
    ((s.cut formula).1 = .ok () ∧ (s.cut formula).2.overflowed = false ∧
      (s.evaluate formula).session.arranged.toList = postOrder (s.cut formula).2.toList) ∨
    (((s.cut formula).1 ≠ .ok () ∨ (s.cut formula).2.overflowed = true) ∧
      (s.evaluate formula).session.arranged.toList = []) := by
  rcases hcut : s.cut formula with ⟨e | _, written⟩
  · right
    rw [evaluate_of_error hcut]
    exact ⟨Or.inl (by simp), rfl⟩
  · cases hover : written.overflowed with
    | true =>
      right
      rw [evaluate_of_overflowed hcut hover]
      exact ⟨Or.inr rfl, rfl⟩
    | false =>
      left
      have hfits := s.fits_postOrder formula
      rw [hcut] at hfits
      rw [evaluate_of_kept hcut hover, session_run, arranged_store]
      exact ⟨rfl, rfl, (pushAll_of_fits hfits).1⟩

theorem run_of_ok {s : Session σ} {formula : String} {x : Float}
    (h : (s.evaluate formula).outcome = .ok x) :
    ∃ a, (Reckoner.evaluate Builtin.registry (s.evaluate formula).session.arranged.toList
      s.source).outcome = .ok a ∧ a.value = x := by
  obtain ⟨e, log, heq⟩ | ⟨log, heq⟩ := s.evaluate_cases formula
  · rw [heq] at h
    cases h
  · rw [heq, outcome_run, Except.map.eq_def] at h
    rw [heq, session_run, arranged_store]
    split at h
    · cases h
    · rename_i a hrun
      exact ⟨a, hrun, Except.ok.inj h⟩

end Leaves

/-! ## 4. Evaluations that agree -/

section Agrees

variable [Chance.Source σ] [Chance.Source τ] {s : Session σ} {t : Session τ}

/-- Sessions agree on a formula when their runs of its atoms do, if there is room for the
post-order. -/
theorem agrees_run {atoms : List Atom} (hs : s.written.toList = atoms)
    (ht : t.written.toList = atoms) (hover : s.written.overflowed = t.written.overflowed)
    (hsc : s.Cleared) (htc : t.Cleared)
    {m n : Option Nat} (hsm : s.arranged = .bounded m) (htn : t.arranged = .bounded n)
    (hm : (AtomSeq.bounded m).Fits (postOrder atoms).length)
    (hn : (AtomSeq.bounded n).Fits (postOrder atoms).length)
    (hrun : (Reckoner.evaluate Builtin.registry (postOrder atoms) s.source).Agrees
      (Reckoner.evaluate Builtin.registry (postOrder atoms) t.source))
    (formula : String) (log : List Record) : (s.run formula log).Agrees (t.run formula log) := by
  obtain ⟨hlistm, hkeptm⟩ := pushAll_of_fits hm
  obtain ⟨hlistn, hkeptn⟩ := pushAll_of_fits hn
  have hwritten : s.written.Same t.written := ⟨hs.trans ht.symm, hover⟩
  have harranged : ((AtomSeq.bounded m).pushAll (postOrder atoms)).Same
      ((AtomSeq.bounded n).pushAll (postOrder atoms)) :=
    ⟨hlistm.trans hlistn.symm, hkeptm.trans hkeptn.symm⟩
  simp only [run, hs, ht, hsm, htn, hlistm, hlistn, hrun.outcome, hrun.steps,
    AtomSeq.reports_eq, AtomSeq.overflowReport_of_kept hkeptm,
    AtomSeq.overflowReport_of_kept hkeptn, AtomSeq.size_eq_length]
  apply agrees_finish
  · exact hwritten
  · exact harranged
  · exact hsc.with_rows ..
  · exact htc.with_rows ..

/-- **Sessions that cut a formula in the same way agree on it when their runs do**, under the same
configuration. -/
theorem agrees_of_cut {formula : String} (hconfig : s.config = t.config)
    (hcut : s.cut formula = t.cut formula)
    (hrun : let atoms := (s.evaluate formula).session.arranged.toList
      (Reckoner.evaluate Builtin.registry atoms s.source).Agrees
        (Reckoner.evaluate Builtin.registry atoms t.source)) :
    (s.evaluate formula).Agrees (t.evaluate formula) := by
  have hempty : (AtomSeq.bounded s.config.maxAtoms).Same (.bounded t.config.maxAtoms) := by
    rw [hconfig]
    exact .refl _
  have hfits := t.fits_postOrder formula
  rcases ht : t.cut formula with ⟨e | _, written⟩
  · rw [evaluate_of_error (hcut.trans ht), evaluate_of_error ht, hconfig]
    exact agrees_finish (.refl written) hempty (s.cleared_reset.with_rows ..)
      (t.cleared_reset.with_rows ..) formula (.error e) _
  · have hs := hcut.trans ht
    cases hover : written.overflowed with
    | true =>
      rw [evaluate_of_overflowed hs hover, evaluate_of_overflowed ht hover, hconfig]
      exact agrees_finish (.refl written) hempty (s.cleared_reset.with_rows ..)
        (t.cleared_reset.with_rows ..) formula (.error .malformed) _
    | false =>
      rw [ht] at hfits
      have harranged : (s.evaluate formula).session.arranged.toList = postOrder written.toList := by
        rw [evaluate_of_kept hs hover, session_run, arranged_store]
        exact (pushAll_of_fits (hconfig ▸ hfits)).1
      rw [harranged] at hrun
      rw [evaluate_of_kept hs hover, evaluate_of_kept ht hover, hconfig]
      exact agrees_run (s := { s.reset with written }) (t := { t.reset with written }) rfl rfl rfl
        (s.cleared_reset.with_rows ..) (t.cleared_reset.with_rows ..) rfl rfl (hconfig ▸ hfits)
        hfits hrun formula _

end Agrees

end Session

end Reckoner
