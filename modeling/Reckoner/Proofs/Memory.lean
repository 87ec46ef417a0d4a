/-
# What a session remembers of a formula

Between two evaluations a caller can ask for the error of the last formula, for its message, for the
last answer as an atom, for the expression that was computed, and for both rows of atoms.  All of
them tell of the same formula: the last one that was evaluated, whatever else was asked for since.

`Session.remembersEnd_evaluate` and `Session.remembersAtoms_evaluate` say what one evaluation
leaves, through each of its exits; `Session.remembers_of_start` says it of every session that was
started, after any requests.
-/
import Reckoner.Proofs.History
import Reckoner.Proofs.Machine

namespace Reckoner

/-- Every failure has something to say. -/
theorem FormulaError.message_ne_empty (e : FormulaError) : e.message ≠ "" := by
  unfold FormulaError.message
  split <;> simp

namespace Session

variable {σ : Type}

/-! ## 1. What is remembered -/

structure Untouched (s : Session σ) : Prop where
  lastError : s.lastError = none
  errorMessage : s.errorMessage = ""
  lastAtom : s.lastAtom = none
  trace : s.trace = none
  written : s.written.toList = []
  arranged : s.arranged.toList = []

/-- The session shows that the last formula ended with this outcome.  Error, message and last atom
are stored apart, and every reader looks at one of them; here they all tell the same. -/
structure RemembersEnd (s : Session σ) (outcome : Except FormulaError Float) : Prop where
  failed_iff : s.failed = true ↔ ∃ e, outcome = .error e
  lastError_iff : ∀ e, s.lastError = some e ↔ outcome = .error e
  message_of_ok : ∀ x, outcome = .ok x → s.errorMessage = ""
  message_of_error : ∀ e, outcome = .error e → s.errorMessage = e.message ∧ s.errorMessage ≠ ""
  atom_of_error : ∀ e, outcome = .error e →
    s.lastAtom = some ⟨.error, e.message, 0⟩ ∧ s.trace = none
  atom_of_ok : ∀ x, outcome = .ok x → ∃ a, s.lastAtom = some a ∧
    (a.kind = .value ∨ a.kind = .var ∨ a.kind = .result) ∧ a.value = x ∧
    ∀ name, s.trace = some name ↔ a.kind = .result ∧ a.name = name

/-- The session shows the atoms of a formula that was cut with this result, under this limit.  A
formula that is refused while it is cut is shown as far as it was cut. -/
structure RemembersAtoms (s : Session σ) (limit : Option Nat)
    (cut : Except FormulaError Unit × AtomSeq) : Prop where
  written : s.written = cut.2
  arranged_of_kept : cut.1 = .ok () → cut.2.overflowed = false →
    s.arranged.toList = postOrder s.written.toList
  arranged_of_refused : (cut.1 ≠ .ok () ∨ cut.2.overflowed = true) → s.arranged.toList = []
  arranged_le : s.arranged.size ≤ s.written.size
  written_le : ∀ most ∈ limit, s.written.size ≤ most

/-- An end is shown as it was stored, if an answer was an operand. -/
theorem RemembersEnd.of_ended {s : Session σ} {ending : Except FormulaError Atom}
    (h : s.Ended ending) (hoperand : ∀ a, ending = .ok a → a.isOperand = true) :
    s.RemembersEnd (ending.map Atom.value) := by
  cases ending with
  | error e =>
    obtain ⟨hlastError, hmessage, hatom⟩ := h
    constructor
    · simp [failed, hlastError, Except.map]
    · intro e'
      simp [hlastError, Except.map]
    · rintro x ⟨⟩
    · rintro _ ⟨⟩
      rw [hmessage]
      exact ⟨rfl, e.message_ne_empty⟩
    · rintro _ ⟨⟩
      refine ⟨hatom, ?_⟩
      rw [trace, hatom]
      rfl
    · rintro x ⟨⟩
  | ok a =>
    obtain ⟨hlastError, hmessage, hatom⟩ := h
    constructor
    · simp [failed, hlastError, Except.map]
    · intro e
      simp [hlastError, Except.map]
    · rintro x -
      exact hmessage
    · rintro e ⟨⟩
    · rintro e ⟨⟩
    · rintro _ ⟨⟩
      exact ⟨a, hatom, Evaluation.isOperand_iff.mp (hoperand a rfl), rfl, trace_eq_some_iff hatom⟩

variable [Chance.Source σ]

/-! ## 2. What one evaluation leaves to be remembered -/

/-- **An evaluation stores how it ended**, and only operands are answers.  There are two ways out, a
refusal and a run, and both go through `finish`. -/
theorem ended_evaluate (s : Session σ) (formula : String) :
    ∃ ending, (s.evaluate formula).session.Ended ending ∧
      (s.evaluate formula).outcome = ending.map Atom.value ∧
      ∀ a, ending = .ok a → a.isOperand = true := by
  -- whatever was stored before is cleared in front of each of the exits
  obtain ⟨e, log, h⟩ | ⟨log, h⟩ := s.evaluate_cases formula
  · rw [h, session_finish]
    refine ⟨.error e, (s.cleared_reset.with_rows ..).ended_store _, rfl, ?_⟩
    rintro a ⟨⟩
  · rw [h, session_run]
    refine ⟨_, (s.cleared_reset.with_rows ..).ended_store _, outcome_run _ formula log, ?_⟩
    intro a ha
    exact (Evaluation.evaluate_ok_iff.mp ⟨ha, rfl⟩).2

theorem remembersEnd_evaluate (s : Session σ) (formula : String) :
    (s.evaluate formula).session.RemembersEnd (s.evaluate formula).outcome := by
  obtain ⟨ending, hended, houtcome, hoperand⟩ := s.ended_evaluate formula
  rw [houtcome]
  exact .of_ended hended hoperand

theorem remembersAtoms_evaluate (s : Session σ) (formula : String) :
    (s.evaluate formula).session.RemembersAtoms s.config.maxAtoms (s.cut formula) := by
  have hwritten := s.written_evaluate formula
  have hwithin : ∀ most ∈ s.config.maxAtoms, (s.cut formula).2.size ≤ most := by
    intro most hmost
    have hfits : (s.cut formula).2.Fits 0 :=
      Lexicon.fits_zero_tokenize (AtomSeq.fits_zero_bounded _)
    have hcapacity : (s.cut formula).2.capacity = some most := by
      rw [s.capacity_cut formula]
      exact hmost
    have hroom := hfits most hcapacity
    rwa [Nat.add_zero] at hroom
  rw [← hwritten] at hwithin
  rcases s.arranged_evaluate formula with ⟨hok, hkept, harranged⟩ | ⟨hrefused, harranged⟩
  · have hlength := length_postOrder_le (s.cut formula).2.toList
    rw [← harranged, ← hwritten, ← AtomSeq.size_eq_length, ← AtomSeq.size_eq_length] at hlength
    refine ⟨hwritten, ?_, ?_, hlength, hwithin⟩
    · intro _ _
      rw [harranged, hwritten]
    · rw [hok, hkept]
      rintro (hnot | hover)
      · exact absurd rfl hnot
      · cases hover
  · have hlength : (s.evaluate formula).session.arranged.size ≤
        (s.evaluate formula).session.written.size := by
      rw [AtomSeq.size_eq_length, harranged]
      exact Nat.zero_le _
    refine ⟨hwritten, ?_, fun _ => harranged, hlength, hwithin⟩
    intro hok hkept
    rw [hok, hkept] at hrefused
    rcases hrefused with hnot | hover
    · exact absurd rfl hnot
    · cases hover

/-! ## 3. Sessions and all their requests -/

/-- Nothing that is remembered differs.  Fields are compared and not readers, so that every reader
gives the same. -/
structure SameMemory (s t : Session σ) : Prop where
  written : s.written = t.written
  arranged : s.arranged = t.arranged
  lastError : s.lastError = t.lastError
  errorMessage : s.errorMessage = t.errorMessage
  lastAtom : s.lastAtom = t.lastAtom

/-- **Only evaluations touch what is remembered.** -/
theorem sameMemory_respond (s : Session σ) {request : Request} (h : request.evaluates = false) :
    (s.respond request).SameMemory s := by
  cases request with
  | evaluate formula => cases h
  | _ => exact ⟨rfl, rfl, rfl, rfl, rfl⟩

omit [Chance.Source σ] in
theorem SameMemory.trans {r s t : Session σ} (h : r.SameMemory s) (h' : s.SameMemory t) :
    r.SameMemory t where
  written := h.written.trans h'.written
  arranged := h.arranged.trans h'.arranged
  lastError := h.lastError.trans h'.lastError
  errorMessage := h.errorMessage.trans h'.errorMessage
  lastAtom := h.lastAtom.trans h'.lastAtom

theorem sameMemory_respondAll (s : Session σ) {requests : List Request}
    (h : ∀ request ∈ requests, request.evaluates = false) :
    (s.respondAll requests).SameMemory s := by
  induction requests generalizing s with
  | nil => exact ⟨rfl, rfl, rfl, rfl, rfl⟩
  | cons request rest ih =>
    obtain ⟨hfirst, hrest⟩ := List.forall_mem_cons.mp h
    exact (ih (s.respond request) hrest).trans (s.sameMemory_respond hfirst)

omit [Chance.Source σ] in
theorem SameMemory.looksLike {s t : Session σ} (h : s.SameMemory t) : s.LooksLike t :=
  .of_stored (h.written ▸ .refl _) (h.arranged ▸ .refl _) h.lastError h.errorMessage h.lastAtom

omit [Chance.Source σ] in
theorem RemembersEnd.of_sameMemory {s t : Session σ} {outcome : Except FormulaError Float}
    (hsame : s.SameMemory t) (h : t.RemembersEnd outcome) : s.RemembersEnd outcome := by
  obtain ⟨-, -, hlastError, hmessage, hatom, htrace⟩ := hsame.looksLike
  have hfailed : s.failed = t.failed := by rw [failed, failed, hlastError]
  constructor
  · rw [hfailed]
    exact h.failed_iff
  · rw [hlastError]
    exact h.lastError_iff
  · rw [hmessage]
    exact h.message_of_ok
  · rw [hmessage]
    exact h.message_of_error
  · rw [hatom, htrace]
    exact h.atom_of_error
  · rw [hatom, htrace]
    exact h.atom_of_ok

omit [Chance.Source σ] in
theorem RemembersAtoms.of_sameMemory {s t : Session σ} {limit : Option Nat}
    {cut : Except FormulaError Unit × AtomSeq} (hsame : s.SameMemory t)
    (h : t.RemembersAtoms limit cut) : s.RemembersAtoms limit cut := by
  obtain ⟨hwritten, harranged, -⟩ := hsame
  constructor
  · exact hwritten.trans h.written
  · rw [harranged, hwritten]
    exact h.arranged_of_kept
  · rw [harranged]
    exact h.arranged_of_refused
  · rw [harranged, hwritten]
    exact h.arranged_le
  · rw [hwritten]
    exact h.written_le

/-- **What a session shows of the last formula fits together**, after any requests: nothing before
the first evaluation, and then the end and the atoms of the last one.  A request that evaluates
nothing changes none of it. -/
theorem remembers_of_start {config : Config} {source : σ} {first : Session σ}
    (hstart : Session.start config source = .ok first) (requests : List Request) :
    ((∀ request ∈ requests, request.evaluates = false) →
      (first.respondAll requests).Untouched) ∧
    (∀ earlier formula later, requests = earlier ++ .evaluate formula :: later →
      (∀ request ∈ later, request.evaluates = false) →
      let before := first.respondAll earlier
      (first.respondAll requests).RemembersEnd (before.evaluate formula).outcome ∧
      (first.respondAll requests).RemembersAtoms config.maxAtoms
        (before.lexicon.tokenize formula (.bounded config.maxAtoms))) ∧
    ∀ request : Request, request.evaluates = false →
      ((first.respondAll requests).respond request).LooksLike (first.respondAll requests) := by
  obtain ⟨-, rfl⟩ := start_eq_ok hstart
  refine ⟨?_, ?_, ?_⟩
  · intro hnone
    have hsame := (fresh config source).sameMemory_respondAll hnone
    obtain ⟨hwritten, harranged, hlastError, hmessage, hatom, htrace⟩ := hsame.looksLike
    exact ⟨hlastError, hmessage, hatom, htrace, hwritten.toList_eq, harranged.toList_eq⟩
  · rintro earlier formula later rfl hlater before
    have hreached : before.Reached config := (Reached.start hstart).respondAll earlier
    have hlimit : before.config.maxAtoms = config.maxAtoms := by rw [hreached.settled.2.config_eq]
    have hrequests : (fresh config source).respondAll (earlier ++ .evaluate formula :: later) =
        (before.evaluate formula).session.respondAll later := by
      simp only [respondAll, List.foldl_append, List.foldl_cons]
      rfl
    rw [hrequests, ← hlimit]
    have hsame := (before.evaluate formula).session.sameMemory_respondAll hlater
    exact ⟨(before.remembersEnd_evaluate formula).of_sameMemory hsame,
      (before.remembersAtoms_evaluate formula).of_sameMemory hsame⟩
  · intro request hrequest
    exact (sameMemory_respond _ hrequest).looksLike

/-- A formula failed after one that overflowed, and variables changed since: the division by zero
is remembered, together with its three atoms. -/
theorem remembers_of_start_division :
    let config : Config := { Config.standard with maxAtoms := some 3 }
    let first : Session Chance.Cycle := .fresh config (.ofList [])
    let before := first.respondAll [.evaluate "1+2+3", .bind "x" 0]
    let s := first.respondAll
      [.evaluate "1+2+3", .bind "x" 0, .evaluate "5/x", .bind "x" 2, .format 1.5]
    Session.start config (Chance.Cycle.ofList []) = .ok first ∧
    before.errorMessage = "Syntax error" ∧
    s.RemembersEnd (before.evaluate "5/x").outcome ∧
    s.RemembersAtoms config.maxAtoms
      (before.lexicon.tokenize "5/x" (.bounded config.maxAtoms)) ∧
    s.errorMessage = "Divide by zero" ∧ s.arranged.toList.map Atom.name = ["5", "X", "/"] := by
  intro config first before s
  have hstart : Session.start config (Chance.Cycle.ofList []) = .ok first := rfl
  obtain ⟨hend, hatoms⟩ := (remembers_of_start hstart
    [.evaluate "1+2+3", .bind "x" 0, .evaluate "5/x", .bind "x" 2, .format 1.5]).2.1
    [.evaluate "1+2+3", .bind "x" 0] "5/x" [.bind "x" 2, .format 1.5] rfl
      (by simp [Request.evaluates])
  exact ⟨hstart, by decide +kernel, hend, hatoms, by decide +kernel, by decide +kernel⟩

end Session

end Reckoner
