/-
# The random numbers of a session

What a session draws is accounted for by the calls that its formulas make: each call of `RND` with a
single number above zero takes the next number, in the order in which the functions stand in
post-order, and nothing else takes one (`Session.account_evaluate`, `Session.source_respondAll`).
So sessions that differ in their sources alone agree on a formula if their sources give the same
numbers for as long as it draws, and in any case on a formula that calls no `RND`
(`Session.Twin.agrees`).

`Session.draws_accounted` puts this together.
-/
import Reckoner.Chance.KeyStream
import Reckoner.Proofs.History

namespace Reckoner

open Chance

variable {σ τ : Type}

/-- A run that comes to an answer has run all atoms. -/
theorem Evaluation.length_steps {registry : Registry σ} {atoms stack : List Atom} {source : σ}
    {a : Atom} (h : (runFrom registry atoms stack source).outcome = .ok a) :
    (runFrom registry atoms stack source).steps.length = atoms.length := by
  induction atoms generalizing stack source with
  | nil => rfl
  | cons b rest ih =>
    rcases hstep : step registry b stack source with ⟨e | after, next⟩
    · rw [(runFrom_of_error hstep rest).1] at h
      cases h
    · rw [(runFrom_of_ok hstep rest).1] at h ⊢
      rw [List.length_cons, List.length_cons, ih h]

namespace Session

/-- The sessions have the same configuration and variables, and perhaps other sources.  What they
left of earlier formulas may differ, since it is forgotten before the next one. -/
structure Twin (s : Session σ) (t : Session τ) : Prop where
  config : s.config = t.config
  bindings : s.bindings = t.bindings

variable [Source σ] [Source τ]

/-! ## 1. Requests -/

/-- How many numbers a request draws: one for each call of a formula that draws. -/
def draws (s : Session σ) : Request → Nat
  | .evaluate formula => (s.calls formula).countP Call.draws
  | _ => 0

/-- How many numbers are drawn by requests in turn. -/
def drawsAll (s : Session σ) : List Request → Nat
  | [] => 0
  | request :: rest => s.draws request + (s.respond request).drawsAll rest

theorem source_respond (s : Session σ) (request : Request) :
    (s.respond request).source = (drawMany (s.draws request) s.source).2 := by
  cases request with
  | evaluate formula => exact (s.account_evaluate formula).source_eq
  | _ => rfl

/-- **The source is where the draws of all requests leave it.**  Requests that evaluate nothing draw
nothing, and the draws of the others add up. -/
theorem source_respondAll (s : Session σ) (requests : List Request) :
    (s.respondAll requests).source = (drawMany (s.drawsAll requests) s.source).2 := by
  induction requests generalizing s with
  | nil => rfl
  | cons request rest ih =>
    rw [drawsAll, ← drawMany_drawMany, ← source_respond, ← ih]
    rfl

/-! ## 2. Other sources -/

section Twin

variable {s : Session σ} {t : Session τ} (h : s.Twin t) {formula : String}
  (hdrawn : let count := s.draws (.evaluate formula)
    (drawMany count t.source).1 = (drawMany count s.source).1)

include h hdrawn

/-- **Of the source a formula sees nothing but the numbers that it draws.**  It is enough that the
other source gives these numbers, in their order, to begin with. -/
theorem Twin.agrees : (s.evaluate formula).Agrees (t.evaluate formula) := by
  have hcut : s.cut formula = t.cut formula := by
    rw [cut, cut, lexicon, lexicon, h.config, h.bindings]
  exact agrees_of_cut h.config hcut (Evaluation.runFrom_of_drawn _ [] s.source t.source hdrawn).1

theorem Twin.calls_eq : s.calls formula = t.calls formula := by
  have harranged := (h.agrees hdrawn).looks.arranged.toList_eq
  have hcalls := (Evaluation.runFrom_of_drawn _ [] s.source t.source hdrawn).2
  rw [calls, calls, hcalls, harranged]

end Twin

/-! ## 3. Calls of a formula -/

/-- The calls are those of the functions in post-order: of all that were run, and perhaps of the one
that failed; and of all of them, if there is an answer. -/
structure CallsInOrder (s : Session σ) (formula : String) : Prop where
  ran : let atoms := (s.evaluate formula).session.arranged.toList
    let steps := (Reckoner.evaluate Builtin.registry atoms s.source).steps
    Evaluation.functionNames (atoms.take steps.length) <+: (s.calls formula).map Call.name
  among : (s.calls formula).map Call.name <+:
    Evaluation.functionNames (s.evaluate formula).session.arranged.toList
  answered : ∀ x, (s.evaluate formula).outcome = .ok x → (s.calls formula).map Call.name =
    Evaluation.functionNames (s.evaluate formula).session.arranged.toList

theorem callsInOrder (s : Session σ) (formula : String) : s.CallsInOrder formula := by
  obtain ⟨hran, hamong⟩ := Evaluation.names_callsFrom Builtin.registry
    (s.evaluate formula).session.arranged.toList [] s.source
  refine ⟨hran, hamong, ?_⟩
  intro x hx
  obtain ⟨a, ha, -⟩ := run_of_ok hx
  rw [Evaluation.length_steps ha, List.take_length] at hran
  exact hamong.eq_of_length (Nat.le_antisymm hamong.length_le hran.length_le)

/-- **What is drawn is accounted for.**  The source advances by one number for each call of `RND`
with a single number above zero, whatever else is asked of the session, and each of these calls has
its own number, in post-order.  A formula that is refused calls nothing.  A session with another
source agrees on every formula for which that source gives the same numbers, and on every formula
that calls no `RND`. -/
theorem draws_accounted (s : Session σ) :
    (∀ requests, (s.respondAll requests).source =
      (drawMany (s.drawsAll requests) s.source).2) ∧
    (∀ formula, Account (s.calls formula) s.source (s.evaluate formula).session.source ∧
      s.CallsInOrder formula ∧
      ((s.cut formula).1 ≠ .ok () ∨ (s.cut formula).2.overflowed = true →
        s.calls formula = [] ∧ (s.evaluate formula).session.source = s.source)) ∧
    ∀ {τ : Type} [Source τ] (t : Session τ) (formula : String), s.Twin t →
      ((let count := s.draws (.evaluate formula)
        (drawMany count t.source).1 = (drawMany count s.source).1) →
          (s.evaluate formula).Agrees (t.evaluate formula)) ∧
      ((∀ a ∈ (s.evaluate formula).session.written.toList, a.callsRandom = false) →
        (s.evaluate formula).Agrees (t.evaluate formula) ∧
        (s.evaluate formula).session.source = s.source ∧
        (t.evaluate formula).session.source = t.source) := by
  refine ⟨s.source_respondAll, ?_, ?_⟩
  · intro formula
    refine ⟨s.account_evaluate formula, s.callsInOrder formula, ?_⟩
    intro hrefused
    have hcalls : s.calls formula = [] := by
      rcases s.arranged_evaluate formula with ⟨hok, hkept, -⟩ | ⟨-, harranged⟩
      · rw [hok, hkept] at hrefused
        rcases hrefused with h | h
        · exact absurd rfl h
        · cases h
      · rw [calls, harranged, Evaluation.callsFrom]
    have hsource := (s.account_evaluate formula).source_eq
    rw [hcalls] at hsource
    exact ⟨hcalls, hsource⟩
  · intro τ _ t formula htwin
    refine ⟨htwin.agrees, ?_⟩
    intro hsteady
    have hnone : s.draws (.evaluate formula) = 0 := countP_draws_calls hsteady
    have hagrees : (s.evaluate formula).Agrees (t.evaluate formula) := by
      apply htwin.agrees
      rw [hnone]
      rfl
    have hsteady' : ∀ a ∈ (t.evaluate formula).session.written.toList, a.callsRandom = false := by
      rw [← hagrees.looks.written.toList_eq]
      exact hsteady
    exact ⟨hagrees, source_evaluate hsteady, source_evaluate hsteady'⟩

/-- Three numbers are drawn: `RND` of zero takes none, nor does it with two arguments, after a
malformed number or within a formula that overflows; what was drawn before a failure is gone. -/
theorem draws_accounted_failure :
    let s : Session Chance.Cycle :=
      .fresh { Config.standard with maxAtoms := some 16 } (.ofList [0.5, 0.25])
    let t : Session Chance.KeyStream :=
      .fresh { Config.standard with maxAtoms := some 16 } (.ofSeed 7)
    let requests : List Request := [.evaluate "rnd(10)+rnd(0)", .bind "x" 4,
      .evaluate "foo(rnd(x))+rnd(9)", .evaluate "rnd(1;2)", .format 1, .evaluate "rnd(3)+1x",
      .evaluate "rnd(1)+rnd(1)+rnd(1)+rnd(1)", .evaluate "max(Rnd(2);1/0)"]
    s.drawsAll requests = 3 ∧ (s.respondAll requests).source = ⟨[0.5, 0.25], 3⟩ ∧
    s.Twin t ∧ (s.evaluate "max(2;3)").Agrees (t.evaluate "max(2;3)") ∧
    (t.evaluate "max(2;3)").session.source = t.source := by
  intro s t requests
  have hcount : s.drawsAll requests = 3 := by decide +kernel
  have htwin : s.Twin t := ⟨rfl, rfl⟩
  obtain ⟨hsource, -, htwins⟩ := s.draws_accounted
  have hlast := hsource requests
  rw [hcount] at hlast
  obtain ⟨hagrees, -, hstill⟩ := (htwins t "max(2;3)" htwin).2 (by decide +kernel)
  exact ⟨hcount, hlast, htwin, hagrees, hstill⟩

end Session

end Reckoner
