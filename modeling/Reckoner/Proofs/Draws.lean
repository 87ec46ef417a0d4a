/-
# Who draws

A run draws from the random source once for each of its calls that draw, in their order, and each of
them gives its part of the number that was drawn for it (`Evaluation.account_runFrom`).  Of the
source a run sees nothing else: from sources that give the same numbers for as long as it draws, it
comes to the same outcome in the same steps (`Evaluation.runFrom_of_drawn`).

What a run draws is what the evaluation of its formula draws (`Session.account_evaluate`), and a
formula that is refused draws nothing, since it has no run.
-/
import Reckoner.Proofs.Calls
import Reckoner.Proofs.View

namespace Reckoner

open Chance

variable {σ τ : Type}

/-! ## 1. Several numbers -/

section DrawMany

variable [Source σ]

theorem drawMany_succ (n : Nat) (source : σ) :
    drawMany (n + 1) source =
      ((draw source).1 :: (drawMany n (draw source).2).1, (drawMany n (draw source).2).2) := rfl

theorem drawMany_drawMany (m n : Nat) (source : σ) :
    (drawMany n (drawMany m source).2).2 = (drawMany (m + n) source).2 := by
  induction m generalizing source with
  | zero => rw [Nat.zero_add, drawMany]
  | succ m ih => rw [Nat.succ_add, drawMany_succ, drawMany_succ, ih]

end DrawMany

/-! ## 2. Accounts -/

/-- The calls account for the way from one state of the source to another: it gave as many numbers
as there are calls that draw, and to each of these its own. -/
structure Account [Source σ] (calls : List Call) (source next : σ) : Prop where
  source_eq : next = (drawMany (calls.countP Call.draws) source).2
  outcomes_eq : (calls.filter Call.draws).map Call.outcome =
    List.zipWith (fun c x => .ok (partOf c.args x)) (calls.filter Call.draws)
      (drawMany (calls.countP Call.draws) source).1

namespace Account

variable [Source σ] {c : Call} {calls : List Call} {source next : σ}

theorem nil (source : σ) : Account [] source source := ⟨rfl, rfl⟩

theorem idle {made : Option Call} (hmade : ∀ c ∈ made, c.draws = false)
    (h : Account calls source next) : Account (made.toList ++ calls) source next := by
  cases made with
  | none => exact h
  | some c =>
    have hnot : ¬ c.draws = true := Bool.eq_false_iff.mp (hmade c rfl)
    rw [Option.toList_some, List.singleton_append]
    constructor
    · rw [List.countP_cons_of_neg hnot]
      exact h.source_eq
    · rw [List.countP_cons_of_neg hnot, List.filter_cons_of_neg hnot]
      exact h.outcomes_eq

/-- A call that draws takes the first number. -/
theorem drawn (hc : c.draws = true) (hpart : c.outcome = .ok (partOf c.args (draw source).1))
    (h : Account calls (draw source).2 next) : Account (c :: calls) source next := by
  constructor
  · rw [List.countP_cons_of_pos hc, drawMany_succ]
    exact h.source_eq
  · rw [List.countP_cons_of_pos hc, List.filter_cons_of_pos hc, drawMany_succ, List.map_cons,
      List.zipWith_cons_cons, hpart, h.outcomes_eq]

end Account

/-! ## 3. Runs -/

namespace Evaluation

/-- **A run draws once for each call that draws, in their order.**  By induction on the atoms, with
a case for each thing that a step can do with the source. -/
theorem account_runFrom [Source σ] (atoms stack : List Atom) (source : σ) :
    Account (callsFrom Builtin.registry atoms stack source) source
      (runFrom Builtin.registry atoms stack source).source := by
  induction atoms generalizing stack source with
  | nil => exact .nil source
  | cons a rest ih =>
    rcases step_source_cases a stack with
      ⟨next, made, hidle, hsteps⟩ | ⟨name, args, next, hdraws, hsteps⟩
    · obtain ⟨hstep, hmade⟩ := hsteps source
      cases next with
      | error e =>
        obtain ⟨hrun, hcalls⟩ := runFrom_of_error hstep rest
        rw [hrun, hcalls, hmade, ← List.append_nil made.toList]
        exact .idle hidle (.nil source)
      | ok after =>
        obtain ⟨hrun, hcalls⟩ := runFrom_of_ok hstep rest
        rw [hrun, hcalls, hmade]
        exact .idle hidle (ih after source)
    · obtain ⟨hstep, hmade⟩ := hsteps source
      obtain ⟨hrun, hcalls⟩ := runFrom_of_ok hstep rest
      rw [hrun, hcalls, hmade, Option.toList_some, List.singleton_append]
      exact .drawn hdraws rfl (ih _ _)

/-- **A run sees nothing of the source but the numbers that it draws.**  The other source may be of
another type, and what it gives after these numbers does not matter. -/
theorem runFrom_of_drawn [Source σ] [Source τ] (atoms stack : List Atom) (source : σ) (other : τ)
    (h : let count := (callsFrom Builtin.registry atoms stack source).countP Call.draws
      (drawMany count other).1 = (drawMany count source).1) :
    (runFrom Builtin.registry atoms stack source).Agrees
        (runFrom Builtin.registry atoms stack other) ∧
      callsFrom Builtin.registry atoms stack source =
        callsFrom Builtin.registry atoms stack other := by
  induction atoms generalizing stack source other with
  | nil =>
    obtain ⟨hrun, hcalls⟩ := runFrom_nil Builtin.registry stack source
    obtain ⟨hrun', hcalls'⟩ := runFrom_nil Builtin.registry stack other
    rw [hrun, hrun', hcalls, hcalls']
    exact ⟨⟨rfl, rfl⟩, rfl⟩
  | cons a rest ih =>
    rcases step_source_cases a stack with
      ⟨next, made, hidle, hsteps⟩ | ⟨name, args, next, hdraws, hsteps⟩
    · obtain ⟨hstep, hmade⟩ := hsteps source
      obtain ⟨hstep', hmade'⟩ := hsteps other
      cases next with
      | error e =>
        obtain ⟨hrun, hcalls⟩ := runFrom_of_error hstep rest
        obtain ⟨hrun', hcalls'⟩ := runFrom_of_error hstep' rest
        rw [hrun, hrun', hcalls, hcalls', hmade, hmade']
        exact ⟨⟨rfl, rfl⟩, rfl⟩
      | ok after =>
        obtain ⟨hrun, hcalls⟩ := runFrom_of_ok hstep rest
        obtain ⟨hrun', hcalls'⟩ := runFrom_of_ok hstep' rest
        have hnone : made.toList.countP Call.draws = 0 := by
          rw [List.countP_eq_zero]
          intro c hc
          rw [hidle c (Option.mem_toList.mp hc)]
          exact Bool.false_ne_true
        rw [hcalls, hmade, List.countP_append, hnone, Nat.zero_add] at h
        obtain ⟨⟨houtcome, hnames⟩, hlater⟩ := ih after source other h
        rw [hrun, hrun', hcalls, hcalls', hmade, hmade', hlater]
        exact ⟨⟨houtcome, congrArg _ hnames⟩, rfl⟩
    · obtain ⟨hstep, hmade⟩ := hsteps source
      obtain ⟨hstep', hmade'⟩ := hsteps other
      obtain ⟨hrun, hcalls⟩ := runFrom_of_ok hstep rest
      obtain ⟨hrun', hcalls'⟩ := runFrom_of_ok hstep' rest
      have hdraws' : ∀ outcome, (Call.mk name args outcome).draws = true := fun _ => hdraws
      -- the first number goes to this call, the others to those after it
      rw [hcalls, hmade, Option.toList_some, List.singleton_append,
        List.countP_cons_of_pos (hdraws' _)] at h
      obtain ⟨hfirst, hothers⟩ : (draw other).1 = (draw source).1 ∧ _ := List.cons.inj h
      rw [hfirst] at hrun' hcalls' hmade'
      obtain ⟨⟨houtcome, hnames⟩, hlater⟩ := ih _ _ _ hothers
      rw [hrun, hrun', hcalls, hcalls', hmade, hmade', hlater]
      exact ⟨⟨houtcome, congrArg _ hnames⟩, rfl⟩

end Evaluation

/-! ## 4. Formulas -/

/-- The atom calls `RND`. -/
def Atom.callsRandom (a : Atom) : Bool :=
  a.kind = .function && Text.uppercase a.name = "RND"

theorem Evaluation.countP_draws_callsFrom {registry : Registry σ} {atoms stack : List Atom}
    {source : σ} (h : ∀ a ∈ atoms, a.callsRandom = false) :
    (callsFrom registry atoms stack source).countP Call.draws = 0 := by
  rw [List.countP_eq_zero]
  intro c hc hdraws
  have hname : c.name ∈ functionNames atoms :=
    (names_callsFrom registry atoms stack source).2.subset (List.mem_map_of_mem hc)
  obtain ⟨a, ha, hsame⟩ := List.mem_map.mp hname
  obtain ⟨hmem, hkind⟩ := List.mem_filter.mp ha
  have hrandom : a.callsRandom = true := by
    simp only [Call.draws, drawsOn, Bool.and_eq_true] at hdraws
    simp only [Atom.callsRandom, hsame, hkind, hdraws.1, Bool.and_self]
  rw [h a hmem] at hrandom
  cases hrandom

namespace Session

variable [Source σ]

/-- The calls that the evaluation of a formula makes, in the order in which it makes them.  A
formula that is refused has no post-order and so makes none. -/
def calls (s : Session σ) (formula : String) : List Call :=
  Evaluation.callsFrom Builtin.registry (s.evaluate formula).session.arranged.toList [] s.source

/-- **The evaluation of a formula draws once for each of its calls that draw**, in their order. -/
theorem account_evaluate (s : Session σ) (formula : String) :
    Account (s.calls formula) s.source (s.evaluate formula).session.source := by
  obtain ⟨e, log, h⟩ | ⟨log, h⟩ := s.evaluate_cases formula
  · rw [calls, h]
    exact .nil s.source
  · rw [calls, h, session_run, source_store, arranged_store]
    exact Evaluation.account_runFrom _ [] s.source

/-- Evaluations that leave the same atoms behind, from the same source, leave the same source.
Which numbers are drawn is settled by the atoms, however they were come by. -/
theorem source_eq_of_agrees {s t : Session σ} {first second : String}
    (h : (s.evaluate first).Agrees (t.evaluate second)) (hsource : s.source = t.source) :
    (s.evaluate first).session.source = (t.evaluate second).session.source := by
  have hcalls : s.calls first = t.calls second := by
    rw [calls, calls, h.looks.arranged.toList_eq, hsource]
  rw [(s.account_evaluate first).source_eq, (t.account_evaluate second).source_eq, hcalls, hsource]

theorem countP_draws_calls {s : Session σ} {formula : String}
    (h : ∀ a ∈ (s.evaluate formula).session.written.toList, a.callsRandom = false) :
    (s.calls formula).countP Call.draws = 0 := by
  apply Evaluation.countP_draws_callsFrom
  rcases s.arranged_evaluate formula with ⟨-, -, harranged⟩ | ⟨-, harranged⟩
  · intro a ha
    rw [harranged, ← written_evaluate] at ha
    exact h a (mem_of_mem_postOrder ha)
  · rw [harranged]
    simp

/-- **A formula that calls no `RND` leaves the source as it was.**  The atoms are asked as written,
before it is known whether the formula can be run. -/
theorem source_evaluate {s : Session σ} {formula : String}
    (h : ∀ a ∈ (s.evaluate formula).session.written.toList, a.callsRandom = false) :
    (s.evaluate formula).session.source = s.source := by
  rw [(s.account_evaluate formula).source_eq, countP_draws_calls h, drawMany]

end Session

end Reckoner
