/-
# Periods of a bounded sequence

A sequence is pushed to and cleared in any order (`AtomSeq.perform`).  The clears cut the pushes
into periods (`AtomSeq.History`), and these tell all that is seen of the sequence
(`AtomSeq.perform_historyFrom`): it is what the pushes of the last period make of an empty one, and
that is as much of their beginning as the capacity allows (`AtomSeq.toList_pushAll_bounded`).

`AtomSeq.perform_periods` says what a sequence holds after any operations, which pushes were kept,
and that there was one warning for each period in which a push was not.
-/
import Mathlib.Data.List.Induction
import Reckoner.Proofs.Sequence
import Reckoner.Proofs.View

namespace Reckoner.AtomSeq

/-! ## 1. One period -/

def allows (capacity : Option Nat) (count : Nat) : Bool := capacity.all (count ≤ ·)

theorem accepts_eq (s : AtomSeq) : s.accepts = allows s.capacity (s.size + 1) := by
  rw [accepts, allows]
  cases s.capacity <;> rfl

theorem allows_of_succ {capacity : Option Nat} {count : Nat}
    (h : allows capacity (count + 1) = true) : allows capacity count = true := by
  simp only [allows, Option.all_eq_true, decide_eq_true_eq] at h ⊢
  intro most hmost
  exact Nat.le_of_succ_le (h most hmost)

theorem pushAll_concat (s : AtomSeq) (atoms : List Atom) (a : Atom) :
    s.pushAll (atoms ++ [a]) = (s.pushAll atoms).push a := by
  rw [pushAll, List.foldl_append]
  rfl

/-- **Pushes to an empty sequence leave the beginning of what was pushed.** -/
theorem toList_pushAll_bounded (capacity : Option Nat) (atoms : List Atom) :
    ((bounded capacity).pushAll atoms).toList = capacity.elim atoms atoms.take := by
  -- by the last push, which finds room if fewer were pushed before than the capacity allows
  induction atoms using List.reverseRecOn with
  | nil => cases capacity <;> simp [pushAll]
  | append_singleton front a ih =>
    rw [pushAll_concat, toList_push, accepts_eq, capacity_pushAll, size_eq_length, ih]
    cases capacity with
    | none => rfl
    | some most =>
      simp only [Option.elim_some, allows, bounded, Option.all_some, List.length_take,
        decide_eq_true_eq]
      rcases Nat.lt_or_ge front.length most with hroom | hfull
      · rw [if_pos (by omega), List.take_of_length_le (by omega),
          List.take_of_length_le (by simpa using Nat.succ_le_of_lt hroom)]
      · rw [if_neg (by omega), List.take_append_of_le_length hfull]

theorem accepts_pushAll_bounded (capacity : Option Nat) (atoms : List Atom) :
    ((bounded capacity).pushAll atoms).accepts = allows capacity (atoms.length + 1) := by
  rw [accepts_eq, capacity_pushAll, size_eq_length, toList_pushAll_bounded]
  cases capacity with
  | none => rfl
  | some most =>
    simp only [allows, bounded, Option.all_some, Option.elim_some, List.length_take,
      decide_eq_decide]
    omega

/-- For each push of a period in turn, whether it is kept: the first ones are, as many as the
capacity allows. -/
def answers (capacity : Option Nat) (atoms : List Atom) : List Bool :=
  (List.range' 1 atoms.length).map (allows capacity)

theorem answers_concat (capacity : Option Nat) (front : List Atom) (a : Atom) :
    answers capacity (front ++ [a]) =
      answers capacity front ++ [((bounded capacity).pushAll front).accepts] := by
  rw [answers, List.length_append, List.length_singleton, List.range'_concat, List.map_append,
    accepts_pushAll_bounded, answers, Nat.one_mul, Nat.add_comm 1, List.map_singleton]

/-- A push is dropped exactly if there are more than the capacity allows. -/
theorem contains_answers (capacity : Option Nat) (atoms : List Atom) :
    (answers capacity atoms).contains false = !allows capacity atoms.length := by
  induction atoms using List.reverseRecOn with
  | nil => cases capacity <;> simp [answers, allows]
  | append_singleton front a ih =>
    rw [answers_concat, accepts_pushAll_bounded, List.contains_append, ih, List.length_append,
      List.length_singleton]
    cases hlast : allows capacity (front.length + 1) with
    | false => simp
    | true => simp [allows_of_succ hlast]

/-- **The sequence remembers whether a push was dropped.**  It remembers it only since the last
clear, but a period begins with one. -/
theorem overflowed_pushAll_bounded (capacity : Option Nat) (atoms : List Atom) :
    ((bounded capacity).pushAll atoms).overflowed = (answers capacity atoms).contains false := by
  induction atoms using List.reverseRecOn with
  | nil => rfl
  | append_singleton front a ih =>
    rw [pushAll_concat, overflowed_push, ih, answers_concat, List.contains_append]
    cases ((bounded capacity).pushAll front).accepts <;> rfl

/-! ## 2. Reports -/

/-- What is reported of the pushes of a period. -/
def report (capacity : Option Nat) (atoms : List Atom) : List Record :=
  (bounded capacity).reports atoms

theorem report_concat (capacity : Option Nat) (front : List Atom) (a : Atom) :
    report capacity (front ++ [a]) =
      report capacity front ++ (((bounded capacity).pushAll front).offer a).log :=
  reports_concat ..

/-- **There is one warning of a period in which a push was dropped**, and else none.  The first drop
makes the sequence remember, and what it remembers is not reported again. -/
theorem length_warnings (capacity : Option Nat) (atoms : List Atom) :
    (recordsFrom .warn (report capacity atoms)).length =
      if (answers capacity atoms).contains false then 1 else 0 := by
  rw [report, reports_eq, overflowReport, overflowed_pushAll_bounded]
  cases capacity with
  | none =>
    rw [contains_answers]
    rfl
  | some most => cases (answers (some most) atoms).contains false <;> rfl

theorem length_warnings_flatMap (capacity : Option Nat) (periods : List (List Atom)) :
    (recordsFrom .warn (periods.flatMap (report capacity))).length =
      periods.countP fun p => (answers capacity p).contains false := by
  induction periods with
  | nil => rfl
  | cons p rest ih =>
    have happend : recordsFrom .warn (report capacity p ++ rest.flatMap (report capacity)) =
        recordsFrom .warn (report capacity p) ++
          recordsFrom .warn (rest.flatMap (report capacity)) := List.filter_append ..
    rw [List.flatMap_cons, happend, List.length_append, length_warnings, ih, List.countP_cons,
      Nat.add_comm]

/-! ## 3. Operations -/

/-- What can be done to a sequence. -/
inductive Operation where
  | push (a : Atom)
  | clear

structure Run where
  /-- The sequence afterwards. -/
  sequence : AtomSeq
  /-- For each push, whether it was kept. -/
  kept : List Bool
  log : List Record

/-- Performs operations in turn. -/
def perform : AtomSeq → List Operation → Run
  | s, [] => ⟨s, [], []⟩
  | s, .push a :: rest =>
    let offered := s.offer a
    let run := perform offered.sequence rest
    ⟨run.sequence, offered.kept :: run.kept, offered.log ++ run.log⟩
  | s, .clear :: rest => perform s.clear rest

/-- What was pushed, cut at the clears.  It is read off the operations alone and knows nothing of
capacities, so that what a sequence keeps can be compared with it. -/
structure History where
  /-- The atoms that were pushed in each period that a clear ended. -/
  ended : List (List Atom)
  /-- The atoms that were pushed since the last clear. -/
  current : List Atom

def History.periods (h : History) : List (List Atom) := h.ended ++ [h.current]

/-- The operations of a history. -/
def History.operations (h : History) : List Operation :=
  (h.ended.flatMap fun p => p.map .push ++ [.clear]) ++ h.current.map .push

/-- The history of operations in a period in which something was pushed already.  The first clear
ends that period. -/
def historyFrom (pushed : List Atom) : List Operation → History
  | [] => ⟨[], pushed⟩
  | .push a :: rest => historyFrom (pushed ++ [a]) rest
  | .clear :: rest =>
    let later := historyFrom [] rest
    ⟨pushed :: later.ended, later.current⟩

def history (operations : List Operation) : History := historyFrom [] operations

theorem operations_historyFrom (pushed : List Atom) (operations : List Operation) :
    (historyFrom pushed operations).operations = pushed.map .push ++ operations := by
  induction operations generalizing pushed with
  | nil => simp [historyFrom, History.operations]
  | cons operation rest ih =>
    cases operation with
    | push a => simp [historyFrom, ih]
    | clear =>
      have hlater := ih []
      simp only [History.operations, List.map_nil, List.nil_append] at hlater
      simp [historyFrom, History.operations, hlater]

/-- **The history tells the operations.** -/
theorem operations_history (operations : List Operation) :
    (history operations).operations = operations := operations_historyFrom [] operations

/-- **What comes of operations is told by their periods.**  By induction on the operations, with
what was pushed in the current period; a clear closes it and begins an empty one. -/
theorem perform_historyFrom (capacity : Option Nat) (pushed : List Atom)
    (operations : List Operation) :
    let run := perform ((bounded capacity).pushAll pushed) operations
    let h := historyFrom pushed operations
    run.sequence = (bounded capacity).pushAll h.current ∧
    answers capacity pushed ++ run.kept = h.periods.flatMap (answers capacity) ∧
    report capacity pushed ++ run.log = h.periods.flatMap (report capacity) := by
  -- what was pushed before belongs to the first period, to which the next push adds
  induction operations generalizing pushed with
  | nil => simp [perform, historyFrom, History.periods]
  | cons operation rest ih =>
    cases operation with
    | push a =>
      obtain ⟨hsequence, hkept, hlog⟩ := ih (pushed ++ [a])
      rw [pushAll_concat] at hsequence hkept hlog
      rw [answers_concat, List.append_assoc, ← kept_offer _ a] at hkept
      rw [report_concat, List.append_assoc] at hlog
      exact ⟨hsequence, hkept, hlog⟩
    | clear =>
      obtain ⟨hsequence, hkept, hlog⟩ := ih []
      have hclear : ((bounded capacity).pushAll pushed).clear = (bounded capacity).pushAll [] := by
        rw [clear, capacity_pushAll]
        rfl
      simp only [perform, hclear]
      refine ⟨hsequence, ?_, ?_⟩
      · exact congrArg (answers capacity pushed ++ ·) hkept
      · exact congrArg (report capacity pushed ++ ·) hlog

/-- **A bounded sequence is the beginning of what was pushed since the last clear**, as long as its
capacity allows.  Of each period the pushes within the capacity were kept and the others dropped.
The sequence remembers whether one was dropped since the last clear, and there was one warning for
each period in which one was. -/
theorem perform_periods (capacity : Option Nat) (operations : List Operation) :
    let run := perform (bounded capacity) operations
    let h := history operations
    h.operations = operations ∧
    run.sequence.toList = capacity.elim h.current h.current.take ∧
    run.kept = h.periods.flatMap (answers capacity) ∧
    run.sequence.overflowed = !allows capacity h.current.length ∧
    run.log = h.periods.flatMap (report capacity) ∧
    (recordsFrom .warn run.log).length =
      h.periods.countP fun p => (answers capacity p).contains false := by
  intro run h
  obtain ⟨hsequence, hkept, hlog⟩ := perform_historyFrom capacity [] operations
  refine ⟨operations_history operations, ?_, hkept, ?_, hlog, ?_⟩
  · exact hsequence ▸ toList_pushAll_bounded capacity h.current
  · rw [← contains_answers]
    exact hsequence ▸ overflowed_pushAll_bounded capacity h.current
  · rw [← length_warnings_flatMap]
    exact congrArg (fun log => (recordsFrom .warn log).length) hlog

/-- Of three periods, the first goes beyond the capacity by two and the others keep within it. -/
example :
    let a : Atom := .comma
    let run := perform (bounded (some 2))
      [.push a, .push a, .push a, .push a, .clear, .push a, .clear, .push a, .push a]
    run.kept = [true, true, false, false, true, true, true] ∧ run.sequence.overflowed = false ∧
      run.log = [.capacityReached 2] := by decide +kernel

end Reckoner.AtomSeq
