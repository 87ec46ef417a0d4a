/-
# What a bounded sequence keeps

Whether a sequence still has room for a number of atoms (`AtomSeq.Fits`) decides what a row of
pushes does.  With room, all atoms are kept in their order (`AtomSeq.toList_pushAll`) and nothing is
reported; without, at least one was dropped, and the sequence remembers it
(`AtomSeq.overflowed_pushAll`).  No push goes beyond the capacity (`AtomSeq.fits_zero_push`).

What a row of offers reports can be read off its two ends (`AtomSeq.reports_eq`): the sequence
remembers that it dropped an atom from the moment at which this was reported.
-/
import Reckoner.Atom.Sequence

namespace Reckoner.AtomSeq

/-- There is room for `count` more atoms. -/
def Fits (s : AtomSeq) (count : Nat) : Prop := ∀ most ∈ s.capacity, s.size + count ≤ most

theorem pushAll_cons (s : AtomSeq) (a : Atom) (rest : List Atom) :
    s.pushAll (a :: rest) = (s.push a).pushAll rest := rfl

/-- The next push is kept exactly if there is room for one. -/
theorem accepts_iff (s : AtomSeq) : s.accepts = true ↔ s.Fits 1 := by
  unfold accepts Fits
  cases s.capacity with
  | none => simp
  | some most =>
    simp only [decide_eq_true_eq, Option.mem_def, Option.some.injEq, forall_eq']
    omega

theorem push_of_accepts {s : AtomSeq} (h : s.accepts = true) (a : Atom) :
    s.push a = { s with atoms := s.atoms.push a } := by
  rw [push_eq, if_pos h]

theorem push_of_full {s : AtomSeq} (h : s.accepts = false) (a : Atom) :
    s.push a = { s with overflowed := true } := by
  rw [push_eq, if_neg (by simp [h])]

theorem Fits.mono {s : AtomSeq} {m n : Nat} (h : s.Fits n) (hmn : m ≤ n) : s.Fits m := by
  intro most hmost
  have := h most hmost
  omega

theorem Fits.accepts {s : AtomSeq} {count : Nat} (h : s.Fits (count + 1)) : s.accepts = true := by
  rw [accepts_iff]
  exact h.mono (by omega)

theorem size_push {s : AtomSeq} (h : s.accepts = true) (a : Atom) :
    (s.push a).size = s.size + 1 := by
  simp [push_of_accepts h, size]

theorem fits_push {s : AtomSeq} (h : s.accepts = true) (a : Atom) (count : Nat) :
    (s.push a).Fits count ↔ s.Fits (count + 1) := by
  simp only [Fits, capacity_push, size_push h, Nat.add_assoc, Nat.add_comm]

theorem fits_zero_bounded (capacity : Option Nat) : (bounded capacity).Fits 0 := by
  simp [Fits, bounded, size]

theorem fits_zero_push {s : AtomSeq} (h : s.Fits 0) (a : Atom) : (s.push a).Fits 0 := by
  by_cases haccepts : s.accepts = true
  · rw [fits_push haccepts]
    exact s.accepts_iff.mp haccepts
  · rw [push_of_full (by simpa using haccepts)]
    exact h

/-- A push that is not kept changes no atom, and the sequence stays full: only `clear` makes room
again. -/
theorem toList_push_of_full {s : AtomSeq} (h : s.accepts = false) (a : Atom) :
    (s.push a).toList = s.toList ∧ (s.push a).accepts = false ∧ (s.push a).overflowed = true := by
  rw [push_of_full h]
  exact ⟨rfl, h, rfl⟩

/-- After an atom that was kept, what is due depends on it alone.  A dropped atom is not looked at:
behind it the last atom that was kept decides. -/
theorem expectsOperand_push {s : AtomSeq} (h : s.accepts = true) (a : Atom) :
    (s.push a).expectsOperand = a.expectsOperand := by
  simp [push_of_accepts h, expectsOperand]

@[simp] theorem capacity_pushAll (s : AtomSeq) (atoms : List Atom) :
    (s.pushAll atoms).capacity = s.capacity := by
  induction atoms generalizing s with
  | nil => rfl
  | cons a rest ih => rw [pushAll_cons, ih, capacity_push]

/-- **With room, all atoms are kept.** -/
theorem toList_pushAll {s : AtomSeq} {atoms : List Atom} (h : s.Fits atoms.length) :
    (s.pushAll atoms).toList = s.toList ++ atoms := by
  induction atoms generalizing s with
  | nil => simp [pushAll]
  | cons a rest ih =>
    have haccepts : s.accepts = true := Fits.accepts h
    rw [pushAll_cons, ih ((fits_push haccepts a _).mpr h), toList_push, if_pos haccepts]
    simp

/-- **Atoms were dropped exactly if there was no room**, or it was so before.  The first atom that
finds none is dropped, and with it all that come later. -/
theorem overflowed_pushAll (s : AtomSeq) (atoms : List Atom) :
    (s.pushAll atoms).overflowed = false ↔
      s.overflowed = false ∧ (atoms ≠ [] → s.Fits atoms.length) := by
  induction atoms generalizing s with
  | nil => simp [pushAll]
  | cons a rest ih =>
    rw [pushAll_cons, ih, overflowed_push]
    cases haccepts : s.accepts with
    | false =>
      have hfull : ¬ s.Fits (rest.length + 1) := by
        intro h
        rw [h.accepts] at haccepts
        cases haccepts
      simp [hfull]
    | true =>
      rw [fits_push haccepts]
      cases rest with
      | nil => simp [s.accepts_iff.mp haccepts]
      | cons b rest => simp

/-! ## Reports -/

/-- What was reported while atoms were offered to one sequence that made it the other. -/
def overflowReport (before after : AtomSeq) : List Record :=
  match before.capacity with
  | some n => if after.overflowed && !before.overflowed then [.capacityReached n] else []
  | none => []

/-- A sequence that dropped nothing has nothing to report. -/
theorem overflowReport_of_kept {before after : AtomSeq} (h : after.overflowed = false) :
    before.overflowReport after = [] := by
  unfold overflowReport
  split
  · simp [h]
  · rfl

theorem overflowReport_self (s : AtomSeq) : s.overflowReport s = [] := by
  unfold overflowReport
  split
  · simp
  · rfl

/-- The first drop is reported once, on whichever side of the middle it is.  So the reports of two
parts of a row, one after the other, are the report of the row. -/
theorem overflowReport_append {before middle after : AtomSeq}
    (hcapacity : middle.capacity = before.capacity)
    (hfirst : before.overflowed = true → middle.overflowed = true)
    (hthen : middle.overflowed = true → after.overflowed = true) :
    before.overflowReport middle ++ middle.overflowReport after = before.overflowReport after := by
  unfold overflowReport
  rw [hcapacity]
  cases before.capacity with
  | none => rfl
  | some n =>
    cases hbefore : before.overflowed with
    | true => simp [hfirst hbefore]
    | false =>
      cases hmiddle : middle.overflowed with
      | true => simp [hthen hmiddle]
      | false => simp

theorem log_offer (s : AtomSeq) (a : Atom) : (s.offer a).log = s.overflowReport (s.push a) := by
  unfold overflowReport push offer
  cases s.capacity with
  | none => rfl
  | some n =>
    by_cases hfull : n ≤ s.size
    · cases s.overflowed <;> simp [hfull]
    · cases s.overflowed <;> simp [hfull]

theorem overflowed_push_of_overflowed {s : AtomSeq} (h : s.overflowed = true) (a : Atom) :
    (s.push a).overflowed = true := by
  rw [overflowed_push, h, Bool.true_or]

theorem overflowed_pushAll_of_overflowed {s : AtomSeq} (h : s.overflowed = true)
    (atoms : List Atom) : (s.pushAll atoms).overflowed = true := by
  cases hover : (s.pushAll atoms).overflowed with
  | true => rfl
  | false =>
    rw [((overflowed_pushAll s atoms).mp hover).1] at h
    cases h

theorem reports_concat (s : AtomSeq) (front : List Atom) (a : Atom) :
    s.reports (front ++ [a]) = s.reports front ++ ((s.pushAll front).offer a).log := by
  induction front generalizing s with
  | nil => simp [reports, pushAll]
  | cons b rest ih => rw [List.cons_append, reports, reports, ih, List.append_assoc, pushAll_cons]

/-- **Offers report that a first atom was dropped**, and nothing else.  Whether one was dropped can
be seen from the sequence at the end, so the report can be told without going through the offers. -/
theorem reports_eq (s : AtomSeq) (atoms : List Atom) :
    s.reports atoms = s.overflowReport (s.pushAll atoms) := by
  induction atoms generalizing s with
  | nil => exact s.overflowReport_self.symm
  | cons a rest ih =>
    rw [reports, ih, log_offer, pushAll_cons]
    apply overflowReport_append (s.capacity_push a)
    · exact fun h => overflowed_push_of_overflowed h a
    · exact fun h => overflowed_pushAll_of_overflowed h rest

/-! ## Sequences that look the same -/

/-- Two sequences hold the same atoms, and both or neither dropped some.  Their capacities may
differ, since nobody who reads a sequence sees them. -/
structure Same (s t : AtomSeq) : Prop where
  toList_eq : s.toList = t.toList
  overflowed_eq : s.overflowed = t.overflowed

theorem Same.refl (s : AtomSeq) : s.Same s := ⟨rfl, rfl⟩

theorem size_eq_length (s : AtomSeq) : s.size = s.toList.length := by
  rw [size, toList, Array.length_toList]

end Reckoner.AtomSeq
