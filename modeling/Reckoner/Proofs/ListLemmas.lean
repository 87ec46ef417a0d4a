/-
# Lists

A text or a stack is often cut where a test first fails.  The library has `takeWhile` and `dropWhile`
for the two parts; here they are taken together, with what is known of the place between them.  The
other lemmas are about single elements of a list.
-/

namespace Reckoner

/-- The elements that pass a test end where the first one fails it. -/
theorem span_append {α : Type} (p : α → Bool) {front back : List α}
    (hfront : ∀ a ∈ front, p a = true) (hback : ∀ a ∈ back.head?, p a = false) :
    (front ++ back).takeWhile p = front ∧ (front ++ back).dropWhile p = back := by
  rw [List.takeWhile_append_of_pos hfront, List.dropWhile_append_of_pos hfront]
  cases back with
  | nil => simp
  | cons a rest => simp [hback a rfl]

/-- What is left after the elements that pass a test begins with one that fails it. -/
theorem head?_dropWhile {α : Type} (p : α → Bool) (l : List α) :
    ∀ a ∈ (l.dropWhile p).head?, p a = false := by
  intro a ha
  have h := List.head?_dropWhile_not p l
  rw [Option.mem_def.mp ha] at h
  simpa using h

/-- Tests that agree on a list end its beginning at the same place. -/
theorem span_congr {α : Type} {p q : α → Bool} {l : List α} (h : ∀ a ∈ l, p a = q a) :
    l.takeWhile p = l.takeWhile q ∧ l.dropWhile p = l.dropWhile q := by
  induction l with
  | nil => exact ⟨rfl, rfl⟩
  | cons a rest ih =>
    obtain ⟨ha, hrest⟩ := List.forall_mem_cons.mp h
    obtain ⟨htake, hdrop⟩ := ih hrest
    simp only [List.takeWhile_cons, List.dropWhile_cons, ha, htake, hdrop, and_self]

/-- Replacing what does not occur changes nothing. -/
theorem map_replace_eq_self {α : Type} [DecidableEq α] {l : List α} {old : α} (h : old ∉ l)
    (new : α) : l.map (fun a => if a = old then new else a) = l := by
  have hsame : ∀ a ∈ l, (if a = old then new else a) = id a := by
    intro a ha
    apply if_neg
    rintro rfl
    exact h ha
  rw [List.map_congr_left hsame, List.map_id]

/-- Where an element of a joined list stands: before the joint, at it, or after it. -/
theorem append_cons_eq {α : Type} {l r u v : List α} {a c : α} (h : l ++ a :: r = u ++ c :: v) :
    (∃ w, l = u ++ c :: w) ∨ (u = l ∧ c = a) ∨ ∃ w, u = l ++ a :: w ∧ r = w ++ c :: v := by
  rcases List.append_eq_append_iff.mp h with ⟨w, rfl, hr⟩ | ⟨w, rfl, hl⟩
  · cases w with
    | nil =>
      obtain ⟨rfl, rfl⟩ := List.cons.inj hr
      exact Or.inr (Or.inl ⟨by simp, rfl⟩)
    | cons b w =>
      obtain ⟨rfl, rfl⟩ := List.cons.inj hr
      exact Or.inr (Or.inr ⟨w, rfl, rfl⟩)
  · cases w with
    | nil =>
      obtain ⟨rfl, rfl⟩ := List.cons.inj hl
      exact Or.inr (Or.inl ⟨by simp, rfl⟩)
    | cons b w =>
      obtain ⟨rfl, rfl⟩ := List.cons.inj hl
      exact Or.inl ⟨w, rfl⟩

end Reckoner
