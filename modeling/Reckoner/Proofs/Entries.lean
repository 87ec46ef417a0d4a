/-
# Entries of a table with distinct keys

Where the keys of a table are distinct, an entry stands alone between others
(`NameTable.EntryAt`): there it is found, changed and taken out, and the others stay as they are.
A name is then bound or not (`NameTable.BoundTo`, `NameTable.Unbound`), and what is left by an
operation is told entry by entry (`NameTable.mem_insert`, `NameTable.mem_remove`).
-/
import Mathlib.Data.List.Nodup
import Reckoner.NameTable

namespace Reckoner.NameTable

variable {α : Type}

/-! ## 1. One entry among others -/

/-- The entry of the key stands between others, which have other keys.  A table is searched, changed
and cut at its first match, and this says that the first match is the only one. -/
structure EntryAt (t : NameTable α) (key : String) (x : α) (front back : List (String × α)) :
    Prop where
  entries : t.entries = front ++ (key, x) :: back
  front : key ∉ front.map Prod.fst
  back : key ∉ back.map Prod.fst

theorem mem_keys {t : NameTable α} {key : String} : key ∈ t.keys ↔ ∃ x, (key, x) ∈ t.entries := by
  simp [keys]

/-- Where keys are distinct, each of them has its entry alone. -/
theorem exists_entryAt {t : NameTable α} (h : t.keys.Nodup) {key : String} {x : α}
    (hmem : (key, x) ∈ t.entries) : ∃ front back, t.EntryAt key x front back := by
  obtain ⟨front, back, hentries⟩ := List.append_of_mem hmem
  rw [keys, hentries, List.map_append, List.map_cons, List.nodup_middle, List.nodup_cons,
    List.mem_append, not_or] at h
  exact ⟨front, back, hentries, h.1.1, h.1.2⟩

theorem ne_of_not_mem {entries : List (String × α)} {key : String}
    (h : key ∉ entries.map Prod.fst) : ∀ e ∈ entries, ¬ (e.1 == key) = true := by
  intro e he hkey
  exact h (List.mem_map.mpr ⟨e, he, beq_iff_eq.mp hkey⟩)

/-- Entries with other keys are passed over. -/
theorem get?_of_front {t : NameTable α} {name : String} {front back : List (String × α)}
    (h : t.entries = front ++ back) (hfront : Text.uppercase name ∉ front.map Prod.fst) :
    t.get? name = (NameTable.mk back).get? name := by
  have hnone : front.find? (fun e => e.1 == Text.uppercase name) = none :=
    List.find?_eq_none.mpr (ne_of_not_mem hfront)
  simp only [get?, lookup?, h, List.find?_append, hnone, Option.none_or]

theorem put_of_not_mem {entries : List (String × α)} {key : String}
    (h : key ∉ entries.map Prod.fst) (x : α) : put entries key x = entries ++ [(key, x)] := by
  induction entries with
  | nil => rfl
  | cons e rest ih =>
    rw [List.map_cons, List.mem_cons, not_or] at h
    rw [put, if_neg (Ne.symm h.1), ih h.2, List.cons_append]

theorem put_of_mem {front back : List (String × α)} {key : String}
    (h : key ∉ front.map Prod.fst) (x y : α) :
    put (front ++ (key, x) :: back) key y = front ++ (key, y) :: back := by
  induction front with
  | nil => rw [List.nil_append, put, if_pos rfl, List.nil_append]
  | cons e rest ih =>
    rw [List.map_cons, List.mem_cons, not_or] at h
    rw [List.cons_append, put, if_neg (Ne.symm h.1), ih h.2, List.cons_append]

/-- How a table treats a name that is bound: removing it takes out its entry alone, and binding it
again changes its entry alone. -/
structure BoundTo (t : NameTable α) (name : String) (x : α) : Prop where
  get?_eq : t.get? name = some x
  getD_eq : ∀ default, (t.get? name).getD default = x
  contains_eq : t.contains name = true
  entry : ∃ front back, t.entries = front ++ (Text.uppercase name, x) :: back ∧
    t.remove name = (some x, ⟨front ++ back⟩) ∧
    ∀ y, t.insert name y = ⟨front ++ (Text.uppercase name, y) :: back⟩

/-- How a table treats a name that is not bound: there is nothing to remove, and binding it adds an
entry at the end. -/
structure Unbound (t : NameTable α) (name : String) : Prop where
  get?_eq : t.get? name = none
  getD_eq : ∀ default, (t.get? name).getD default = default
  contains_eq : t.contains name = false
  remove_eq : t.remove name = (none, t)
  insert_eq : ∀ y, t.insert name y = ⟨t.entries ++ [(Text.uppercase name, y)]⟩

namespace EntryAt

variable {t : NameTable α} {name : String} {x : α} {front back : List (String × α)}
  (h : t.EntryAt (Text.uppercase name) x front back)

include h

theorem get?_eq : t.get? name = some x := by
  rw [get?_of_front h.entries h.front]
  simp [get?, lookup?]

theorem erase_eq : t.erase name = ⟨front ++ back⟩ := by
  rw [erase, h.entries, List.eraseP_append_right _ (ne_of_not_mem h.front)]
  simp

theorem insert_eq (y : α) : t.insert name y = ⟨front ++ (Text.uppercase name, y) :: back⟩ := by
  rw [insert, h.entries, put_of_mem h.front]

/-- **A name with an entry is bound.** -/
theorem boundTo : t.BoundTo name x := by
  refine ⟨h.get?_eq, ?_, ?_, front, back, h.entries, ?_, h.insert_eq⟩
  · intro default
    rw [h.get?_eq, Option.getD_some]
  · rw [contains, h.get?_eq, Option.isSome_some]
  · rw [remove, h.get?_eq, h.erase_eq]

end EntryAt

/-- **A name without an entry is not bound.** -/
theorem unbound_of_not_mem {t : NameTable α} {name : String}
    (h : Text.uppercase name ∉ t.keys) : t.Unbound name := by
  have hget : t.get? name = none := by
    rw [get?, lookup?, List.find?_eq_none.mpr (ne_of_not_mem h), Option.map_none]
  have herase : t.erase name = t := by
    rw [erase, List.eraseP_of_forall_not (ne_of_not_mem h)]
  refine ⟨hget, ?_, ?_, ?_, ?_⟩
  · intro default
    rw [hget, Option.getD_none]
  · rw [contains, hget, Option.isSome_none]
  · rw [remove, hget, herase]
  · intro y
    rw [insert, put_of_not_mem h]

/-! ## 2. The entries after an operation -/

section Entries

theorem EntryAt.mem_others {t : NameTable α} {key : String} {x : α}
    {front back : List (String × α)} (h : t.EntryAt key x front back) {other : String} {y : α} :
    (other, y) ∈ front ++ back ↔ key ≠ other ∧ (other, y) ∈ t.entries := by
  rw [h.entries, List.mem_append, List.mem_append, List.mem_cons]
  constructor
  · intro hmem
    refine ⟨?_, hmem.imp_right Or.inr⟩
    rintro rfl
    rcases hmem with hmem | hmem
    · exact h.front (List.mem_map_of_mem hmem)
    · exact h.back (List.mem_map_of_mem hmem)
  · rintro ⟨hne, hmem | hmem | hmem⟩
    · exact Or.inl hmem
    · exact absurd (Prod.mk.inj hmem).1.symm hne
    · exact Or.inr hmem

variable {t : NameTable α} (h : t.keys.Nodup) (name : String)

theorem mem_entries_of_not_mem {key : String} (hkey : key ∉ t.keys) {other : String} {y : α} :
    (other, y) ∈ t.entries ↔ key ≠ other ∧ (other, y) ∈ t.entries := by
  constructor
  · intro hmem
    refine ⟨?_, hmem⟩
    rintro rfl
    exact hkey (mem_keys.mpr ⟨y, hmem⟩)
  · exact And.right

include h

/-- **Binding a name changes its entry alone**, or adds one.  With distinct keys a table is known by
its entries and their order, and this is the first half. -/
theorem mem_insert {x : α} {key : String} {y : α} : (key, y) ∈ (t.insert name x).entries ↔
    (Text.uppercase name = key ∧ x = y) ∨ (Text.uppercase name ≠ key ∧ (key, y) ∈ t.entries) := by
  by_cases hmem : Text.uppercase name ∈ t.keys
  · obtain ⟨old, hold⟩ := mem_keys.mp hmem
    obtain ⟨front, back, hentry⟩ := exists_entryAt h hold
    rw [hentry.insert_eq, ← hentry.mem_others, List.mem_append, List.mem_cons, List.mem_append,
      or_left_comm, Prod.mk.injEq, eq_comm, @eq_comm _ y]
  · rw [(unbound_of_not_mem hmem).insert_eq, ← mem_entries_of_not_mem hmem, List.mem_append,
      List.mem_singleton, or_comm, Prod.mk.injEq, eq_comm, @eq_comm _ y]

/-- Binding a name keeps the keys, or adds one at the end.  So the order of the keys tells which
name was bound first. -/
theorem keys_insert (x : α) : (t.insert name x).keys =
    if Text.uppercase name ∈ t.keys then t.keys else t.keys ++ [Text.uppercase name] := by
  split
  · rename_i hmem
    obtain ⟨old, hold⟩ := mem_keys.mp hmem
    obtain ⟨front, back, hentry⟩ := exists_entryAt h hold
    rw [hentry.insert_eq, keys, keys, hentry.entries]
    simp
  · rename_i hmem
    rw [(unbound_of_not_mem hmem).insert_eq, keys, keys, List.map_append, List.map_singleton]

theorem nodup_keys_insert (x : α) : (t.insert name x).keys.Nodup := by
  rw [keys_insert h]
  split
  · exact h
  · rename_i hmem
    rw [List.nodup_append_comm, List.singleton_append, List.nodup_cons]
    exact ⟨hmem, h⟩

/-- **Removing a name takes out its entry alone.** -/
theorem mem_remove {key : String} {y : α} : (key, y) ∈ (t.remove name).2.entries ↔
    Text.uppercase name ≠ key ∧ (key, y) ∈ t.entries := by
  by_cases hmem : Text.uppercase name ∈ t.keys
  · obtain ⟨x, hx⟩ := mem_keys.mp hmem
    obtain ⟨front, back, hentry⟩ := exists_entryAt h hx
    rw [← hentry.mem_others, remove, hentry.erase_eq]
  · rw [(unbound_of_not_mem hmem).remove_eq]
    exact mem_entries_of_not_mem hmem

omit h in
theorem keys_remove_sublist : (t.remove name).2.keys.Sublist t.keys :=
  List.eraseP_sublist.map _

end Entries

end Reckoner.NameTable
