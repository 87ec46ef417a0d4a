/-
# Tables as insertion-ordered maps

What a table holds is told by the changes that were made to it (`NameTable.Change`), without a look
at the table: a key has the value that it was last bound to, unless it was dropped since (`Holds`),
and it has been live since the change that bound it when it was not (`LiveSince`).  Keys are the
upper cases of names, so that spellings of different length can be of one key.

`NameTable.tracks_ofChanges` says this of the entries, by a step for each kind of change.
`NameTable.follows_changes` says it of all that can be asked of a table, for variables and for
constants.
-/
import Mathlib.Data.Set.Card
import Reckoner.Proofs.Entries
import Reckoner.Proofs.History
import Reckoner.Proofs.UpperCase

namespace Reckoner

namespace NameTable

variable {α : Type}

/-! ## 1. Changes -/

/-- What can be done to a table. -/
inductive Change (α : Type) where
  | insert (name : String) (value : α)
  | remove (name : String)
  | clear

namespace Change

def apply (t : NameTable α) : Change α → NameTable α
  | insert name value => t.insert name value
  | remove name => (t.remove name).2
  | clear => .empty

def Binds (key : String) : Change α → Prop
  | insert name _ => Text.uppercase name = key
  | _ => False

/-- The change leaves the key without a value.  Clearing the table does so to every key. -/
def Drops (key : String) : Change α → Prop
  | insert .. => False
  | remove name => Text.uppercase name = key
  | clear => True

end Change

def ofChanges (changes : List (Change α)) : NameTable α := changes.foldl Change.apply .empty

/-- The key was bound to the value, and neither bound nor dropped since.  Only the changes are
asked, so this says what a table should hold without looking at one. -/
def Holds (changes : List (Change α)) (key : String) (x : α) : Prop :=
  ∃ earlier name later, changes = earlier ++ .insert name x :: later ∧
    Text.uppercase name = key ∧ ∀ c ∈ later, ¬ c.Binds key ∧ ¬ c.Drops key

def Live (changes : List (Change α)) (key : String) : Prop := ∃ x, Holds changes key x

/-- The key was bound by the change at this place, when it had no value, and not dropped since. -/
def LiveSince (changes : List (Change α)) (key : String) (place : Nat) : Prop :=
  ∃ earlier name x later, changes = earlier ++ .insert name x :: later ∧
    earlier.length = place ∧ Text.uppercase name = key ∧ ¬ Live earlier key ∧
    ∀ c ∈ later, ¬ c.Drops key

section Snoc

variable {changes : List (Change α)} {c : Change α} {key : String} {x : α} {place : Nat}

theorem concat_eq_append_cons {earlier later : List (Change α)} {d : Change α}
    (h : changes ++ [c] = earlier ++ d :: later) :
    (changes = earlier ∧ c = d ∧ later = []) ∨
      ∃ rest, changes = earlier ++ d :: rest ∧ later = rest ++ [c] := by
  rcases List.eq_nil_or_concat later with rfl | ⟨rest, e, rfl⟩
  · obtain ⟨hchanges, hlast⟩ := List.append_inj' h rfl
    exact Or.inl ⟨hchanges, List.singleton_inj.mp hlast, rfl⟩
  · rw [List.concat_eq_append, ← List.cons_append, ← List.append_assoc] at h
    obtain ⟨hchanges, hlast⟩ := List.append_inj' h rfl
    obtain rfl := List.singleton_inj.mp hlast
    exact Or.inr ⟨rest, hchanges, List.concat_eq_append⟩

/-- **What is held after one more change**: what it binds, and what it leaves alone. -/
theorem holds_concat : Holds (changes ++ [c]) key x ↔
    (∃ name, c = .insert name x ∧ Text.uppercase name = key) ∨
      (¬ c.Binds key ∧ ¬ c.Drops key ∧ Holds changes key x) := by
  constructor
  · rintro ⟨earlier, name, later, hchanges, hname, hlater⟩
    rcases concat_eq_append_cons hchanges with ⟨-, hc, -⟩ | ⟨rest, hrest, rfl⟩
    · exact Or.inl ⟨name, hc, hname⟩
    · obtain ⟨hbefore, hc⟩ := List.forall_mem_append.mp hlater
      obtain ⟨hbinds, hdrops⟩ := hc c (List.mem_singleton_self c)
      exact Or.inr ⟨hbinds, hdrops, earlier, name, rest, hrest, hname, hbefore⟩
  · rintro (⟨name, rfl, hname⟩ | ⟨hbinds, hdrops, earlier, name, rest, rfl, hname, hrest⟩)
    · exact ⟨changes, name, [], rfl, hname, nofun⟩
    · refine ⟨earlier, name, rest ++ [c], by simp, hname, ?_⟩
      rw [List.forall_mem_append, List.forall_mem_singleton]
      exact ⟨hrest, hbinds, hdrops⟩

theorem live_concat : Live (changes ++ [c]) key ↔
    c.Binds key ∨ (¬ c.Drops key ∧ Live changes key) := by
  constructor
  · rintro ⟨x, hx⟩
    rcases holds_concat.mp hx with ⟨name, rfl, hname⟩ | ⟨-, hdrops, hbefore⟩
    · exact Or.inl hname
    · exact Or.inr ⟨hdrops, x, hbefore⟩
  · by_cases hbinds : c.Binds key
    · cases c with
      | insert name y =>
        intro _
        exact ⟨y, holds_concat.mpr (Or.inl ⟨name, rfl, hbinds⟩)⟩
      | remove name => cases hbinds
      | clear => cases hbinds
    · rintro (hc | ⟨hdrops, x, hx⟩)
      · exact absurd hc hbinds
      · exact ⟨x, holds_concat.mpr (Or.inr ⟨hbinds, hdrops, hx⟩)⟩

/-- **Since when a key is live after one more change**: since then, if it bound the key anew, and
since the same place as before, if it did not drop it. -/
theorem liveSince_concat : LiveSince (changes ++ [c]) key place ↔
    (c.Binds key ∧ ¬ Live changes key ∧ place = changes.length) ∨
      (¬ c.Drops key ∧ LiveSince changes key place) := by
  constructor
  · rintro ⟨earlier, name, x, later, hchanges, hplace, hname, hnew, hlater⟩
    rcases concat_eq_append_cons hchanges with ⟨rfl, rfl, -⟩ | ⟨rest, hrest, rfl⟩
    · exact Or.inl ⟨hname, hnew, hplace.symm⟩
    · obtain ⟨hbefore, hc⟩ := List.forall_mem_append.mp hlater
      exact Or.inr ⟨hc c (List.mem_singleton_self c), earlier, name, x, rest, hrest, hplace, hname,
        hnew, hbefore⟩
  · rintro (⟨hbinds, hnew, rfl⟩ | ⟨hdrops, earlier, name, x, rest, rfl, hplace, hname, hnew, hrest⟩)
    · cases c with
      | insert name y => exact ⟨changes, name, y, [], rfl, rfl, hbinds, hnew, nofun⟩
      | remove name => cases hbinds
      | clear => cases hbinds
    · refine ⟨earlier, name, x, rest ++ [c], by simp, hplace, hname, hnew, ?_⟩
      rw [List.forall_mem_append, List.forall_mem_singleton]
      exact ⟨hrest, hdrops⟩

end Snoc

section LiveSince

variable {changes : List (Change α)} {key : String} {place : Nat}

theorem LiveSince.lt_length (h : LiveSince changes key place) : place < changes.length := by
  obtain ⟨earlier, name, x, later, rfl, rfl, -⟩ := h
  simp

theorem LiveSince.live (h : LiveSince changes key place) : Live changes key := by
  induction changes using List.reverseRecOn with
  | nil => exact absurd h.lt_length (Nat.not_lt_zero _)
  | append_singleton changes c ih =>
    rcases liveSince_concat.mp h with ⟨hbinds, -⟩ | ⟨hdrops, hbefore⟩
    · exact live_concat.mpr (Or.inl hbinds)
    · exact live_concat.mpr (Or.inr ⟨hdrops, ih hbefore⟩)

/-- A key is live since one place only. -/
theorem LiveSince.unique {other : Nat} (h : LiveSince changes key place)
    (hother : LiveSince changes key other) : place = other := by
  induction changes using List.reverseRecOn with
  | nil => exact absurd h.lt_length (Nat.not_lt_zero _)
  | append_singleton changes c ih =>
    rcases liveSince_concat.mp h with ⟨-, hnew, hplace⟩ | ⟨-, hbefore⟩
    · rcases liveSince_concat.mp hother with ⟨-, -, hlast⟩ | ⟨-, hbefore⟩
      · rw [hplace, hlast]
      · exact absurd hbefore.live hnew
    · rcases liveSince_concat.mp hother with ⟨-, hnew, -⟩ | ⟨-, hbefore'⟩
      · exact absurd hbefore.live hnew
      · exact ih hbefore hbefore'

end LiveSince

/-! ## 2. Tables that track their changes -/

/-- The first key has been live for longer than the second.  A key that is bound again while it is
live does not become younger. -/
def Older (changes : List (Change α)) (first second : String) : Prop :=
  ∃ i j, LiveSince changes first i ∧ LiveSince changes second j ∧ i < j

/-- The entries are what the changes hold, one for each key, the older ones first.  This is the
invariant: it mentions the entries alone, and what can be asked of a table follows from it. -/
structure Tracks (t : NameTable α) (changes : List (Change α)) : Prop where
  nodup_keys : t.keys.Nodup
  mem_entries : ∀ key x, (key, x) ∈ t.entries ↔ Holds changes key x
  older : t.keys.Pairwise (Older changes)
  liveSince : ∀ key ∈ t.keys, ∃ place, LiveSince changes key place

namespace Tracks

variable {t : NameTable α} {changes : List (Change α)}

theorem mem_keys (h : t.Tracks changes) {key : String} : key ∈ t.keys ↔ Live changes key := by
  simp only [NameTable.mem_keys, h.mem_entries]
  rfl

theorem boundTo (h : t.Tracks changes) {name : String} {x : α}
    (hx : Holds changes (Text.uppercase name) x) : t.BoundTo name x := by
  obtain ⟨front, back, hentry⟩ := exists_entryAt h.nodup_keys ((h.mem_entries _ x).mpr hx)
  exact hentry.boundTo

theorem unbound (h : t.Tracks changes) {name : String}
    (hdead : ¬ Live changes (Text.uppercase name)) : t.Unbound name := by
  refine unbound_of_not_mem ?_
  rw [h.mem_keys]
  exact hdead

/-- **A name finds what its key holds.** -/
theorem get?_eq_some_iff (h : t.Tracks changes) {name : String} {x : α} :
    t.get? name = some x ↔ Holds changes (Text.uppercase name) x := by
  constructor
  · intro hget
    by_cases hlive : Live changes (Text.uppercase name)
    · obtain ⟨y, hy⟩ := hlive
      rw [(h.boundTo hy).get?_eq, Option.some.injEq] at hget
      exact hget ▸ hy
    · rw [(h.unbound hlive).get?_eq] at hget
      cases hget
  · intro hx
    exact (h.boundTo hx).get?_eq

theorem older_concat (h : t.Tracks changes) {c : Change α} {kept : List String}
    (hkept : kept.Sublist t.keys) (hdrops : ∀ key ∈ kept, ¬ c.Drops key) :
    kept.Pairwise (Older (changes ++ [c])) ∧
      ∀ key ∈ kept, ∃ place, LiveSince (changes ++ [c]) key place := by
  constructor
  · refine (h.older.sublist hkept).imp_of_mem ?_
    rintro first second hfirst hsecond ⟨i, j, hi, hj, hlt⟩
    exact ⟨i, j, liveSince_concat.mpr (Or.inr ⟨hdrops first hfirst, hi⟩),
      liveSince_concat.mpr (Or.inr ⟨hdrops second hsecond, hj⟩), hlt⟩
  · intro key hkey
    obtain ⟨place, hplace⟩ := h.liveSince key (hkept.subset hkey)
    exact ⟨place, liveSince_concat.mpr (Or.inr ⟨hdrops key hkey, hplace⟩)⟩

/-- **A name that is bound anew is the youngest**, and one that was bound is as old as it was.  In
the first case the entry is added at the end, in the second it is changed where it stands. -/
theorem insert (h : t.Tracks changes) (name : String) (x : α) :
    (t.insert name x).Tracks (changes ++ [.insert name x]) := by
  have hkept : ∀ key ∈ t.keys, ¬ (Change.insert name x).Drops key := fun _ _ hdrops => hdrops
  obtain ⟨holder, hsince⟩ := h.older_concat (List.Sublist.refl _) hkept
  have hmem : ∀ key y, (key, y) ∈ (t.insert name x).entries ↔
      Holds (changes ++ [.insert name x]) key y := by
    intro key y
    rw [mem_insert h.nodup_keys, h.mem_entries, holds_concat]
    simp [Change.Binds, Change.Drops, and_comm]
  have hkeys := keys_insert h.nodup_keys name x
  -- a key that was live keeps its place, and a new one stands behind all the others
  by_cases hlive : Text.uppercase name ∈ t.keys
  · rw [if_pos hlive] at hkeys
    exact ⟨nodup_keys_insert h.nodup_keys name x, hmem, hkeys ▸ holder, hkeys ▸ hsince⟩
  · rw [if_neg hlive] at hkeys
    have hborn : LiveSince (changes ++ [.insert name x]) (Text.uppercase name) changes.length := by
      rw [h.mem_keys] at hlive
      exact liveSince_concat.mpr (Or.inl ⟨rfl, hlive, rfl⟩)
    refine ⟨nodup_keys_insert h.nodup_keys name x, hmem, ?_, ?_⟩
    · rw [hkeys, List.pairwise_append]
      refine ⟨holder, List.pairwise_singleton _ _, ?_⟩
      intro key hkey last hlast
      rw [List.mem_singleton.mp hlast]
      obtain ⟨place, hplace⟩ := h.liveSince key hkey
      exact ⟨place, _, liveSince_concat.mpr (Or.inr ⟨hkept key hkey, hplace⟩), hborn,
        hplace.lt_length⟩
    · rw [hkeys, List.forall_mem_append, List.forall_mem_singleton]
      exact ⟨hsince, _, hborn⟩

theorem remove (h : t.Tracks changes) (name : String) :
    (t.remove name).2.Tracks (changes ++ [.remove name]) := by
  have hmem : ∀ key y, (key, y) ∈ (t.remove name).2.entries ↔
      Holds (changes ++ [.remove name]) key y := by
    intro key y
    rw [mem_remove h.nodup_keys, h.mem_entries, holds_concat]
    simp [Change.Binds, Change.Drops]
  have hkept : ∀ key ∈ (t.remove name).2.keys, ¬ (Change.remove name : Change α).Drops key := by
    intro key hkey
    obtain ⟨y, hy⟩ := NameTable.mem_keys.mp hkey
    exact ((mem_remove h.nodup_keys name).mp hy).1
  obtain ⟨holder, hsince⟩ := h.older_concat (keys_remove_sublist name) hkept
  exact ⟨h.nodup_keys.sublist (keys_remove_sublist name), hmem, holder, hsince⟩

theorem empty (h : ∀ key, ¬ Live changes key) : (NameTable.empty : NameTable α).Tracks changes where
  nodup_keys := List.nodup_nil
  mem_entries := fun key x => ⟨nofun, fun hx => absurd ⟨x, hx⟩ (h key)⟩
  older := List.Pairwise.nil
  liveSince := nofun

end Tracks

/-- **Every table tracks the changes that were made to it.** -/
theorem tracks_ofChanges (changes : List (Change α)) : (ofChanges changes).Tracks changes := by
  -- by the last change, which is made to a table that tracks those before it
  induction changes using List.reverseRecOn with
  | nil =>
    refine Tracks.empty ?_
    rintro key ⟨x, earlier, name, later, hnil, -⟩
    simp at hnil
  | append_singleton changes c ih =>
    rw [ofChanges, List.foldl_append]
    cases c with
    | insert name x => exact ih.insert name x
    | remove name => exact ih.remove name
    | clear =>
      refine Tracks.empty ?_
      intro key hlive
      simp [live_concat, Change.Binds, Change.Drops] at hlive

/-- A spelling of another length is of the same key, and a name that was absent comes last. -/
example : (ofChanges [.insert "straße" 1, .insert "a" 2, .insert "b" 3, .remove "A",
    .insert "Strasse" 4, .insert "a" 5] : NameTable Nat).entries =
      [("STRASSE", 4), ("B", 3), ("A", 5)] := by decide +kernel

/-! ## 3. What a table answers -/

/-- The table is the insertion-ordered map that the changes describe.  There is a field for each
thing that can be asked: values, keys, their order and number, and what the next change would do. -/
structure Follows (t : NameTable α) (changes : List (Change α)) : Prop where
  nodup_keys : t.keys.Nodup
  uppercase_key : ∀ key ∈ t.keys, Text.uppercase key = key
  mem_keys_iff : ∀ key, key ∈ t.keys ↔ Live changes key
  mem_entries_iff : ∀ key x, (key, x) ∈ t.entries ↔ Holds changes key x
  boundTo : ∀ name x, Holds changes (Text.uppercase name) x → t.BoundTo name x
  unbound : ∀ name, ¬ Live changes (Text.uppercase name) → t.Unbound name
  size_eq : t.size = {key | Live changes key}.encard
  older_first : t.keys.Pairwise fun first second => ∀ i j,
    LiveSince changes first i → LiveSince changes second j → i < j
  live_since : ∀ key ∈ t.keys, ∃ place, LiveSince changes key place

theorem Tracks.follows {t : NameTable α} {changes : List (Change α)} (h : t.Tracks changes) :
    t.Follows changes where
  nodup_keys := h.nodup_keys
  uppercase_key := by
    intro key hkey
    obtain ⟨x, earlier, name, later, -, rfl, -⟩ := h.mem_keys.mp hkey
    exact Text.uppercase_uppercase name
  mem_keys_iff := fun key => h.mem_keys
  mem_entries_iff := h.mem_entries
  boundTo := fun name x => h.boundTo
  unbound := fun name => h.unbound
  size_eq := by
    have hkeys : {key | Live changes key} = t.keys.toFinset := by
      ext key
      rw [Set.mem_ofPred_eq, Finset.mem_coe, List.mem_toFinset, h.mem_keys]
    rw [hkeys, Set.encard_coe_eq_coe_finsetCard, List.toFinset_card_of_nodup h.nodup_keys, keys,
      List.length_map, size]
  older_first := by
    refine h.older.imp ?_
    rintro first second ⟨i, j, hi, hj, hlt⟩ i' j' hi' hj'
    rw [← hi.unique hi', ← hj.unique hj']
    exact hlt
  live_since := h.liveSince

def bindings (entries : List (String × α)) : List (Change α) :=
  entries.map fun e => .insert e.1 e.2

theorem insertAll_eq_ofChanges (entries : List (String × α)) :
    NameTable.empty.insertAll entries = ofChanges (bindings entries) := by
  rw [insertAll, ofChanges, bindings, List.foldl_map]
  rfl

end NameTable

/-- What a request does to the variables. -/
def Request.change? : Request → Option (NameTable.Change Float)
  | .bind name value => some (.insert name value)
  | .unbind name => some (.remove name)
  | .unbindAll => some .clear
  | .evaluate _ | .format _ | .inspect => none

/-- The variables of a session are the table of the requests that change them. -/
theorem Session.bindings_respondAll {σ : Type} [Chance.Source σ] (s : Session σ)
    (requests : List Request) : (s.respondAll requests).bindings =
      (requests.filterMap Request.change?).foldl NameTable.Change.apply s.bindings := by
  induction requests generalizing s with
  | nil => rfl
  | cons request rest ih =>
    have hrest : s.respondAll (request :: rest) = (s.respond request).respondAll rest := rfl
    rw [hrest, ih]
    cases request with
    | evaluate formula => rw [respond, bindings_evaluate]; rfl
    | _ => rfl

/-- **Tables are insertion-ordered maps by the upper case of names**, whatever was done to them: a
table that began empty, constants that were added to none or to the standard ones, and the variables
of a session after any requests. -/
theorem NameTable.follows_changes {σ : Type} [Chance.Source σ] :
    (∀ changes : List (Change Float), (ofChanges changes).Follows changes) ∧
    (∀ entries : List (String × Float),
      (NameTable.empty.insertAll entries).Follows (bindings entries) ∧
      (Constants.standard.insertAll entries).Follows
        (bindings (("PI", piValue) :: ("E", eulerValue) :: entries))) ∧
    ∀ (config : Config) (source : σ) (requests : List Request),
      ((Session.fresh config source).respondAll requests).bindings.Follows
        (requests.filterMap Request.change?) := by
  refine ⟨?_, ?_, ?_⟩
  · intro changes
    exact (tracks_ofChanges changes).follows
  · intro entries
    have hstandard : Constants.standard.insertAll entries =
        NameTable.empty.insertAll (("PI", piValue) :: ("E", eulerValue) :: entries) := rfl
    rw [hstandard, insertAll_eq_ofChanges, insertAll_eq_ofChanges]
    exact ⟨(tracks_ofChanges _).follows, (tracks_ofChanges _).follows⟩
  · intro config source requests
    rw [Session.bindings_respondAll]
    exact (tracks_ofChanges _).follows

end Reckoner
