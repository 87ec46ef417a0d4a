/-
# Tables keyed by name

A table of named entries in the order in which the names first arrived.  Names are compared by
their upper case: `insert` stores the upper case of a name, writing over an entry that has it and
otherwise adding one at the end, and `get?` finds the first entry whose key is the upper case of
the wanted name.  Variables, constants and functions are all kept in such tables.

A table may also be built from raw entries, whose keys are then kept as they are.
-/
import Reckoner.Text.Uppercase

namespace Reckoner

/-- Named entries in order.  A list is enough: there are few of them, and the order in which the
names came can be asked for. -/
structure NameTable (α : Type) where
  entries : List (String × α)
  deriving Repr, DecidableEq

namespace NameTable

variable {α : Type}

/-! ## 1. Looking up -/

def empty : NameTable α := ⟨[]⟩

def keys (t : NameTable α) : List String := t.entries.map Prod.fst

def size (t : NameTable α) : Nat := t.entries.length

/-- The first entry under exactly this key.  Letter case is left to the callers, so an entry whose
key is not in upper case is there and is not found by `get?`. -/
def lookup? (t : NameTable α) (key : String) : Option α :=
  (t.entries.find? (fun e => e.1 == key)).map Prod.snd

/-- The entry for a name, in any letter case. -/
def get? (t : NameTable α) (name : String) : Option α := t.lookup? (Text.uppercase name)

def contains (t : NameTable α) (name : String) : Bool := (t.get? name).isSome

/-! ## 2. Changing -/

/-- Replaces the value of the first entry under the key, or adds an entry at the end. -/
def put : List (String × α) → String → α → List (String × α)
  | [], key, value => [(key, value)]
  | (k, v) :: rest, key, value =>
    if k = key then (k, value) :: rest else (k, v) :: put rest key value

/-- Binds a name, in place if it is bound. -/
def insert (t : NameTable α) (name : String) (value : α) : NameTable α :=
  ⟨put t.entries (Text.uppercase name) value⟩

/-- Removes the first entry for a name. -/
def erase (t : NameTable α) (name : String) : NameTable α :=
  ⟨t.entries.eraseP (fun e => e.1 == Text.uppercase name)⟩

/-- The value of a name, and the table without it. -/
def remove (t : NameTable α) (name : String) : Option α × NameTable α := (t.get? name, t.erase name)

/-- Binds several names in turn; where names meet, the last value counts. -/
def insertAll (t : NameTable α) (entries : List (String × α)) : NameTable α :=
  entries.foldl (fun t e => t.insert e.1 e.2) t

/-! ## 3. Small lemmas -/

/-- A value that is put under a key is found there, and other keys keep theirs. -/
theorem find?_put (entries : List (String × α)) (key wanted : String) (value : α) :
    ((put entries key value).find? (fun e => e.1 == wanted)).map Prod.snd =
      if wanted = key then some value
      else (entries.find? (fun e => e.1 == wanted)).map Prod.snd := by
  induction entries with
  | nil =>
    by_cases h : key = wanted
    · simp [put, h]
    · simp [put, h, Ne.symm h]
  | cons e rest ih =>
    obtain ⟨k, v⟩ := e
    by_cases hk : k = key
    · subst hk
      by_cases h : k = wanted
      · simp [put, h]
      · simp [put, h, Ne.symm h]
    · by_cases h : k = wanted
      · subst h
        simp [put, hk]
      · simpa [put, hk, h] using ih

theorem get?_insert (t : NameTable α) (name wanted : String) (value : α) :
    (t.insert name value).get? wanted =
      if Text.uppercase wanted = Text.uppercase name then some value else t.get? wanted := by
  simp only [get?, lookup?, insert]
  exact find?_put ..

/-- What is erased under one name is kept under the others. -/
theorem get?_erase_of_ne (t : NameTable α) {name wanted : String}
    (h : Text.uppercase wanted ≠ Text.uppercase name) :
    (t.erase name).get? wanted = t.get? wanted := by
  have hother : ∀ e : String × α, (e.1 == Text.uppercase wanted) = true →
      (e.1 == Text.uppercase name) = false := by
    intro e he
    rw [beq_iff_eq] at he
    rw [he, beq_eq_false_iff_ne]
    exact h
  simp only [get?, lookup?, erase]
  congr 1
  induction t.entries with
  | nil => rfl
  | cons e rest ih =>
    rw [List.eraseP_cons]
    cases he : e.1 == Text.uppercase wanted with
    | true => simp [hother e he, he]
    | false =>
      cases hname : e.1 == Text.uppercase name with
      | true => simp [he]
      | false => simp [he, ih]

end NameTable

end Reckoner
