/-
# Registries after registrations

A registry is the table of the registrations that were made, so that a name finds the last function
that was registered with its upper case (`Registry.LastNamed`), and the names that are listed are
those of such functions, in order and each once (`Registry.Lists`).  A call is decided by what its
name finds and by the number of arguments (`Registry.Answers`): before an implementation is run
nothing is drawn, and the name as it was written is in the error only (`Registry.Dispatches`).

`Registry.lists_and_dispatches` says both of the built-in functions with any others registered after
them.
-/
import Mathlib.Data.List.Dedup
import Reckoner.Proofs.Builtins
import Reckoner.Proofs.Tables

namespace Reckoner

variable {σ : Type}

namespace Registry

/-! ## 1. What a name finds -/

/-- The function is the last of the listed ones with this upper case of a name. -/
def LastNamed (functions : List (Callable σ)) (key : String) (c : Callable σ) : Prop :=
  ∃ earlier later, functions = earlier ++ c :: later ∧ Text.uppercase c.name = key ∧
    ∀ d ∈ later, Text.uppercase d.name ≠ key

def registrations (functions : List (Callable σ)) : List (NameTable.Change (Callable σ)) :=
  functions.map fun c => .insert c.name c

variable {functions : List (Callable σ)} {key name : String} {c : Callable σ}

theorem tracks_ofList (functions : List (Callable σ)) :
    (ofList functions).Tracks (registrations functions) := by
  have hchanges : ofList functions = NameTable.ofChanges (registrations functions) := by
    rw [ofList, NameTable.ofChanges, registrations, List.foldl_map]
    rfl
  rw [hchanges]
  exact NameTable.tracks_ofChanges _

theorem holds_registrations :
    NameTable.Holds (registrations functions) key c ↔ LastNamed functions key c := by
  constructor
  · rintro ⟨earlier, written, later, hchanges, hname, hlater⟩
    obtain ⟨front, rest, rfl, rfl, hrest⟩ := List.map_eq_append_iff.mp hchanges
    obtain ⟨d, back, rfl, hd, rfl⟩ := List.map_eq_cons_iff.mp hrest
    cases hd
    refine ⟨front, back, rfl, hname, ?_⟩
    intro e he
    exact (hlater _ (List.mem_map_of_mem he)).1
  · rintro ⟨earlier, later, rfl, hname, hlater⟩
    refine ⟨registrations earlier, c.name, registrations later, by simp [registrations], hname, ?_⟩
    intro change hchange
    obtain ⟨d, hd, rfl⟩ := List.mem_map.mp hchange
    exact ⟨hlater d hd, id⟩

theorem mem_entries_ofList : (key, c) ∈ (ofList functions).entries ↔ LastNamed functions key c := by
  rw [(tracks_ofList functions).mem_entries, holds_registrations]

theorem LastNamed.uppercase_name (h : LastNamed functions key c) : Text.uppercase c.name = key := by
  obtain ⟨-, -, -, hname, -⟩ := h
  exact hname

theorem LastNamed.mem (h : LastNamed functions key c) : c ∈ functions := by
  obtain ⟨earlier, later, rfl, -⟩ := h
  exact List.mem_append_right _ List.mem_cons_self

theorem exists_lastNamed (hc : c ∈ functions) :
    ∃ d, LastNamed functions (Text.uppercase c.name) d := by
  induction functions using List.reverseRecOn with
  | nil => cases hc
  | append_singleton functions last ih =>
    by_cases hlast : Text.uppercase last.name = Text.uppercase c.name
    · exact ⟨last, functions, [], rfl, hlast, nofun⟩
    · rcases List.mem_append.mp hc with hbefore | hself
      · obtain ⟨d, earlier, later, rfl, hname, hlater⟩ := ih hbefore
        refine ⟨d, earlier, later ++ [last], by simp, hname, ?_⟩
        rw [List.forall_mem_append, List.forall_mem_singleton]
        exact ⟨hlater, hlast⟩
      · rw [List.mem_singleton.mp hself] at hlast
        exact absurd rfl hlast

/-- **A name finds the function that was registered last under it.** -/
theorem get?_ofList_eq_some_iff :
    (ofList functions).get? name = some c ↔ LastNamed functions (Text.uppercase name) c := by
  rw [(tracks_ofList functions).get?_eq_some_iff, holds_registrations]

/-- A name of another length is found, as it was registered last. -/
example : (((ofList [.unary "straße" id, .unary "Strasse" id] : Registry Unit).get?
    "STRASSE").map Callable.name) = some "Strasse" := by decide +kernel

/-- A name finds nothing if no function was registered under it. -/
theorem get?_ofList_eq_none_iff : (ofList functions).get? name = none ↔
    ∀ c ∈ functions, Text.uppercase c.name ≠ Text.uppercase name := by
  rw [Option.eq_none_iff_forall_ne_some]
  constructor
  · intro hnone c hc hname
    obtain ⟨d, hd⟩ := exists_lastNamed hc
    rw [hname] at hd
    exact hnone d (get?_ofList_eq_some_iff.mpr hd)
  · intro hall d hd
    have hlast := get?_ofList_eq_some_iff.mp hd
    exact hall d hlast.mem hlast.uppercase_name

/-! ## 2. The names -/

theorem perm_names (r : Registry σ) : r.names.Perm (r.entries.map fun e => e.2.name) :=
  List.mergeSort_perm _ _

/-- **The listed names are those of the functions that were registered last.**  A name that was
registered and then replaced under another spelling is listed as the other one spells it. -/
theorem mem_names_ofList : name ∈ (ofList functions).names ↔
    ∃ c, LastNamed functions (Text.uppercase name) c ∧ c.name = name := by
  rw [(perm_names _).mem_iff, List.mem_map]
  constructor
  · rintro ⟨⟨key, c⟩, hmem, rfl⟩
    have hlast := mem_entries_ofList.mp hmem
    exact ⟨c, hlast.uppercase_name ▸ hlast, rfl⟩
  · rintro ⟨c, hlast, rfl⟩
    exact ⟨(_, c), mem_entries_ofList.mpr hlast, rfl⟩

/-- No two of the names have the same upper case. -/
theorem nodup_uppercase_names (functions : List (Callable σ)) :
    ((ofList functions).names.map Text.uppercase).Nodup := by
  have hkeys : ((ofList functions).entries.map fun e => e.2.name).map Text.uppercase =
      (ofList functions).keys := by
    rw [List.map_map]
    refine List.map_congr_left ?_
    intro e he
    exact (mem_entries_ofList.mp he).uppercase_name
  rw [((perm_names _).map _).nodup_iff, hkeys]
  exact (tracks_ofList functions).nodup_keys

/-- **There is one name for each upper case that was registered.** -/
theorem perm_uppercase_names (functions : List (Callable σ)) :
    ((ofList functions).names.map Text.uppercase).Perm
      (functions.map fun c => Text.uppercase c.name).dedup := by
  rw [List.perm_ext_iff_of_nodup (nodup_uppercase_names functions) (List.nodup_dedup _)]
  intro key
  rw [List.mem_dedup, List.mem_map, List.mem_map]
  constructor
  · rintro ⟨name, hname, rfl⟩
    obtain ⟨c, hlast, rfl⟩ := mem_names_ofList.mp hname
    exact ⟨c, hlast.mem, rfl⟩
  · rintro ⟨c, hc, rfl⟩
    obtain ⟨d, hd⟩ := exists_lastNamed hc
    exact ⟨d.name, mem_names_ofList.mpr ⟨d, hd.uppercase_name ▸ hd, rfl⟩, hd.uppercase_name⟩

/-- **The names are in strictly increasing order.**  The sort leaves them in order, and no two are
equal since no two have the same upper case. -/
theorem pairwise_names (functions : List (Callable σ)) :
    (ofList functions).names.Pairwise (· < ·) := by
  have htrans : ∀ a b c : String, decide (a ≤ b) = true → decide (b ≤ c) = true →
      decide (a ≤ c) = true := by
    intro a b c hab hbc
    exact decide_eq_true (String.le_trans (of_decide_eq_true hab) (of_decide_eq_true hbc))
  have htotal : ∀ a b : String, (decide (a ≤ b) || decide (b ≤ a)) = true := by
    intro a b
    simpa using String.le_total a b
  have hsorted : (ofList functions).names.Pairwise (· ≤ ·) :=
    (List.pairwise_mergeSort htrans htotal _).imp of_decide_eq_true
  -- no name is there twice, not even in another letter case
  refine hsorted.imp₂ ?_ (nodup_uppercase_names functions).of_map
  intro a b hle hne
  refine String.not_le.mp ?_
  intro hge
  exact hne (String.le_antisymm hle hge)

/-- What a registry tells of the functions that were registered in turn. -/
structure Lists (r : Registry σ) (functions : List (Callable σ)) : Prop where
  get?_eq_some_iff : ∀ name c,
    r.get? name = some c ↔ LastNamed functions (Text.uppercase name) c
  get?_eq_none_iff : ∀ name,
    r.get? name = none ↔ ∀ c ∈ functions, Text.uppercase c.name ≠ Text.uppercase name
  names_increasing : r.names.Pairwise (· < ·)
  names_perm : (r.names.map Text.uppercase).Perm
    (functions.map fun c => Text.uppercase c.name).dedup
  mem_names_iff : ∀ name, name ∈ r.names ↔
    ∃ c, LastNamed functions (Text.uppercase name) c ∧ c.name = name
  get?_of_mem_names : ∀ name ∈ r.names, ∃ c, r.get? name = some c ∧ c.name = name

/-- **A registry lists the functions that were registered.** -/
theorem lists_ofList (functions : List (Callable σ)) : (ofList functions).Lists functions where
  get?_eq_some_iff := fun _ _ => get?_ofList_eq_some_iff
  get?_eq_none_iff := fun _ => get?_ofList_eq_none_iff
  names_increasing := pairwise_names functions
  names_perm := perm_uppercase_names functions
  mem_names_iff := fun _ => mem_names_ofList
  get?_of_mem_names := by
    intro name hname
    obtain ⟨c, hlast, hspelled⟩ := mem_names_ofList.mp hname
    exact ⟨c, get?_ofList_eq_some_iff.mpr hlast, hspelled⟩

end Registry

/-! ## 3. Calls -/

def Callable.Refuses (c : Callable σ) (count : Nat) : Prop :=
  count < c.minArgs ∨ ∃ most ∈ c.maxArgs, most < count

theorem Callable.accepts_eq_false_iff {c : Callable σ} {count : Nat} :
    c.accepts count = false ↔ c.Refuses count := by
  rw [accepts, Refuses, Bool.and_eq_false_iff, decide_eq_false_iff_not, Nat.not_le]
  cases c.maxArgs <;> simp

namespace Registry

/-- What a call gives: a name without a function and a wrong number of arguments are refused, and
else the function is run. -/
inductive Answers (r : Registry σ) (name : String) (args : List Float) (source : σ) :
    Except FormulaError Float × σ → Prop
  | undefined (h : r.get? name = none) :
    r.Answers name args source (.error (.undefinedFunction name), source)
  | refused (c : Callable σ) (h : r.get? name = some c) (harity : c.Refuses args.length) :
    r.Answers name args source (.error (.arityMismatch name), source)
  | computed (c : Callable σ) (h : r.get? name = some c) (harity : ¬ c.Refuses args.length) :
    r.Answers name args source (c.run args source)

variable {r : Registry σ} {name other : String} {c : Callable σ} {args : List Float} {source : σ}

theorem call_of_undefined (h : r.get? name = none) :
    r.call name args source = (.error (.undefinedFunction name), source) := by
  rw [call, h]

theorem call_of_refuses (h : r.get? name = some c) (harity : c.Refuses args.length) :
    r.call name args source = (.error (.arityMismatch name), source) :=
  call_of_not_accepts h (Callable.accepts_eq_false_iff.mpr harity)

theorem call_of_accepts (h : r.get? name = some c) (harity : ¬ c.Refuses args.length) :
    r.call name args source = c.run args source := by
  rw [← Callable.accepts_eq_false_iff, Bool.not_eq_false] at harity
  rw [call, h]
  exact if_pos harity

/-- **A call gives one answer**, by what the name finds and by the number of arguments.  The
relation has a case for each answer, and the cases exclude each other. -/
theorem call_eq_iff {answer : Except FormulaError Float × σ} :
    r.call name args source = answer ↔ r.Answers name args source answer := by
  constructor
  · rintro rfl
    cases hget : r.get? name with
    | none =>
      rw [call_of_undefined hget]
      exact .undefined hget
    | some c =>
      by_cases harity : c.Refuses args.length
      · rw [call_of_refuses hget harity]
        exact .refused c hget harity
      · rw [call_of_accepts hget harity]
        exact .computed c hget harity
  · rintro (hget | ⟨c, hget, harity⟩ | ⟨c, hget, harity⟩)
    · exact call_of_undefined hget
    · exact call_of_refuses hget harity
    · exact call_of_accepts hget harity

/-- **A refused call runs nothing**: it is answered alike whatever the function would do.  A
function of the same name and range that does something else takes its place, and nothing is seen of
it. -/
theorem call_register_of_refuses (h : r.get? name = some c) (harity : c.Refuses args.length)
    (hname : Text.uppercase c.name = Text.uppercase name)
    (run : List Float → σ → Except FormulaError Float × σ) :
    (r.register { c with run := run }).call name args source = r.call name args source := by
  have hget : (r.register { c with run := run }).get? name = some { c with run := run } := by
    rw [register, NameTable.get?_insert, if_pos hname.symm]
  rw [call_of_refuses h harity, call_of_refuses hget harity]

/-- **Names that find the same are answered the same**, but for the spelling in an error.  A
function that is run is not told under which name. -/
theorem call_congr (h : r.get? name = r.get? other) :
    r.call name args source = r.call other args source ∨
      ∃ reason ∈ [FormulaError.undefinedFunction, FormulaError.arityMismatch],
        r.call name args source = (.error (reason name), source) ∧
        r.call other args source = (.error (reason other), source) := by
  cases hget : r.get? name with
  | none =>
    exact Or.inr ⟨_, List.mem_cons_self, call_of_undefined hget, call_of_undefined (h ▸ hget)⟩
  | some c =>
    by_cases harity : c.Refuses args.length
    · exact Or.inr ⟨_, List.mem_cons_of_mem _ List.mem_cons_self, call_of_refuses hget harity,
        call_of_refuses (h ▸ hget) harity⟩
    · rw [call_of_accepts hget harity, call_of_accepts (h ▸ hget) harity]
      exact Or.inl rfl

/-- A name is reported as undefined if it finds nothing, unless what is run says so itself.  The
built-in functions never do. -/
theorem error_undefined_iff
    (hrun : ∀ c, r.get? name = some c → (c.run args source).1 ≠ .error (.undefinedFunction name)) :
    (r.call name args source).1 = .error (.undefinedFunction name) ↔ r.get? name = none := by
  constructor
  · intro h
    cases hget : r.get? name with
    | none => rfl
    | some c =>
      by_cases harity : c.Refuses args.length
      · rw [call_of_refuses hget harity] at h
        cases h
      · rw [call_of_accepts hget harity] at h
        exact absurd h (hrun c hget)
  · intro hget
    rw [call_of_undefined hget]

/-- The number of arguments is reported as wrong if it is, unless what is run says so itself. -/
theorem error_arity_iff
    (hrun : ∀ c, r.get? name = some c → (c.run args source).1 ≠ .error (.arityMismatch name)) :
    (r.call name args source).1 = .error (.arityMismatch name) ↔
      ∃ c, r.get? name = some c ∧ c.Refuses args.length := by
  constructor
  · intro h
    cases hget : r.get? name with
    | none =>
      rw [call_of_undefined hget] at h
      cases h
    | some c =>
      refine ⟨c, rfl, ?_⟩
      by_contra harity
      rw [call_of_accepts hget harity] at h
      exact hrun c hget h
  · rintro ⟨c, hget, harity⟩
    rw [call_of_refuses hget harity]

/-- How a registry answers calls. -/
structure Dispatches (r : Registry σ) : Prop where
  call_eq_iff : ∀ name args source answer,
    r.call name args source = answer ↔ r.Answers name args source answer
  undefined_iff : ∀ name args source,
    (∀ c, r.get? name = some c → (c.run args source).1 ≠ .error (.undefinedFunction name)) →
    ((r.call name args source).1 = .error (.undefinedFunction name) ↔ r.get? name = none)
  arity_iff : ∀ name args source,
    (∀ c, r.get? name = some c → (c.run args source).1 ≠ .error (.arityMismatch name)) →
    ((r.call name args source).1 = .error (.arityMismatch name) ↔
      ∃ c, r.get? name = some c ∧ c.Refuses args.length)
  runs_nothing : ∀ name c args source, r.get? name = some c → c.Refuses args.length →
    ∀ run, (r.register { c with run := run }).call name args source = r.call name args source
  spelling : ∀ name other args source, r.get? name = r.get? other →
    r.call name args source = r.call other args source ∨
      ∃ reason ∈ [FormulaError.undefinedFunction, FormulaError.arityMismatch],
        r.call name args source = (.error (reason name), source) ∧
        r.call other args source = (.error (reason other), source)

/-- **A registry that lists functions dispatches calls to them.** -/
theorem Lists.dispatches {functions : List (Callable σ)} (h : r.Lists functions) :
    r.Dispatches where
  call_eq_iff := fun _ _ _ _ => Registry.call_eq_iff
  undefined_iff := fun _ _ _ => error_undefined_iff
  arity_iff := fun _ _ _ => error_arity_iff
  runs_nothing := by
    intro name c args source hget harity run
    have hlast := (h.get?_eq_some_iff name c).mp hget
    exact call_register_of_refuses hget harity hlast.uppercase_name run
  spelling := fun _ _ _ _ => call_congr

/-- **Registries after registrations**: any functions, registered after the built-in ones. -/
theorem lists_and_dispatches [Chance.Source σ] (registered : List (Callable σ)) :
    (registered.foldl register Builtin.registry).Lists (Builtin.functions ++ registered) ∧
      (registered.foldl register Builtin.registry).Dispatches := by
  have hregistry : registered.foldl register Builtin.registry =
      ofList (Builtin.functions ++ registered) := by
    rw [ofList, List.foldl_append]
    rfl
  rw [hregistry]
  exact ⟨lists_ofList _, (lists_ofList _).dispatches⟩

end Registry

end Reckoner
