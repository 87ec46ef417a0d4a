/-
# The calls of a run

A run calls functions, one after the other, until it fails or is over.  Of all calls only those of
`RND` with a single number above zero draw from the random source (`drawsOn`), and they draw once
(`Builtin.call_of_drawsOn`).  All others leave the source as it was and do not look at it
(`Builtin.call_of_not_drawsOn`), since apart from `RND` the built-in functions are the same over any
source (`Builtin.functions_over`).

What an atom calls is settled by the stack before it (`Evaluation.asked`), so that a step sees no
more of the source than the outcome of its call.  `Evaluation.callsFrom` lists the calls of a run;
they are those of the functions among the atoms, in their order, as far as the run came
(`Evaluation.names_callsFrom`).
-/
import Reckoner.Proofs.Builtins

namespace Reckoner

open Chance

variable {σ : Type}

/-! ## 1. Functions -/

section Positive

open Float.Model

/-- Zero is below exactly what is neither at most zero nor no number at all. -/
theorem zero_lt_unpacked_iff (u : UnpackedFloat) :
    UnpackedFloat.lt (.zero .positive) u = true ↔
      UnpackedFloat.le u (.zero .positive) = false ∧ u.isNaN = false := by
  cases u with
  | notANumber => decide
  | zero s => cases s <;> decide
  | infinity s => cases s <;> decide
  | finite s m e hm =>
    cases s with
    | positive => exact ⟨fun _ => ⟨rfl, rfl⟩, fun _ => rfl⟩
    | negative => exact ⟨nofun, fun h => nomatch h.1⟩

theorem zero_lt_iff (x : Float) : 0 < x ↔ (decide (x ≤ 0) || x.isNaN) = false := by
  have hzero : (0 : Float).toModel.unpack = .zero .positive := by rfl
  have hlt : 0 < x ↔ ((0 : Float).toModel.unpack).lt x.toModel.unpack = true := decide_eq_true_iff
  have hle : x ≤ 0 ↔ x.toModel.unpack.le (0 : Float).toModel.unpack = true := decide_eq_true_iff
  rw [hzero] at hlt hle
  rw [hlt, zero_lt_unpacked_iff, Bool.or_eq_false_iff, decide_eq_false_iff_not, hle,
    Bool.not_eq_true]
  exact Iff.rfl

end Positive

/-- Whether a call under this name, with these arguments, draws: it must be `RND` of a single number
above zero. -/
def drawsOn (name : String) (args : List Float) : Bool :=
  Text.uppercase name = "RND" && match args with
    | [x] => decide (0 < x)
    | _ => false

/-- What a call that draws `x` gives.  The argument stands at the head, since there is only one. -/
def partOf (args : List Float) (x : Float) : Float := (x * args.headD 0).floor

/-- A function that does not draw, over any source; `RND` stays itself.  What it computes is taken
from the plainest source, where a cycle without numbers stands in for any other. -/
def Callable.over [Source σ] (c : Callable Cycle) : Callable σ where
  name := c.name
  minArgs := c.minArgs
  maxArgs := c.maxArgs
  run := match c.volatile with
    | true => Builtin.random.run
    | false => fun args source => ((c.run args (.ofList [])).1, source)
  volatile := c.volatile

namespace Builtin

variable [Source σ]

/-- **The functions over any source are those over the plainest one.**  They are defined once for
all sources, so this holds by computation, for the whole list. -/
theorem functions_over : (functions : List (Callable σ)) = functions.map Callable.over := rfl

/-- Only `RND` is volatile. -/
theorem eq_random_of_volatile {c : Callable σ} (h : c ∈ functions) (hvolatile : c.volatile = true) :
    c = random := by
  have hfilter : (functions : List (Callable σ)).filter Callable.volatile = [random] := rfl
  rw [← List.mem_singleton, ← hfilter, List.mem_filter]
  exact ⟨h, hvolatile⟩

theorem get?_over (name : String) :
    (registry : Registry σ).get? name = (registry.get? name).map Callable.over := by
  have hregister : ∀ (functions : List (Callable Cycle)) (r : Registry Cycle) (s : Registry σ),
      s.get? name = (r.get? name).map Callable.over →
      ((functions.map Callable.over).foldl Registry.register s).get? name =
        ((functions.foldl Registry.register r).get? name).map Callable.over := by
    intro functions
    induction functions with
    | nil => exact fun _ _ h => h
    | cons c rest ih =>
      intro r s h
      apply ih
      have hsame : (c.over : Callable σ).name = c.name := rfl
      rw [Registry.register, Registry.register, NameTable.get?_insert, NameTable.get?_insert, hsame]
      by_cases hname : Text.uppercase name = Text.uppercase c.name
      · rw [if_pos hname, if_pos hname, Option.map_some]
      · rw [if_neg hname, if_neg hname, h]
  have hempty := hregister functions .empty .empty rfl
  rw [← functions_over] at hempty
  exact hempty

theorem get?_random {name : String} (h : Text.uppercase name = "RND") :
    (registry : Registry σ).get? name = some random := by
  have hvolatile : ((registry : Registry Cycle).get? "RND").map Callable.volatile = some true := by
    decide +kernel
  have hname : (registry : Registry σ).get? name = registry.get? "RND" := by
    have hsame : Text.uppercase "RND" = "RND" := by decide
    rw [NameTable.get?, NameTable.get?, h, hsame]
  obtain ⟨c, hc, hvolatile⟩ := Option.map_eq_some_iff.mp hvolatile
  obtain rfl := eq_random_of_volatile (mem_of_get? hc).1 hvolatile
  rw [hname, get?_over, hc]
  rfl

theorem randomBelow_of_pos {x : Float} (h : 0 < x) (source : σ) :
    randomBelow x source = (((draw source).1 * x).floor, (draw source).2) := by
  have hdraws := (zero_lt_iff x).mp h
  rw [randomBelow, if_neg (Bool.eq_false_iff.mp hdraws)]

theorem randomBelow_of_not_pos {x : Float} (h : ¬ 0 < x) (source : σ) :
    randomBelow x source = (0, source) := by
  rw [zero_lt_iff, Bool.not_eq_false] at h
  rw [randomBelow, if_pos h]

theorem call_random {name : String} (h : Text.uppercase name = "RND") (x : Float) (source : σ) :
    registry.call name [x] source =
      (.ok (randomBelow x source).1, (randomBelow x source).2) := by
  rw [Registry.call, get?_random h]
  rfl

/-- **`RND` of a number above zero draws**, and gives its part of that number. -/
theorem call_of_drawsOn {name : String} {args : List Float} (h : drawsOn name args = true)
    (source : σ) :
    registry.call name args source = (.ok (partOf args (draw source).1), (draw source).2) := by
  simp only [drawsOn, Bool.and_eq_true, decide_eq_true_eq] at h
  obtain ⟨hname, hargs⟩ := h
  match args with
  | [] => cases hargs
  | [x] =>
    rw [call_random hname, randomBelow_of_pos (of_decide_eq_true hargs)]
    rfl
  | _ :: _ :: _ => cases hargs

/-- **Any other call leaves the source as it was**, and does not look at it: one outcome serves for
sources of every type. -/
theorem call_of_not_drawsOn {name : String} {args : List Float} (h : drawsOn name args = false) :
    ∃ outcome, ∀ {τ : Type} [Source τ] (source : τ),
      registry.call name args source = (outcome, source) := by
  cases hget : (registry : Registry Cycle).get? name with
  | none =>
    refine ⟨.error (.undefinedFunction name), ?_⟩
    intro τ _ source
    rw [Registry.call, get?_over, hget]
    rfl
  | some c =>
    by_cases haccepts : c.accepts args.length = true
    · cases hvolatile : c.volatile with
      | false =>
        refine ⟨(c.run args (.ofList [])).1, ?_⟩
        intro τ _ source
        have hrun : (c.over : Callable τ).run args source =
            ((c.run args (.ofList [])).1, source) := by
          simp only [Callable.over, hvolatile]
        have haccepts' : (c.over : Callable τ).accepts args.length = true := haccepts
        simp only [Registry.call, get?_over, hget, Option.map_some, haccepts', if_true, hrun]
      | true =>
        obtain ⟨hmem, hname⟩ := mem_of_get? hget
        obtain rfl := eq_random_of_volatile hmem hvolatile
        have hupper : Text.uppercase name = "RND" := by
          rw [← hname]
          decide
        -- the argument must be at fault
        obtain ⟨x, rfl⟩ : ∃ x, args = [x] := by
          have hone : 1 ≤ args.length ∧ args.length ≤ 1 := by
            simpa [Callable.accepts, random] using haccepts
          rw [← List.length_eq_one_iff]
          omega
        have hidle : ¬ 0 < x := by simpa [drawsOn, hupper] using h
        refine ⟨.ok 0, ?_⟩
        intro τ _ source
        rw [call_random hupper, randomBelow_of_not_pos hidle]
    · refine ⟨.error (.arityMismatch name), ?_⟩
      intro τ _ source
      have hrefused : (c.over : Callable τ).accepts args.length = false :=
        Bool.eq_false_iff.mpr haccepts
      refine Registry.call_of_not_accepts ?_ hrefused
      rw [get?_over, hget]
      rfl

end Builtin

/-! ## 2. What an atom calls -/

/-- A function that was called. -/
structure Call where
  name : String
  args : List Float
  outcome : Except FormulaError Float

def Call.draws (c : Call) : Bool := drawsOn c.name c.args

namespace Evaluation

/-- The name and the arguments that an atom calls with, if it is a function that has its arguments
on the stack.  No source is needed to say so, and thus the calls of two runs can be compared before
either draws. -/
def asked (a : Atom) (stack : List Atom) : Option (String × List Float) :=
  if a.kind = .function then
    (popArguments stack).map fun taken => (a.name, taken.1.map Atom.value)
  else none

/-- An atom that calls nothing does the same whatever the source is; a function fails. -/
theorem step_of_not_asked {a : Atom} {stack : List Atom} (h : asked a stack = none) :
    ∃ next, (a.kind = .function → next = .error .malformed) ∧
      ∀ {τ : Type} (registry : Registry τ) (source : τ),
        step registry a stack source = (next, source) := by
  unfold asked at h
  split at h
  · rename_i hkind
    have hpop : popArguments stack = none := Option.map_eq_none_iff.mp h
    refine ⟨.error .malformed, fun _ => rfl, ?_⟩
    intro τ registry source
    simp only [step, hkind, call, hpop]
  · rename_i hkind
    refine ⟨(step .empty a stack ()).1, fun hfunction => absurd hfunction hkind, ?_⟩
    intro τ registry source
    cases ha : a.kind with
    | function => exact absurd ha hkind
    | _ => simp only [step, ha]

/-- An atom that calls a function sees nothing of the source but the outcome. -/
theorem step_of_asked {a : Atom} {stack : List Atom} {name : String} {args : List Float}
    (h : asked a stack = some (name, args)) :
    a.kind = .function ∧ a.name = name ∧
      ∃ next : Float → List Atom, ∀ {τ : Type} (registry : Registry τ) (source : τ),
        step registry a stack source =
          ((registry.call name args source).1.map next, (registry.call name args source).2) := by
  unfold asked at h
  split at h
  · rename_i hkind
    obtain ⟨⟨taken, below⟩, hpop, htaken⟩ := Option.map_eq_some_iff.mp h
    obtain ⟨rfl, rfl⟩ := Prod.mk.inj htaken
    refine ⟨hkind, rfl,
      fun value => .result (callName a.name (taken.map Atom.name)) value :: below, ?_⟩
    intro τ registry source
    simp only [step, hkind, call, hpop]
  · cases h

def callOf (registry : Registry σ) (a : Atom) (stack : List Atom) (source : σ) : Option Call :=
  (asked a stack).map fun called =>
    ⟨called.1, called.2, (registry.call called.1 called.2 source).1⟩

/-- **All that a step can do with the source**: nothing, and then it does the same whatever the
source is, or it draws one number for its call. -/
theorem step_source_cases (a : Atom) (stack : List Atom) :
    (∃ (next : Except FormulaError (List Atom)) (made : Option Call),
      (∀ c ∈ made, c.draws = false) ∧ ∀ {τ : Type} [Source τ] (source : τ),
        step Builtin.registry a stack source = (next, source) ∧
        callOf Builtin.registry a stack source = made) ∨
    ∃ (name : String) (args : List Float) (next : Float → List Atom), drawsOn name args = true ∧
      ∀ {τ : Type} [Source τ] (source : τ),
        step Builtin.registry a stack source =
          (.ok (next (partOf args (draw source).1)), (draw source).2) ∧
        callOf Builtin.registry a stack source =
          some ⟨name, args, .ok (partOf args (draw source).1)⟩ := by
  cases hasked : asked a stack with
  | none =>
    obtain ⟨next, -, hstep⟩ := step_of_not_asked hasked
    refine Or.inl ⟨next, none, by simp, ?_⟩
    intro τ _ source
    exact ⟨hstep _ source, by rw [callOf, hasked, Option.map_none]⟩
  | some called =>
    obtain ⟨name, args⟩ := called
    obtain ⟨-, -, next, hstep⟩ := step_of_asked hasked
    cases hdraws : drawsOn name args with
    | false =>
      obtain ⟨outcome, hcall⟩ := Builtin.call_of_not_drawsOn hdraws
      refine Or.inl ⟨outcome.map next, some ⟨name, args, outcome⟩, ?_, ?_⟩
      · rintro c ⟨⟩
        exact hdraws
      · intro τ _ source
        rw [hstep, callOf, hasked, Option.map_some, hcall]
        exact ⟨rfl, rfl⟩
    | true =>
      refine Or.inr ⟨name, args, next, hdraws, ?_⟩
      intro τ _ source
      rw [hstep, callOf, hasked, Option.map_some, Builtin.call_of_drawsOn hdraws]
      exact ⟨rfl, rfl⟩

/-! ## 3. The calls of a run -/

def functionNames (atoms : List Atom) : List String :=
  (atoms.filter (·.kind = .function)).map Atom.name

theorem functionNames_cons_of_function {a : Atom} (h : a.kind = .function) (rest : List Atom) :
    functionNames (a :: rest) = a.name :: functionNames rest := by
  simp [functionNames, h]

theorem functionNames_cons_of_other {a : Atom} (h : a.kind ≠ .function) (rest : List Atom) :
    functionNames (a :: rest) = functionNames rest := by
  simp [functionNames, h]

section CallsFrom

variable (registry : Registry σ)

/-- The calls of a run, in the order in which they were made. -/
def callsFrom : List Atom → List Atom → σ → List Call
  | [], _, _ => []
  | a :: rest, stack, source =>
    let later := match step registry a stack source with
      | (.error _, _) => []
      | (.ok stack, source) => callsFrom rest stack source
    (callOf registry a stack source).toList ++ later

variable {registry} {a : Atom} {stack after : List Atom} {source next : σ} {e : FormulaError}

theorem runFrom_nil (registry : Registry σ) (stack : List Atom) (source : σ) :
    runFrom registry [] stack source = ⟨answer stack, source, []⟩ ∧
      callsFrom registry [] stack source = [] := ⟨rfl, rfl⟩

theorem runFrom_of_error (h : step registry a stack source = (.error e, next)) (rest : List Atom) :
    runFrom registry (a :: rest) stack source = ⟨.error e, next, []⟩ ∧
      callsFrom registry (a :: rest) stack source = (callOf registry a stack source).toList := by
  rw [runFrom, callsFrom, h]
  exact ⟨rfl, List.append_nil _⟩

theorem runFrom_of_ok (h : step registry a stack source = (.ok after, next)) (rest : List Atom) :
    runFrom registry (a :: rest) stack source =
        { runFrom registry rest after next with
          steps := (a.name, after.length) :: (runFrom registry rest after next).steps } ∧
      callsFrom registry (a :: rest) stack source =
        (callOf registry a stack source).toList ++ callsFrom registry rest after next := by
  rw [runFrom, callsFrom, h]
  exact ⟨rfl, rfl⟩

/-- **The calls are those of the functions among the atoms, in their order**: of all that were run,
and perhaps of the one that failed. -/
theorem names_callsFrom (registry : Registry σ) (atoms stack : List Atom) (source : σ) :
    functionNames (atoms.take (runFrom registry atoms stack source).steps.length) <+:
        (callsFrom registry atoms stack source).map Call.name ∧
      (callsFrom registry atoms stack source).map Call.name <+: functionNames atoms := by
  induction atoms generalizing stack source with
  | nil => exact ⟨List.prefix_rfl, List.prefix_rfl⟩
  | cons a rest ih =>
    cases hasked : asked a stack with
    | none =>
      obtain ⟨next, hfunction, hstep⟩ := step_of_not_asked hasked
      have hnone : callOf registry a stack source = none := by rw [callOf, hasked, Option.map_none]
      cases next with
      | error e =>
        obtain ⟨hrun, hcalls⟩ := runFrom_of_error (hstep registry source) rest
        rw [hrun, hcalls, hnone]
        exact ⟨List.prefix_rfl, List.nil_prefix⟩
      | ok after =>
        have hkind : a.kind ≠ .function := by
          intro h
          cases hfunction h
        obtain ⟨hrun, hcalls⟩ := runFrom_of_ok (hstep registry source) rest
        rw [hrun, hcalls, hnone]
        simp only [List.length_cons, List.take_succ_cons, functionNames_cons_of_other hkind]
        exact ih after source
    | some called =>
      obtain ⟨name, args⟩ := called
      obtain ⟨hkind, rfl, next, hstep⟩ := step_of_asked hasked
      have hsome : callOf registry a stack source =
          some ⟨a.name, args, (registry.call a.name args source).1⟩ := by
        rw [callOf, hasked, Option.map_some]
      rcases hcall : registry.call a.name args source with ⟨e | x, later⟩
      · have hfails : step registry a stack source = (.error e, later) := by
          rw [hstep, hcall]
          rfl
        obtain ⟨hrun, hcalls⟩ := runFrom_of_error hfails rest
        rw [hrun, hcalls, hsome, functionNames_cons_of_function hkind]
        exact ⟨List.nil_prefix, List.prefix_append [a.name] _⟩
      · have hgoes : step registry a stack source = (.ok (next x), later) := by
          rw [hstep, hcall]
          rfl
        obtain ⟨hrun, hcalls⟩ := runFrom_of_ok hgoes rest
        obtain ⟨hlower, hupper⟩ := ih (next x) later
        rw [hrun, hcalls, hsome]
        simp only [List.length_cons, List.take_succ_cons, functionNames_cons_of_function hkind]
        exact ⟨List.cons_prefix_cons.mpr ⟨rfl, hlower⟩, List.cons_prefix_cons.mpr ⟨rfl, hupper⟩⟩

end CallsFrom

end Evaluation

end Reckoner
