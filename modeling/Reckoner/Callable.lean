/-
# Functions that formulas can call

A function has a name, a range of argument counts, and a computation on its arguments that may draw
random numbers.  A registry keeps functions by name, in any letter case; a later registration
replaces an earlier one.  `Registry.call` checks the number of arguments before it runs anything,
so that a refused call leaves the random source untouched (`call_of_not_accepts`).
-/
import Reckoner.Error
import Reckoner.NameTable

namespace Reckoner

/-! ## 1. Functions -/

/-- A function that formulas can call, over random sources of type `σ`.  Whether it draws or fails
is up to `run`, which therefore has the source as an argument and in its result. -/
structure Callable (σ : Type) where
  /-- The name as it was registered. -/
  name : String
  minArgs : Nat
  /-- The greatest number of arguments, if there is one. -/
  maxArgs : Option Nat
  run : List Float → σ → Except FormulaError Float × σ
  /-- Whether two calls with the same arguments may differ. -/
  volatile : Bool

namespace Callable

variable {σ : Type}

def accepts (c : Callable σ) (count : Nat) : Bool :=
  c.minArgs ≤ count && c.maxArgs.all (fun most => count ≤ most)

/-- A function of exactly `arity` arguments that is computed from them alone. -/
def computed (name : String) (arity : Nat) (f : List Float → Float) : Callable σ :=
  ⟨name, arity, some arity, fun args source => (.ok (f args), source), false⟩

/-- A function of one argument.  The count is checked before the call, so the zero is never
taken. -/
def unary (name : String) (f : Float → Float) : Callable σ :=
  computed name 1 fun args => f (args.getD 0 0)

def binary (name : String) (f : Float → Float → Float) : Callable σ :=
  computed name 2 fun args => f (args.getD 0 0) (args.getD 1 0)

end Callable

/-! ## 2. Registries -/

abbrev Registry (σ : Type) := NameTable (Callable σ)

namespace Registry

variable {σ : Type}

/-- Adds a function under its name, in place of one that has the same name in any letter case. -/
def register (r : Registry σ) (c : Callable σ) : Registry σ := r.insert c.name c

/-- The registry of the listed functions; of those with the same name the last one stays. -/
def ofList (functions : List (Callable σ)) : Registry σ := functions.foldl register .empty

/-- The names as registered, in the order of their characters. -/
def names (r : Registry σ) : List String :=
  (r.entries.map fun e => e.2.name).mergeSort (fun a b => decide (a ≤ b))

/-- Calls a function by name.  The number of arguments is checked before anything runs, so a refused
call draws nothing. -/
def call (r : Registry σ) (name : String) (args : List Float) (source : σ) :
    Except FormulaError Float × σ :=
  match r.get? name with
  | none => (.error (.undefinedFunction name), source)
  | some c =>
    if c.accepts args.length then c.run args source
    else (.error (.arityMismatch name), source)

/-- A call with the wrong number of arguments runs nothing. -/
theorem call_of_not_accepts {r : Registry σ} {name : String} {args : List Float} {source : σ}
    {c : Callable σ} (hc : r.get? name = some c) (h : c.accepts args.length = false) :
    r.call name args source = (.error (.arityMismatch name), source) := by
  simp [call, hc, h]

end Registry

end Reckoner
