/-
# Arguments on the stack

The arguments of a call are pushed as `a, b, ;, c, ;`: the first by itself, and each later one with
a comma behind it (`Evaluation.ArgumentChain`).  `Evaluation.popArguments_inverts` says that taking
arguments undoes this, in both directions:

* a chain that lies on a stack is taken as a whole, in the order in which it was written, and the
  stack below is left as it was, whatever commas and operands of enclosing calls end it;
* whatever is taken was such a chain, except for no arguments at all from the empty stack.

So a function is called with the arguments that were pushed for it, wherever the call stands.
-/
import Mathlib.Data.List.Induction
import Reckoner.Callable.Builtin
import Reckoner.Proofs.Machine

namespace Reckoner.Evaluation

/-! ## 1. Chains -/

/-- Arguments of a call as they are pushed: one by itself, or one more with its comma.  The comma
comes behind the argument to its right, as post-order has it. -/
inductive ArgumentChain where
  | one (a : Atom) (ha : a.isOperand = true)
  | more (front : ArgumentChain) (a comma : Atom) (ha : a.isOperand = true)
      (hcomma : comma.isComma = true)

namespace ArgumentChain

def arguments : ArgumentChain → List Atom
  | one a _ => [a]
  | more front a _ _ _ => front.arguments ++ [a]

def pushes : ArgumentChain → List Atom
  | one a _ => [a]
  | more front a comma _ _ => front.pushes ++ [a, comma]

/-- The stack after the chain was pushed onto it. -/
def onto (c : ArgumentChain) (stack : List Atom) : List Atom := c.pushes.reverse ++ stack

/-- On the stack a later argument lies below its comma, and above the arguments before it. -/
theorem onto_more (front : ArgumentChain) {a comma : Atom} (ha : a.isOperand = true)
    (hcomma : comma.isComma = true) (stack : List Atom) :
    (more front a comma ha hcomma).onto stack = comma :: a :: front.onto stack := by
  rw [onto, pushes, List.reverse_append]
  rfl

theorem onto_eq (c : ArgumentChain) (stack : List Atom) : c.onto stack = c.onto [] ++ stack := by
  rw [onto, onto, List.append_nil]

theorem chained (c : ArgumentChain) : Chained c.arguments (c.onto []) := by
  induction c with
  | one a ha => exact .one ha
  | more front a comma ha hcomma ih =>
    rw [onto_more]
    exact ih.more ha hcomma

theorem exists_of_chained {args segment : List Atom} (h : Chained args segment) :
    ∃ c : ArgumentChain, c.arguments = args ∧ c.onto [] = segment := by
  induction h with
  | @one a ha => exact ⟨.one a ha, rfl, rfl⟩
  | @more _ _ a comma _ ha hcomma ih =>
    obtain ⟨front, rfl, rfl⟩ := ih
    exact ⟨.more front a comma ha hcomma, rfl, front.onto_more ha hcomma []⟩

theorem arguments_ne_nil (c : ArgumentChain) : c.arguments ≠ [] := by
  cases c <;> simp [arguments]

theorem isOperand_of_mem {c : ArgumentChain} {a : Atom} (h : a ∈ c.arguments) :
    a.isOperand = true := by
  induction c with
  | one b hb =>
    rw [arguments, List.mem_singleton] at h
    exact h ▸ hb
  | more front b comma hb hcomma ih =>
    rw [arguments, List.mem_append, List.mem_singleton] at h
    rcases h with h | rfl
    · exact ih h
    · exact hb

/-- **Any operands are the arguments of a chain**, if there is at least one.  So nothing about a
list of arguments is lost or assumed when it is pushed as a chain. -/
theorem exists_arguments_iff {args : List Atom} :
    (∃ c : ArgumentChain, c.arguments = args) ↔
      args ≠ [] ∧ ∀ a ∈ args, a.isOperand = true := by
  constructor
  · rintro ⟨c, rfl⟩
    exact ⟨c.arguments_ne_nil, fun a => isOperand_of_mem⟩
  · rintro ⟨hne, hoperands⟩
    -- a chain grows at its end, and so the last argument is the one that is added
    induction args using List.reverseRecOn with
    | nil => exact absurd rfl hne
    | append_singleton front a ih =>
      obtain ⟨hfront, ha⟩ := List.forall_mem_append.mp hoperands
      rw [List.forall_mem_singleton] at ha
      cases front with
      | nil => exact ⟨.one a ha, rfl⟩
      | cons b rest =>
        obtain ⟨c, hc⟩ := ih (List.cons_ne_nil b rest) hfront
        exact ⟨.more c a .comma ha rfl, congrArg (· ++ [a]) hc⟩

/-! ## 2. Pushing and taking -/

theorem popArguments_onto (c : ArgumentChain) (stack : List Atom) :
    popArguments (c.onto stack) = some (c.arguments, stack) := by
  rw [onto_eq]
  exact popArguments_of_chained c.chained stack

variable {σ : Type} (registry : Registry σ)

theorem finalStack_pushes (c : ArgumentChain) (stack : List Atom) (source : σ) :
    finalStack registry c.pushes stack source = (.ok (c.onto stack), source) := by
  induction c with
  | one a ha =>
    rw [pushes, finalStack_singleton, step_push (Or.inl ha)]
    rfl
  | more front a comma ha hcomma ih =>
    have hlast : finalStack registry [a, comma] (front.onto stack) source =
        (.ok (comma :: a :: front.onto stack), source) := by
      rw [finalStack_cons, step_push (Or.inl ha), andThen_ok, finalStack_singleton,
        step_push (Or.inr hcomma)]
    rw [pushes, finalStack_append, ih, andThen_ok, hlast, onto_more]

/-- **A function is called with the arguments that were pushed for it**, on every stack. -/
theorem finalStack_call (c : ArgumentChain) {f : Atom} (hf : f.kind = .function)
    (stack : List Atom) (source : σ) :
    finalStack registry (c.pushes ++ [f]) stack source =
      andThen (registry.call f.name (c.arguments.map Atom.value) source) fun x source =>
        (.ok (.result (callName f.name (c.arguments.map Atom.name)) x :: stack), source) := by
  rw [finalStack_append, finalStack_pushes, andThen_ok, finalStack_singleton,
    step_function hf (c.popArguments_onto stack)]

end ArgumentChain

/-- **Taking arguments undoes pushing them.**  Any operands form chains; a chain that is pushed onto
a stack is taken as it was written, by a call too, and that stack is left.  Conversely, arguments
that are taken were a chain on the stack that is left, and only the empty stack has none. -/
theorem popArguments_inverts (stack : List Atom) :
    (∀ args, (∃ c : ArgumentChain, c.arguments = args) ↔
      args ≠ [] ∧ ∀ a ∈ args, a.isOperand = true) ∧
    (∀ c : ArgumentChain, popArguments (c.onto stack) = some (c.arguments, stack)) ∧
    (∀ args rest, args ≠ [] → popArguments stack = some (args, rest) →
      ∃ c : ArgumentChain, c.arguments = args ∧ c.onto rest = stack) ∧
    (∀ rest, popArguments stack = some ([], rest) ↔ stack = [] ∧ rest = []) ∧
    (∀ {σ : Type} (registry : Registry σ) (source : σ) (c : ArgumentChain) (f : Atom),
      f.kind = .function → finalStack registry (c.pushes ++ [f]) stack source =
        andThen (registry.call f.name (c.arguments.map Atom.value) source) fun x source =>
          (.ok (.result (callName f.name (c.arguments.map Atom.name)) x :: stack), source)) := by
  refine ⟨fun _ => ArgumentChain.exists_arguments_iff, fun c => c.popArguments_onto stack, ?_, ?_,
    fun registry source c _ hf => c.finalStack_call registry hf stack source⟩
  · intro args rest hne h
    rcases chained_of_popArguments h with ⟨-, hnone, -⟩ | ⟨segment, hchain, rfl⟩
    · exact absurd hnone hne
    · obtain ⟨c, hargs, rfl⟩ := ArgumentChain.exists_of_chained hchain
      exact ⟨c, hargs, c.onto_eq rest⟩
  · intro rest
    constructor
    · intro h
      rcases chained_of_popArguments h with ⟨hstack, -, hrest⟩ | ⟨segment, hchain, -⟩
      · exact ⟨hstack, hrest⟩
      · obtain ⟨c, hargs, -⟩ := ArgumentChain.exists_of_chained hchain
        exact absurd hargs c.arguments_ne_nil
    · rintro ⟨rfl, rfl⟩
      rfl

/-- Two arguments above the comma of an enclosing call, whose own two arguments are a chain below
them. -/
theorem popArguments_inverts_nested :
    let a : Atom := .number "3" 3
    let b : Atom := .result "(3+4)" 7
    let below : List Atom := [.comma, .number "9" 9, .var "X" 8]
    let c : ArgumentChain := .more (.one a rfl) b .comma rfl rfl
    c.pushes = [a, b, .comma] ∧
    c.onto below = [.comma, b, a, .comma, .number "9" 9, .var "X" 8] ∧
    popArguments (c.onto below) = some ([a, b], below) ∧
    (∃ outer : ArgumentChain, outer.arguments = [.var "X" 8, .number "9" 9] ∧
      outer.onto [] = below) ∧
    finalStack Builtin.registry (c.pushes ++ [.function "MAX"]) below (Chance.Cycle.ofList []) =
      (.ok (.result "MAX(3;(3+4))" 7 :: below), Chance.Cycle.ofList []) := by
  intro a b below c
  obtain ⟨-, htaken, houter, -, hcalled⟩ := popArguments_inverts below
  refine ⟨rfl, rfl, htaken c, houter _ _ (List.cons_ne_nil _ _) (by decide +kernel), ?_⟩
  rw [hcalled Builtin.registry (Chance.Cycle.ofList []) c (.function "MAX") rfl]
  decide +kernel

end Reckoner.Evaluation
