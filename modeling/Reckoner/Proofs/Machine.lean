/-
# The stack while atoms are run

`Evaluation.runFrom` reports an answer; here a run is followed to the stack that it leaves
(`finalStack`), so that runs can be put one after the other (`finalStack_append`).

The arguments of a call lie on the stack as a chain: the first by itself, each later one below its
comma (`Chained`).  Taking arguments is exactly taking a chain off the stack, whatever lies below:
`popArguments_of_chained` says that a chain is taken as a whole and nothing more, and
`chained_of_popArguments` that nothing but a chain is taken.
-/
import Reckoner.Proofs.Expression

namespace Reckoner.Evaluation

/-! ## 1. Runs to a stack -/

section FinalStack

variable {σ : Type} (registry : Registry σ)

/-- The stack after the atoms were run, and the random source.  This is `runFrom` without the answer
at its end, so that runs can be put together. -/
def finalStack : List Atom → List Atom → σ → Except FormulaError (List Atom) × σ
  | [], stack, source => (.ok stack, source)
  | a :: rest, stack, source => andThen (step registry a stack source) (finalStack rest)

@[simp] theorem finalStack_nil (stack : List Atom) (source : σ) :
    finalStack registry [] stack source = (.ok stack, source) := rfl

theorem finalStack_cons (a : Atom) (rest stack : List Atom) (source : σ) :
    finalStack registry (a :: rest) stack source =
      andThen (step registry a stack source) (finalStack registry rest) := rfl

theorem finalStack_singleton (a : Atom) (stack : List Atom) (source : σ) :
    finalStack registry [a] stack source = step registry a stack source := by
  rw [finalStack_cons]
  rcases step registry a stack source with ⟨_ | _, _⟩ <;> rfl

/-- **Atoms in two parts are run one part after the other.** -/
theorem finalStack_append (u v stack : List Atom) (source : σ) :
    finalStack registry (u ++ v) stack source =
      andThen (finalStack registry u stack source) (finalStack registry v) := by
  induction u generalizing stack source with
  | nil => simp
  | cons a rest ih =>
    rw [List.cons_append, finalStack_cons, finalStack_cons, andThen_assoc]
    congr
    funext stack source
    exact ih stack source

/-- A run from a stack answers with what is left at the end. -/
theorem outcome_runFrom (atoms stack : List Atom) (source : σ) :
    (runFrom registry atoms stack source).outcome =
      (finalStack registry atoms stack source).1.bind answer ∧
    (runFrom registry atoms stack source).source =
      (finalStack registry atoms stack source).2 := by
  induction atoms generalizing stack source with
  | nil => exact ⟨rfl, rfl⟩
  | cons a rest ih =>
    rw [runFrom, finalStack_cons]
    rcases step registry a stack source with ⟨e | stack', source'⟩
    · exact ⟨rfl, rfl⟩
    · exact ih stack' source'

theorem answer_eq_ok {stack : List Atom} {a : Atom} (h : answer stack = .ok a) :
    stack = [a] ∧ a.isOperand = true := by
  match stack with
  | [] => cases h
  | [b] =>
    simp only [answer] at h
    split at h
    · rename_i hb
      cases h
      exact ⟨rfl, hb⟩
    · cases h
  | _ :: _ :: _ => cases h

theorem answer_singleton {a : Atom} (ha : a.isOperand = true) : answer [a] = .ok a := by
  simp [answer, ha]

/-- **A run from the empty stack succeeds exactly if it leaves one operand**, its answer.  So
questions about outcomes become questions about stacks, which can be asked of parts of a row. -/
theorem evaluate_ok_iff {registry : Registry σ} {atoms : List Atom} {source next : σ} {a : Atom} :
    ((evaluate registry atoms source).outcome = .ok a ∧
      (evaluate registry atoms source).source = next) ↔
    finalStack registry atoms [] source = (.ok [a], next) ∧ a.isOperand = true := by
  obtain ⟨houtcome, hsource⟩ := outcome_runFrom registry atoms [] source
  rw [evaluate, houtcome, hsource]
  rcases finalStack registry atoms [] source with ⟨e | stack, last⟩
  · simp [Except.bind]
  · simp only [Except.bind, Prod.mk.injEq, Except.ok.injEq]
    constructor
    · rintro ⟨h, rfl⟩
      exact ⟨⟨(answer_eq_ok h).1, rfl⟩, (answer_eq_ok h).2⟩
    · rintro ⟨⟨rfl, rfl⟩, ha⟩
      exact ⟨answer_singleton ha, rfl⟩

end FinalStack

/-! ## 2. Chains of arguments -/

/-- The arguments `args`, in the order in which they are written, lie on a stack as `segment`, whose
head is the top. -/
inductive Chained : List Atom → List Atom → Prop
  | one {a : Atom} (ha : a.isOperand = true) : Chained [a] [a]
  | more {args segment : List Atom} {a c : Atom} (h : Chained args segment)
      (ha : a.isOperand = true) (hc : c.isComma = true) : Chained (args ++ [a]) (c :: a :: segment)

theorem isOperand_iff {a : Atom} :
    a.isOperand = true ↔ a.kind = .value ∨ a.kind = .var ∨ a.kind = .result := by
  unfold Atom.isOperand
  cases a.kind <;> simp

theorem isComma_iff {a : Atom} : a.isComma = true ↔ a.kind = .comma := by simp [Atom.isComma]

theorem not_isComma_of_isOperand {a : Atom} (ha : a.isOperand = true) : a.isComma = false := by
  rcases isOperand_iff.mp ha with h | h | h <;> simp [Atom.isComma, h]

theorem not_isOperand_of_isComma {a : Atom} (ha : a.isComma = true) : a.isOperand = false := by
  by_cases h : a.isOperand = true
  · rw [not_isComma_of_isOperand h] at ha
    cases ha
  · exact Bool.eq_false_iff.mpr h

theorem popChain_of_chained {args segment : List Atom} (h : Chained args segment) :
    ∀ {a : Atom} (_ : a.isOperand = true) (later stack : List Atom),
      popChain later (a :: segment ++ stack) = some (args ++ a :: later, stack) := by
  induction h with
  | @one b hb =>
    intro a ha later stack
    simp [popChain, ha, hb, not_isComma_of_isOperand hb]
  | @more args segment b c h hb hc ih =>
    intro a ha later stack
    simpa [popChain, ha, hc] using ih hb (a :: later) stack

/-- **A chain is taken as a whole, and nothing below it.** -/
theorem popArguments_of_chained {args segment : List Atom} (h : Chained args segment)
    (stack : List Atom) : popArguments (segment ++ stack) = some (args, stack) := by
  cases h with
  | one ha => simp [popArguments, ha, not_isComma_of_isOperand ha]
  | more h ha hc => simpa [popArguments, hc] using popChain_of_chained h ha [] stack

theorem chained_of_popChain {later stack args rest : List Atom}
    (h : popChain later stack = some (args, rest)) :
    ∃ (a : Atom) (earlier segment : List Atom), a.isOperand = true ∧ Chained earlier segment ∧
      stack = a :: segment ++ rest ∧ args = earlier ++ a :: later := by
  fun_induction popChain later stack with
  | case1 => cases h
  | case2 => cases h
  | case3 => cases h
  | case4 later a c below ha hc ih =>
    obtain ⟨b, earlier, segment, hb, hchain, rfl, rfl⟩ := ih h
    exact ⟨a, earlier ++ [b], c :: b :: segment, by simpa using ha, hchain.more hb hc,
      by simp, by simp⟩
  | case5 later a b below ha hc hb =>
    simp only [Option.some.injEq, Prod.mk.injEq] at h
    obtain ⟨rfl, rfl⟩ := h
    exact ⟨a, [b], [b], by simpa using ha, .one hb, rfl, rfl⟩
  | case6 => cases h

/-- **Nothing but a chain is taken**, and no arguments only from the empty stack.  With the lemma
before this says all there is to say about taking arguments. -/
theorem chained_of_popArguments {stack args rest : List Atom}
    (h : popArguments stack = some (args, rest)) :
    (stack = [] ∧ args = [] ∧ rest = []) ∨
      ∃ segment, Chained args segment ∧ stack = segment ++ rest := by
  match stack with
  | [] =>
    cases h
    exact Or.inl ⟨rfl, rfl, rfl⟩
  | top :: below =>
    right
    simp only [popArguments] at h
    split at h
    · rename_i hc
      obtain ⟨a, earlier, segment, ha, hchain, rfl, rfl⟩ := chained_of_popChain h
      exact ⟨top :: a :: segment, hchain.more ha hc, rfl⟩
    · split at h
      · rename_i ha
        cases h
        exact ⟨[top], .one ha, rfl⟩
      · cases h

/-! ## 3. What one atom does -/

section Step

variable {σ : Type} {registry : Registry σ}

theorem popOperand_eq_some {stack below : List Atom} {a : Atom}
    (h : popOperand stack = some (a, below)) : a.isOperand = true ∧ stack = a :: below := by
  cases stack with
  | nil => cases h
  | cons top rest =>
    simp only [popOperand] at h
    split at h
    · rename_i htop
      cases h
      exact ⟨htop, rfl⟩
    · cases h

theorem step_push {a : Atom} (h : a.isOperand = true ∨ a.isComma = true) (stack : List Atom)
    (source : σ) : step registry a stack source = (.ok (a :: stack), source) := by
  rw [isOperand_iff, isComma_iff] at h
  rcases h with (h | h | h) | h <;> simp only [step, h]

/-- An operator takes two operands and leaves its result. -/
theorem step_operator {op left right : Atom} (hop : op.kind = .operator)
    (hleft : left.isOperand = true) (hright : right.isOperand = true) (stack : List Atom)
    (source : σ) :
    step registry op (right :: left :: stack) source =
      andThen (applyOperator op.name left.value right.value, source) fun x source =>
        (.ok (.result (operationName left.name op.name right.name) x :: stack), source) := by
  simp only [step, hop, operate, popOperand, hleft, hright, if_true]
  cases applyOperator op.name left.value right.value <;> rfl

/-- A function takes a chain of arguments and leaves its result. -/
theorem step_function {f : Atom} (hf : f.kind = .function) {stack args rest : List Atom}
    (h : popArguments stack = some (args, rest)) (source : σ) :
    step registry f stack source =
      andThen (registry.call f.name (args.map Atom.value) source) fun x source =>
        (.ok (.result (callName f.name (args.map Atom.name)) x :: rest), source) := by
  simp only [step, hf, call, h]
  rcases registry.call f.name (args.map Atom.value) source with ⟨_ | _, _⟩ <;> rfl

/-- **All that a step can do.**  It pushes an operand or a comma, or an operator takes two operands,
or a function takes its arguments; everything else fails. -/
theorem step_eq_ok {a : Atom} {stack after : List Atom} {source next : σ}
    (h : step registry a stack source = (.ok after, next)) :
    ((a.isOperand = true ∨ a.isComma = true) ∧ after = a :: stack ∧ next = source) ∨
    (a.kind = .operator ∧ ∃ left right below x, left.isOperand = true ∧ right.isOperand = true ∧
      stack = right :: left :: below ∧ next = source ∧
      applyOperator a.name left.value right.value = .ok x ∧
      after = .result (operationName left.name a.name right.name) x :: below) ∨
    (a.kind = .function ∧ ∃ args below x, popArguments stack = some (args, below) ∧
      registry.call a.name (args.map Atom.value) source = (.ok x, next) ∧
      after = .result (callName a.name (args.map Atom.name)) x :: below) := by
  cases hk : a.kind with
  | operator =>
    right; left
    refine ⟨rfl, ?_⟩
    simp only [step, hk, operate] at h
    split at h
    · cases h
    · rename_i right stack' hright
      split at h
      · cases h
      · rename_i left below hleft
        obtain ⟨hr, rfl⟩ := popOperand_eq_some hright
        obtain ⟨hl, rfl⟩ := popOperand_eq_some hleft
        cases hx : applyOperator a.name left.value right.value with
        | error e => simp [hx, Except.map] at h
        | ok x =>
          simp only [hx, Except.map, Prod.mk.injEq, Except.ok.injEq] at h
          obtain ⟨rfl, rfl⟩ := h
          exact ⟨left, right, below, x, hl, hr, rfl, rfl, hx, rfl⟩
  | function =>
    right; right
    refine ⟨rfl, ?_⟩
    simp only [step, hk, call] at h
    split at h
    · cases h
    · rename_i args below hpop
      cases hx : registry.call a.name (args.map Atom.value) source with
      | mk called last =>
        cases called with
        | error e => simp [hx, Except.map] at h
        | ok x =>
          simp only [hx, Except.map, Prod.mk.injEq, Except.ok.injEq] at h
          obtain ⟨rfl, rfl⟩ := h
          exact ⟨args, below, x, hpop, hx, rfl⟩
  | value | var | result | comma =>
    simp only [step, hk, Prod.mk.injEq, Except.ok.injEq] at h
    exact Or.inl ⟨by simp [isOperand_iff, isComma_iff, hk], h.1.symm, h.2.symm⟩
  | bracket | error | blank =>
    simp only [step, hk] at h
    cases h

end Step

end Reckoner.Evaluation
