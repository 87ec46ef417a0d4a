/-
# Expressions over atoms

An expression says which operands belong to which operator or function.  It has a post-order (what a
run consumes), a value (`Expr.eval`, by recursion from left to right, so that the random source is
drawn from in that order and the first failure ends it) and a written form (`Expr.render`).

A function without arguments is told apart from one whose arguments precede it only by standing at
the very beginning.  `Expr.Placed` says that calls without arguments stand nowhere else.
-/
import Reckoner.Evaluation

namespace Reckoner

/-! ## 1. Trees -/

abbrev AtomOf (kind : Kind) := { a : Atom // a.kind = kind }

abbrev OperandAtom := { a : Atom // a.isOperand = true }

mutual

/-- An expression.  Its nodes keep the atoms that they come from, so that the post-order is made of
these very atoms and not of others with the same names. -/
inductive Expr where
  | operand (a : OperandAtom)
  | binary (op : AtomOf .operator) (left right : Expr)
  /-- A call without arguments. -/
  | nullary (f : AtomOf .function)
  | call (f : AtomOf .function) (arguments : Arguments)

/-- The arguments of a call: one, or more with a comma for each after the first. -/
inductive Arguments where
  | one (t : Expr)
  | more (earlier : Arguments) (comma : AtomOf .comma) (last : Expr)

end

def Arguments.toList : Arguments → List Expr
  | .one t => [t]
  | .more earlier _ last => earlier.toList ++ [last]

/-! ## 2. Post-order -/

mutual

/-- The atoms of an expression, every operator and function after its operands. -/
def Expr.postOrder : Expr → List Atom
  | .operand a => [a.val]
  | .binary op left right => left.postOrder ++ right.postOrder ++ [op.val]
  | .nullary f => [f.val]
  | .call f arguments => arguments.postOrder ++ [f.val]

def Arguments.postOrder : Arguments → List Atom
  | .one t => t.postOrder
  | .more earlier comma last => earlier.postOrder ++ last.postOrder ++ [comma.val]

end

mutual

/-- Calls without arguments stand only at the beginning; `first` says whether the expression itself
stands there.  Anywhere else such a call would take what is on the stack for its arguments. -/
def Expr.Placed (first : Bool) : Expr → Prop
  | .operand _ => True
  | .binary _ left right => left.Placed first ∧ right.Placed false
  | .nullary _ => first = true
  | .call _ arguments => arguments.Placed first

/-- The same for arguments, of which only the first can stand at the beginning. -/
def Arguments.Placed (first : Bool) : Arguments → Prop
  | .one t => t.Placed first
  | .more earlier _ last => earlier.Placed first ∧ last.Placed false

end

theorem Expr.postOrder_ne_nil : ∀ t : Expr, t.postOrder ≠ []
  | .operand _ => by simp [Expr.postOrder]
  | .binary .. => by simp [Expr.postOrder]
  | .nullary _ => by simp [Expr.postOrder]
  | .call .. => by simp [Expr.postOrder]

theorem Arguments.postOrder_ne_nil : ∀ arguments : Arguments, arguments.postOrder ≠ []
  | .one t => t.postOrder_ne_nil
  | .more .. => by simp [Arguments.postOrder]

/-! ## 3. The written form -/

mutual

/-- The expression with a pair of brackets around every operation. -/
def Expr.render : Expr → String
  | .operand a => a.val.name
  | .binary op left right => "(" ++ left.render ++ op.val.name ++ right.render ++ ")"
  | .nullary f => f.val.name ++ "()"
  | .call f arguments => f.val.name ++ "(" ++ arguments.render ++ ")"

def Arguments.render : Arguments → String
  | .one t => t.render
  | .more earlier _ last => earlier.render ++ ";" ++ last.render

end

/-- The atom that an expression of value `x` leaves: an operand itself, and otherwise a result named
by the written form. -/
def Expr.atom (x : Float) : Expr → Atom
  | .operand a => a.val
  | t => .result t.render x

@[simp] theorem Expr.isOperand_atom (t : Expr) (x : Float) : (t.atom x).isOperand = true := by
  cases t with
  | operand a => exact a.property
  | _ => rfl

theorem Expr.name_atom (t : Expr) (x : Float) : (t.atom x).name = t.render := by
  cases t <;> simp only [Expr.atom, Expr.render, Atom.result]

def Arguments.atoms (arguments : Arguments) (values : List Float) : List Atom :=
  List.zipWith Expr.atom values arguments.toList

/-! ## 4. The value -/

/-- Goes on from an answer and leaves a failure as it is. -/
def andThen {α β σ : Type} (answer : Except FormulaError α × σ)
    (next : α → σ → Except FormulaError β × σ) : Except FormulaError β × σ :=
  match answer with
  | (.ok x, source) => next x source
  | (.error e, source) => (.error e, source)

section AndThen

variable {α β γ σ : Type}

@[simp] theorem andThen_ok (x : α) (source : σ) (next : α → σ → Except FormulaError β × σ) :
    andThen (.ok x, source) next = next x source := rfl

theorem andThen_assoc (answer : Except FormulaError α × σ)
    (next : α → σ → Except FormulaError β × σ) (last : β → σ → Except FormulaError γ × σ) :
    andThen (andThen answer next) last =
      andThen answer fun x source => andThen (next x source) last := by
  obtain ⟨_ | x, source⟩ := answer <;> rfl

theorem andThen_congr {answer : Except FormulaError α × σ}
    {next next' : α → σ → Except FormulaError β × σ}
    (h : ∀ x source, answer = (.ok x, source) → next x source = next' x source) :
    andThen answer next = andThen answer next' := by
  obtain ⟨_ | x, source⟩ := answer
  · rfl
  · exact h x source rfl

/-- An answer after two steps is an answer after each. -/
theorem andThen_eq_ok {answer : Except FormulaError α × σ}
    {next : α → σ → Except FormulaError β × σ} {y : β} {last : σ}
    (h : andThen answer next = (.ok y, last)) :
    ∃ x source, answer = (.ok x, source) ∧ next x source = (.ok y, last) := by
  obtain ⟨_ | x, source⟩ := answer
  · cases h
  · exact ⟨x, source, rfl, h⟩

end AndThen

section Eval

variable {σ : Type} (registry : Registry σ)

mutual

/-- The value of an expression and the random source after it, from left to right.  A failure ends
it, and what was drawn before stays drawn. -/
def Expr.eval : Expr → σ → Except FormulaError Float × σ
  | .operand a, source => (.ok a.val.value, source)
  | .binary op left right, source =>
    andThen (left.eval source) fun x source =>
      andThen (right.eval source) fun y source =>
        (Evaluation.applyOperator op.val.name x y, source)
  | .nullary f, source => registry.call f.val.name [] source
  | .call f arguments, source =>
    andThen (arguments.eval source) fun xs source => registry.call f.val.name xs source

def Arguments.eval : Arguments → σ → Except FormulaError (List Float) × σ
  | .one t, source => andThen (t.eval source) fun x source => (.ok [x], source)
  | .more earlier _ last, source =>
    andThen (earlier.eval source) fun xs source =>
      andThen (last.eval source) fun x source => (.ok (xs ++ [x]), source)

end

theorem Arguments.length_eval {registry : Registry σ} : ∀ {arguments : Arguments} {source next : σ}
    {values : List Float}, arguments.eval registry source = (.ok values, next) →
      values.length = arguments.toList.length
  | .one t, source, next, values, h => by
    obtain ⟨x, s, -, hx⟩ := andThen_eq_ok (by simpa only [Arguments.eval] using h)
    cases hx
    rfl
  | .more earlier _ last, source, next, values, h => by
    obtain ⟨xs, s, hxs, h⟩ := andThen_eq_ok (by simpa only [Arguments.eval] using h)
    obtain ⟨x, s', -, hx⟩ := andThen_eq_ok h
    cases hx
    simp [Arguments.toList, length_eval hxs]

/-- The value of an expression is the number of the atom that it leaves. -/
theorem Expr.value_atom {registry : Registry σ} {t : Expr} {source next : σ} {x : Float}
    (h : t.eval registry source = (.ok x, next)) : (t.atom x).value = x := by
  cases t with
  | operand a =>
    simp only [Expr.eval, Prod.mk.injEq, Except.ok.injEq] at h
    exact h.1
  | _ => rfl

end Eval

theorem Arguments.atoms_more {earlier : Arguments} {comma : AtomOf .comma} {last : Expr}
    {values : List Float} {x : Float} (h : values.length = earlier.toList.length) :
    (Arguments.more earlier comma last).atoms (values ++ [x]) =
      earlier.atoms values ++ [last.atom x] := by
  simp [Arguments.atoms, Arguments.toList, List.zipWith_append h]

end Reckoner
