/-
# Evaluation

Atoms in post-order are run on a stack.  Operands and commas are pushed; an operator takes two
operands; a function takes its arguments, which are chained by commas: `a, b, ;, c, ;` stands for
the three arguments `a`, `b`, `c` (`popArguments`).  A result is named by the expression that it
came from.  A run succeeds if exactly one operand is left.
-/
import Reckoner.Atom
import Reckoner.Callable
import Reckoner.Number.Remainder

namespace Reckoner

namespace Evaluation

/-! ## 1. Taking operands from the stack -/

def popOperand : List Atom → Option (Atom × List Atom)
  | [] => none
  | a :: rest => if a.isOperand then some (a, rest) else none

/-- Takes a chain of arguments whose last comma has been taken already.  `later` are the arguments
to the right of those still on the stack. -/
def popChain (later : List Atom) : List Atom → Option (List Atom × List Atom)
  | [] => none
  | [_] => none
  | a :: next :: rest =>
    if !a.isOperand then none
    else if next.isComma then popChain (a :: later) rest
    else if next.isOperand then some (next :: a :: later, rest)
    else none

/-- Takes the arguments of a function, in the order in which they were written.  An empty stack has
none, an operand on top is a single one, and a comma on top ends a chain. -/
def popArguments : List Atom → Option (List Atom × List Atom)
  | [] => some ([], [])
  | top :: rest =>
    if top.isComma then popChain [] rest
    else if top.isOperand then some ([top], rest)
    else none

/-! ## 2. Operators and functions -/

/-- The value of an operator. -/
def applyOperator (op : String) (left right : Float) : Except FormulaError Float :=
  if op = "^" then .ok (left.pow right)
  else if op = "/" then if right == 0 then .error .divisionByZero else .ok (left / right)
  else if op = "*" then .ok (left * right)
  else if op = "%" then .ok (Number.remainder left right)
  else if op = "+" then .ok (left + right)
  else if op = "-" then .ok (left - right)
  else .error (.unknownOperator op)

/-- The name of an operator's result.  All brackets are written, so that the name of an answer can
be read as a formula again. -/
def operationName (left op right : String) : String := "(" ++ left ++ op ++ right ++ ")"

def callName (function : String) (arguments : List String) : String :=
  function ++ "(" ++ ";".intercalate arguments ++ ")"

/-- Runs an operator on the two topmost operands; the upper one is its right operand. -/
def operate (op : String) (stack : List Atom) : Except FormulaError (List Atom) :=
  match popOperand stack with
  | none => .error .malformed
  | some (right, stack) =>
    match popOperand stack with
    | none => .error .malformed
    | some (left, stack) =>
      (applyOperator op left.value right.value).map fun value =>
        .result (operationName left.name op right.name) value :: stack

variable {σ : Type}

/-- Calls a function on the topmost arguments. -/
def call (registry : Registry σ) (function : String) (stack : List Atom) (source : σ) :
    Except FormulaError (List Atom) × σ :=
  match popArguments stack with
  | none => (.error .malformed, source)
  | some (arguments, stack) =>
    let called := registry.call function (arguments.map Atom.value) source
    (called.1.map fun value =>
      .result (callName function (arguments.map Atom.name)) value :: stack, called.2)

/-! ## 3. Running -/

def step (registry : Registry σ) (a : Atom) (stack : List Atom) (source : σ) :
    Except FormulaError (List Atom) × σ :=
  match a.kind with
  | .value | .var | .result | .comma => (.ok (a :: stack), source)
  | .operator => (operate a.name stack, source)
  | .function => call registry a.name stack source
  | .bracket | .error | .blank => (.error .malformed, source)

/-- The answer of a run: the only atom left, which must be an operand.  A comma that is left alone
is none. -/
def answer : List Atom → Except FormulaError Atom
  | [a] => if a.isOperand then .ok a else .error .malformed
  | _ => .error .malformed

structure Run (σ : Type) where
  outcome : Except FormulaError Atom
  /-- The random source afterwards. -/
  source : σ
  /-- The atoms that were run, each with the height of the stack after it. -/
  steps : List (String × Nat)

/-- Runs atoms from a stack, up to the first that fails. -/
def runFrom (registry : Registry σ) : List Atom → List Atom → σ → Run σ
  | [], stack, source => ⟨answer stack, source, []⟩
  | a :: rest, stack, source =>
    match step registry a stack source with
    | (.error e, source) => ⟨.error e, source, []⟩
    | (.ok stack, source) =>
      let run := runFrom registry rest stack source
      { run with steps := (a.name, stack.length) :: run.steps }

end Evaluation

def evaluate {σ : Type} (registry : Registry σ) (atoms : List Atom) (source : σ) :
    Evaluation.Run σ :=
  Evaluation.runFrom registry atoms [] source

section Example

/-- A chain of three arguments above an operand of an enclosing expression. -/
example : Evaluation.popArguments [.comma, .number "3" 3, .comma, .number "2" 2, .number "1" 1,
      .number "0" 0] =
    some ([.number "1" 1, .number "2" 2, .number "3" 3], [.number "0" 0]) := by decide +kernel

end Example

end Reckoner
