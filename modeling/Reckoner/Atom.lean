/-
# Atoms

An atom is the unit that formulas are made of, before and after they are put into postfix order:
a name, a number and a kind that says which of the two counts.  Numbers, variables and computed
results are operands; of the others only the name matters.
-/

namespace Reckoner

/-- What an atom is. -/
inductive Kind where
  /-- A number literal or a constant. -/
  | value
  /-- A variable, with the number it stood for when it was read. -/
  | var
  | operator
  | function
  /-- A computed number. -/
  | result
  | bracket
  /-- The separator of arguments. -/
  | comma
  /-- A failure; the name is its message. -/
  | error
  | blank
  deriving Repr, DecidableEq

/-- A classified piece of a formula.  The same kind of thing serves as a token, as an entry of the
operator stack, as an operand of a run, and as the answer. -/
structure Atom where
  kind : Kind
  name : String
  value : Float
  deriving DecidableEq

namespace Atom

/-! ## 1. Making atoms -/

/-- An atom that carries no number; the zero stands for none and is never looked at. -/
def named (kind : Kind) (name : String) : Atom := ⟨kind, name, 0⟩

/-- A number literal or a constant. -/
def number (name : String) (value : Float) : Atom := ⟨.value, name, value⟩

def var (name : String) (value : Float) : Atom := ⟨.var, name, value⟩

/-- A computed number, named by the expression it came from. -/
def result (name : String) (value : Float) : Atom := ⟨.result, name, value⟩

def operator (op : Char) : Atom := named .operator op.toString

def function (name : String) : Atom := named .function name

def bracket (c : Char) : Atom := named .bracket c.toString

def comma : Atom := named .comma ";"

/-- What a session keeps as the last atom of a formula that failed. -/
def failure (message : String) : Atom := named .error message

/-! ## 2. Classes of atoms -/

/-- Whether the atom carries a number. -/
def isOperand (a : Atom) : Bool :=
  match a.kind with
  | .value | .var | .result => true
  | _ => false

def isComma (a : Atom) : Bool := a.kind = .comma

def isOpenBracket (a : Atom) : Bool := a.kind = .bracket && a.name = "("

def isCloseBracket (a : Atom) : Bool := a.kind = .bracket && a.name = ")"

/-- Whether an operand must follow: after an operator, an argument separator or `(`. -/
def expectsOperand (a : Atom) : Bool :=
  a.kind = .operator || a.kind = .comma || a.isOpenBracket

/-- How strongly the atom binds; -1 for what binds nothing.  Brackets and functions come before all
operators, and a comma is weaker than any of them, so that it releases a whole argument. -/
def precedence (a : Atom) : Int :=
  match a.kind with
  | .bracket => 5
  | .function => 4
  | .comma => 0
  | .operator =>
    if a.name = "^" then 3
    else if a.name = "*" ∨ a.name = "/" ∨ a.name = "%" then 2
    else if a.name = "+" ∨ a.name = "-" then 1
    else -1
  | _ => -1

end Atom

/-- The names of atoms, separated by spaces. -/
def renderNames (atoms : List Atom) : String := " ".intercalate (atoms.map Atom.name)

end Reckoner
