/-
# Log records

What a session reports while it works, as data: a record says what happened, and its level and its
text are functions of it.
-/
import Reckoner.Number.Written
import Reckoner.Text.Quoted

namespace Reckoner

/-- How important a record is, from least to most.  Whoever prints the records names a level and
sees those that are at least as important. -/
inductive Level where
  | trace
  | debug
  | warn
  deriving Repr, DecidableEq

def Level.rank : Level → Nat
  | .trace => 0
  | .debug => 1
  | .warn => 2

def Level.name : Level → String
  | .trace => "TRACE"
  | .debug => "DEBUG"
  | .warn => "WARN"

/-- Something that happened while formulas were evaluated, or before or after it on the command
line. -/
inductive Record where
  /-- A sequence dropped an atom for the first time since it was cleared. -/
  | capacityReached (capacity : Nat)
  /-- A normalised formula was cut into atoms. -/
  | tokenized (text : String) (count : Nat)
  /-- A formula has more atoms than it may. -/
  | tooLong (formula : String) (capacity : Option Nat)
  /-- The atoms in post-order, by name. -/
  | arranged (names : String)
  /-- The numbers of atoms as written and in post-order. -/
  | compiled (formula : String) (count ordered : Nat)
  /-- An atom was run, which left a stack of this height. -/
  | stepped (name : String) (height : Nat)
  /-- The run ended with this expression. -/
  | computed (expression : String) (value : Float)
  | succeeded (formula : String) (value : Float)
  | failed (formula : String) (message : String)
  /-- A variable was bound on the command line, under the name as it is written there. -/
  | bound (name : String) (value : Float)
  /-- A batch ended in which so many formulas failed. -/
  | failures (count : Nat)
  deriving DecidableEq

namespace Record

def level : Record → Level
  | capacityReached _ | failures _ => .warn
  | tokenized .. | arranged _ | stepped .. | computed .. => .trace
  | tooLong .. | compiled .. | succeeded .. | failed .. | bound .. => .debug

/-- An optional capacity, as the record of a dropped atom gives it. -/
def capacityText : Option Nat → String
  | none => "None"
  | some n => "Some(" ++ toString n ++ ")"

def message : Record → String
  | capacityReached n =>
    "atom sequence reached its capacity of " ++ toString n ++ ", dropping further atoms"
  | tokenized text count =>
    "tokenized " ++ Text.quote text ++ " into " ++ toString count ++ " infix atoms"
  | tooLong formula capacity =>
    Text.quote formula ++ " exceeds the capacity guard of " ++ capacityText capacity ++ " atoms"
  | arranged names => "postfix: " ++ names
  | compiled formula count ordered =>
    Text.quote formula ++ ": " ++ toString count ++ " infix atoms, " ++ toString ordered ++
      " postfix atoms"
  | stepped name height => name ++ " -> stack depth " ++ toString height
  | computed expression value => expression ++ " = " ++ Number.display value
  | succeeded formula value => Text.quote formula ++ " = " ++ Number.display value
  | failed formula message => Text.quote formula ++ " failed: " ++ message
  | bound name value => "binding " ++ name ++ " = " ++ Number.display value
  | failures count => toString count ++ " formulas failed"

end Record

/-- The records of a level and above. -/
def recordsFrom (least : Level) (records : List Record) : List Record :=
  records.filter fun r => least.rank ≤ r.level.rank

end Reckoner
