/-
# Sessions

A session keeps a configuration, bindings of variables, a random source, and what the last formula
left behind: its atoms as written and in post-order, its error, the message of that, and its answer
as an atom.  Each evaluation forgets these first, so that nothing of one formula reaches the next;
only the bindings and the random source go on.  `Session.evaluate` is cutting, rearranging and
running in turn, and a formula that did not fit the capacity is never run.

Error, message and atom are stored side by side.  That they tell of the same end is no matter of
their types: it takes that all three are cleared before a formula and written after it
(`Session.store`).
-/
import Reckoner.Callable.Builtin
import Reckoner.Evaluation
import Reckoner.Lexicon
import Reckoner.PostOrder
import Reckoner.Record

namespace Reckoner

/-! ## 1. The state -/

/-- A calculator with its memory, over random sources of type `σ`. -/
structure Session (σ : Type) where
  config : Config
  /-- The variables that are bound. -/
  bindings : NameTable Float
  source : σ
  /-- The atoms of the last formula, as written. -/
  written : AtomSeq
  /-- The atoms of the last formula, in post-order. -/
  arranged : AtomSeq
  /-- The error of the last formula, if it failed. -/
  lastError : Option FormulaError
  /-- The message of that error; empty if there is none. -/
  errorMessage : String
  /-- The answer of the last formula; a failure is an atom named by its message. -/
  lastAtom : Option Atom

namespace Session

variable {σ : Type}

/-- A session in which nothing has been evaluated. -/
def fresh (config : Config) (source : σ) : Session σ :=
  { config, source, bindings := .empty, written := .bounded config.maxAtoms,
    arranged := .bounded config.maxAtoms, lastError := none, errorMessage := "", lastAtom := none }

/-- A fresh session under a configuration, unless it is refused. -/
def start (config : Config) (source : σ) : Except FormulaError (Session σ) :=
  match config.check with
  | .error fault => .error (.invalidConfig fault)
  | .ok () => .ok (fresh config source)

/-- What names mean in formulas of this session. -/
def lexicon (s : Session σ) : Lexicon := ⟨s.config.separator, s.config.constants, s.bindings⟩

/-! ## 2. Variables -/

def bind (s : Session σ) (name : String) (value : Float) : Session σ :=
  { s with bindings := s.bindings.insert name value }

@[simp] theorem config_bind (s : Session σ) (name : String) (value : Float) :
    (s.bind name value).config = s.config := rfl

@[simp] theorem source_bind (s : Session σ) (name : String) (value : Float) :
    (s.bind name value).source = s.source := rfl

/-- Unbinds a variable, and gives the value that it had. -/
def unbind (s : Session σ) (name : String) : Option Float × Session σ :=
  let (value, bindings) := s.bindings.remove name
  (value, { s with bindings })

def unbindAll (s : Session σ) : Session σ := { s with bindings := .empty }

/-! ## 3. What the last formula left -/

def failed (s : Session σ) : Bool := s.lastError.isSome

/-- The expression that the last formula computed, unless it failed or is a lone operand. -/
def trace (s : Session σ) : Option String :=
  (s.lastAtom.filter fun a => a.kind = .result).map Atom.name

/-- A number as this session writes it. -/
def format (s : Session σ) (x : Float) : String := Number.render x s.config.separator

/-! ## 4. Evaluating -/

/-- What an evaluation gives: the session that goes on, the outcome for the caller, and the report
in the order in which things happened. -/
structure Evaluated (σ : Type) where
  session : Session σ
  outcome : Except FormulaError Float
  log : List Record

/-- What is reported at the end of a formula. -/
def closing (formula : String) : Except FormulaError Atom → Record
  | .ok a => .succeeded formula a.value
  | .error e => .failed formula e.message

/-- Stores how a formula ended.  An answer touches neither the error nor its message, which are
still clear by then. -/
def store (s : Session σ) : Except FormulaError Atom → Session σ
  | .ok a => { s with lastAtom := some a }
  | .error e =>
    { s with
      errorMessage := e.message, lastAtom := some (.failure e.message), lastError := some e }

/-- The session after a formula ended, and the report. -/
def finish (s : Session σ) (formula : String) (ending : Except FormulaError Atom)
    (log : List Record) : Evaluated σ :=
  { session := s.store ending
    outcome := ending.map Atom.value
    log := log ++ [closing formula ending] }

/-- The session without what the last formula left.  Variables and the random source stay, and they
are all that one formula hands to the next. -/
def reset (s : Session σ) : Session σ :=
  { fresh s.config s.source with bindings := s.bindings }

/-- Puts the atoms of a formula that was cut into post-order and runs them. -/
def run [Chance.Source σ] (s : Session σ) (formula : String) (log : List Record) : Evaluated σ :=
  let ordered := postOrder s.written.toList
  let arranged := s.arranged.pushAll ordered
  let result := Reckoner.evaluate Builtin.registry arranged.toList s.source
  let computed := match result.outcome with
    | .ok a => [Record.computed a.name a.value]
    | .error _ => []
  finish { s with arranged, source := result.source } formula result.outcome
    (log ++ s.arranged.reports ordered ++
      [.arranged (renderNames arranged.toList),
        .compiled formula s.written.size arranged.size] ++
      result.steps.map (fun step => .stepped step.1 step.2) ++ computed)

/-- Evaluates a formula: it is cut, put into post-order and run.  A formula that cannot be cut or
that has too many atoms is not put into post-order at all. -/
def evaluate [Chance.Source σ] (s : Session σ) (formula : String) : Evaluated σ :=
  let s := s.reset
  let cut := s.lexicon.tokenizing formula s.written
  let s := { s with written := cut.sequence }
  match cut.ending with
  | .error e => s.finish formula (.error e) cut.log
  | .ok () =>
    if cut.sequence.overflowed then
      s.finish formula (.error .malformed) (cut.log ++ [.tooLong formula s.config.maxAtoms])
    else s.run formula cut.log

/-- The value of an outcome, zero for a failure. -/
def valueOrZero : Except FormulaError Float → Float
  | .ok x => x
  | .error _ => 0

/-! ## 5. Small lemmas -/

@[simp] theorem lexicon_reset (s : Session σ) : s.reset.lexicon = s.lexicon := rfl

@[simp] theorem written_reset (s : Session σ) :
    s.reset.written = .bounded s.config.maxAtoms := rfl

section Store

variable (s : Session σ) (ending : Except FormulaError Atom)

@[simp] theorem session_finish (formula : String) (log : List Record) :
    (s.finish formula ending log).session = s.store ending := rfl

@[simp] theorem config_store : (s.store ending).config = s.config := by cases ending <;> rfl

@[simp] theorem bindings_store : (s.store ending).bindings = s.bindings := by cases ending <;> rfl

@[simp] theorem source_store : (s.store ending).source = s.source := by cases ending <;> rfl

@[simp] theorem written_store : (s.store ending).written = s.written := by cases ending <;> rfl

@[simp] theorem arranged_store : (s.store ending).arranged = s.arranged := by cases ending <;> rfl

end Store

end Session

/-- Evaluates a formula in a fresh session under the standard configuration. -/
def evaluateOnce {σ : Type} [Chance.Source σ] (formula : String) (source : σ) :
    Except FormulaError Float :=
  ((Session.fresh .standard source).evaluate formula).outcome

end Reckoner
