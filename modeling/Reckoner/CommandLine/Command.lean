/-
# Commands

What the commands do, as functions of their surroundings: the files that can be read, the standard
input, and a random source.  A command ends with an exit code, a text for the standard output, log
records, and a text that comes after them on the standard error (`Outcome.reported`).
-/
import Reckoner.CommandLine.Arguments
import Reckoner.CommandLine.Binding
import Reckoner.Config.Document
import Reckoner.Session

namespace Reckoner.CommandLine

/-! ## 1. Surroundings and outcomes -/

/-- Why a file cannot be read. -/
inductive FileFault where
  | missing
  | unreadable (reason : String)
  deriving Repr, DecidableEq

def FileFault.message : FileFault → String
  | .missing => "No such file or directory (os error 2)"
  | .unreadable reason => reason

/-- What a command may look at.  The outer layer reads the files beforehand, so that a command is a
function of its arguments, these texts and the random source. -/
structure Surroundings where
  file : String → Except FileFault String
  standardInput : String

/-- How a command ends.  Nothing is written before it does: what goes to either stream is gathered
here, each in its order. -/
structure Outcome where
  exitCode : Nat
  output : String
  /-- What is written to the standard error after the log records. -/
  errors : String
  log : List Record

/-- A command that could not begin. -/
def Outcome.ofFailure (f : Failure) : Outcome := ⟨1, "", f.report, []⟩

def Outcome.after (o : Outcome) (log : List Record) : Outcome := { o with log := log ++ o.log }

def recordLine (r : Record) : String := "[" ++ r.level.name ++ "] " ++ r.message ++ "\n"

/-- All that is written to the standard error when records below a level are left out. -/
def Outcome.reported (o : Outcome) (least : Level) : String :=
  String.join ((recordsFrom least o.log).map recordLine) ++ o.errors

/-- A file, or the failure to do with it what was wanted.  `aim` is the verb in the report: a batch
is opened and a configuration is read. -/
def Surroundings.read (s : Surroundings) (aim path : String) : Except Failure String :=
  (s.file path).mapError fun fault =>
    ⟨"Failed to " ++ aim ++ " '" ++ path ++ "'", some fault.message⟩

def Surroundings.input (s : Surroundings) : Option String → Except Failure String
  | none => .ok s.standardInput
  | some path => s.read "open" path

/-! ## 2. Setting up a session -/

/-- The configuration that the options ask for: that of the file or the standard one, under the
separator of the options if they have one. -/
def loadConfig (surroundings : Surroundings) (options : Options) : Except Failure Config := do
  let config ← match options.config with
    | none => pure Config.standard
    | some path => do
      let text ← surroundings.read "read" path
      match Config.ofText? text with
      | some config => pure config
      | none => throw ⟨"Failed to parse config '" ++ path ++ "'", some "not a configuration"⟩
  return { config with separator := options.separator.getD config.separator }

/-- What comes of setting up a session.  Bindings are made before it is known whether the next one
can be read, so there is something to report in either case. -/
structure Opening (σ : Type) where
  session : Except Failure (Session σ)
  /-- The bindings that were made, also if a later one could not be read. -/
  log : List Record

/-- Binds variables in turn, up to the first binding that cannot be read. -/
def bindAll {σ : Type} : Session σ → List String → Opening σ
  | session, [] => ⟨.ok session, []⟩
  | session, binding :: rest =>
    match readBinding session.config.separator binding with
    | .error failure => ⟨.error failure, []⟩
    | .ok (name, value) =>
      let later := bindAll (session.bind name value) rest
      { later with log := .bound name value :: later.log }

/-- The session that the options ask for.  The configuration is checked before the first binding is
read, since bindings are written with its separator. -/
def openSession {σ : Type} (surroundings : Surroundings) (source : σ) (options : Options) :
    Opening σ :=
  match loadConfig surroundings options with
  | .error failure => ⟨.error failure, []⟩
  | .ok config =>
    match Session.start config source with
    | .error e => ⟨.error ⟨"Invalid configuration", some e.message⟩, []⟩
    | .ok session => bindAll session options.bindings

/-- A command that needs a session, from the attempt to set one up. -/
def Opening.outcome {σ : Type} (opening : Opening σ) (command : Session σ → Outcome) : Outcome :=
  match opening.session with
  | .error failure => (Outcome.ofFailure failure).after opening.log
  | .ok session => (command session).after opening.log

/-! ## 3. Evaluating -/

section

variable {σ : Type} [Chance.Source σ]

def errorLine (e : FormulaError) : String := "error: " ++ e.message ++ "\n"

def valueLine (session : Session σ) (x : Float) : String := session.format x ++ "\n"

/-- How the last formula was read and what it computed. -/
def traceLines (session : Session σ) : String :=
  "infix:   " ++ renderNames session.written.toList ++ "\n" ++
    "postfix: " ++ renderNames session.arranged.toList ++ "\n" ++
    match session.trace with
    | some expression => "trace:   " ++ expression ++ "\n"
    | none => ""

/-- Evaluates one formula. -/
def evaluateFormula (session : Session σ) (formula : String) (showTrace : Bool) : Outcome :=
  let evaluated := session.evaluate formula
  let traced := if showTrace then traceLines evaluated.session else ""
  match evaluated.outcome with
  | .ok x => ⟨0, valueLine session x, traced, evaluated.log⟩
  | .error e => ⟨1, "", traced ++ errorLine e, evaluated.log⟩

/-- The formulas in a text: its lines without blanks at their ends, except for empty ones and for
comments. -/
def formulasOf (text : String) : List String :=
  ((text.toList.splitOn '\n').map Text.trimChars).filterMap fun line =>
    match line with
    | [] => none
    | '#' :: _ => none
    | line => some (String.ofList line)

/-- What comes of formulas in turn. -/
structure Lines where
  /-- A line for each formula. -/
  output : String
  /-- How many of them failed. -/
  failures : Nat
  log : List Record

/-- Evaluates formulas in turn, all in the same session. -/
def evaluateLines : Session σ → List String → Lines
  | _, [] => ⟨"", 0, []⟩
  | session, formula :: rest =>
    let evaluated := session.evaluate formula
    let others := evaluateLines evaluated.session rest
    match evaluated.outcome with
    | .ok x =>
      { others with
        output := valueLine session x ++ others.output, log := evaluated.log ++ others.log }
    | .error e =>
      { output := errorLine e ++ others.output
        failures := others.failures + 1
        log := evaluated.log ++ others.log }

/-- What is reported at the end of a batch in which so many formulas failed. -/
def failureReport (count : Nat) : List Record := if count = 0 then [] else [.failures count]

/-- The outcome of a batch, which succeeds if no formula failed. -/
def Lines.outcome (lines : Lines) : Outcome :=
  { exitCode := if lines.failures = 0 then 0 else 1
    output := lines.output
    errors := ""
    log := lines.log ++ failureReport lines.failures }

end

/-! ## 4. Listing functions -/

/-- How many arguments a function takes. -/
def arityText {σ : Type} (c : Callable σ) : String :=
  match c.maxArgs with
  | none => toString c.minArgs ++ "+"
  | some most =>
    if most = c.minArgs then toString most else toString c.minArgs ++ "-" ++ toString most

/-- A line about a function. -/
def functionLine {σ : Type} (c : Callable σ) : String :=
  c.name ++ "\t" ++ arityText c ++ (if c.volatile then " (volatile)" else "") ++ "\n"

/-- A line for each function of a registry, by name. -/
def functionLines {σ : Type} (registry : Registry σ) : String :=
  String.join ((registry.names.filterMap registry.get?).map functionLine)

/-! ## 5. Commands -/

/-- Carries out a command. -/
def Command.perform {σ : Type} [Chance.Source σ] (surroundings : Surroundings) (source : σ) :
    Command → Outcome
  | .functions => ⟨0, functionLines (Builtin.registry : Registry σ), "", []⟩
  | .evaluate formula options showTrace =>
    (openSession surroundings source options).outcome fun session =>
      evaluateFormula session formula showTrace
  | .batch path options =>
    (openSession surroundings source options).outcome fun session =>
      match surroundings.input path with
      | .error failure => .ofFailure failure
      | .ok text => (evaluateLines session (formulasOf text)).outcome

/-- How arguments are to be given. -/
def usage : String :=
  "Usage: reckoner [-v] eval FORMULA [--var NAME=VALUE]... [-s C] [-c FILE] [-t]\n" ++
  "       reckoner [-v] batch [FILE] [--var NAME=VALUE]... [-s C] [-c FILE]\n" ++
  "       reckoner [-v] functions\n"

/-- Carries out what the arguments ask for. -/
def perform {σ : Type} [Chance.Source σ] (surroundings : Surroundings) (source : σ)
    (arguments : List String) : Outcome :=
  match Invocation.ofArguments? arguments with
  | none => ⟨2, "", usage, []⟩
  | some invocation => invocation.command.perform surroundings source

end Reckoner.CommandLine
