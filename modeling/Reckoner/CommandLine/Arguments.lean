/-
# Arguments

Command-line arguments are read in two steps.  `readArguments` sorts them into switches, settings
and plain words, knowing only which options exist: a setting takes its value from the same argument
or from the next one, switches may be joined behind one dash, and after `--` everything is a word.
`Invocation.ofArguments?` then gives them their meaning; there is no invocation if they make no
sense together.
-/

namespace Reckoner.CommandLine

/-! ## 1. Sorting arguments -/

/-- An option: its long name, its letter if it has one, and whether it takes a value. -/
structure Flag where
  long : String
  short : Option Char
  takesValue : Bool
  deriving Repr, DecidableEq

/-- An argument, sorted. -/
inductive Item where
  | switch (long : String)
  | setting (long : String) (value : String)
  | word (text : String)
  deriving Repr, DecidableEq

/-- Whether an argument would be taken for an option.  A minus alone is a word. -/
def looksLikeOption (argument : String) : Bool :=
  match argument.toList with
  | '-' :: _ :: _ => true
  | _ => false

/-- Cuts a text at its first equals sign. -/
def cutAtEquals (text : List Char) : List Char × Option (List Char) :=
  match text.dropWhile (· ≠ '=') with
  | [] => (text, none)
  | _ :: value => (text.takeWhile (· ≠ '='), some value)

/-- Options by letter: the items they give, and the setting that still lacks its value. -/
def readLetters (flags : List Flag) : List Char → Option (List Item × Option String)
  | [] => some ([], none)
  | c :: rest =>
    match flags.find? (fun f => f.short == some c) with
    | none => none
    | some flag =>
      if flag.takesValue then
        match rest with
        | [] => some ([], some flag.long)
        | '=' :: value => some ([.setting flag.long (String.ofList value)], none)
        | value => some ([.setting flag.long (String.ofList value)], none)
      else (readLetters flags rest).map fun (items, open?) => (.switch flag.long :: items, open?)

def readLong (flags : List Flag) (text : List Char) : Option (List Item × Option String) :=
  let (name, value) := cutAtEquals text
  match flags.find? (fun f => f.long == String.ofList name), value with
  | none, _ => none
  | some flag, some value =>
    if flag.takesValue then some ([.setting flag.long (String.ofList value)], none) else none
  | some flag, none =>
    if flag.takesValue then some ([], some flag.long) else some ([.switch flag.long], none)

/-- One argument other than `--`. -/
def readArgument (flags : List Flag) (argument : String) : Option (List Item × Option String) :=
  match argument.toList with
  | '-' :: '-' :: name => readLong flags name
  | '-' :: c :: letters => readLetters flags (c :: letters)
  | _ => some ([.word argument], none)

/-- Sorts arguments; none if an option is unknown or lacks a value. -/
def readArguments (flags : List Flag) : List String → Option (List Item)
  | [] => some []
  | argument :: rest =>
    if argument = "--" then some (rest.map .word)
    else match readArgument flags argument with
      | none => none
      | some (items, none) => (readArguments flags rest).map (items ++ ·)
      | some (items, some long) =>
        match rest with
        | [] => none
        | value :: rest =>
          if looksLikeOption value then none
          else (readArguments flags rest).map (items ++ .setting long value :: ·)

/-! ## 2. Items by meaning -/

def words (items : List Item) : List String :=
  items.filterMap fun
    | .word text => some text
    | _ => none

def settings (items : List Item) (long : String) : List String :=
  items.filterMap fun
    | .setting name value => if name = long then some value else none
    | _ => none

/-- Whether a switch is on; none if it is given twice. -/
def switch? (items : List Item) (long : String) : Option Bool :=
  match items.count (.switch long) with
  | 0 => some false
  | 1 => some true
  | _ => none

/-- The value of a setting that may be given once. -/
def setting? (items : List Item) (long : String) : Option (Option String) :=
  match settings items long with
  | [] => some none
  | [value] => some (some value)
  | _ => none

/-! ## 3. Invocations -/

/-- What a session is set up with. -/
structure Options where
  /-- Bindings of variables, as written. -/
  bindings : List String
  separator : Option Char
  /-- The path of a configuration file. -/
  config : Option String
  deriving Repr, DecidableEq

inductive Command where
  /-- Evaluate one formula; on request, show how it was read. -/
  | evaluate (formula : String) (options : Options) (showTrace : Bool)
  /-- Evaluate the lines of a file, or of the standard input. -/
  | batch (path : Option String) (options : Options)
  /-- List the built-in functions. -/
  | functions
  deriving Repr, DecidableEq

structure Invocation where
  verbose : Bool
  command : Command
  deriving Repr, DecidableEq

def verboseFlag : Flag := ⟨"verbose", some 'v', false⟩

/-- The options of every command that evaluates. -/
def optionFlags : List Flag :=
  [verboseFlag, ⟨"var", none, true⟩, ⟨"separator", some 's', true⟩, ⟨"config", some 'c', true⟩]

def traceFlag : Flag := ⟨"trace", some 't', false⟩

def singleChar? (text : String) : Option Char :=
  match text.toList with
  | [c] => some c
  | _ => none

/-- A path that is not empty. -/
def path? (text : String) : Option String := if text.isEmpty then none else some text

/-- Applies a reading to an optional text: none only if there is a text that cannot be read. -/
def readOptional {α : Type} (read : String → Option α) : Option String → Option (Option α)
  | none => some none
  | some text => (read text).map some

def readOptions (items : List Item) : Option Options := do
  let separator ← readOptional singleChar? (← setting? items "separator")
  let config ← readOptional path? (← setting? items "config")
  return { bindings := settings items "var", separator, config }

/-- The command of a name, from its arguments. -/
def readCommand (name : String) (arguments : List String) : Option Invocation := do
  if name = "eval" then
    let items ← readArguments (traceFlag :: optionFlags) arguments
    let verbose ← switch? items "verbose"
    let showTrace ← switch? items "trace"
    let options ← readOptions items
    match words items with
    | [formula] => return ⟨verbose, .evaluate formula options showTrace⟩
    | _ => none
  else if name = "batch" then
    let items ← readArguments optionFlags arguments
    let verbose ← switch? items "verbose"
    let options ← readOptions items
    match words items with
    | [] => return ⟨verbose, .batch none options⟩
    | [path] => return ⟨verbose, .batch (some (← path? path)) options⟩
    | _ => none
  else if name = "functions" then
    let items ← readArguments [verboseFlag] arguments
    let verbose ← switch? items "verbose"
    if (words items).isEmpty then return ⟨verbose, .functions⟩ else none
  else none

/-- The options before the name of the command, the name, and what follows it. -/
def cutAtCommand : List String → Option (List String × String × List String)
  | [] => none
  | argument :: rest =>
    if argument = "--" then none
    else if looksLikeOption argument then
      (cutAtCommand rest).map fun (before, name, after) => (argument :: before, name, after)
    else some ([], argument, rest)

/-- What the arguments ask for. -/
def Invocation.ofArguments? (arguments : List String) : Option Invocation := do
  let (before, name, after) ← cutAtCommand arguments
  let items ← readArguments [verboseFlag] before
  let verbose ← switch? items "verbose"
  let invocation ← readCommand name after
  return { invocation with verbose := verbose || invocation.verbose }

section Example

/-- A setting may be joined to its letter, and a value must not look like an option. -/
example : readArguments (traceFlag :: optionFlags) ["-ts,", "X", "--", "-1"] =
      some [.switch "trace", .setting "separator" ",", .word "X", .word "-1"] ∧
    readArguments optionFlags ["--var", "-1"] = none := by decide +kernel

end Example

end Reckoner.CommandLine
