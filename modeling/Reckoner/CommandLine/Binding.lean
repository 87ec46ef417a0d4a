/-
# Bindings on the command line

A binding is written `NAME=VALUE`, with blanks allowed around both.  The name consists of ASCII
letters, digits and underscores; the value is a numeral in which the decimal separator of the
session may stand for the point.
-/
import Reckoner.Number.Numeral
import Reckoner.Text.Blank

namespace Reckoner.CommandLine

/-- Why a command cannot begin: what was tried, and what came of it.  Where there is nothing but the
attempt to tell of, there is no cause. -/
structure Failure where
  context : String
  cause : Option String
  deriving Repr, DecidableEq

/-- The report of a failure; every line of the cause is set off. -/
def Failure.report (f : Failure) : String :=
  "Error: " ++ f.context ++ "\n" ++
    match f.cause with
    | none => ""
    | some cause =>
      "\nCaused by:\n    " ++
        String.ofList (cause.toList.flatMap fun c =>
          if c = '\n' then ['\n', ' ', ' ', ' ', ' '] else [c]) ++ "\n"

/-- Whether the text may name a variable. -/
def isBindingName (name : List Char) : Bool :=
  !name.isEmpty && name.all fun c => c.isAlphanum || c == '_'

/-- The number that the value of a binding writes.  The separator of the session stands for the
point, and the point itself stays one. -/
def readValue (separator : Char) (value : List Char) : Except Number.NumeralFault Float :=
  Number.readNumber ((Text.trimChars value).map fun c => if c = separator then '.' else c)

def readBinding (separator : Char) (binding : String) : Except Failure (String × Float) :=
  match binding.toList.dropWhile (· ≠ '=') with
  | [] => .error ⟨"Expected NAME=VALUE, got '" ++ binding ++ "'", none⟩
  | _ :: value =>
    let name := Text.trimChars (binding.toList.takeWhile (· ≠ '='))
    if !isBindingName name then
      .error ⟨"Invalid variable name '" ++ String.ofList name ++ "'", none⟩
    else match readValue separator value with
      | .ok x => .ok (String.ofList name, x)
      | .error fault =>
        .error ⟨"Invalid value for " ++ String.ofList name ++ ": '" ++ String.ofList value ++ "'",
          some fault.message⟩

section Example

example : readBinding '.' "A-B=1" = .error ⟨"Invalid variable name 'A-B'", none⟩ := by rfl

end Example

end Reckoner.CommandLine
