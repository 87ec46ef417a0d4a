/-
# The calculator as a program

Reads what the arguments ask for from the files and the standard input, and prints what comes out.
Random numbers are seeded by the system.  Log records go to the standard error: warnings always, and
what is less important only on request.
-/
import Reckoner.CommandLine.Command
import Reckoner.Chance.KeyStream

namespace Reckoner.CommandLine

/-- The text of a file, or why it cannot be had. -/
def readTextFile (path : String) : IO (Except FileFault String) := do
  match ← (IO.FS.readFile path).toBaseIO with
  | .ok text => return .ok text
  | .error (.noFileOrDirectory ..) => return .error .missing
  | .error e => return .error (.unreadable (toString e))

/-- The paths of the files that a command reads. -/
def pathsOf : Command → List String
  | .evaluate _ options _ => options.config.toList
  | .batch path options => path.toList ++ options.config.toList
  | .functions => []

/-- Whether a command reads the standard input. -/
def readsInput : Command → Bool
  | .batch none _ => true
  | _ => false

/-- A seed from the system. -/
def systemSeed : IO UInt64 := do
  let bytes ← IO.getRandomBytes 8
  return bytes.data.foldl (fun seed b => seed * 256 + b.toUInt64) 0

/-- The files and the input that an invocation needs. -/
def gather (invocation : Invocation) : IO Surroundings := do
  let files ← (pathsOf invocation.command).mapM fun path => return (path, ← readTextFile path)
  let standardInput ← if readsInput invocation.command then (← IO.getStdin).readToEnd else pure ""
  return { file := fun path => (files.lookup path).getD (.error .missing), standardInput }

/-- Carries out what the arguments ask for, and gives the exit code. -/
def runProgram (arguments : List String) : IO UInt32 := do
  match Invocation.ofArguments? arguments with
  | none => IO.eprint usage; return 2
  | some invocation =>
    let surroundings ← gather invocation
    let source := Chance.KeyStream.ofSeed (← systemSeed)
    let outcome := invocation.command.perform surroundings source
    let least := if invocation.verbose then Level.debug else Level.warn
    IO.print outcome.output
    IO.eprint (outcome.reported least)
    return outcome.exitCode.toUInt32

end Reckoner.CommandLine

def main (arguments : List String) : IO UInt32 := Reckoner.CommandLine.runProgram arguments
