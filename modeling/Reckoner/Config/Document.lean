/-
# Configuration files

A configuration is written as a JSON object with the keys `decimal_separator`, `max_atoms` and
`constants`.  Keys that are absent take their standard values, other keys are ignored, and a known
key must not be repeated.  The same fields may also be given in this order as an array.  Constants
are kept as they are written: their names are not changed to upper case and may repeat.
-/
import Reckoner.Config
import Reckoner.Json.Number

namespace Reckoner.Config

open Json

/-! ## 1. Members of objects -/

/-- The members of an object, by name; none if a name is not a text. -/
def namedMembers (members : List (List CodeUnit × Value)) : Option (List (String × Value)) :=
  members.mapM fun (key, value) => (decodeUnits key).map fun name => (String.ofList name, value)

/-- The value of a key that may be given once: absent, or present, or none if repeated. -/
def member? (members : List (String × Value)) (key : String) : Option (Option Value) :=
  match members.filter (fun m => m.1 == key) with
  | [] => some none
  | [m] => some (some m.2)
  | _ => none

/-- Reads a field, or takes its standard value if it is absent. -/
def fieldOr {α : Type} (standard : α) (read : Value → Option α) : Option Value → Option α
  | none => some standard
  | some value => read value

/-! ## 2. The fields -/

def readSeparator : Value → Option Char
  | .string units =>
    match decodeUnits units with
    | some [c] => some c
    | _ => none
  | _ => none

def readCapacity : Value → Option (Option Nat)
  | .null => some none
  | .number n => n.toNat?.map some
  | _ => none

/-- A name and a number.  The name is taken as it is written, in whatever letter case. -/
def readEntry : Value → Option (String × Float)
  | .array [.string units, .number n] => do
    let name ← decodeUnits units
    let value ← n.toFloat?
    return (String.ofList name, value)
  | _ => none

def readEntries : Value → Option Constants
  | .array items => (items.mapM readEntry).map NameTable.mk
  | _ => none

/-- An object whose key `entries` holds the entries. -/
def readConstants : Value → Option Constants
  | .object members => do
    let members ← namedMembers members
    let entries ← member? members "entries"
    readEntries (← entries)
  | .array [entries] => readEntries entries
  | _ => none

/-! ## 3. The document -/

def ofFields (separator maxAtoms constants : Option Value) : Option Config := do
  let separator ← fieldOr standard.separator readSeparator separator
  let maxAtoms ← fieldOr standard.maxAtoms readCapacity maxAtoms
  let constants ← fieldOr standard.constants readConstants constants
  return { separator, maxAtoms, constants }

def ofJson? : Value → Option Config
  | .object members => do
    let members ← namedMembers members
    let separator ← member? members "decimal_separator"
    let maxAtoms ← member? members "max_atoms"
    let constants ← member? members "constants"
    ofFields separator maxAtoms constants
  | .array fields =>
    if fields.length ≤ 3 then ofFields fields[0]? fields[1]? fields[2]? else none
  | _ => none

/-- A configuration from the text of a configuration file. -/
def ofText? (text : String) : Option Config := (read? text).bind ofJson?

end Reckoner.Config
