/-
# Configurations

A configuration fixes the decimal separator, the capacity of the sequences of atoms, and the
constants.  `Config.check` refuses separators that would collide with the alphabet of formulas and
a capacity of nothing.
-/
import Reckoner.Error
import Reckoner.NameTable
import Reckoner.Text.Blank

namespace Reckoner

abbrev Constants := NameTable Float

/-- The number nearest to the ratio of a circle's circumference to its diameter. -/
def piValue : Float := .ofBits 0x400921FB54442D18

/-- The base of the natural logarithm. -/
def eulerValue : Float := .ofBits 0x4005BF0A8B145769

/-- `PI` and `E`, under names that are in upper case already. -/
def Constants.standard : Constants :=
  (NameTable.empty.insert "PI" piValue).insert "E" eulerValue

/-- The settings of a session. -/
structure Config where
  /-- What points and commas in formulas stand for, and what numbers are written with. -/
  separator : Char
  /-- How many atoms a formula may have, if there is a limit. -/
  maxAtoms : Option Nat
  constants : Constants
  deriving DecidableEq

namespace Config

/-- The usual settings: a point, at most 512 atoms, and `PI` and `E`. -/
def standard : Config := ⟨'.', some 512, Constants.standard⟩

/-- The characters of formulas that are neither letters, digits nor the separator.  None of them can
be the separator, or a number and an operator could not be told apart. -/
def marks : List Char := ['_', '+', '-', '*', '/', '%', '^', ';', '(', ')']

/-- Whether formulas with this decimal separator can be told apart into tokens.  A space is filtered
out of formulas before they are cut, and letters, digits and marks have a meaning of their own. -/
def separatorAllowed (c : Char) : Bool :=
  !(c.isAlphanum || Text.isBlank c || Text.isControl c || marks.contains c)

/-- Accepts a usable configuration; a bad separator is reported before a bad capacity. -/
def check (config : Config) : Except ConfigFault Unit :=
  if !separatorAllowed config.separator then .error (.separator config.separator)
  else if config.maxAtoms = some 0 then .error .noCapacity
  else .ok ()

end Config

end Reckoner
