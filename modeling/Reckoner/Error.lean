/-
# What can go wrong with a formula

Failures are causes, not texts; the wording of each is fixed once, in `FormulaError.message`.
-/

namespace Reckoner

/-- Why a configuration is refused. -/
inductive ConfigFault where
  /-- The decimal separator would collide with the alphabet of formulas. -/
  | separator (c : Char)
  /-- No atom would fit. -/
  | noCapacity
  deriving Repr, DecidableEq

def ConfigFault.message : ConfigFault → String
  | .separator c => "'" ++ c.toString ++ "' cannot be used as decimal separator"
  | .noCapacity => "max_atoms must be greater than zero"

/-- Why a formula has no value.  What is named in a case is the function that was called, or the
operator. -/
inductive FormulaError where
  /-- A character outside the alphabet of formulas. -/
  | invalidCharacter
  /-- A malformed number, a missing or surplus operand, an unmatched bracket. -/
  | malformed
  /-- A divisor that is exactly zero. -/
  | divisionByZero
  /-- A call of a name that no function has. -/
  | undefinedFunction (name : String)
  /-- A call with a number of arguments that the function does not take. -/
  | arityMismatch (name : String)
  /-- An operator without a meaning. -/
  | unknownOperator (op : String)
  /-- A configuration that is refused. -/
  | invalidConfig (fault : ConfigFault)
  deriving Repr, DecidableEq

/-- The wording of a failure.  It says what was wrong and not where; a session keeps it beside the
failure. -/
def FormulaError.message : FormulaError → String
  | .invalidCharacter => "Invalid chars on expression"
  | .malformed => "Syntax error"
  | .divisionByZero => "Divide by zero"
  | .undefinedFunction name => "Undefined function: " ++ name
  | .arityMismatch name => "Wrong parameters number in: " ++ name
  | .unknownOperator op => "Invalid operator: " ++ op
  | .invalidConfig fault => "Invalid configuration: " ++ fault.message

end Reckoner
