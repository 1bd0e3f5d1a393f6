import PlusMinus.Measure.Entry

/-! The faults that a request can be refused for, and the wording of each. -/

namespace PlusMinus

/-- What is wrong with a request. -/
inductive Fault where
  | valueRequired
  | invalidValue (value : Entry)
  | invalidBound (bound : Entry)
  | negativeBound
  | negativeBrackets
  | rowLength
  | unsupportedRow (row : Entry)
  | unknownRowOperator (text : String)
  | leadingOperator (text : String)
  | missingOperator
  | trailingOperator
  | unknownOperator (symbol : String)
  | unknownMode (name : Option String)
  | notExplainable
  | noSignificantFigures
  | bracketIterations
  | debugDigits
  | unknownRounding (name : String)
  | roundingDigits
  /-- A value of the right type that has no meaning where it stands. -/
  | meaningless
  /-- A value that no number can be made of. -/
  | notNumeric
  /-- A number out of range. -/
  | outOfRange
  /-- A plain number where the ends of an interval are asked for. -/
  | withoutEnds
  /-- A whole number with too many digits to be written. -/
  | unwritable
deriving DecidableEq

/-- The four classes of faults. -/
inductive Fault.Kind where
  | value
  | type
  | overflow
  | attribute
deriving DecidableEq

namespace Fault

/-- The class that a fault belongs to. -/
def kind : Fault → Kind
  | .rowLength | .unsupportedRow _ | .notExplainable | .notNumeric => .type
  | .outOfRange => .overflow
  | .withoutEnds => .attribute
  | _ => .value

/-- What is said about a name that no mode has. -/
def unknownModeText (name : String) : String :=
  "Unknown mode '" ++ name ++ "'. Choose from: ['uncertainty', 'actual']"

/-- The wording of a fault; the last five are reported without one. -/
def message? : Fault → Option String
  | .valueRequired => some "value is required."
  | .invalidValue value => some ("value " ++ value.quoted ++ " is not a valid number.")
  | .invalidBound bound =>
    some ("bound " ++ bound.quoted ++ " is not a valid number. Leave it blank for exact values.")
  | .negativeBound => some "bound must be >= 0"
  | .negativeBrackets => some "bracket counts must be >= 0"
  | .rowLength => some "Value rows must be (open_parens, value, uncertainty, close_parens)."
  | .unsupportedRow row =>
    some ("Unsupported row " ++ row.quoted ++ ": expected a value row or an operator string.")
  | .unknownRowOperator text => some ("Invalid operator: " ++ Text.quote text)
  | .leadingOperator text => some ("Operator " ++ Text.quote text ++ " must follow a value row.")
  | .missingOperator => some "Missing operator between value rows."
  | .trailingOperator => some "Rows cannot end with an operator."
  | .unknownOperator symbol => some ("Invalid operator: " ++ symbol)
  | .unknownMode name => some (unknownModeText (name.getD "None"))
  | .notExplainable => some "explain_str(x) requires a calculation or a list of StepBlock"
  | .noSignificantFigures => some "significant figures must be >= 1"
  | .bracketIterations => some "max_bracket_iterations must be >= 1"
  | .debugDigits => some "debug_digits must be between 1 and 17"
  | .unknownRounding name =>
    some ("Unknown rounding mode '" ++ name ++ "'. Choose from: ['auto', 'sigfig', 'decimals']")
  | .roundingDigits => some "rounding_digits must be >= 0"
  | .meaningless | .notNumeric | .outOfRange | .withoutEnds | .unwritable => none

end Fault

end PlusMinus
