import PlusMinus.Checked.Double
import PlusMinus.Measure.Known

/-! Measures from what a user entered. -/

namespace PlusMinus

namespace Entry

/-- The figure that an entry stands for. -/
def toFigure : Entry → Except Fault Figure
  | .text written => .ok (.ofText written)
  | .number x => .ok (.ofDouble x)
  | .integer n => (Double.checkedInt n).map .ofDouble
  | .truth b => .ok (.ofDouble (.ofInt (if b then 1 else 0)))
  | .figure f => .ok f
  | .missing | .other => .error .notNumeric

/-- The number that an entry stands for; what is no number stands for none. -/
def toDouble : Entry → Except Fault Double
  | .text written => .ok (.ofText written)
  | .number x => .ok x
  | .integer n => Double.checkedInt n
  | .figure f => .ok f.magnitude
  | .truth _ | .missing | .other => .ok .nan

/-- The whole number that an entry stands for; fractions are cut off. -/
def toInt : Entry → Except Fault Int
  | .text written => match Numeral.int? written.toList with
    | some n => .ok n
    | none => .error .meaningless
  | .number x => x.checkedFinite.map fun x => if x.isNegative then -x.abs.floor else x.floor
  | .integer n => .ok n
  | .truth b => .ok (if b then 1 else 0)
  | .missing | .figure _ | .other => .error .notNumeric

/-- The figure of an entry that may be missing. -/
def toFigure? : Entry → Except Fault (Option Figure)
  | .missing => .ok none
  | entry => entry.toFigure.map some

/-- The significant figures of an entered value with an uncertainty that may be missing. -/
def significantFigures (value uncertainty : Entry) : Except Fault Int := do
  let v ← value.toFigure
  let u ← uncertainty.toFigure?
  pure (PlusMinus.significantFigures v u)

/-- The decimal place of an entered value; the value is looked at only when its uncertainty does not
decide. -/
def decimalPlace (value uncertainty : Entry) : Except Fault Int := do
  let u ← uncertainty.toFigure?
  match u.bind Figure.place? with
  | some place => pure place
  | none => pure (PlusMinus.decimalPlace (← value.toFigure) u)

end Entry

/-- The operand of a value and a bound as they were entered; a blank or missing bound means an
exact value. -/
def Operand.ofEntries (value bound : Entry) (openBrackets closeBrackets : Int) :
    Except Fault Operand := do
  if value.isBlank then throw .valueRequired
  let v ← value.toFigure
  if v.magnitude.isNaN then throw (.invalidValue value)
  let u ← if bound = .missing ∨ bound.isBlank then pure Figure.exact else bound.toFigure
  if u.magnitude.isNaN then throw (.invalidBound bound)
  if u.magnitude.lt .zero then throw .negativeBound
  if openBrackets < 0 ∨ closeBrackets < 0 then throw .negativeBrackets
  pure { value := v, uncertainty := u, openBrackets, closeBrackets }

end PlusMinus
