import PlusMinus.Checked.Double
import PlusMinus.Measure.Known

/-! How precisely a measure is known, with the refusals of the logarithms that it is told by. -/

namespace PlusMinus

/-- The decimal order of a positive uncertainty. -/
def Double.checkedRoundedOrder (u : Double) : Except Fault Int := do
  let decimal := u.shortest
  let order : Int := decimal.exponent + digitCount decimal.coefficient - 1
  -- With a point behind the first digit the number is made whole, and the order is corrected by
  -- what that changes in its logarithm.
  let coefficient := Decimal.toDouble false ⟨decimal.coefficient, decimal.exponent - order⟩
  let rounded ← coefficient.checkedRoundHalfUp
  let exact ← coefficient.checkedLog10
  let changed ← rounded.checkedLog10
  let whole ← checkedInt order
  let corrected ← (whole + (exact - changed)).checkedRoundHalfUp
  corrected.checkedFloor

/-- The decimal place that an uncertainty decides. -/
def Figure.checkedPlace? (uncertainty : Figure) : Except Fault (Option Int) :=
  if uncertainty.digits ≠ "" ∧ Double.lt .zero uncertainty.magnitude then
    if uncertainty.magnitude.isFinite then
      uncertainty.magnitude.checkedRoundedOrder.map fun order => some (-order)
    else .ok (some 0)
  else .ok none

/-- The significant figures of a value. -/
def checkedSignificantFigures (value : Figure) (uncertainty : Option Figure) : Except Fault Int :=
  let counted : Int := Written.significantDigits value.digits
  match uncertainty.filter (·.digits ≠ "") with
  | none => .ok counted
  | some u =>
    if u.magnitude.isZero then
      .ok (if value.digits.toList.contains '.' then counted else exactFigures)
    else if Double.lt .zero u.magnitude ∧ u.magnitude.isFinite then do
      let read := Double.ofText value.digits
      -- A value without an order of its own counts as one tenth.
      let known :=
        if read.isZero ∨ !read.isFinite then Double.ofQuotient .toEven false Double.one 10 else read
      let order ← known.checkedOrder
      let place ← u.magnitude.checkedOrder
      pure (max 1 (order - place + 1))
    else .ok counted

/-- The decimal place that a value is known to. -/
def checkedDecimalPlace (value : Figure) (uncertainty : Option Figure) : Except Fault Int :=
  match uncertainty with
  | none => .ok (Written.lastPlace value.digits)
  | some u => u.checkedPlace?.map fun place => place.getD (Written.lastPlace value.digits)

namespace Measure

/-- The significant figures of a measure. -/
def checkedFigures (m : Measure) : Except Fault Int :=
  checkedSignificantFigures m.value (some m.uncertainty)

/-- The decimal place that a measure is known to. -/
def checkedPlace (m : Measure) : Except Fault Int :=
  checkedDecimalPlace m.value (some m.uncertainty)

end Measure

end PlusMinus
