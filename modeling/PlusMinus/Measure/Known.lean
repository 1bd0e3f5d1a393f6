import PlusMinus.Double.Log
import PlusMinus.Measure.Basic
import PlusMinus.Numeral.Written

/-! How precisely a measure is known: its significant figures and its last decimal place. -/

namespace PlusMinus

/-- The significant figures of an exact value, more than any measure has. -/
def exactFigures : Int := 999

/-- The decimal order of a positive uncertainty: that of its shortest decimal, corrected by what
rounding to one digit changes in the logarithm. -/
def Double.roundedOrder (u : Double) : Int :=
  let decimal := u.shortest
  let order : Int := decimal.exponent + digitCount decimal.coefficient - 1
  let coefficient := Decimal.toDouble false ⟨decimal.coefficient, decimal.exponent - order⟩
  -- The correction is smaller than one fifth, so rounding takes it away again.
  let correction := coefficient.log10 - coefficient.roundHalfUp.log10
  (ofInt order + correction).roundHalfUp.floor

/-- The decimal place that an uncertainty decides: a positive one by its leading digit, and an
infinite one by the ones place. -/
def Figure.place? (uncertainty : Figure) : Option Int :=
  if uncertainty.digits ≠ "" ∧ Double.lt .zero uncertainty.magnitude then
    if uncertainty.magnitude.isFinite then some (-uncertainty.magnitude.roundedOrder) else some 0
  else none

/-- The significant figures of a value, by its uncertainty when that is positive, and otherwise by
its written digits; a whole number without uncertainty is exact. -/
def significantFigures (value : Figure) (uncertainty : Option Figure) : Int :=
  let counted : Int := Written.significantDigits value.digits
  match uncertainty.filter (·.digits ≠ "") with
  | none => counted
  | some u =>
    if u.magnitude.isZero then
      if value.digits.toList.contains '.' then counted else exactFigures
    else if Double.lt .zero u.magnitude ∧ u.magnitude.isFinite then
      let read := Double.ofText value.digits
      -- A value without an order of its own is taken for one tenth.
      let known :=
        if read.isZero ∨ !read.isFinite then Double.ofQuotient .toEven false Double.one 10 else read
      max 1 (known.order - u.magnitude.order + 1)
    else counted

/-- The decimal place that a value is known to. -/
def decimalPlace (value : Figure) (uncertainty : Option Figure) : Int :=
  (uncertainty.bind Figure.place?).getD (Written.lastPlace value.digits)

namespace Measure

/-- The significant figures of a measure. -/
def significantFigures (m : Measure) :
    Int := PlusMinus.significantFigures m.value (some m.uncertainty)

/-- The decimal place that a measure is known to. -/
def decimalPlace (m : Measure) : Int := PlusMinus.decimalPlace m.value (some m.uncertainty)

end Measure

end PlusMinus
