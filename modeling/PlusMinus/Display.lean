import PlusMinus.Decimal.Rounded
import PlusMinus.Extremes
import PlusMinus.Measure.Entered

/-! Results as they are shown: a value and its uncertainty, rounded to each other. -/

namespace PlusMinus

/-- A value and an uncertainty as texts. -/
structure Rounded where
  value : String
  uncertainty : String
deriving DecidableEq

namespace Rounded

/-- The pair as it is shown. -/
def text (pair : Rounded) : String := pair.value ++ " ± " ++ pair.uncertainty

end Rounded

namespace Double

/-- A number at a decimal place; above the ones place it is only made whole. -/
def atPlace (x : Double) (place : Int) : String :=
  if place < 0 then x.roundHalfUp.text else x.fixed place

end Double

/-- A value and an uncertainty rounded to a decimal place, which may lie above the ones place. -/
def roundToPlace (value uncertainty : Double) (places : Int) : Rounded :=
  let place := min (max places (-300)) 100
  -- Scaling, rounding and scaling back each round to a double, in this order.
  let scale := Double.powerOfTen place
  let onGrid (x : Double) : Double := (x * scale).roundHalfUp / scale
  ⟨(onGrid value).atPlace place, (onGrid uncertainty).atPlace place⟩

/-- A value rounded to significant figures and aligned to the leading digit of its uncertainty. -/
def roundToFigures (value : Double) (uncertainty : Figure) (figures : Int) : Rounded :=
  let u := uncertainty.magnitude
  let place := decimalPlace uncertainty (some uncertainty)
  let isExact := exactFigures ≤ figures
  let rounded := if isExact then value else value.roundDigits figures
  let aligned :=
    if 0 ≤ place ∧ value.isFinite then value.fixed place
    else if !isExact then value.precise figures
    else if u.isZero then value.text
    else value.atPlace place
  -- Only numbers from a thousand on keep an exponent.
  let isLarge := (Double.ofInt 1000).le rounded.abs
  let text :=
    if aligned.toList.contains 'e' ∧ rounded.isFinite ∧ !isLarge then
      if u.isZero then
        let decimal :=
          if isExact then value.shortest else value.toDigits (Double.clampDigits figures)
        String.ofList (value.signText ++ decimal.plain)
      else rounded.atPlace place
    else aligned
  ⟨text, u.atPlace place⟩

/-- A value and an uncertainty by a rounding rule. -/
def roundResult (value : Double) (uncertainty : Figure) (precision : Int) (useDecimalPlace : Bool) :
    Rounded :=
  if useDecimalPlace then roundToPlace value uncertainty.magnitude precision
  else roundToFigures value uncertainty precision

/-- An entered value and uncertainty by a rounding rule. -/
def roundEntries (value uncertainty : Entry) (precision : Int) (useDecimalPlace : Bool) :
    Except Fault Rounded := do
  let v ← value.toFigure
  let u ← uncertainty.toFigure
  pure (roundResult v.magnitude u precision useDecimalPlace)

/-- The ends and the middle of a range, each with half the range as its uncertainty. -/
structure RoundedRange where
  max : Rounded
  min : Rounded
  mid : Rounded
  halfRange : Double
  midpoint : Double
deriving DecidableEq

/-- A range by a rounding rule. -/
def roundRange (low high : Double) (precision : Int) (useDecimalPlace : Bool) : RoundedRange :=
  let halfRange := (high - low).abs.halve
  let midpoint := (low + high).halve
  let round (x : Double) : Rounded :=
    roundResult x (.ofDouble halfRange) precision useDecimalPlace
  { max := round high, min := round low, mid := round midpoint, halfRange, midpoint }

end PlusMinus
