import PlusMinus.Checked.Decimal
import PlusMinus.Checked.Measure
import PlusMinus.Display

/-! Results as they are shown, with the refusals of rounding and of reading rounded digits back. -/

namespace PlusMinus

/-- A number at a decimal place; above the ones place it is only made whole. -/
def Double.checkedAtPlace (x : Double) (place : Int) : Except Fault String :=
  if place < 0 then x.checkedRoundHalfUp.map text else x.checkedFixed place

/-- A value and an uncertainty rounded to a decimal place. -/
def checkedRoundToPlace (value uncertainty : Double) (places : Int) : Except Fault Rounded := do
  -- The place is kept within the powers of ten that are doubles other than zero.
  let place := min (max places (-300)) 100
  let scale ← (Double.powerOfTen place).checkedFinite
  let onGrid (x : Double) : Except Fault Double := do
    let steps ← (x * scale).checkedRoundHalfUp
    steps.checkedDiv scale
  let v ← onGrid value
  let u ← onGrid uncertainty
  pure ⟨← v.checkedAtPlace place, ← u.checkedAtPlace place⟩

namespace Double

/-- A value rounded to significant figures, as a text and as a number; an exact value is not
rounded. -/
def checkedFigures (value uncertainty : Double) (place figures : Int) :
    Except Fault (String × Double) :=
  if exactFigures ≤ figures then
    if uncertainty.isZero then .ok (value.text, value)
    else (value.checkedAtPlace place).map (·, value)
  else do
    let text ← value.checkedPrecise figures
    pure (text, ← value.checkedRoundDigits figures)

/-- A value aligned to a decimal place behind the point; otherwise its text stays. -/
def checkedAligned (value : Double) (place : Int) (text : String) : Except Fault String :=
  if 0 ≤ place ∧ value.isFinite then value.checkedFixed place else .ok text

/-- A text without an exponent when its number is below a thousand. -/
def checkedUnscaled (value uncertainty rounded : Double) (place figures : Int) (text : String) :
    Except Fault String :=
  let isLarge := (ofInt 1000).le rounded.abs
  if text.toList.contains 'e' ∧ rounded.isFinite ∧ !isLarge then
    if uncertainty.isZero then
      -- The text is read as a decimal, and written without its exponent.
      let decimal :=
        if exactFigures ≤ figures then value.shortest else value.toDigits (clampDigits figures)
      (checkedText text).map fun _ => String.ofList (value.signText ++ decimal.plain)
    else rounded.checkedAtPlace place
  else .ok text

end Double

/-- A value rounded to significant figures and aligned to the leading digit of its uncertainty. -/
def checkedRoundToFigures (value : Double) (uncertainty : Figure) (figures : Int) :
    Except Fault Rounded := do
  let u := uncertainty.magnitude
  let place ← checkedDecimalPlace uncertainty (some uncertainty)
  -- The number is what significant figures leave of the value, whatever its text becomes.
  let (unaligned, rounded) ← value.checkedFigures u place figures
  let shown ← u.checkedAtPlace place
  let aligned ← value.checkedAligned place unaligned
  pure ⟨← value.checkedUnscaled u rounded place figures aligned, shown⟩

/-- A value and an uncertainty by a rounding rule. -/
def checkedRoundResult (value : Double) (uncertainty : Figure) (precision : Int)
    (useDecimalPlace : Bool) : Except Fault Rounded :=
  if useDecimalPlace then checkedRoundToPlace value uncertainty.magnitude precision
  else checkedRoundToFigures value uncertainty precision

/-- A range by a rounding rule. -/
def checkedRoundRange (low high : Double) (precision : Int) (useDecimalPlace : Bool) :
    Except Fault RoundedRange := do
  let halfRange := (high - low).abs.halve
  let midpoint := (low + high).halve
  -- All three are rounded with half the range as their uncertainty.
  let round (x : Double) : Except Fault Rounded :=
    checkedRoundResult x (.ofDouble halfRange) precision useDecimalPlace
  pure { max := ← round high, min := ← round low, mid := ← round midpoint, halfRange, midpoint }

end PlusMinus
