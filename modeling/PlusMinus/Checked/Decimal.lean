import PlusMinus.Checked.Double
import PlusMinus.Decimal.Rounded

/-! Rounding to decimal digits where too many of them are refused, and numbers that have to be
legible. -/

namespace PlusMinus

/-- The most digits that a rounded decimal may have. -/
def digitLimit : Nat := 200

/-- The coefficient of a rounded decimal, refused when it has too many digits. -/
def checkedCoefficient (coefficient : Nat) : Except Fault Nat :=
  if digitLimit < digitCount coefficient then .error .outOfRange else .ok coefficient

namespace Double

/-- The number that a text denotes; one that denotes none is refused. -/
def checkedText (text : String) : Except Fault Double :=
  Fault.meaningless.require (Numeral.double? text.toList)

/-- The decimal of exactly `count` digits nearest to a non-zero magnitude; after a carry it is
rounded once more. -/
def checkedDigits (x : Double) (count : Nat) : Except Fault Decimal := do
  let exponent := x.leadingExponent - count + 1
  let (numerator, denominator) := shiftQuotient x.magnitude one exponent
  let coefficient ← checkedCoefficient (roundDiv .upward numerator denominator)
  -- A number like 9.99 may carry into one digit more than there should be.
  if coefficient = tenTo count then
    let carried ← checkedCoefficient (tenTo (count - 1))
    pure ⟨carried, exponent + 1⟩
  else pure ⟨coefficient, exponent⟩

/-- A double with a fixed number of decimal places. -/
def checkedFixed (x : Double) (places : Int) : Except Fault String :=
  if x.isFinite && x.magnitude < fixedLimit then do
    let count := clampPlaces places
    let coefficient ← checkedCoefficient (x.toPlaces count).coefficient
    pure (String.ofList (x.signText ++ pointed coefficient count))
  else .ok x.text

/-- A double with a fixed number of significant digits. -/
def checkedPrecise (x : Double) (precision : Int) : Except Fault String :=
  if x.isFinite && x.magnitude ≠ 0 then do
    -- The text depends on the digits alone, and only finding those can be refused.
    let _ ← x.checkedDigits (clampDigits precision)
    pure (x.precise precision)
  else .ok (x.precise precision)

/-- The value of a finite double as its digits are read back; the others stay. -/
def checkedRoundDigits (x : Double) (precision : Int) : Except Fault Double :=
  if x.isFinite then do
    let written ← x.checkedPrecise precision
    checkedText written
  else .ok x

/-- A double for running text. -/
def checkedTrimmed (x : Double) (digits : Int) : Except Fault String :=
  (x.checkedRoundDigits digits).map text

end Double

end PlusMinus
