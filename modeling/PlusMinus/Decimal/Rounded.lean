import PlusMinus.Decimal.Layout

/-! Doubles rounded to a number of decimal places or of significant digits. -/

namespace PlusMinus.Double

/-- The sign that the rounded text of a finite number starts with. -/
def signText (x : Double) : List Char :=
  if x.isNegative && x.magnitude ≠ 0 then ['-'] else []

/-- The multiple of 10^-places nearest to a magnitude, a half going away from zero. -/
def toPlaces (x : Double) (places : Nat) : Decimal :=
  ⟨roundDiv .upward (x.magnitude * tenTo places) one, -places⟩

/-- The decimal of exactly `count` digits nearest to a non-zero magnitude, a half going away from
zero. -/
def toDigits (x : Double) (count : Nat) : Decimal :=
  let exponent := x.leadingExponent - count + 1
  let (numerator, denominator) := shiftQuotient x.magnitude one exponent
  let coefficient := roundDiv .upward numerator denominator
  -- A carry out of the leading digit leaves a one and zeros at the next power of ten.
  if coefficient = tenTo count then ⟨tenTo (count - 1), exponent + 1⟩ else ⟨coefficient, exponent⟩

/-- The number of significant digits that a request is served with. -/
def clampDigits (precision : Int) : Nat := (min (max precision 1) 100).toNat

/-- The number of decimal places that a request is served with. -/
def clampPlaces (places : Int) : Nat := (min (max places 0) 100).toNat

/-- From this magnitude on, 10^21, fixed places are not written. -/
def fixedLimit : Nat := tenTo 21 * one

/-- A double with a fixed number of decimal places; large numbers stay in shortest form. -/
def fixed (x : Double) (places : Int) : String :=
  if x.isFinite && x.magnitude < fixedLimit then
    let count := clampPlaces places
    String.ofList (x.signText ++ pointed (x.toPlaces count).coefficient count)
  else
    x.text

/-- A double with a fixed number of significant digits, trailing zeros included. -/
def precise (x : Double) (precision : Int) : String :=
  if !x.isFinite then x.text
  else
    let count := clampDigits precision
    if x.magnitude = 0 then String.ofList (pointed 0 (count - 1))
    else
      let rounded := x.toDigits count
      let leading := rounded.exponent + count - 1
      String.ofList <| x.signText ++
        if leading < -6 ∨ count ≤ leading then
          pointed rounded.coefficient (count - 1) ++ exponentText 1 leading
        else
          pointed rounded.coefficient (-rounded.exponent).toNat

/-- The value that a double has after rounding to significant digits. -/
def roundDigits (x : Double) (precision : Int) : Double :=
  if x.isFinite && x.magnitude ≠ 0 then
    (x.toDigits (clampDigits precision)).toDouble x.isNegative
  else if x.isFinite then zero
  else x

/-- A double for running text, trimmed to a number of significant digits. -/
def trimmed (x : Double) (digits : Int) : String := (x.roundDigits digits).text

end PlusMinus.Double
