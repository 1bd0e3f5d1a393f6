import PlusMinus.Double.Arith

/-! Decimal numbers as a coefficient and a power of ten, the doubles they denote, and the shortest
one that reads back as a given double. -/

namespace PlusMinus

/-- The number of decimal digits that a whole number is written with. -/
def digitCount (n : Nat) : Nat := (Nat.toDigits 10 n).length

/-- A coefficient times a power of ten. -/
structure Decimal where
  coefficient : Nat
  exponent : Int
deriving DecidableEq

namespace Decimal

/-- The exact value of a decimal. -/
def toRat (d : Decimal) : Rat :=
  if d.exponent < 0 then mkRat d.coefficient (tenTo (-d.exponent).toNat)
  else (d.coefficient * tenTo d.exponent.toNat : Nat)

/-- The double nearest to a signed decimal, a tie going to the even significand. -/
def toDouble (negative : Bool) (d : Decimal) : Double :=
  if d.coefficient = 0 then .finite negative 0 Double.fits_zero
  else
    -- The position of the leading digit settles numbers far outside the range without the power.
    let leading := d.exponent + digitCount d.coefficient
    if 310 < leading then .infinite negative
    else if leading < -330 then .finite negative 0 Double.fits_zero
    else if d.exponent < 0 then
      Double.ofQuotient .toEven negative (d.coefficient * Double.one) (tenTo (-d.exponent).toNat)
    else
      Double.ofQuotient .toEven negative (d.coefficient * tenTo d.exponent.toNat * Double.one) 1

/-- The same decimal with the zeros at the end of its coefficient moved into the exponent. -/
def normalize (d : Decimal) : Decimal :=
  if d.coefficient ≠ 0 ∧ d.coefficient % 10 = 0 then
    normalize ⟨d.coefficient / 10, d.exponent + 1⟩
  else d
termination_by d.coefficient
decreasing_by omega

end Decimal

/-- The power of ten of the leading decimal digit of a positive quotient. -/
def leadingExponent (numerator denominator : Nat) : Int :=
  -- Below one, the digits of the reciprocal count the zeros before the leading digit.
  if denominator ≤ numerator then (digitCount (numerator / denominator) : Int) - 1
  else -(digitCount ((denominator - 1) / numerator) : Int)

/-- A quotient divided by a power of ten, as a new quotient. -/
def shiftQuotient (numerator denominator : Nat) (exponent : Int) : Nat × Nat :=
  if exponent < 0 then (numerator * tenTo (-exponent).toNat, denominator)
  else (numerator, denominator * tenTo exponent.toNat)

namespace Double

/-- The power of ten of the leading decimal digit of a finite, non-zero double. -/
def leadingExponent (x : Double) : Int :=
  PlusMinus.leadingExponent x.magnitude one

/-- The decimal of the given length nearest to a magnitude with a given leading exponent, if one of
its two neighbours of that length reads back; of two at the same distance the even one. -/
def neighbour? (x : Double) (leading : Int) (length : Nat) : Option Decimal :=
  let exponent := leading - length + 1
  let (numerator, denominator) := shiftQuotient x.magnitude one exponent
  let below : Decimal := ⟨numerator / denominator, exponent⟩
  let above : Decimal := ⟨numerator / denominator + 1, exponent⟩
  let nearest : Decimal := ⟨roundDiv .toEven numerator denominator, exponent⟩
  let readsBack (d : Decimal) : Bool := d.toDouble false = x.abs
  match readsBack below, readsBack above with
  | true, true => some nearest
  | true, false => some below
  | false, true => some above
  | false, false => none

/-- All the digits of a magnitude. -/
def exactDecimal (x : Double) : Decimal := ⟨x.magnitude * Nat.pow 5 1074, -1074⟩

/-- The decimal with the fewest digits that reads back as a finite magnitude, and among those the
nearest one. -/
def shortest (x : Double) : Decimal :=
  if x.magnitude = 0 then ⟨0, 0⟩
  else
    -- Seventeen digits tell every two doubles apart.
    let leading := x.leadingExponent
    let found := (List.range 17).findSome? fun i => x.neighbour? leading (i + 1)
    (found.getD x.exactDecimal).normalize

end Double

end PlusMinus
