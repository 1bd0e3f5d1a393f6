import PlusMinus.Decimal.Basic

/-! How doubles are written: shortest digits, laid out positionally or with an exponent. -/

namespace PlusMinus

/-- A run of zeros. -/
def zeros (count : Nat) : List Char := List.replicate count '0'

/-- A coefficient with the decimal point before its last `places` digits. -/
def pointed (coefficient places : Nat) : List Char :=
  let digits := Nat.toDigits 10 coefficient
  let padded := zeros (places + 1 - digits.length) ++ digits
  if places = 0 then padded
  else padded.take (padded.length - places) ++ '.' :: padded.drop (padded.length - places)

/-- A decimal written without an exponent. -/
def Decimal.plain (d : Decimal) : List Char :=
  if d.exponent < 0 then pointed d.coefficient (-d.exponent).toNat
  else Nat.toDigits 10 d.coefficient ++ zeros d.exponent.toNat

/-- The mark, the sign and the digits of an exponent, padded to a width. -/
def exponentText (width : Nat) (exponent : Int) : List Char :=
  let digits := Nat.toDigits 10 exponent.natAbs
  'e' :: (if exponent < 0 then '-' else '+') :: (zeros (width - digits.length) ++ digits)

/-- What a way of writing doubles decides. -/
structure Layout where
  /-- The least position of the decimal point that is written positionally. -/
  leastPoint : Int
  /-- The greatest position of the decimal point that is written positionally. -/
  greatestPoint : Int
  /-- What follows a whole number. -/
  wholeMark : List Char
  /-- The least number of digits of an exponent. -/
  exponentWidth : Nat
  /-- Whether a negative zero shows its sign. -/
  signedZero : Bool
  notANumber : List Char
  infinity : List Char

namespace Layout

/-- Numbers in results and explanations: positional from 10^-6 up to below 10^21. -/
def display : Layout where
  leastPoint := -5
  greatestPoint := 21
  wholeMark := []
  exponentWidth := 1
  signedZero := false
  notANumber := "NaN".toList
  infinity := "Infinity".toList

/-- Numbers quoted in messages: positional from 10^-4 up to below 10^16, and never whole. -/
def quoted : Layout where
  leastPoint := -3
  greatestPoint := 16
  wholeMark := ".0".toList
  exponentWidth := 2
  signedZero := true
  notANumber := "nan".toList
  infinity := "inf".toList

/-- The digits of a decimal with a point or an exponent where the layout puts it. -/
def magnitudeText (layout : Layout) (d : Decimal) : List Char :=
  let digits := Nat.toDigits 10 d.coefficient
  let point := d.exponent + digits.length
  if point < layout.leastPoint ∨ layout.greatestPoint < point then
    let fraction := digits.drop 1
    digits.take 1 ++ (if fraction.isEmpty then [] else '.' :: fraction)
      ++ exponentText layout.exponentWidth (point - 1)
  else if digits.length ≤ point then
    digits ++ zeros (point - digits.length).toNat ++ layout.wholeMark
  else if 0 < point then
    digits.take point.toNat ++ '.' :: digits.drop point.toNat
  else
    '0' :: '.' :: (zeros (-point).toNat ++ digits)

/-- A double in the layout. -/
def text (layout : Layout) (x : Double) : List Char :=
  let sign (negative : Bool) : List Char := if negative then ['-'] else []
  match x with
  | .nan => layout.notANumber
  | .infinite negative => sign negative ++ layout.infinity
  | .finite negative quanta _ =>
    sign (negative && (quanta ≠ 0 || layout.signedZero)) ++ layout.magnitudeText x.shortest

end Layout

/-- The shortest text that reads back as a double, as results show it. -/
def Double.text (x : Double) : String := String.ofList (Layout.display.text x)

end PlusMinus
