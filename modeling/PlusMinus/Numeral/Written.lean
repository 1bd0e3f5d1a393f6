import PlusMinus.Numeral.Reader
import PlusMinus.Text.LowerCase

/-! What the digits of a written number say about its precision. -/

namespace PlusMinus.Written

open Text

/-- The mantissa of a written number, without signs, and the text of its exponent. -/
def split (text : List Char) : List Char × List Char :=
  let body := (lower (strip text)).dropWhile fun c => c = '+' || c = '-'
  (body.takeWhile (· ≠ 'e'), (body.dropWhile (· ≠ 'e')).drop 1)

/-- What follows the first decimal point, if there is one. -/
def fraction? (mantissa : List Char) : Option (List Char) :=
  if mantissa.contains '.' then some ((mantissa.dropWhile (· ≠ '.')).drop 1) else none

/-- The number of zeros at the end of a run of digits. -/
def trailingZeros (digits : List Char) : Nat := (digits.reverse.takeWhile (· = '0')).length

/-- The number of significant digits: leading zeros never count, trailing zeros always do. -/
def significantDigits (text : String) : Nat :=
  let (mantissa, _) := split text.toList
  let significant := (mantissa.filter isDigit).dropWhile (· = '0')
  if !significant.isEmpty then significant.length
  else if (mantissa.filter isDigit).isEmpty then 1
  else max 1 (((fraction? mantissa).map List.length).getD 1)

/-- The decimal place of the last significant digit: positive behind the point, negative for the
zeros that end a whole number, and moved by the exponent. -/
def lastPlace (text : String) : Int :=
  let (mantissa, exponent) := split text.toList
  let shift := (Numeral.int? exponent).getD 0
  match fraction? mantissa with
  | some fraction => fraction.length - shift
  | none => -(trailingZeros (mantissa.filter isDigit) : Int) - shift

end PlusMinus.Written
