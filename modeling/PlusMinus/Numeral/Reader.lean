import PlusMinus.Decimal.Basic
import PlusMinus.Text.Character

/-! Reading numbers that a user typed: decimals of any notation, and whole numbers. -/

namespace PlusMinus.Numeral

open Text

/-- A text with the decimal digits of every script in ASCII. -/
def asciiDigits (text : List Char) : List Char :=
  text.map fun c => ((digitValue? c).map asciiDigit).getD c

/-- A text without the underscores that separate digits; none may stand anywhere else. -/
def joinDigits? (text : List Char) : Option (List Char) :=
  go false text
where
  go (afterDigit : Bool) : List Char → Option (List Char)
    | [] => some []
    | '_' :: rest =>
      if afterDigit && (rest.head?.any Char.isDigit) then go false rest else none
    | c :: rest => (go c.isDigit rest).map (c :: ·)

/-- A leading sign, true for minus, and the text behind it. -/
def splitSign : List Char → Bool × List Char
  | '-' :: rest => (true, rest)
  | '+' :: rest => (false, rest)
  | rest => (false, rest)

/-- The whole number that a non-empty run of digits denotes. -/
def digits? (text : List Char) : Option Nat :=
  if text ≠ [] ∧ text.all Char.isDigit then some (Nat.ofDigitChars 10 text 0) else none

/-- The exponent that the end of a number denotes, zero when there is none. -/
def exponent? : List Char → Option Int
  | [] => some 0
  | mark :: rest =>
    if mark = 'e' ∨ mark = 'E' then
      let (negative, digits) := splitSign rest
      (digits? digits).map fun n => if negative then -(n : Int) else n
    else none

/-- The decimal that an unsigned number denotes; the point may come first or last. -/
def decimal? (text : List Char) : Option Decimal :=
  let whole := text.takeWhile Char.isDigit
  let afterWhole := text.dropWhile Char.isDigit
  let (fraction, tail) : List Char × List Char := match afterWhole with
    | '.' :: rest => (rest.takeWhile Char.isDigit, rest.dropWhile Char.isDigit)
    | rest => ([], rest)
  do
    let coefficient ← digits? (whole ++ fraction)
    let exponent ← exponent? tail
    pure ⟨coefficient, exponent - fraction.length⟩

/-- The double that a text denotes, if it is a number. -/
def double? (text : List Char) : Option Double := do
  let joined ← joinDigits? (asciiDigits (strip text))
  let (negative, body) := splitSign joined
  let word := body.map Char.toLower
  if word = "inf".toList ∨ word = "infinity".toList then
    pure (.infinite negative)
  else if word = "nan".toList then
    pure .nan
  else
    (decimal? body).map (·.toDouble negative)

/-- Blanks around a whole number; the ASCII separators do not count here. -/
def isMargin (c : Char) : Bool := isBlank c && !(0x1c ≤ c.toNat && c.toNat ≤ 0x1f)

/-- The longest run of digits that is read as a whole number. -/
def digitLimit : Nat := 4300

/-- The whole number that a text denotes, if it is one. -/
def int? (text : List Char) : Option Int := do
  let trimmed := ((text.dropWhile isMargin).reverse.dropWhile isMargin).reverse
  let (negative, body) := splitSign (asciiDigits trimmed)
  let digits ← joinDigits? body
  let n ← digits? digits
  if digitLimit < digits.length then none
  else pure (if negative then -(n : Int) else n)

end PlusMinus.Numeral

namespace PlusMinus

/-- The double that a text denotes; a text that is no number denotes none. -/
def Double.ofText (text : String) : Double :=
  (Numeral.double? text.toList).getD .nan

end PlusMinus
