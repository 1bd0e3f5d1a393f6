import PlusMinus.Decimal.Layout
import PlusMinus.Numeral.Reader

/-! Figures as they are written, and measures: a value with its uncertainty. -/

namespace PlusMinus

/-- A number together with the digits it is written with. -/
structure Figure where
  digits : String
  magnitude : Double
deriving DecidableEq

namespace Figure

/-- A number written with its shortest digits. -/
def ofDouble (x : Double) : Figure := ⟨x.text, x⟩

/-- The number that a text without its outer blanks denotes. -/
def ofText (text : String) : Figure :=
  let digits := String.ofList (Text.strip text.toList)
  ⟨digits, Double.ofText digits⟩

/-- The uncertainty of an exact value. -/
def exact : Figure := ⟨"0", Double.zero⟩

/-- The figure of a calculation without a result. -/
def undefined : Figure := ofDouble .nan

end Figure

/-- A value with an uncertainty to both sides. -/
structure Measure where
  value : Figure
  uncertainty : Figure
deriving DecidableEq

namespace Measure

/-- A measure as it is written in an expression. -/
def text (m : Measure) : String := m.value.digits ++ "±" ++ m.uncertainty.digits

/-- The measure of a calculation without a result. -/
def undefined : Measure := ⟨.undefined, .undefined⟩

end Measure

/-- A measure in an expression, with the brackets opened before and closed after it. -/
structure Operand extends Measure where
  openBrackets : Int := 0
  closeBrackets : Int := 0
deriving DecidableEq

namespace Operand

/-- The value without its uncertainty. -/
def nominal (o : Operand) : Double := o.value.magnitude

/-- The uncertainty as a number. -/
def error (o : Operand) : Double := o.uncertainty.magnitude

/-- Whether there is no uncertainty. -/
def isExact (o : Operand) : Bool := o.error.isZero

/-- The value raised by its uncertainty. -/
def high (o : Operand) : Double := o.nominal + o.error

/-- The value lowered by its uncertainty. -/
def low (o : Operand) : Double := o.nominal - o.error

/-- A text with the brackets of the operand around it; a negative count adds none. -/
def bracket (o : Operand) (text : String) : String :=
  String.ofList (List.replicate o.openBrackets.toNat '(') ++ text
    ++ String.ofList (List.replicate o.closeBrackets.toNat ')')

/-- An operand as it is written in an expression. -/
def bracketed (o : Operand) : String := o.bracket o.toMeasure.text

end Operand

end PlusMinus
