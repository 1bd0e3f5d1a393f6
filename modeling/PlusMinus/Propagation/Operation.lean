import PlusMinus.Decimal.Rounded
import PlusMinus.Measure.Entered
import PlusMinus.Stream.Basic

/-! One operation on two measures, with the rule that its uncertainty and its precision follow. -/

namespace PlusMinus

/-- An operation with its operands, its outcome and what it says about precision. -/
structure Operation where
  operator : Operator
  left : Measure
  right : Measure
  outcome : Measure
  /-- The relative uncertainties of the factors of a product or quotient. -/
  relative : Option (Double × Double) := none
  /-- The significant figures of a product or quotient. -/
  significantFigures : Option Int := none
  /-- The decimal place of a sum or difference. -/
  decimalPlace : Option Int := none
deriving DecidableEq

namespace Operator

/-- A product or quotient: relative uncertainties add, and the fewer significant figures count. -/
def applyProduct (operator : Operator) (left right : Measure) : Operation :=
  let total := operator.compute left.value.magnitude right.value.magnitude
  let leftRelative := left.uncertainty.magnitude / left.value.magnitude.abs
  let rightRelative := right.uncertainty.magnitude / right.value.magnitude.abs
  let uncertainty := total.abs * (leftRelative + rightRelative)
  { operator, left, right
    outcome := ⟨.ofDouble total, .ofDouble uncertainty⟩
    relative := some (leftRelative, rightRelative)
    significantFigures := some (min left.significantFigures right.significantFigures) }

/-- The decimal place of a sum: the coarser one, where an exact measure does not count beside an
uncertain one. -/
def sumPlace (left right : Measure) : Int :=
  let u := left.uncertainty.magnitude
  let v := right.uncertainty.magnitude
  if u.isZero ∧ Double.lt .zero v then right.decimalPlace
  else if v.isZero ∧ Double.lt .zero u then left.decimalPlace
  else min left.decimalPlace right.decimalPlace

/-- A sum or difference: absolute uncertainties add. -/
def applySum (operator : Operator) (left right : Measure) : Operation :=
  let total := operator.compute left.value.magnitude right.value.magnitude
  let uncertainty := left.uncertainty.magnitude + right.uncertainty.magnitude
  { operator, left, right
    outcome := ⟨.ofDouble total, .ofDouble uncertainty⟩
    decimalPlace := some (sumPlace left right) }

/-- The operation on two measures. -/
def apply (operator : Operator) (left right : Measure) : Operation :=
  if operator.isProduct then operator.applyProduct left right else operator.applySum left right

/-- The product or quotient that a symbol stands for. -/
def product? : String → Option Operator
  | "*" => some .mul
  | "/" => some .div
  | _ => none

/-- The sum or difference that a symbol stands for. -/
def sum? : String → Option Operator
  | "+" => some .add
  | "-" => some .sub
  | _ => none

/-- The name of an operation. -/
def name : Operator → String
  | .add => "addition"
  | .sub => "subtraction"
  | .mul => "multiplication"
  | .div => "division"

/-- The name of an operation as a title. -/
def title : Operator → String
  | .add => "Addition"
  | .sub => "Subtraction"
  | .mul => "Multiplication"
  | .div => "Division"

/-- The typographic sign of an operation. -/
def sign : Operator → String
  | .add => "+"
  | .sub => "-"
  | .mul => "×"
  | .div => "÷"

end Operator

namespace Measure

/-- A measure as explanations show it. -/
def spaced (m : Measure) : String := m.value.digits ++ " ± " ++ m.uncertainty.digits

end Measure

namespace Operation

/-- The operation in words and figures, line by line. -/
def lines (operation : Operation) : List String :=
  let { operator, left, right, outcome, .. } := operation
  let (v, u) := (left.value.digits, left.uncertainty.digits)
  let (w, t) := (right.value.digits, right.uncertainty.digits)
  let (total, uncertainty) := (outcome.value.digits, outcome.uncertainty.digits)
  let rule : List String := match operation.relative with
    | some (r, s) =>
      let sum := (r + s).fixed 4
      [s!"Relative uncertainty: ({u}/{left.value.magnitude.abs.text}) + "
        ++ s!"({t}/{right.value.magnitude.abs.text}) = {r.fixed 4} + {s.fixed 4} = {sum}",
       s!"Absolute uncertainty: |{total}| × {sum} = {uncertainty}"]
    | none => [s!"Uncertainty: {u} + {t} = {uncertainty}"]
  [s!"{left.spaced} {operator.sign} {right.spaced}",
   s!"Value: {v} {operator.sign} {w} = {total}"]
    ++ rule ++ [s!"Result: {outcome.spaced}"]

/-- The operation of a symbol on entered measures, if the symbol is one of a class of operators. -/
def ofEntries (find : String → Option Operator) (symbol : String) (v u w t : Entry) :
    Except Fault Operation := do
  let left : Measure := ⟨← v.toFigure, ← u.toFigure⟩
  let right : Measure := ⟨← w.toFigure, ← t.toFigure⟩
  match find symbol with
  | some operator => pure (operator.apply left right)
  | none => throw (.unknownOperator symbol)

end Operation

end PlusMinus
