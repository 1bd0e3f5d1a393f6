import PlusMinus.Checked.Measure
import PlusMinus.Precision
import PlusMinus.Propagation.Solve

/-! Propagation with the refusals of each of its operations. -/

namespace PlusMinus

/-- The operation on two measures, as long as the precision of both is known. -/
def Operator.checkedApply (operator : Operator) (left right : Measure) :
    Except Fault Operation := do
  -- Products go by significant figures and sums by decimal places, so each asks for its own.
  if operator.isProduct then
    let first ← left.checkedFigures
    let second ← right.checkedFigures
    pure { operator.applyProduct left right with significantFigures := some (min first second) }
  else
    let _ ← left.checkedPlace
    let _ ← right.checkedPlace
    pure (operator.applySum left right)

namespace Stream

/-- Folds a stream, as long as every operation on the way goes through. -/
def checkedFold (stream : Stream) : Except Fault Folding := do
  -- An operation is refused before what is left of the stream is looked at.
  stream.fold.steps.forM fun step => do
    let _ ← step.operator.checkedApply step.left step.right
  stream.fold?

end Stream

namespace Step

/-- Goes through the fold of the bracket that a step of a solution resolves. -/
def checkBracket : Step → Except Fault Unit
  | .bracket inside => (Stream.scan inside).checkedFold.map fun _ => ()
  | _ => .ok ()

end Step

/-- Solves an expression, as long as every level of it can be folded. -/
def checkedSolve (config : Config) (expression : String) : Except Fault Solution := do
  let resolution := Resolution.ofExpression config.maxBracketIterations.toNat expression
  -- Each bracket is folded from its own text, and what is left at the end is folded last.
  resolution.steps.forM Step.checkBracket
  let _ ← (Stream.scan resolution.expression).checkedFold
  pure (solve config expression)

/-- Whether a whole number has few enough digits to be written. -/
def Numeral.Writable (n : Int) : Prop := digitCount n.natAbs ≤ digitLimit

instance (n : Int) : Decidable (Numeral.Writable n) := inferInstanceAs (Decidable (_ ≤ _))

/-- Goes through a whole number that a text is made with, which is refused with too many digits. -/
def checkWritable (n : Int) : Except Fault Unit :=
  if Numeral.Writable n then .ok () else .error .unwritable

/-- A decimal place in words. -/
def checkedPlaceLabel (places : Int) : Except Fault String := do
  -- The places with a name are all numbers of one digit.
  checkWritable places
  pure (placeLabel places)

namespace Override

/-- Rounding to a number of significant figures, of which there has to be one. -/
def checkedFigures (n : Int) : Except Fault Override := do
  let rule ← figures? n
  checkWritable n
  pure rule

/-- Rounding to a number of decimal places. -/
def checkedPlaces (n : Int) : Except Fault Override := do
  checkWritable n
  pure (places n)

/-- The rule that the settings ask for, if any. -/
def checkedConfig (config : Config) : Except Fault Override :=
  match config.roundingMode, config.roundingDigits with
  | .significant, some n => checkedFigures (max 1 n)
  | .places, some n => checkedPlaces n
  | _, _ => .ok {}

end Override

namespace Propagated

/-- The rule that the operations suggest, as long as the precision of every operand is known and the
rule can be put into words. -/
def checkedSuggestion (used : Propagated) (operands : List Operand) : Except Fault Precision := do
  -- Both precisions of every operand are asked for, whichever of them the rule goes by.
  let figures ← operands.mapM fun o => o.checkedFigures
  let places ← operands.mapM fun o => o.checkedPlace
  if used.usedProduct then
    pure (.figures (used.significantFigures.getD (leastOr 1 figures)))
  else if used.usedSum then
    let place := used.decimalPlace.getD (leastOr 0 places)
    pure ⟨true, place, ← checkedPlaceLabel place⟩
  else
    pure (.figures (leastOr 1 figures))

/-- The rule for a result, unless it is refused on the way. -/
def checkedPrecision (used : Propagated) (config : Config) (given : Option Override)
    (operands : List Operand) : Except Fault Precision := do
  -- What the operations suggest is put into words even where another rule is forced.
  let suggested ← used.checkedSuggestion operands
  let forced ← given.elim (Override.checkedConfig config) pure
  pure (if forced.active then forced.rule else suggested)

end Propagated

end PlusMinus
