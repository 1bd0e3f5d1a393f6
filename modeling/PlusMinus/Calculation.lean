import PlusMinus.Checked.Display
import PlusMinus.Checked.Explanation
import PlusMinus.Checked.Propagation
import PlusMinus.Stream.Rows

/-! A whole calculation: from what was entered to a rounded result and its explanation. -/

namespace PlusMinus

/-- How uncertainties are treated: by the rules of propagation, or by trying out the bounds. -/
inductive Mode where
  | uncertainty
  | actual
deriving DecidableEq

namespace Mode

/-- The name of a mode. -/
def name : Mode → String
  | .uncertainty => "uncertainty"
  | .actual => "actual"

/-- The mode of a name. -/
def ofName? (name : String) : Option Mode := [uncertainty, actual].find? (·.name = name)

/-- The mode that a text names in any case and between blanks. -/
def ofText? (text : String) : Option Mode :=
  ofName? (String.ofList (Text.lower (Text.strip text.toList)))

end Mode

/-- What a calculation starts from. -/
inductive Source where
  | text (text : String)
  | rows (rows : List Row)

namespace Source

/-- The stream of a source. -/
def stream : Source → Except Fault Stream
  | .text written => .ok (Stream.scan written)
  | .rows entered => Stream.ofRows entered

end Source

/-- The rounded result of a calculation in its mode. -/
inductive Outcome where
  | propagated (final : Rounded)
  | ranged (range : RoundedRange)
deriving DecidableEq

namespace Rounded

/-- Whether one of the texts is that of no number. -/
def isUndefined (pair : Rounded) : Bool :=
  pair.value = "NaN" || pair.uncertainty = "NaN"

/-- The low end of a shown result. -/
def low (pair : Rounded) : Double := Double.ofText pair.value - Double.ofText pair.uncertainty

/-- The high end of a shown result. -/
def high (pair : Rounded) : Double := Double.ofText pair.value + Double.ofText pair.uncertainty

end Rounded

namespace Outcome

/-- The pair that is shown: the propagated result, or the middle of the range. -/
def shown : Outcome → Rounded
  | .propagated final => final
  | .ranged range => range.mid

end Outcome

/-- A calculation with everything that it found. -/
structure Calculation where
  mode : Mode
  expression : String
  stream : Stream
  solution : Solution
  extremes : Extremes
  precision : Precision
  reason : String
  outcome : Outcome
  blocks : List Block
  warnings : List Warning

namespace Calculation

/-- The shown result. -/
def text (c : Calculation) : String := c.outcome.shown.text

/-- A calculation from its parts. -/
def ofParts (config : Config) (mode : Mode) (stream : Stream) (solution : Solution)
    (extremes : Extremes) (precision : Precision) (outcome : Outcome) (blocks : List Block) :
    Calculation :=
  let expression := stream.render
  let undefined : List Warning :=
    if config.warnOnNaN && outcome.shown.isUndefined then [.undefinedResult expression] else []
  { mode, expression, stream, solution, extremes, precision
    reason := solution.result.roundingReason
    outcome, blocks
    warnings := solution.warnings ++ undefined }

/-- Calculates with a stream. -/
def ofStream (config : Config) (mode : Mode) (given : Option Override) (stream : Stream) :
    Calculation :=
  let expression := stream.render
  let solution := solve config expression
  let used := solution.result
  let extremes := stream.extremes config
  let precision := used.precision config given stream.operands
  let (outcome, blocks) : Outcome × List Block := match mode with
    | .uncertainty =>
      let final := roundResult used.measure.value.magnitude used.measure.uncertainty
        precision.precision precision.useDecimalPlace
      (.propagated final, Explanation.ofPropagation config expression solution.trace used.measure
        final precision used.roundingReason)
    | .actual =>
      let range :=
        roundRange extremes.min extremes.max precision.precision precision.useDecimalPlace
      (.ranged range, Explanation.ofRange config expression extremes range used.roundingReason)
  ofParts config mode stream solution extremes precision outcome blocks

/-- Calculates with a stream, as long as no part of the calculation is refused. -/
def checked (config : Config) (mode : Mode) (given : Option Override) (stream : Stream) :
    Except Fault Calculation := do
  let expression := stream.render
  -- Both modes are rounded by the rule that the operations of the solution call for.
  let solution ← checkedSolve config expression
  let used := solution.result
  let extremes ← stream.checkedExtremes config
  let precision ← used.checkedPrecision config given stream.operands
  match mode with
  | .uncertainty =>
    let final ← checkedRoundResult used.measure.value.magnitude used.measure.uncertainty
      precision.precision precision.useDecimalPlace
    let blocks ← Explanation.checkedPropagation config expression solution.trace used.measure final
      precision used.roundingReason
    pure (ofParts config mode stream solution extremes precision (.propagated final) blocks)
  | .actual =>
    let range ←
      checkedRoundRange extremes.min extremes.max precision.precision precision.useDecimalPlace
    let blocks ← Explanation.checkedRange config expression extremes range used.roundingReason
    pure (ofParts config mode stream solution extremes precision (.ranged range) blocks)

end Calculation

/-- Calculates with what was entered; the mode is named by a text. -/
def calculate (config : Config) (source : Source) (mode : Option String)
    (given : Option Override) : Except Fault Calculation := do
  match Mode.ofText? (mode.getD "") with
  | none => throw (.unknownMode mode)
  | some mode => Calculation.checked config mode given (← source.stream)

end PlusMinus
