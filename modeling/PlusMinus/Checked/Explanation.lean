import PlusMinus.Checked.Decimal
import PlusMinus.Checked.Propagation
import PlusMinus.Explanation

/-! The range of an expression and the accounts of calculations, with the refusals of the numbers
that are written in them. -/

namespace PlusMinus

/-- Goes through the numbers of a text that are trimmed to the digits for running text. -/
def checkTrimmed (digits : Int) (numbers : List Double) : Except Fault Unit :=
  numbers.forM fun x => (x.checkedTrimmed digits).map fun _ => ()

namespace Stream

/-- The range of an expression, as long as every operand can be written at each of its bounds. -/
def checkedExtremes (config : Config) (stream : Stream) : Except Fault Extremes := do
  -- An operand is described by its value and by both of its bounds.
  stream.operands.forM fun o =>
    checkTrimmed config.debugDigits [o.chosen none, o.chosen (some true), o.chosen (some false)]
  stream.extremes? config

end Stream

namespace Step

/-- Goes through the relative uncertainties that a step of a solution is explained with. -/
def checkLines : Step → Except Fault Unit
  | .operation done => match done.relative with
    | some (r, s) => [r, s, r + s].forM fun x => (x.checkedFixed 4).map fun _ => ()
    | none => .ok ()
  | _ => .ok ()

end Step

namespace Explanation

/-- The account of a propagated uncertainty. -/
def checkedPropagation (config : Config) (expression : String) (trace : List Step)
    (result : Measure) (final : Rounded) (precision : Precision) (reason : String) :
    Except Fault (List Block) := do
  trace.forM Step.checkLines
  checkWritable precision.precision
  checkTrimmed config.debugDigits [result.value.magnitude, result.uncertainty.magnitude]
  pure (ofPropagation config expression trace result final precision reason)

/-- The account of a range. -/
def checkedRange (config : Config) (expression : String) (e : Extremes) (rounding : RoundedRange)
    (reason : String) : Except Fault (List Block) := do
  e.directions.forM fun d => checkTrimmed config.debugDigits
    [d.nominal, d.uncertainty, d.nominal + d.uncertainty, d.nominal - d.uncertainty]
  checkTrimmed config.debugDigits [e.minValue, e.maxValue, e.boundMin, e.boundMax, e.min, e.max,
    rounding.midpoint, (rounding.midpoint - e.min).abs]
  pure (ofRange config expression e rounding reason)

end Explanation

end PlusMinus
