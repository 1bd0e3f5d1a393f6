import PlusMinus.Config
import PlusMinus.Decimal.Rounded
import PlusMinus.Expression.Tree
import PlusMinus.Interval.Enclosure

/-! The range of an expression, from the direction in which each operand moves it. -/

namespace PlusMinus

/-- How an expression changes when one operand goes to its bounds and all others stay. -/
structure Direction where
  /-- The number of the operand, counted from one. -/
  index : Nat
  nominal : Double
  uncertainty : Double
  highText : String := ""
  highValue : Double := .nan
  lowText : String := ""
  lowValue : Double := .nan
  /-- Whether the high bound makes the expression larger, if that can be said. -/
  pickHigh : Option Bool := none
deriving DecidableEq

/-- The range of an expression and how it was found. -/
structure Extremes where
  maxText : String
  minText : String
  maxValue : Double
  minValue : Double
  /-- The lower one of the two values, if both are numbers. -/
  min : Double
  /-- The higher one of the two values, if both are numbers. -/
  max : Double
  directions : List Direction
  boundMin : Double
  boundMax : Double
deriving DecidableEq

namespace Extremes

/-- The number halfway between the ends. -/
def midpoint (e : Extremes) : Double := (e.min + e.max).halve

/-- Half the distance between the ends. -/
def halfRange (e : Extremes) : Double := (e.max - e.min).abs.halve

/-- Whether a worst-case range is known. -/
def hasBound (e : Extremes) : Bool := !(e.boundMin.isNaN || e.boundMax.isNaN)

end Extremes

/-- The value of an operand at its high bound, at its low bound, or at neither. -/
def Operand.chosen (o : Operand) : Option Bool → Double
  | some true => o.nominal + o.spread
  | some false => o.nominal - o.spread
  | none => o.nominal

namespace Stream

/-- The expression with a number for each operand, at the bound chosen for its index. -/
def chosenText (digits : Int) (choice : Nat → Option Bool) (stream : Stream) : String :=
  stream.textFrom (fun index o => o.bracket ((o.chosen (choice index)).trimmed digits)) 0

/-- The choice that moves only the operand at an index. -/
def single (index : Nat) (high : Bool) (i : Nat) : Option Bool :=
  if i = index then some high else none

/-- The direction in which the operand at an index moves the expression; one without uncertainty
is not tried. -/
def direction (digits : Int) (stream : Stream) (index : Nat) (o : Operand)
    (limit : Nat := Expression.WalkLimits.values {}) : Direction :=
  if o.spread.isZero then { index := index + 1, nominal := o.nominal, uncertainty := .zero }
  else
    let highText := stream.chosenText digits (single index true)
    let lowText := stream.chosenText digits (single index false)
    let highValue := Expression.evaluate highText limit
    let lowValue := Expression.evaluate lowText limit
    { index := index + 1, nominal := o.nominal, uncertainty := o.spread
      highText, highValue, lowText, lowValue
      pickHigh :=
        if highValue.isNaN || lowValue.isNaN then none else some (lowValue.le highValue) }

/-- The range of an expression: each operand goes to the bound that raises it for the maximum, and
to the other one for the minimum. -/
def extremes (config : Config) (stream : Stream) (limits : Expression.WalkLimits := {}) :
    Extremes :=
  let digits := config.debugDigits
  let operands := stream.operands
  let directions := operands.zipIdx.map fun (o, index) =>
    stream.direction digits index o limits.values
  let picks := directions.map (·.pickHigh)
  -- Operands without a direction stay where they are in both expressions.
  let maxText := stream.chosenText digits fun i => picks[i]?.join
  let minText := stream.chosenText digits fun i => picks[i]?.join.map (!·)
  let maxValue := Expression.evaluate maxText limits.values
  let minValue := Expression.evaluate minText limits.values
  let (min, max) : Double × Double :=
    if maxValue.isNaN || minValue.isNaN then (.nan, .nan)
    else (if maxValue.lt minValue then maxValue else minValue,
      if minValue.lt maxValue then maxValue else minValue)
  let (boundMin, boundMax) : Double × Double :=
    if config.intervalBound && !operands.isEmpty then stream.enclosure limits.intervals
    else (.nan, .nan)
  { maxText, minText, maxValue, minValue, min, max, directions, boundMin, boundMax }

/-- The range of an expression that may hold words, refused when its worst-case range is. -/
def extremes? (config : Config) (stream : Stream) (limits : Expression.WalkLimits := {}) :
    Except Fault Extremes :=
  if config.intervalBound && stream.isConstant limits.intervals then .error .withoutEnds
  else .ok (stream.extremes config limits)

end Stream

end PlusMinus
