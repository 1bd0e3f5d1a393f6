import PlusMinus.Display
import PlusMinus.Precision
import PlusMinus.Propagation.Solve

/-! The account of a calculation, step by step. -/

namespace PlusMinus

/-- A titled step of an explanation. -/
structure Block where
  title : String
  lines : List String := []
deriving DecidableEq

namespace Step

/-- The block that a step of a solution is shown as; the expression itself is shown before. -/
def block? : Step → Option Block
  | .expression _ false => none
  | .expression text true => some ⟨"Expression after brackets", [text]⟩
  | .bracket inside => some ⟨"Solving inside brackets", [s!"({inside})"]⟩
  | .note message => some ⟨"Error", [message]⟩
  | .operation done => some ⟨done.operator.title, done.lines⟩

end Step

namespace Explanation

/-- The account of a propagated uncertainty. -/
def ofPropagation (config : Config) (expression : String) (trace : List Step) (result : Measure)
    (final : Rounded) (precision : Precision) (reason : String) : List Block :=
  let trim (f : Figure) : String := f.magnitude.trimmed config.debugDigits
  ⟨"Expression", [expression]⟩ :: trace.filterMap Step.block? ++
    [⟨"Rounding",
      [s!"Rounding rule: {reason} Chosen precision: {precision.precision} ({precision.label}).",
       s!"Before rounding: {trim result.value} ± {trim result.uncertainty}",
       s!"After rounding: {final.text}"]⟩,
     ⟨"Final Result", [final.text]⟩]

/-- What a direction says about its operand. -/
def directionLines (digits : Int) (d : Direction) : List String :=
  let trim (x : Double) : String := x.trimmed digits
  let high := s!"HIGH = {trim (d.nominal + d.uncertainty)}"
  let low := s!"LOW = {trim (d.nominal - d.uncertainty)}"
  let impact (text : String) : String := s!"Impact on expression: {text}"
  [s!"Value {d.index} = {trim d.nominal}", s!"Uncertainty = {trim d.uncertainty}"] ++
    match d.pickHigh with
    | none =>
      if d.uncertainty.isZero then ["Exact value: nominal used in both cases"]
      else [high, low, impact "undefined, nominal used in both cases"]
    | some true => [high, impact "makes it larger", low, impact "makes it smaller"]
    | some false => [high, impact "makes it smaller", low, impact "makes it larger"]

/-- The account of a range. -/
def ofRange (config : Config) (expression : String) (e : Extremes) (rounding : RoundedRange)
    (reason : String) : List Block :=
  let trim (x : Double) : String := x.trimmed config.debugDigits
  let bound := if e.hasBound then
      [s!"Interval-arithmetic bound (worst case): {trim e.boundMin} to {trim e.boundMax}"]
    else []
  let mid := trim rounding.midpoint
  [⟨"Expression", [expression]⟩,
   ⟨"Find Input Ranges of Values and their impact in expression",
    [""].intercalate (e.directions.map (directionLines config.debugDigits))⟩,
   ⟨"Min-Max Expressions",
    [s!"Minimum-case expression: {e.minText}",
     s!"Maximum-case expression: {e.maxText}",
     s!"Minimum-case value: {trim e.minValue}",
     s!"Maximum-case value: {trim e.maxValue}"] ++ bound⟩,
   ⟨"Rounding",
    [reason,
     s!"Range before rounding: {trim e.min} to {trim e.max}",
     s!"Range after rounding: {rounding.min.value} to {rounding.max.value}"]⟩,
   ⟨"Uncertainty",
    [s!"Middle of range: ({trim e.min}+{trim e.max})/2 = {mid}",
     s!"Uncertainty: {mid} - {trim e.min} = {trim (rounding.midpoint - e.min).abs}",
     s!"Rounded: {rounding.mid.text}"]⟩]

/-- One block with its number; lines are indented unless they are empty. -/
def blockLines (number : Nat) (block : Block) : List String :=
  s!"Step {number}: {block.title}" :: block.lines.map fun line =>
    if line = "" then "" else "   " ++ line

/-- The lines of an explanation, with an empty one between blocks. -/
def lines (blocks : List Block) : List String :=
  [""].intercalate (blocks.zipIdx.map fun (block, index) => blockLines (index + 1) block)

/-- An explanation as one text. -/
def text (blocks : List Block) : String := "\n".intercalate (lines blocks)

/-- The text of given blocks, if blocks are all that is given. -/
def ofGiven (given : Option (List (Option Block))) : Except Fault String :=
  match given.bind fun blocks => blocks.mapM id with
  | some blocks => .ok (text blocks)
  | none => .error .notExplainable

end Explanation

end PlusMinus
