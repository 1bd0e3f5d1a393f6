import PlusMinus.Expression.Tree
import PlusMinus.Fault
import PlusMinus.Interval.Basic

/-! The interval that an expression stays in while its operands vary within their uncertainties. -/

namespace PlusMinus

/-- The value of a part of an expression: one number, or an interval as soon as an operand takes
part in it. -/
inductive Enclosure where
  | number (x : Double)
  | range (interval : Interval)
deriving DecidableEq

namespace Enclosure

/-- The interval of a value; a value that is not a number may be anywhere. -/
def toInterval : Enclosure → Interval
  | .number .nan => .whole
  | .number x => ⟨.ofDouble x, .ofDouble x⟩
  | .range interval => interval

/-- The opposite value. -/
def neg : Enclosure → Enclosure
  | .number x => .number (-x)
  | .range interval => .range interval.neg

/-- The outcome of an operation; two numbers have none by division by zero. -/
def combine (operator : Operator) (left right : Enclosure) : Option Enclosure :=
  match left, right with
  | .number x, .number y =>
    if operator = .div ∧ y.isZero then none else some (.number (operator.compute x y))
  | left, right =>
    let s := left.toInterval
    let t := right.toInterval
    some <| .range <| match operator with
      | .add => s.add t
      | .sub => s.sub t
      | .mul => s.mul t
      | .div => s.div t

end Enclosure

/-- The value of an expression when its names stand for intervals. -/
def Expression.enclose? (intervals : String → Option Interval) : Expression → Option Enclosure
  | .number x => some (.number x)
  | .name text => (intervals text).map .range
  | .positive operand => operand.enclose? intervals
  | .negative operand => (operand.enclose? intervals).map Enclosure.neg
  | .binary operator left right => do
    let x ← left.enclose? intervals
    let y ← right.enclose? intervals
    x.combine operator y

namespace Operand

/-- The uncertainty that is varied; one that is not a number is not. -/
def spread (o : Operand) : Double := if o.error.isNaN then .zero else o.error

/-- The interval of an operand; without both ends there is none. -/
def interval? (o : Operand) : Option Interval :=
  let low := o.nominal - o.spread
  let high := o.nominal + o.spread
  if low.isNaN || high.isNaN then none else some (.between low high)

end Operand

namespace Stream

/-- The name of the operand at an index. -/
def operandName (index : Nat) : String := "x" ++ toString index

/-- The expression of a stream with a name for each operand. -/
def namedText (stream : Stream) : String :=
  stream.textFrom (fun index o => o.bracket (operandName index)) 0

/-- How deep an expression is walked in intervals unless something else is asked for. -/
def enclosureLimit : Nat := Expression.WalkLimits.intervals {}

/-- The value of an expression whose operands vary, when it is read with names for them and is not
too deep. -/
def variedValue? (stream : Stream) (limit : Nat := enclosureLimit) : Option Enclosure := do
  let intervals ← stream.operands.mapM Operand.interval?
  let names := intervals.zipIdx.map fun (interval, index) => (operandName index, interval)
  let tree ← Expression.ofText? stream.namedText.toList
  tree.walk? limit (·.enclose? fun name => names.lookup name)

/-- The interval of an expression before its ends become doubles. -/
def enclose? (stream : Stream) (limit : Nat := enclosureLimit) : Option Interval :=
  match stream.variedValue? limit with
  | some (.range interval) => some interval
  | _ => none

/-- The worst-case range of an expression; without one both ends are no numbers. -/
def enclosure (stream : Stream) (limit : Nat := enclosureLimit) : Double × Double :=
  match stream.enclose? limit with
  | some interval => (interval.low.toDouble, interval.high.toDouble)
  | none => (.nan, .nan)

/-- Whether words have swallowed every operand, as part of a number or of a comment, so that what is
left is a plain number. -/
def isConstant (stream : Stream) (limit : Nat := enclosureLimit) : Bool :=
  match stream.variedValue? limit with
  | some (.number _) => !stream.operands.isEmpty
  | _ => false

/-- The worst-case range of an expression that may hold words; a plain number has no ends and is
refused. -/
def enclosure? (stream : Stream) (limit : Nat := enclosureLimit) : Except Fault (Double × Double) :=
  if stream.isConstant limit then .error .withoutEnds else .ok (stream.enclosure limit)

end Stream

end PlusMinus
