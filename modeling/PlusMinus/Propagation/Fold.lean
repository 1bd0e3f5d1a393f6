import PlusMinus.Propagation.Operation

/-! Folding a stream without brackets: products and quotients first, then sums and differences. -/

namespace PlusMinus

/-- A measure with the operations that led to it, as far as rounding asks for them. -/
structure Propagated where
  measure : Measure
  usedProduct : Bool := false
  usedSum : Bool := false
  /-- The significant figures of the last product or quotient. -/
  significantFigures : Option Int := none
  /-- The decimal place of the last sum or difference. -/
  decimalPlace : Option Int := none
  operations : Nat := 0
deriving DecidableEq

namespace Stream

/-- Replaces every product or quotient of neighbouring operands by its outcome, from the left. -/
def foldProducts : Stream → List Operation × Stream
  | .operand left :: .operator operator :: .operand right :: rest =>
    if operator.isProduct then
      let step := operator.apply left.toMeasure right.toMeasure
      let (steps, tokens) := foldProducts (.operand { toMeasure := step.outcome } :: rest)
      (step :: steps, tokens)
    else
      let (steps, tokens) := foldProducts (.operand right :: rest)
      (steps, .operand left :: .operator operator :: tokens)
  | token :: rest =>
    let (steps, tokens) := foldProducts rest
    (steps, token :: tokens)
  | [] => ([], [])
termination_by stream => stream.length

/-- Replaces the sum or difference at the front by its outcome, as long as there is one. -/
def foldSums : Stream → List Operation × Stream
  | .operand left :: .operator operator :: .operand right :: rest =>
    if operator.isProduct then ([], .operand left :: .operator operator :: .operand right :: rest)
    else
      let step := operator.apply left.toMeasure right.toMeasure
      let (steps, tokens) := foldSums (.operand { toMeasure := step.outcome } :: rest)
      (step :: steps, tokens)
  | tokens => ([], tokens)
termination_by stream => stream.length

end Stream

/-- What folding a stream did, and what it left. -/
structure Folding where
  products : List Operation
  sums : List Operation
  remaining : Stream

namespace Folding

/-- The operations in the order in which they were done. -/
def steps (folding : Folding) : List Operation := folding.products ++ folding.sums

/-- The symbol between two operands that no operation belongs to, if folding ended at one. -/
def rejected? (folding : Folding) : Option String :=
  match folding.remaining with
  | .operand _ :: .operand _ :: _ => none
  | .operand _ :: token :: .operand _ :: _ => some (token.textWith Operand.bracketed)
  | _ => none

/-- The measure at the front of what is left; without one there is no result. -/
def result (folding : Folding) : Propagated :=
  match folding.remaining with
  | .operand operand :: _ =>
    { measure := operand.toMeasure
      usedProduct := !folding.products.isEmpty
      usedSum := !folding.sums.isEmpty
      significantFigures := folding.products.getLast?.bind (·.significantFigures)
      decimalPlace := folding.sums.getLast?.bind (·.decimalPlace)
      operations := folding.steps.length }
  | _ => { measure := .undefined, operations := folding.steps.length }

end Folding

namespace Stream

/-- Folds a stream as if it had no brackets. -/
def fold (stream : Stream) : Folding :=
  let (products, terms) := foldProducts stream
  let (sums, remaining) := foldSums terms
  { products, sums, remaining }

/-- Folds a stream that may hold words, and refuses it when folding ends at one. -/
def fold? (stream : Stream) : Except Fault Folding :=
  match stream.fold.rejected? with
  | some symbol => .error (.unknownOperator symbol)
  | none => .ok stream.fold

end Stream

end PlusMinus
