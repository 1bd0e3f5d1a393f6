import PlusMinus.Config
import PlusMinus.Propagation.Bracket
import PlusMinus.Propagation.Fold
import PlusMinus.Stream.Scan

/-! Solving an expression with brackets, from the innermost one outwards. -/

namespace PlusMinus

/-- One step in the account of a solution. -/
inductive Step where
  | expression (text : String) (afterBrackets : Bool)
  | bracket (inside : String)
  | note (message : String)
  | operation (operation : Operation)
deriving DecidableEq

/-- What the user is told beside the result. -/
inductive Warning where
  | bracketsLeft (limit : Nat) (remaining : String)
  | undefinedResult (expression : String)
deriving DecidableEq

/-- The wording of a warning. -/
def Warning.message : Warning → String
  | .bracketsLeft limit remaining =>
    s!"Bracket resolution stopped after {limit} iterations; remaining: {remaining}"
  | .undefinedResult expression => s!"Calculation of '{expression}' produced NaN."

/-- A solved expression: its result, the steps that led to it, and the warnings. -/
structure Solution where
  result : Propagated
  trace : List Step
  warnings : List Warning := []

/-- An expression whose brackets are resolved as far as the limit allows. -/
structure Resolution where
  expression : String
  /-- The result of the bracket resolved last. -/
  last : Option Propagated := none
  steps : List Step := []
  /-- Whether brackets were left. -/
  stopped : Bool := false

namespace Resolution

/-- The note that ends the account when brackets are left. -/
def tooMany : Step := .note "Too many bracket iterations, possible infinite loop"

/-- Resolves up to a number of brackets, each into the measure that its inside folds to. -/
def ofExpression (budget : Nat) (expression : String) : Resolution :=
  match Bracket.innermost? expression, budget with
  | none, _ => { expression }
  | some _, 0 => { expression, steps := [tooMany], stopped := true }
  | some bracket, budget + 1 =>
    -- The measure goes back into the text, and the next search reads it from there.
    let inside := bracket.inside expression
    let folding := (Stream.scan inside).fold
    let next := ofExpression budget (bracket.replace expression folding.result.measure.text)
    { next with
      last := next.last.or (some folding.result)
      steps := .bracket inside :: folding.steps.map .operation ++ next.steps }

end Resolution

/-- Solves an expression; when the outer level is a lone operand, the last bracket decides how the
result is rounded. -/
def solve (config : Config) (expression : String) : Solution :=
  let limit := config.maxBracketIterations.toNat
  let resolution := Resolution.ofExpression limit expression
  let stream := Stream.scan resolution.expression
  let folding := stream.fold
  let outer := folding.result
  -- A lone operand outside has no operations of its own to round by.
  let result := match resolution.last with
    | some inner =>
      if stream.length = 1 ∧ outer.operations = 0 then
        { inner with measure := outer.measure, operations := 0 }
      else outer
    | none => outer
  let resolved : List Step :=
    if resolution.last.isSome then [.expression resolution.expression true] else []
  { result
    trace := .expression expression false :: resolution.steps ++ resolved
      ++ folding.steps.map .operation
    warnings :=
      if resolution.stopped then [.bracketsLeft limit resolution.expression] else [] }

/-- The expression to solve: the given one, or that of a stream when none is given. -/
def chosenExpression (given : Option String) (stream : Stream) : String :=
  match given with
  | none | some "" => stream.render
  | some expression => expression

end PlusMinus
