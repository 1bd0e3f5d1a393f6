import PlusMinus.Measure.Entered
import PlusMinus.Stream.Basic

/-! Reading the rows of a form as a stream. -/

namespace PlusMinus

/-- The fields of a row that gives a value. -/
structure ValueRow where
  value : Entry := .text ""
  uncertainty : Entry := .missing
  openBrackets : Entry := .integer 0
  closeBrackets : Entry := .integer 0

/-- A row of a form. -/
inductive Row where
  | operator (text : String)
  | fields (row : ValueRow)
  /-- The fields of a value row in the order opening, value, uncertainty, closing. -/
  | cells (cells : List Entry)
  | operand (operand : Operand)
  | unsupported (entry : Entry)

namespace ValueRow

/-- The operand that a value row describes. -/
def toOperand (row : ValueRow) : Except Fault Operand := do
  let openBrackets ← row.openBrackets.toInt
  let closeBrackets ← row.closeBrackets.toInt
  Operand.ofEntries row.value row.uncertainty openBrackets closeBrackets

end ValueRow

namespace Row

/-- The operator that the text of a row names. -/
def operator? (text : String) : Option Operator :=
  match Text.strip text.toList with
  | [c] => Operator.ofChar? c
  | _ => none

/-- The token of a row, given whether an operand stands before it. -/
def toToken (row : Row) (afterOperand : Bool) : Except Fault Token := do
  let value (read : Except Fault Operand) : Except Fault Token := do
    let operand ← read
    if afterOperand then throw .missingOperator
    pure (.operand operand)
  match row with
  | .operator written => match operator? written with
    | none => throw (.unknownRowOperator written)
    | some op =>
      if afterOperand then pure (.operator op) else throw (.leadingOperator written)
  | .fields row => value row.toOperand
  | .cells [openBrackets, v, uncertainty, closeBrackets] =>
    value (ValueRow.toOperand { value := v, uncertainty, openBrackets, closeBrackets })
  | .cells _ => throw .rowLength
  | .operand o => value (pure o)
  | .unsupported entry => throw (.unsupportedRow entry)

end Row

namespace Stream

/-- Reads rows behind the token read last. -/
def ofRowsAfter (last : Option Token) : List Row → Except Fault Stream
  | [] => if last.any (!·.isOperand) then .error .trailingOperator else .ok []
  | row :: rows => do
    let token ← row.toToken (last.any (·.isOperand))
    let tokens ← ofRowsAfter (some token) rows
    pure (token :: tokens)

/-- The stream of the rows of a form, in which operands and operators have to alternate. -/
def ofRows (rows : List Row) : Except Fault Stream := ofRowsAfter none rows

end Stream

end PlusMinus
