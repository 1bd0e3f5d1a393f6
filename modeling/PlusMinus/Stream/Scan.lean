import PlusMinus.Numeral.Literal
import PlusMinus.Stream.Basic

/-! Reading free text as a stream, with everything that is no part of an expression skipped. -/

namespace PlusMinus

/-- The operand of a literal behind a number of open brackets. -/
def Literal.toOperand (literal : Literal) (openBrackets : Nat) : Operand where
  value := .ofText (String.ofList literal.value)
  uncertainty := match literal.bound with
    | some bound => .ofText (String.ofList bound)
    | none => .exact
  openBrackets := openBrackets

namespace Stream

/-- Whether the newest token of a reversed stream is an operand. -/
def endsInOperand : List Token → Bool
  | token :: _ => token.isOperand
  | [] => false

/-- The effect of a character that starts no literal: an operator or a closing bracket counts only
behind an operand, an opening bracket waits for the next one. -/
def scanSymbol (tokens : List Token) (pending : Nat) (c : Char) : List Token × Nat :=
  match tokens with
  | .operand operand :: older =>
    match Operator.ofChar? c with
    | some operator => (.operator operator :: tokens, pending)
    | none =>
      if c = '(' then (tokens, pending + 1)
      else if c = ')' then
        (.operand { operand with closeBrackets := operand.closeBrackets + 1 } :: older, pending)
      else (tokens, pending)
  | _ => (tokens, if c = '(' then pending + 1 else pending)

/-- The literal at the front of a text, read behind a reversed stream: behind an operand a sign is
an operator and never part of a literal. -/
def literalAt? (tokens : List Token) (text : List Char) : Option Literal :=
  if endsInOperand tokens && text.head?.any (fun c => c = '+' || c = '-') then none
  else Literal.ofText? text

/-- A literal takes at least one character, whatever stands before it. -/
theorem literalAt?_rest_length {tokens : List Token} {text : List Char} {literal : Literal}
    (found : literalAt? tokens text = some literal) : literal.rest.length < text.length := by
  unfold literalAt? at found
  split at found
  · cases found
  · exact Literal.ofText?_rest_length found

/-- Scans a text onto a reversed stream; `pending` counts the brackets opened since the last
literal, and a literal right behind an operand is dropped together with them. -/
def scanFrom (tokens : List Token) (pending : Nat) (text : List Char) : List Token :=
  match text with
  | [] => tokens
  | c :: rest =>
    match found : literalAt? tokens (c :: rest) with
    | some literal =>
      -- Behind an operand there is nothing for another literal to be part of.
      have := literalAt?_rest_length found
      if endsInOperand tokens then scanFrom tokens 0 literal.rest
      else scanFrom (.operand (literal.toOperand pending) :: tokens) 0 literal.rest
    | none =>
      let (tokens, pending) := scanSymbol tokens pending c
      scanFrom tokens pending rest
termination_by text.length
decreasing_by
  · exact this
  · exact this
  · exact Nat.lt_succ_self _

/-- A reversed stream without an operator at its end. -/
def dropOperator : List Token → List Token
  | .operator _ :: older => older
  | tokens => tokens

/-- The stream that a text is read as. -/
def scan (text : String) : Stream := (dropOperator (scanFrom [] 0 text.toList)).reverse

end Stream

end PlusMinus
