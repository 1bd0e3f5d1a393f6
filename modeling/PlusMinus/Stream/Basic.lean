import PlusMinus.Measure.Basic

/-! Streams of operands and operators, and the expressions they are written as. -/

namespace PlusMinus

/-- The four operations. -/
inductive Operator where
  | add
  | sub
  | mul
  | div
deriving DecidableEq

namespace Operator

/-- The sign of an operation in an expression. -/
def symbol : Operator → Char
  | .add => '+'
  | .sub => '-'
  | .mul => '*'
  | .div => '/'

/-- The operation of a sign; the typographic signs stand for multiplication and division. -/
def ofChar? : Char → Option Operator
  | '+' => some .add
  | '-' => some .sub
  | '*' | '×' => some .mul
  | '/' | '÷' => some .div
  | _ => none

/-- The sign of an operation is read as that operation. -/
@[simp] theorem ofChar?_symbol (operator : Operator) : ofChar? operator.symbol = some operator := by
  cases operator <;> rfl

/-- The operation on doubles. -/
def compute : Operator → Double → Double → Double
  | .add, x, y => x + y
  | .sub, x, y => x - y
  | .mul, x, y => x * y
  | .div, x, y => x / y

/-- Multiplication and division, which bind more tightly. -/
def isProduct : Operator → Bool
  | .mul | .div => true
  | .add | .sub => false

end Operator

/-- A part of an expression; a word is anything else that stands between operands. -/
inductive Token where
  | operand (operand : Operand)
  | operator (operator : Operator)
  | word (text : String)
deriving DecidableEq

namespace Token

/-- The operation whose plain sign a text is, or else the text as a word. -/
def ofSymbol : String → Token
  | "+" => .operator .add
  | "-" => .operator .sub
  | "*" => .operator .mul
  | "/" => .operator .div
  | text => .word text

/-- The operand that a token is, if it is one. -/
def operand? : Token → Option Operand
  | .operand o => some o
  | _ => none

/-- Whether a token is an operand. -/
def isOperand (token : Token) : Bool := token.operand?.isSome

/-- The text of a token, with a given text for each operand. -/
def textWith (operandText : Operand → String) : Token → String
  | .operand o => operandText o
  | .operator op => String.singleton op.symbol
  | .word text => text

end Token

/-- The parts of an expression in reading order. -/
abbrev Stream := List Token

namespace Stream

/-- The operands of a stream. -/
def operands (stream : Stream) : List Operand := stream.filterMap Token.operand?

/-- The text of a stream whose operands are counted from an index on, with a text for each. -/
def textFrom (operandText : Nat → Operand → String) (index : Nat) : Stream → String
  | [] => ""
  | token :: rest =>
    token.textWith (operandText index)
      ++ textFrom operandText (if token.isOperand then index + 1 else index) rest

/-- The expression that a stream is written as. -/
def render (stream : Stream) : String := stream.textFrom (fun _ o => o.bracketed) 0

end Stream

end PlusMinus
