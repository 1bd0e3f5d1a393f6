import PlusMinus.Stream.Basic

/-! Streams in which operands and operators alternate, and their spelling as a sequence of
symbols. -/

namespace PlusMinus

/-- The symbols that each part of an expression is spelled with. -/
structure Spelling (β : Type) where
  opening : List β
  closing : List β
  /-- The symbols of an operand without its brackets, by its index. -/
  operand : Nat → Operand → List β
  sign : Operator → List β

namespace Spelling

/-- The characters of an expression, given the text of each operand. -/
def characters (operandText : Nat → Operand → List Char) : Spelling Char where
  opening := ['(']
  closing := [')']
  operand := operandText
  sign operator := [operator.symbol]

/-- The characters of an expression as results show it. -/
def written : Spelling Char := characters fun _ o => o.toMeasure.text.toList

/-- An operand between the brackets that it opens and closes. -/
def bracketed {β : Type} (s : Spelling β) (index : Nat) (o : Operand) : List β :=
  (List.replicate o.openBrackets.toNat s.opening).flatten ++ s.operand index o
    ++ (List.replicate o.closeBrackets.toNat s.closing).flatten

/-- Spelling an operand in characters puts its brackets around its text. -/
theorem bracketed_characters (text : Nat → Operand → List Char) (index : Nat) (o : Operand) :
    (characters text).bracketed index o
      = List.replicate o.openBrackets.toNat '(' ++ text index o
        ++ List.replicate o.closeBrackets.toNat ')' := by
  simp [bracketed, characters]

/-- The sign of an operator is its symbol. -/
@[simp] theorem sign_characters (text : Nat → Operand → List Char) (operator : Operator) :
    (characters text).sign operator = [operator.symbol] := rfl

end Spelling

namespace Stream

/-- Operands with one operator between every two of them. -/
inductive Alternates : Stream → Prop
  | last (o : Operand) : Alternates [.operand o]
  | more (o : Operand) (operator : Operator) {rest : Stream} (alternates : Alternates rest) :
      Alternates (.operand o :: .operator operator :: rest)

/-- A stream that starts with an operand has it as its first operand. -/
@[simp] theorem operands_operand (o : Operand) (rest : Stream) :
    operands (.operand o :: rest) = o :: operands rest := rfl

/-- An operator is no operand. -/
@[simp] theorem operands_operator (operator : Operator) (rest : Stream) :
    operands (.operator operator :: rest) = operands rest := rfl

/-- A stream of nothing has no operands. -/
@[simp] theorem operands_nil : operands [] = [] := rfl

/-- The symbols of a stream whose operands are counted from an index on. -/
def spell {β : Type} (s : Spelling β) (index : Nat) : Stream → List β
  | [] => []
  | .operand o :: rest => s.bracketed index o ++ spell s (index + 1) rest
  | .operator operator :: rest => s.sign operator ++ spell s index rest
  | .word _ :: rest => spell s index rest

/-- The text of an alternating stream is its spelling in characters. -/
theorem toList_textFrom {stream : Stream} (alternates : stream.Alternates)
    (text : Nat → Operand → String) (index : Nat) :
    (stream.textFrom (fun i o => o.bracket (text i o)) index).toList
      = stream.spell (.characters fun i o => (text i o).toList) index := by
  -- The two recursions take the same steps, one on strings and one on lists.
  induction alternates generalizing index with
  | last o =>
    simp [textFrom, spell, Token.textWith, Operand.bracket, Spelling.bracketed_characters]
  | more o operator _ ih =>
    have operandStep (rest : Stream) :
        (textFrom (fun i o => o.bracket (text i o)) index (.operand o :: rest)).toList
          = (o.bracket (text index o)).toList
            ++ (textFrom (fun i o => o.bracket (text i o)) (index + 1) rest).toList := by
      simp [textFrom, Token.textWith, Token.isOperand, Token.operand?]
    have operatorStep (rest : Stream) :
        (textFrom (fun i o => o.bracket (text i o)) (index + 1) (.operator operator :: rest)).toList
          = operator.symbol
            :: (textFrom (fun i o => o.bracket (text i o)) (index + 1) rest).toList := by
      simp [textFrom, Token.textWith, Token.isOperand, Token.operand?]
    rw [operandStep, operatorStep, ih]
    simp [spell, Operand.bracket, Spelling.bracketed_characters]

/-- The expression of an alternating stream is its written spelling. -/
theorem toList_render {stream : Stream} (alternates : stream.Alternates) :
    stream.render.toList = stream.spell .written 0 :=
  toList_textFrom alternates (fun _ o => o.toMeasure.text) 0

/-- A stream stays alternating when an operator and an operand are added behind it. -/
theorem Alternates.append {stream : Stream} (alternates : stream.Alternates)
    (operator : Operator) (o : Operand) :
    Alternates (stream ++ [.operator operator, .operand o]) := by
  -- The new operator stands behind the last operand.
  induction alternates with
  | last first => exact .more first operator (.last o)
  | more first sign _ ih => exact .more first sign ih

end Stream

end PlusMinus
