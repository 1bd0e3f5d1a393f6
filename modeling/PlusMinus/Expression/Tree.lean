import PlusMinus.Expression.Lexeme

/-! Expressions as trees: products before sums, signs before products, and the left one first; and
their values in doubles. -/

namespace PlusMinus

/-- An arithmetic expression. -/
inductive Expression where
  | number (x : Double)
  | name (text : String)
  | positive (operand : Expression)
  | negative (operand : Expression)
  | binary (operator : Operator) (left right : Expression)
deriving DecidableEq

namespace Expression

/-- What is read of a bracket so far, or of the whole text, and not yet joined to its term. -/
structure Level where
  /-- What stands before the last sum sign. -/
  sum : Option (Expression × Operator) := none
  /-- What stands before the last product sign. -/
  product : Option (Expression × Operator) := none
  /-- The signs before the next operand, newest first. -/
  signs : List Operator := []
deriving DecidableEq

namespace Level

/-- Joins a tree to what stands before an operator. -/
def join (before : Option (Expression × Operator)) (tree : Expression) : Expression :=
  match before with
  | some (left, operator) => .binary operator left tree
  | none => tree

/-- An operand with one sign before it. -/
def signed (operand : Expression) (sign : Operator) : Expression :=
  if sign = .sub then .negative operand else .positive operand

/-- The term that an operand completes. -/
def term (level : Level) (operand : Expression) : Expression :=
  join level.product (level.signs.foldl signed operand)

/-- The sum that a term completes. -/
def close (level : Level) (term : Expression) : Expression := join level.sum term

end Level

/-- A reader of lexemes: the levels of the open brackets, the current level, and the term at its
end unless an operand is expected. -/
structure Reader where
  outer : List Level := []
  level : Level := {}
  term : Option Expression := none
deriving DecidableEq

namespace Reader

/-- Reads an operand. -/
def operand (reader : Reader) (tree : Expression) : Option Reader :=
  match reader.term with
  | none => some { reader with term := some (reader.level.term tree) }
  | some _ => none

/-- Reads one lexeme, if it can stand where it does. -/
def read (reader : Reader) : Lexeme → Option Reader
  | .number x => reader.operand (.number x)
  | .name text => reader.operand (.name text)
  | .operator operator => match reader.term with
    | none =>
      if operator.isProduct then none
      else some { reader with level.signs := operator :: reader.level.signs }
    | some term =>
      if operator.isProduct then
        some { reader with level.product := some (term, operator), level.signs := [], term := none }
      else
        some { reader with
          level := { sum := some (reader.level.close term, operator) }, term := none }
  | .opening => match reader.term with
    | none => some { outer := reader.level :: reader.outer }
    | some _ => none
  | .closing => match reader.term, reader.outer with
    | some term, parent :: outer =>
      some { outer, level := parent, term := some (parent.term (reader.level.close term)) }
    | _, _ => none

/-- The expression that has been read, once no bracket is open. -/
def finish (reader : Reader) : Option Expression :=
  match reader.term, reader.outer with
  | some term, [] => some (reader.level.close term)
  | _, _ => none

end Reader

/-- The expression of a sequence of lexemes. -/
def ofLexemes? (lexemes : List Lexeme) : Option Expression :=
  (lexemes.foldlM Reader.read {}).bind Reader.finish

/-- The expression of a text. -/
def ofText? (text : List Char) : Option Expression :=
  (Lexeme.ofText? text).bind ofLexemes?

/-- The value of an expression, unless it mentions a name. -/
def value? : Expression → Option Double
  | .number x => some x
  | .name _ => none
  | .positive operand => operand.value?
  | .negative operand => operand.value?.map (-·)
  | .binary operator left right => do
    let x ← left.value?
    let y ← right.value?
    pure (operator.compute x y)

/-- How many calls are nested where an expression is walked: the parts of an expression are each one
call deeper than the whole. -/
def depth : Expression → Nat
  | .number _ | .name _ => 1
  | .positive operand | .negative operand => operand.depth + 1
  | .binary _ left right => max left.depth right.depth + 1

/-- What walking an expression leads to; one that is deeper than the calls that may still be nested
leads to nothing. -/
def walk? {α : Type} (tree : Expression) (limit : Nat) (visit : Expression → Option α) : Option α :=
  if tree.depth ≤ limit then visit tree else none

/-- How deep expressions are walked. A thousand calls may be nested in all: some of them are open
before the walk, and an operation on intervals takes more of its own than one on doubles. -/
structure WalkLimits where
  values : Nat := 980
  intervals : Nat := 970

/-- A text with the plain signs for the typographic ones. -/
def plainSigns (text : List Char) : List Char :=
  text.map fun c => if c = '×' then '*' else if c = '÷' then '/' else c

/-- The expression that is written as a text, with either signs and with blanks around it. -/
def ofWritten? (text : String) : Option Expression :=
  ofText? (Text.strip (plainSigns text.toList))

/-- The value of a text; what is no expression has no value, and neither has one that is too
deep. -/
def evaluate (text : String) (limit : Nat := WalkLimits.values {}) : Double :=
  ((ofWritten? text).bind (·.walk? limit value?)).getD .nan

end Expression

end PlusMinus
