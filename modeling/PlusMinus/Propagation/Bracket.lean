/-! The innermost bracket of an expression: the first one that is nested most deeply. -/

namespace PlusMinus

/-- A bracket by the positions of its signs; one that is never closed stops where it starts. -/
structure Bracket where
  start : Nat
  stop : Nat
  depth : Nat
deriving DecidableEq

namespace Bracket

/-- The search from a position on, with the current depth, which stray closing signs may push below
zero, and the first of the deepest brackets so far. -/
def search (position : Nat) (depth : Int) (start deepest : Nat) : List Char → Option Bracket
  | [] => if deepest = 0 then none else some ⟨start, start, deepest⟩
  | '(' :: rest =>
    -- Only a deeper bracket takes the place of the one found so far.
    if (deepest : Int) < depth + 1 then
      search (position + 1) (depth + 1) position (deepest + 1) rest
    else search (position + 1) (depth + 1) start deepest rest
  | ')' :: rest =>
    if depth = deepest ∧ 0 < deepest then some ⟨start, position, deepest⟩
    else search (position + 1) (depth - 1) start deepest rest
  | _ :: rest => search (position + 1) depth start deepest rest

/-- The innermost bracket of an expression, if it opens any. -/
def innermost? (expression : String) : Option Bracket := search 0 0 0 0 expression.toList

/-- The text inside a bracket; one that is never closed has none. -/
def inside (bracket : Bracket) (expression : String) : String :=
  String.ofList ((expression.toList.take bracket.stop).drop (bracket.start + 1))

/-- An expression with a text in the place of a bracket and what it holds. -/
def replace (bracket : Bracket) (expression text : String) : String :=
  String.ofList (expression.toList.take bracket.start) ++ text
    ++ String.ofList (expression.toList.drop (bracket.stop + 1))

end Bracket

end PlusMinus
