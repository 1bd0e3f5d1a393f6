import PlusMinus.Expression.Tree

/-! Walking an expression: up to the limit on its depth nothing is lost, and beyond it there is no
value. -/

namespace PlusMinus.Expression

/-- Every expression takes a call. -/
theorem depth_pos (tree : Expression) : 0 < tree.depth := by
  cases tree <;> exact Nat.succ_pos _

section Walk

variable {α : Type} {tree : Expression} {limit : Nat} {visit : Expression → Option α}

/-- An expression that is not too deep is walked to its end. -/
theorem walk?_of_le (inside : tree.depth ≤ limit) :
    tree.walk? limit visit = visit tree := if_pos inside

/-- An expression that is too deep leads to nothing. -/
theorem walk?_of_lt (deep : limit < tree.depth) : tree.walk? limit visit = none :=
  if_neg (Nat.not_le.2 deep)

/-- What a walk leads to comes from an expression that is not too deep. -/
theorem walk?_eq_some {outcome : α} :
    tree.walk? limit visit = some outcome ↔ tree.depth ≤ limit ∧ visit tree = some outcome := by
  unfold walk?
  by_cases inside : tree.depth ≤ limit <;> simp [inside]

end Walk

/-- How deep the expression is that a text is read as, if it is one. -/
def depthOf (text : String) : Nat := ((ofWritten? text).map depth).getD 0

variable {text : String} {tree : Expression} {limit : Nat}

/-- The depth of a text is that of its expression. -/
theorem depthOf_eq (read : ofWritten? text = some tree) : depthOf text = tree.depth := by
  rw [depthOf, read, Option.map_some, Option.getD_some]

/-- The value of a text that is not too deep is that of its expression. -/
theorem evaluate_of_le (inside : depthOf text ≤ limit) :
    evaluate text limit = ((ofWritten? text).bind value?).getD .nan := by
  unfold evaluate
  -- Only an expression is walked.
  cases read : ofWritten? text with
  | none => rfl
  | some tree =>
    rw [depthOf_eq read] at inside
    rw [Option.bind_some, Option.bind_some, walk?_of_le inside]

/-- A text that is too deep has no value. -/
theorem evaluate_of_lt (deep : limit < depthOf text) : evaluate text limit = .nan := by
  unfold evaluate
  cases read : ofWritten? text with
  | none => rfl
  | some tree =>
    rw [depthOf_eq read] at deep
    rw [Option.bind_some, walk?_of_lt deep]
    rfl

/-- A text has the value of its expression or none. -/
theorem evaluate_cases (text : String) (limit : Nat) :
    evaluate text limit = .nan
      ∨ evaluate text limit = ((ofWritten? text).bind value?).getD .nan :=
  (Nat.lt_or_ge limit (depthOf text)).imp evaluate_of_lt evaluate_of_le

end PlusMinus.Expression
