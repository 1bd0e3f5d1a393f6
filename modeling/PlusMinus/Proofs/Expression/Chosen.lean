import PlusMinus.Extremes
import PlusMinus.Proofs.Expression.Balanced
import PlusMinus.Proofs.Expression.Name
import PlusMinus.Proofs.Expression.Number

/-! The value of an expression with a number for each operand: that of its tree in doubles, where
what is not finite is written as a word and read as no number. -/

namespace PlusMinus

namespace Double

/-- The lexemes as which a double is written: what is no finite number is a word. -/
def writtenLexemes : Double → List Lexeme
  | .nan => [.name "NaN"]
  | .infinite false => [.name "Infinity"]
  | .infinite true => [.operator .sub, .name "Infinity"]
  | x => x.lexemes

/-- The expression as which a double is written. -/
def writtenTree : Double → Expression
  | .nan => .name "NaN"
  | .infinite false => .name "Infinity"
  | .infinite true => .negative (.name "Infinity")
  | x => x.expression

/-- What an expression has for a double that is written in it. -/
def readBack (x : Double) : Double := if x.isFinite then x.withoutZeroSign else nan

/-- Every double is legible as it is written. -/
theorem legible_written (x : Double) : Legible x.text.toList x.writtenLexemes x.writtenTree := by
  -- What is no finite number is a word, which may stand behind a minus.
  have undefined : Legible "NaN".toList [.name "NaN"] (.name "NaN") :=
    Stream.legible_name (show "NaN".toList = 'N' :: "aN".toList by decide +kernel) (by decide)
      (List.all_eq_true.1 (by decide +kernel))
  have infinity : Legible "Infinity".toList [.name "Infinity"] (.name "Infinity") :=
    Stream.legible_name (show "Infinity".toList = 'I' :: "nfinity".toList by decide +kernel)
      (by decide) (List.all_eq_true.1 (by decide +kernel))
  cases x with
  | nan => exact undefined
  | infinite negative =>
    cases negative with
    | false => exact infinity
    | true => exact infinity.minus fun _ => rfl
  | finite negative quanta fits => exact legible_text rfl

/-- The expression of a double has what is read back of it as its value. -/
theorem value?_writtenTree (x : Double) : x.writtenTree.value?.getD nan = x.readBack := by
  cases x with
  | nan => rfl
  | infinite negative => cases negative <;> rfl
  | finite negative quanta fits =>
    change (finite negative quanta fits).expression.value?.getD nan = _
    rw [value?_expression rfl]
    rfl

end Double

/-- Doubles under the four operations; brackets leave no trace. -/
def doubles (operand : Nat → Operand → Double) : Arithmetic Double Double where
  operand := operand
  step := Operator.compute
  outcome := id
  bracket := id

/-- An operation on what is no number leads to no number. -/
theorem Operator.compute_nan (operator : Operator) (x : Double) :
    operator.compute .nan x = .nan ∧ operator.compute x .nan = .nan := by
  cases operator <;> cases x <;> exact ⟨rfl, rfl⟩

/-- The trees of expressions have the values that the operations on doubles lead to. -/
theorem trees_related_doubles (operandTree : Nat → Operand → Expression)
    (operand : Nat → Operand → Double) :
    (Expression.trees operandTree).Related (doubles operand)
      fun tree x => tree.value?.getD .nan = x where
  step := by
    intro operator left right x y first second
    -- Without a value on one side there is no number on either.
    change (Expression.binary operator left right).value?.getD .nan = operator.compute x y
    rw [← first, ← second]
    cases l : left.value? <;> cases r : right.value? <;>
      simp [Expression.value?, l, r, Operator.compute_nan]
  bracket := fun related => related

namespace Stream

variable (digits : Int) (choice : Nat → Option Bool) {stream : Stream}

/-- The number that an operand is written as where a bound is chosen for it. -/
def written (index : Nat) (o : Operand) : Double :=
  ((o.chosen (choice index)).roundDigits digits).readBack

/-- The text with a number for each operand is the spelling of the stream with those numbers. -/
theorem chosenText_eq (alternates : stream.Alternates) :
    stream.chosenText digits choice
      = String.ofList (stream.spell
          (.characters fun index o => ((o.chosen (choice index)).trimmed digits).toList) 0) := by
  rw [← toList_textFrom alternates, String.ofList_toList]
  rfl

/-- The text with a number for each operand is read exactly if its brackets are balanced and not
nested too deeply, and then as the tree of the stream. -/
theorem value_chosenText (alternates : stream.Alternates) :
    ((Expression.ofWritten? (stream.chosenText digits choice)).bind Expression.value?).getD .nan
      = if stream.Balanced ∧ stream.nesting ≤ Lexeme.depthLimit then
          (stream.tree?.map fun tree => tree.value (doubles (written digits choice))).getD .nan
        else .nan := by
  have legible : ∀ o ∈ stream.operands, ∀ index,
      Legible ((o.chosen (choice index)).trimmed digits).toList
        ((o.chosen (choice index)).roundDigits digits).writtenLexemes
        ((o.chosen (choice index)).roundDigits digits).writtenTree :=
    fun o _ index => Double.legible_written _
  obtain ⟨nonempty, ordinary⟩ := ordinary_spell alternates legible 0
  rw [chosenText_eq digits choice alternates,
    (Lexeme.framed_of_ordinary nonempty ordinary).ofWritten?_alone]
  -- The text is an expression exactly where the tree of the stream can be spelled.
  split
  · rename_i readable
    obtain ⟨tree, found⟩ := exists_tree? alternates readable.1
    rw [ofText?_spell found alternates readable.1 readable.2 legible, found]
    refine tree.value_related (trees_related_doubles _ _) fun leaf member => ?_
    exact Double.value?_writtenTree _
  · rename_i unreadable
    have unread := mt (isSome_ofText?_spell alternates legible).1 unreadable
    rw [Option.not_isSome_iff_eq_none.1 unread]
    rfl

/-- A text with unbalanced brackets has no value, however deep it may be. -/
theorem evaluate_of_unbalanced (alternates : stream.Alternates) (unbalanced : ¬stream.Balanced)
    (limit : Nat) : Expression.evaluate (stream.chosenText digits choice) limit = .nan := by
  refine (Expression.evaluate_cases _ limit).elim id fun value => value.trans ?_
  rw [value_chosenText digits choice alternates, if_neg fun both => unbalanced both.1]

end Stream

end PlusMinus
