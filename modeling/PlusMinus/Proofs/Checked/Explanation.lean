import PlusMinus.Checked.Explanation
import PlusMinus.Proofs.Checked.Decimal
import PlusMinus.Proofs.Checked.Propagation
import PlusMinus.Proofs.Expression.Balanced
import PlusMinus.Proofs.Expression.Name

/-! The refusals of the range of an expression and of the accounts that cannot happen. -/

namespace PlusMinus

/-- The numbers of a running text are trimmed without a refusal. -/
theorem checkTrimmed_eq_ok (digits : Int) (numbers : List Double) :
    checkTrimmed digits numbers = .ok () := by
  apply Fault.forM_eq_ok
  intro x
  rw [x.checkedTrimmed_eq_ok]
  rfl

/-- A tree that does not come to a plain number when its names stand for intervals. -/
def Expression.Varies (intervals : String → Option Interval) (tree : Expression) : Prop :=
  ∀ x, tree.enclose? intervals ≠ some (.number x)

/-- A name stands for an interval, if for anything. -/
theorem Expression.varies_name (intervals : String → Option Interval) (text : String) :
    (name text).Varies intervals := by
  intro x found
  obtain ⟨interval, _, same⟩ := Option.map_eq_some_iff.1 found
  cases same

/-- An operation on trees that vary varies. -/
theorem Expression.varies_binary {intervals : String → Option Interval} (operator : Operator)
    {left right : Expression} (first : left.Varies intervals) :
    (binary operator left right).Varies intervals := by
  intro x found
  simp only [enclose?, Option.bind_eq_bind, Option.bind_eq_some_iff] at found
  obtain ⟨s, leftFound, t, _, combined⟩ := found
  -- An interval on the left makes the outcome one, whatever the right side is.
  cases s with
  | number y => exact first y leftFound
  | range interval => cases combined

/-- A tree of names varies, whatever its operators and brackets are. -/
theorem Chain.varies_value (intervals : String → Option Interval) (names : Nat → Operand → String)
    (chain : Chain) :
    (chain.value (Expression.trees fun index o => .name (names index o))).Varies intervals := by
  -- To vary is a relation of each tree to itself.
  have related : (Expression.trees fun index o => .name (names index o)).Related
      (Expression.trees fun index o => .name (names index o)) fun tree _ => tree.Varies intervals :=
    ⟨fun operator _ _ _ _ first _ => Expression.varies_binary operator first, fun inside => inside⟩
  apply chain.value_related related
  intro leaf _
  exact Expression.varies_name intervals _

namespace Stream

/-- An expression with names for its operands does not come to a plain number. -/
theorem variedValue?_ne_number {stream : Stream} (limit : Nat) (alternates : stream.Alternates)
    (x : Double) : stream.variedValue? limit ≠ some (.number x) := by
  intro found
  simp only [variedValue?, Option.bind_eq_bind, Option.bind_eq_some_iff,
    Expression.walk?_eq_some] at found
  obtain ⟨intervals, _, tree, read, _, value⟩ := found
  -- What is read at all has balanced brackets, and so it is the tree of the stream.
  have legible : ∀ o ∈ stream.operands, ∀ index,
      Legible (operandName index).toList [.name (operandName index)] (.name (operandName index)) :=
    fun o _ index => legible_operandName index
  have text : stream.namedText.toList
      = stream.spell (.characters fun index _ => (operandName index).toList) 0 :=
    toList_textFrom alternates (fun index _ => operandName index) 0
  rw [text] at read
  obtain ⟨balanced, shallow⟩ :=
    (isSome_ofText?_spell alternates legible).1 (Option.isSome_iff_exists.2 ⟨tree, read⟩)
  obtain ⟨chain, built⟩ := exists_tree? alternates balanced
  rw [ofText?_spell built alternates balanced shallow legible] at read
  cases read
  exact chain.varies_value _ (fun index _ => operandName index) x value

/-- An expression of operands and operators is not left as a plain number. -/
theorem isConstant_eq_false {stream : Stream} (limit : Nat)
    (regular : stream = [] ∨ stream.Alternates) : stream.isConstant limit = false := by
  unfold isConstant
  split
  · rename_i x varied
    rcases regular with rfl | alternates
    · -- Without operands nothing can be lost.
      rfl
    · exact absurd varied (variedValue?_ne_number limit alternates x)
  · rfl

/-- The range of an expression is found without a refusal, whether or not its brackets are
balanced. -/
theorem checkedExtremes_eq_ok (config : Config) {stream : Stream}
    (regular : stream = [] ∨ stream.Alternates) :
    stream.checkedExtremes config = .ok (stream.extremes config) := by
  have operands : ∀ o : Operand, checkTrimmed config.debugDigits
      [o.chosen none, o.chosen (some true), o.chosen (some false)] = .ok () :=
    fun o => checkTrimmed_eq_ok _ _
  -- Only a stream that is left as a plain number has no ends.
  have varies (limit : Nat) : ¬(config.intervalBound && stream.isConstant limit) = true := by
    rw [isConstant_eq_false limit regular, Bool.and_false]
    exact Bool.false_ne_true
  unfold checkedExtremes extremes?
  rw [Fault.forM_eq_ok operands, Fault.ok_bind, if_neg (varies _)]

end Stream

/-- The lines of a step are written without a refusal. -/
theorem Step.checkLines_eq_ok (step : Step) : step.checkLines = .ok () := by
  unfold checkLines
  -- Only operations with relative uncertainties have numbers that are rounded here.
  split
  · split
    · apply Fault.forM_eq_ok
      intro x
      rw [x.checkedFixed_eq_ok]
      rfl
    · rfl
  · rfl

namespace Explanation

/-- The account of a propagated uncertainty is given if the precision can be written. -/
theorem checkedPropagation_eq (config : Config) (expression : String) (trace : List Step)
    (result : Measure) (final : Rounded) (precision : Precision) (reason : String) :
    checkedPropagation config expression trace result final precision reason
      = writing [precision.precision]
        (ofPropagation config expression trace result final precision reason) := by
  unfold checkedPropagation
  rw [Fault.forM_eq_ok Step.checkLines_eq_ok, Fault.ok_bind, checkTrimmed_eq_ok]
  exact checkWritable_bind _ _

/-- The account of a range is given without a refusal. -/
theorem checkedRange_eq_ok (config : Config) (expression : String) (e : Extremes)
    (rounding : RoundedRange) (reason : String) :
    checkedRange config expression e rounding reason
      = .ok (ofRange config expression e rounding reason) := by
  unfold checkedRange
  rw [Fault.forM_eq_ok fun _ => checkTrimmed_eq_ok _ _, Fault.ok_bind,
    checkTrimmed_eq_ok, Fault.ok_bind]
  rfl

end Explanation

end PlusMinus
