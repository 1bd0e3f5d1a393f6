import PlusMinus.Checked.Propagation
import PlusMinus.Proofs.Checked.Measure
import PlusMinus.Proofs.Stream.RoundTrip

/-! The refusals of propagation that cannot happen on streams in which operands and operators
alternate. -/

namespace PlusMinus

namespace Operator

/-- An operation on two measures is never refused. -/
theorem checkedApply_eq_ok (operator : Operator) (left right : Measure) :
    operator.checkedApply left right = .ok (operator.apply left right) := by
  unfold checkedApply apply Measure.checkedFigures Measure.checkedPlace
  -- Whichever precision is asked for, it is known.
  split
  · rw [checkedSignificantFigures_eq_ok, Fault.ok_bind,
      checkedSignificantFigures_eq_ok, Fault.ok_bind]
    rfl
  · rw [checkedDecimalPlace_eq_ok, Fault.ok_bind, checkedDecimalPlace_eq_ok, Fault.ok_bind]
    rfl

end Operator

namespace Stream

/-- Another operand can stand at the front of an alternating stream. -/
theorem Alternates.withFirst {o : Operand} {rest : Stream}
    (alternates : Alternates (.operand o :: rest))
    (p : Operand) : Alternates (.operand p :: rest) := by
  -- What follows the first operand does not depend on it.
  cases alternates with
  | last => exact .last p
  | more _ operator later => exact .more p operator later

/-- An alternating stream starts with an operand. -/
theorem Alternates.exists_first {stream : Stream} (alternates : stream.Alternates) :
    ∃ o rest, stream = .operand o :: rest := by
  cases alternates with
  | last o => exact ⟨o, [], rfl⟩
  | more o operator _ => exact ⟨o, _, rfl⟩

/-- An alternating stream stays one when its products are done, and only sums and differences are
left in it. -/
theorem Alternates.foldProducts {stream : Stream} (alternates : stream.Alternates) :
    (Stream.foldProducts stream).2.Alternates
      ∧ ∀ operator, .operator operator ∈ (Stream.foldProducts stream).2 →
        operator.isProduct = false := by
  -- The induction follows the fold: a product is done, a sum is passed over, and the rest is left.
  fun_induction Stream.foldProducts stream with
  | case1 left operator right rest product step steps tokens result ih =>
    -- The outcome stands in front of what followed the product.
    cases alternates with
    | more _ _ later =>
      rw [result] at ih
      exact ih (later.withFirst _)
  | case2 left operator right rest sum steps tokens result ih =>
    cases alternates with
    | more _ _ later =>
      -- The operator stays where it is, and it is no product.
      rw [result] at ih
      obtain ⟨terms, sums⟩ := ih later
      refine ⟨.more left operator terms, ?_⟩
      intro found member
      rcases List.mem_cons.1 member with same | member
      · cases same
      rcases List.mem_cons.1 member with same | member
      · cases same
        exact eq_false_of_ne_true sum
      · exact sums found member
  | case3 token rest other steps tokens result ih =>
    -- Behind an operator another operand would follow.
    cases alternates with
    | last o =>
      simp only [Stream.foldProducts, Prod.mk.injEq] at result
      obtain ⟨rfl, rfl⟩ := result
      exact ⟨.last o, by simp⟩
    | more o operator later =>
      obtain ⟨p, rest, rfl⟩ := later.exists_first
      exact (other _ _ _ _ rfl rfl).elim
  | case4 => cases alternates

/-- An alternating stream of sums and differences folds to one operand. -/
theorem Alternates.foldSums {stream : Stream} (alternates : stream.Alternates)
    (sums : ∀ operator, .operator operator ∈ stream → operator.isProduct = false) :
    ∃ o, (Stream.foldSums stream).2 = [.operand o] := by
  fun_induction Stream.foldSums stream with
  | case1 left operator right rest product =>
    -- There are no products.
    rw [sums operator (by simp)] at product
    cases product
  | case2 left operator right rest sum step steps tokens result ih =>
    cases alternates with
    | more _ _ later =>
      rw [result] at ih
      -- The outcome takes the place of the two operands, and no operator is new.
      refine ih (later.withFirst _) ?_
      intro found member
      rcases List.mem_cons.1 member with same | member
      · cases same
      · exact sums found (by simp [member])
  | case3 tokens other =>
    cases alternates with
    | last o => exact ⟨o, rfl⟩
    | more o operator later =>
      obtain ⟨p, rest, rfl⟩ := later.exists_first
      exact (other _ _ _ _ rfl).elim

/-- No operator of an alternating stream is rejected. -/
theorem Alternates.rejected?_fold {stream : Stream} (alternates : stream.Alternates) :
    stream.fold.rejected? = none := by
  -- After the products there are only sums, and after the sums one operand.
  obtain ⟨terms, sums⟩ := alternates.foldProducts
  obtain ⟨o, last⟩ := terms.foldSums sums
  unfold fold Folding.rejected?
  dsimp only
  rw [last]

/-- Folding a stream in which operands and operators alternate is never refused. -/
theorem checkedFold_eq_ok {stream : Stream} (regular : stream = [] ∨ stream.Alternates) :
    stream.checkedFold = .ok stream.fold := by
  have rejected : stream.fold.rejected? = none := by
    rcases regular with rfl | alternates
    · simp [fold, foldProducts, foldSums, Folding.rejected?]
    · exact alternates.rejected?_fold
  -- No operation on the way is refused, whatever its measures are.
  have applied : ∀ step : Operation, (do
      let _ ← step.operator.checkedApply step.left step.right : Except Fault Unit) = .ok () := by
    intro step
    rw [Operator.checkedApply_eq_ok, Fault.ok_bind]
    rfl
  unfold checkedFold fold?
  rw [Fault.forM_eq_ok applied, Fault.ok_bind, rejected]

/-- Whatever text is read, folding its stream is never refused. -/
theorem checkedFold_scan (text : String) : (scan text).checkedFold = .ok (scan text).fold :=
  checkedFold_eq_ok ((canonical_scan text).imp_right Canonical.alternates)

end Stream

/-- Solving an expression is never refused, whether or not its brackets are balanced. -/
theorem checkedSolve_eq_ok (config : Config) (expression : String) :
    checkedSolve config expression = .ok (solve config expression) := by
  -- Every bracket is read from its text, and so is what is left at the end.
  have brackets : ∀ step : Step, step.checkBracket = .ok () := by
    intro step
    cases step with
    | bracket inside =>
      simp only [Step.checkBracket, Stream.checkedFold_scan]
      rfl
    | expression text afterBrackets => rfl
    | note message => rfl
    | operation done => rfl
  unfold checkedSolve
  dsimp only
  rw [Fault.forM_eq_ok brackets, Fault.ok_bind, Stream.checkedFold_scan, Fault.ok_bind]
  rfl

section Writing

variable {α β : Type}

/-- What is found, unless one of the whole numbers written on the way has too many digits. -/
def writing (numbers : List Int) (value : α) : Except Fault α :=
  if ∀ n ∈ numbers, Numeral.Writable n then .ok value else .error .unwritable

/-- A single whole number is gone through before what follows. -/
theorem checkWritable_bind (n : Int) (value : α) :
    (checkWritable n >>= fun _ => Except.ok value) = writing [n] value := by
  unfold checkWritable writing
  simp only [List.mem_singleton, forall_eq]
  split <;> rfl

variable {first second : List Int} {value : α} {next : α → Except Fault β} {result : β}

/-- Whole numbers that are written in two lots are written all in all. -/
theorem writing_bind (later : next value = writing second result) :
    (writing first value >>= next) = writing (first ++ second) result := by
  unfold writing at later ⊢
  simp only [List.forall_mem_append]
  -- If the first lot cannot be written, the second one does not matter.
  by_cases earlier : ∀ n ∈ first, Numeral.Writable n
  · rw [if_pos earlier, Fault.ok_bind, later]
    exact if_congr (and_iff_right earlier).symm rfl rfl
  · rw [if_neg earlier, if_neg fun both => earlier both.1]
    rfl

/-- What goes through once the whole numbers are written is only refused for them. -/
theorem writing_bind_ok (later : next value = .ok result) :
    (writing first value >>= next) = writing first result := by
  unfold writing
  split
  · exact later
  · rfl

end Writing

namespace Override

/-- The whole number in the label of the rule that the settings ask for, if there is one. -/
def labelNumbers (config : Config) : List Int :=
  match config.roundingMode, config.roundingDigits with
  | .significant, some n => [max 1 n]
  | .places, some n => [n]
  | _, _ => []

/-- The rule of the settings is only refused for a label that cannot be written. -/
theorem checkedConfig_eq (config : Config) :
    checkedConfig config = writing (labelNumbers config) (ofConfig config) := by
  unfold checkedConfig labelNumbers ofConfig
  cases config.roundingMode with
  | auto => rfl
  | significant =>
    cases config.roundingDigits with
    | none => rfl
    | some n =>
      -- The number of significant figures is at least one.
      dsimp only
      rw [checkedFigures, figures?_max, Fault.ok_bind]
      exact checkWritable_bind _ _
  | places =>
    cases config.roundingDigits with
    | none => rfl
    | some n => exact checkWritable_bind _ _

end Override

namespace Propagated

/-- The whole number in the label of the rule that the operations suggest, if there is one. -/
def suggestedNumbers (used : Propagated) (operands : List Operand) : List Int :=
  if !used.usedProduct && used.usedSum then [(used.suggestedPrecision operands).precision] else []

/-- The whole numbers in the labels of the rules that a result may be rounded by: of the suggested
one, and of that of the settings unless a rule is given. -/
def labelNumbers (used : Propagated) (config : Config) (given : Option Override)
    (operands : List Operand) : List Int :=
  used.suggestedNumbers operands ++ (if given.isNone then Override.labelNumbers config else [])

/-- What the operations suggest is found whatever the operands are, as long as it can be put into
words. -/
theorem checkedSuggestion_eq (used : Propagated) (operands : List Operand) :
    used.checkedSuggestion operands
      = writing (used.suggestedNumbers operands) (used.suggestedPrecision operands) := by
  -- Every operand is known to some precision, of either kind.
  have figures (o : Operand) : o.checkedFigures = .ok o.significantFigures :=
    checkedSignificantFigures_eq_ok _ _
  have places (o : Operand) : o.checkedPlace = .ok o.decimalPlace := checkedDecimalPlace_eq_ok _ _
  unfold checkedSuggestion suggestedNumbers suggestedPrecision
  rw [Fault.mapM_eq_ok figures, Fault.ok_bind, Fault.mapM_eq_ok places, Fault.ok_bind]
  -- Only a decimal place has its number in its label.
  cases used.usedProduct with
  | true => rfl
  | false =>
    cases used.usedSum with
    | false => rfl
    | true => exact (bind_assoc _ _ _).trans (checkWritable_bind _ _)

/-- The rule for a result is found whatever the operands are, as long as the labels can be
written. -/
theorem checkedPrecision_eq (used : Propagated) (config : Config) (given : Option Override)
    (operands : List Operand) :
    used.checkedPrecision config given operands
      = writing (used.labelNumbers config given operands)
        (used.precision config given operands) := by
  unfold checkedPrecision labelNumbers
  rw [checkedSuggestion_eq]
  -- A given rule is taken as it is, and the label of the one in the settings is written.
  cases given with
  | some override =>
    simp only [Option.isNone_some, Bool.false_eq_true, if_false, List.append_nil]
    exact writing_bind_ok rfl
  | none =>
    simp only [Option.isNone_none, if_true, Option.elim_none, Override.checkedConfig_eq]
    exact writing_bind (writing_bind_ok rfl)

end Propagated

end PlusMinus
