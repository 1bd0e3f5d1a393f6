import PlusMinus.Proofs.Double.Undefined
import PlusMinus.Proofs.Propagation.Trace
import PlusMinus.Proofs.Propagation.Uncertainty

/-! When an uncertainty is lost: a product with a zero factor has no relative uncertainty, and what
is exact otherwise stays exact. -/

namespace PlusMinus

open PlusMinus.Stream Double

namespace Measure

/-- A measure with a finite value and a finite uncertainty that is not below zero. -/
structure Bounded (m : Measure) : Prop where
  value : m.value.magnitude.isFinite = true
  uncertainty : m.uncertainty.magnitude.isFinite = true
  notBelow : Double.zero.le m.uncertainty.magnitude = true

/-- The uncertainty of a measure as a part of its value. -/
def relativeUncertainty (m : Measure) : Double := m.uncertainty.magnitude / m.value.magnitude.abs

/-- A measure with a finite value and an uncertainty that is zero or was lost. -/
structure ExactOrLost (m : Measure) : Prop where
  value : m.value.magnitude.isFinite = true
  uncertainty : m.uncertainty.magnitude.isZero = true ∨ m.uncertainty.magnitude.isNaN = true

end Measure

/-- Whether an operation multiplies or divides measures one of which is zero. -/
def Operation.HasZeroFactor (step : Operation) : Prop :=
  step.operator.isProduct = true
    ∧ (step.left.value.magnitude.isZero = true ∨ step.right.value.magnitude.isZero = true)

instance (step : Operation) : Decidable step.HasZeroFactor := inferInstanceAs (Decidable (_ ∧ _))

namespace Operator

variable {operator : Operator} {left right : Measure}

/-- The value of an outcome as a number. -/
theorem magnitude_outcome (operator : Operator) (left right : Measure) :
    (operator.apply left right).outcome.value.magnitude
      = operator.compute left.value.magnitude right.value.magnitude :=
  congrArg Figure.magnitude (operator.value_outcome left right)

/-- The uncertainty of a finite product is no number just where its relative uncertainty is none, or
where nothing is to have a part that is not finite. -/
theorem isNaN_uncertainty_product (product : operator.isProduct = true)
    (isFinite : (operator.apply left right).outcome.value.magnitude.isFinite = true) :
    (operator.apply left right).outcome.uncertainty.magnitude.isNaN = true
      ↔ (left.relativeUncertainty + right.relativeUncertainty).isNaN = true
        ∨ (operator.apply left right).outcome.value.magnitude.isZero = true
          ∧ (left.relativeUncertainty + right.relativeUncertainty).isFinite = false := by
  rw [uncertainty_outcome_product product, ← magnitude_outcome]
  exact isNaN_abs_mul_iff isFinite

/-- A finite product with a zero factor is zero, and its relative uncertainty is not finite. -/
theorem lost_of_zero (product : operator.isProduct = true)
    (first : left.value.magnitude.isFinite = true) (second : right.value.magnitude.isFinite = true)
    (firstBound : left.uncertainty.magnitude.isFinite = true)
    (secondBound : right.uncertainty.magnitude.isFinite = true)
    (isFinite : (operator.apply left right).outcome.value.magnitude.isFinite = true)
    (zero : left.value.magnitude.isZero = true ∨ right.value.magnitude.isZero = true) :
    (operator.apply left right).outcome.value.magnitude.isZero = true
      ∧ (left.relativeUncertainty + right.relativeUncertainty).isFinite = false := by
  rw [magnitude_outcome] at isFinite ⊢
  refine ⟨isZero_compute product first second isFinite zero, eq_false_of_ne_true fun finite => ?_⟩
  -- A finite sum would have finite terms, and one of them is a part of zero.
  obtain ⟨front, behind⟩ := isFinite_of_add finite
  rcases zero with zero | zero
  · simp [Measure.relativeUncertainty, isFinite_div_zero firstBound zero] at front
  · simp [Measure.relativeUncertainty, isFinite_div_zero secondBound zero] at behind

/-- The uncertainty of a finite product is no number just where a factor is zero, or where the
product is so small that it vanishes while its relative uncertainty is too large for a double. -/
theorem isNaN_uncertainty_iff (product : operator.isProduct = true) (first : left.Bounded)
    (second : right.Bounded)
    (isFinite : (operator.apply left right).outcome.value.magnitude.isFinite = true) :
    (operator.apply left right).outcome.uncertainty.magnitude.isNaN = true
      ↔ left.value.magnitude.isZero = true ∨ right.value.magnitude.isZero = true
        ∨ (operator.apply left right).outcome.value.magnitude.isZero = true
          ∧ (left.relativeUncertainty + right.relativeUncertainty).isFinite = false := by
  rw [isNaN_uncertainty_product product isFinite]
  by_cases zero : left.value.magnitude.isZero = true ∨ right.value.magnitude.isZero = true
  · have lost := lost_of_zero product first.value second.value first.uncertainty second.uncertainty
      isFinite zero
    exact iff_of_true (.inr lost) (or_assoc.1 (.inl zero))
  · -- Without a zero both relative uncertainties are numbers, and neither is the negative infinity.
    obtain ⟨nonzero, nonzero'⟩ := not_or.1 zero
    have front :=
      relative_cases first.uncertainty first.notBelow first.value (by simpa using nonzero)
    have behind := relative_cases second.uncertainty second.notBelow second.value
      (by simpa using nonzero')
    have number : (left.relativeUncertainty + right.relativeUncertainty).isNaN ≠ true :=
      ne_true_of_eq_false (isNaN_add_eq_false front behind)
    rw [or_iff_right number, or_iff_right nonzero, or_iff_right nonzero']

/-- An uncertainty that was lost stays so, through a product as well as through a sum. -/
theorem isNaN_uncertainty_of_lost
    (isFinite : (operator.apply left right).outcome.value.magnitude.isFinite = true)
    (lost : left.uncertainty.magnitude.isNaN = true ∨ right.uncertainty.magnitude.isNaN = true) :
    (operator.apply left right).outcome.uncertainty.magnitude.isNaN = true := by
  -- It is a term of a sum in both cases: of the relative uncertainties or of the uncertainties
  -- themselves.
  cases product : operator.isProduct with
  | true =>
    rw [isNaN_uncertainty_product product isFinite]
    exact .inl (isNaN_add (lost.imp (isNaN_div · _) (isNaN_div · _)))
  | false =>
    rw [uncertainty_outcome_sum product]
    exact isNaN_add lost

/-- A product of exact measures is exact if no factor is zero, and has lost its uncertainty
otherwise. -/
theorem uncertainty_exact_product (product : operator.isProduct = true)
    (first : left.value.magnitude.isFinite = true) (second : right.value.magnitude.isFinite = true)
    (exact : left.uncertainty.magnitude.isZero = true)
    (exact' : right.uncertainty.magnitude.isZero = true)
    (isFinite : (operator.apply left right).outcome.value.magnitude.isFinite = true) :
    if left.value.magnitude.isZero = true ∨ right.value.magnitude.isZero = true then
      (operator.apply left right).outcome.uncertainty.magnitude.isNaN = true
    else (operator.apply left right).outcome.uncertainty.magnitude.isZero = true := by
  -- A zero factor makes the relative uncertainty 0/0; without one both parts of it are zero.
  split
  · rename_i zero
    rw [isNaN_uncertainty_product product isFinite]
    exact .inr (lost_of_zero product first second (isFinite_of_isZero exact)
      (isFinite_of_isZero exact') isFinite zero)
  · rename_i nonzero
    obtain ⟨front, behind⟩ := not_or.1 nonzero
    rw [uncertainty_outcome_product product, ← magnitude_outcome]
    exact isZero_abs_mul isFinite (isZero_add (isZero_zero_div exact first (by simpa using front))
      (isZero_zero_div exact' second (by simpa using behind)))

/-- An operation with a finite value keeps measures exact or loses their uncertainty, and it keeps
them exact just where both are and no factor is zero. -/
theorem exactOrLost_outcome (first : left.ExactOrLost) (second : right.ExactOrLost)
    (isFinite : (operator.apply left right).outcome.value.magnitude.isFinite = true) :
    (operator.apply left right).outcome.ExactOrLost
      ∧ ((operator.apply left right).outcome.uncertainty.magnitude.isZero = true
        ↔ left.uncertainty.magnitude.isZero = true ∧ right.uncertainty.magnitude.isZero = true
          ∧ ¬(operator.apply left right).HasZeroFactor) := by
  obtain ⟨same, front, behind⟩ := operator.apply_keeps left right
  unfold Operation.HasZeroFactor
  rw [same, front, behind]
  -- An uncertainty that is no number stays none. Of exact measures a sum stays exact, and a product
  -- does unless a factor is zero.
  by_cases lost : left.uncertainty.magnitude.isNaN = true ∨ right.uncertainty.magnitude.isNaN = true
  · have none := isNaN_uncertainty_of_lost isFinite lost
    refine ⟨⟨isFinite, .inr none⟩, iff_of_false (by simp [isZero_of_isNaN none]) ?_⟩
    rintro ⟨exact, exact', _⟩
    rcases lost with lost | lost
    · simp [isZero_of_isNaN lost] at exact
    · simp [isZero_of_isNaN lost] at exact'
  · obtain ⟨number, number'⟩ := not_or.1 lost
    have exact := first.uncertainty.resolve_right number
    have exact' := second.uncertainty.resolve_right number'
    cases product : operator.isProduct with
    | false =>
      have zero := isZero_add exact exact'
      rw [← uncertainty_outcome_sum product] at zero
      exact ⟨⟨isFinite, .inl zero⟩, iff_of_true zero ⟨exact, exact', by simp⟩⟩
    | true =>
      have outcome :=
        uncertainty_exact_product product first.value second.value exact exact' isFinite
      split at outcome
      · rename_i zero
        exact ⟨⟨isFinite, .inr outcome⟩, iff_of_false (by simp [isZero_of_isNaN outcome])
          fun ⟨_, _, nonzero⟩ => nonzero ⟨rfl, zero⟩⟩
      · rename_i nonzero
        exact ⟨⟨isFinite, .inl outcome⟩, iff_of_true outcome
          ⟨exact, exact', fun zero => nonzero zero.2⟩⟩

end Operator

/-- Operations with a finite value pass exactness on unless they have a zero factor. -/
theorem measures_passes_exact : measures.Passes Measure.ExactOrLost
    (fun m => m.uncertainty.magnitude.isZero = true)
    (fun step => step.outcome.value.magnitude.isFinite = true) (fun step => ¬step.HasZeroFactor) :=
  fun _ _ _ first second isFinite => Operator.exactOrLost_outcome first second isFinite

/-- Reading a written measure again keeps it exact, or its uncertainty lost. -/
theorem Measure.Written.reread_exact {m : Measure} (written : m.Written) :
    (m.reread.ExactOrLost ↔ m.ExactOrLost)
      ∧ (m.reread.uncertainty.magnitude.isZero = true ↔ m.uncertainty.magnitude.isZero = true) := by
  have same := written.reread_alike
  have split : ∀ n : Measure, n.ExactOrLost ↔ n.value.magnitude.isFinite = true
      ∧ (n.uncertainty.magnitude.isZero = true ∨ n.uncertainty.magnitude.isNaN = true) :=
    fun _ => ⟨fun exact => ⟨exact.value, exact.uncertainty⟩, fun ⟨value, exact⟩ => ⟨value, exact⟩⟩
  rw [split, split, same.value.isFinite, same.uncertainty.isZero, same.uncertainty.isNaN]
  exact ⟨.rfl, .rfl⟩

namespace Stream

/-- What a text comes to is exact just where its operands are and no operation has a zero factor, if
they are exact or have lost their uncertainty and all values are finite. -/
theorem exact_fold_scan {text : String} (some : scan text ≠ [])
    (operands : ∀ m ∈ (scan text).operands.map (·.toMeasure), m.ExactOrLost)
    (finite : ∀ step ∈ (scan text).fold.steps, step.outcome.value.magnitude.isFinite = true) :
    (scan text).fold.result.measure.ExactOrLost
      ∧ ((scan text).fold.result.measure.uncertainty.magnitude.isZero = true
        ↔ (∀ m ∈ (scan text).operands.map (·.toMeasure), m.uncertainty.magnitude.isZero = true)
          ∧ ∀ step ∈ (scan text).fold.steps, ¬step.HasZeroFactor) := by
  have canonical := (canonical_scan text).resolve_left some
  obtain ⟨line, found, bare, _, _⟩ := canonical.alternates.exists_line
  obtain ⟨products, sums, _⟩ := fold_of_bare bare
  have values := values_of_line? found
  -- What all operands are is what the measures along their line are, and the fold passes it on.
  have all : ∀ kept : Measure → Prop,
      (∀ m ∈ (scan text).operands.map (·.toMeasure), kept m) ↔ line.All kept := by
    intro kept
    rw [← values, List.forall_mem_cons, List.forall_mem_map]
    exact Line.all_iff.symm
  rw [Folding.steps, products, sums] at finite ⊢
  rw [result_of_bare bare, all]
  exact measures_passes_exact.fold ((all _).1 operands) finite

/-- What a text comes to that is read as pieces, with any limit on its brackets, is exact just where
its operands are and no operation has a zero factor, if they are exact or have lost their
uncertainty and all values are finite. -/
theorem Reads.exact {text : List Char} {pieces : List Piece} (reads : Reads false text pieces)
    (balanced : Text.Balanced text) (budget : Nat) (some : scan (String.ofList text) ≠ [])
    (operands : ∀ m ∈ (scan (String.ofList text)).operands.map (·.toMeasure), m.ExactOrLost)
    (finite : ∀ step ∈ (Resolution.ofExpression budget (String.ofList text)).operations,
      step.outcome.value.magnitude.isFinite = true) :
    let left := (Resolution.ofExpression budget (String.ofList text)).expression
    (scan left).fold.result.measure.ExactOrLost
      ∧ ((scan left).fold.result.measure.uncertainty.magnitude.isZero = true
        ↔ (∀ m ∈ (scan (String.ofList text)).operands.map (·.toMeasure),
            m.uncertainty.magnitude.isZero = true)
          ∧ ∀ step ∈ (Resolution.ofExpression budget (String.ofList text)).operations,
            ¬step.HasZeroFactor) := by
  dsimp only
  revert some operands finite
  refine Reads.limit_induction ?_ ?_ reads balanced budget
  · -- Where no bracket is resolved all operations are those of one fold.
    intro text pieces _ _ budget spent some operands finite
    obtain ⟨expression, operations⟩ := Resolution.operations_unresolved spent
    rw [operations] at finite ⊢
    rw [expression]
    exact exact_fold_scan some operands finite
  · -- The inside of a bracket becomes an operand of what is left, which is exact if all of it was.
    intro text inside next resolves budget rest some operands finite
    obtain ⟨front, behind, whole, left⟩ := resolves.measures
    rw [whole] at operands ⊢
    rw [resolves.operations budget] at finite ⊢
    rw [(resolves.follows budget).expression]
    obtain ⟨finiteInside, finiteRest⟩ := List.forall_mem_append.1 finite
    simp only [List.forall_mem_append] at operands ⊢
    obtain ⟨frontExact, insideExact, behindExact⟩ := operands
    obtain ⟨outcome, passes⟩ := exact_fold_scan resolves.nonempty insideExact finiteInside
    -- The result is written into the text and read again, which keeps it exact or lost.
    obtain ⟨exact, same⟩ := (written_result_scan (String.ofList inside)).reread_exact
    have nonempty : scan (String.ofList next) ≠ [] := by
      intro nothing
      rw [nothing] at left
      simp at left
    obtain ⟨result, clear⟩ := rest nonempty (by
      rw [left]
      exact List.forall_mem_append.2
        ⟨frontExact, List.forall_mem_cons.2 ⟨exact.2 outcome, behindExact⟩⟩)
      finiteRest
    refine ⟨result, clear.trans ?_⟩
    rw [left]
    simp only [List.forall_mem_append, List.forall_mem_cons, same, passes, and_assoc, and_left_comm]

end Stream

/-- Where exact operands keep a result exact. The uncertainty of a finite product or quotient of
finite measures is no number just where one of their values is zero, or where the outcome vanishes
while its relative uncertainty is too large for a double; and that of exact measures is zero just
where neither value is. So for every expression of exact finite operands with balanced brackets,
canonical or free but with its brackets around operands, if no operation overflows or divides by
zero, the result is exact or has lost its uncertainty, and it is exact just where no product or
quotient in the trace has a zero factor. -/
theorem solve_exact (config : Config) :
    (∀ (operator : Operator) (left right : Measure), operator.isProduct = true → left.Bounded →
      right.Bounded → (operator.apply left right).outcome.value.magnitude.isFinite = true →
      ((operator.apply left right).outcome.uncertainty.magnitude.isNaN = true
        ↔ left.value.magnitude.isZero = true ∨ right.value.magnitude.isZero = true
          ∨ (operator.apply left right).outcome.value.magnitude.isZero = true
            ∧ (left.relativeUncertainty + right.relativeUncertainty).isFinite = false)
      ∧ (left.uncertainty.magnitude.isZero = true → right.uncertainty.magnitude.isZero = true →
        ((operator.apply left right).outcome.uncertainty.magnitude.isZero = true
          ↔ left.value.magnitude.isZero = false ∧ right.value.magnitude.isZero = false)))
      ∧ ∀ expression : String,
        (∃ text, expression = (scan text).render) ∨ fits false expression.toList = true →
        Text.Balanced expression.toList → scan expression ≠ [] →
        (∀ o ∈ (scan expression).operands, o.nominal.isFinite = true ∧ o.isExact = true) →
        (∀ step, .operation step ∈ (solve config expression).trace →
          step.outcome.value.magnitude.isFinite = true) →
        (solve config expression).result.measure.ExactOrLost
          ∧ ((solve config expression).result.measure.uncertainty.magnitude.isZero = true
            ↔ ∀ step, .operation step ∈ (solve config expression).trace → ¬step.HasZeroFactor) := by
  constructor
  · intro operator left right product first second isFinite
    refine ⟨Operator.isNaN_uncertainty_iff product first second isFinite, fun exact exact' => ?_⟩
    obtain ⟨_, same⟩ := Operator.exactOrLost_outcome ⟨first.value, .inl exact⟩
      ⟨second.value, .inl exact'⟩ isFinite
    rw [same]
    simp [Operation.HasZeroFactor, operator.apply_keeps left right, product, exact, exact']
  · intro expression written balanced some operands finite
    -- Rendered texts have their brackets around operands too, so both kinds are read as pieces.
    have placed : fits false expression.toList = true := by
      rcases written with ⟨text, rfl⟩ | placed
      · exact fits_render_scan text
      · exact placed
    obtain ⟨pieces, reads⟩ := exists_reads_of_fits placed
    have exact := @Reads.exact _ _ reads balanced config.maxBracketIterations.toNat
    simp only [String.ofList_toList, List.forall_mem_map] at exact
    obtain ⟨result, same⟩ :=
      exact some (fun o member => ⟨(operands o member).1, .inl (operands o member).2⟩)
      fun step member => finite step (mem_trace_solve.2 member)
    rw [measure_solve]
    refine ⟨result, same.trans ?_⟩
    simp only [mem_trace_solve]
    exact and_iff_right fun o member => (operands o member).2

/-- A product of tiny exact numbers, which vanishes, and brackets of which only the first may be
resolved. -/
theorem solve_exact_brackets :
    let tiny : Measure := ⟨.ofText "1e-200", .exact⟩
    let first : Config := { maxBracketIterations := 1 }
    tiny.Bounded ∧ (Operator.mul.apply tiny tiny).outcome.value.magnitude.isFinite = true
      ∧ (Operator.mul.apply tiny tiny).outcome.uncertainty.magnitude.isZero = true
      ∧ Text.Balanced "(2+3)*(7-(4/8))".toList ∧ scan "(2+3)*(7-(4/8))" ≠ []
      ∧ (∀ o ∈ (scan "(2+3)*(7-(4/8))").operands, o.nominal.isFinite = true ∧ o.isExact = true)
      ∧ (∀ step ∈ (solve first "(2+3)*(7-(4/8))").trace.filterMap Step.operation?,
        step.outcome.value.magnitude.isFinite = true ∧ ¬step.HasZeroFactor)
      ∧ (solve first "(2+3)*(7-(4/8))").result.measure.uncertainty.magnitude.isZero = true := by
  intro tiny first
  have bounded : tiny.Bounded := ⟨by decide +kernel, by decide +kernel, by decide +kernel⟩
  have balanced : Text.Balanced "(2+3)*(7-(4/8))".toList := by decide +kernel
  have some : scan "(2+3)*(7-(4/8))" ≠ [] := by decide +kernel
  have operands : ∀ o ∈ (scan "(2+3)*(7-(4/8))").operands,
      o.nominal.isFinite = true ∧ o.isExact = true := by decide +kernel
  -- The operations are those of the resolved bracket and of the text around it.
  have steps : ∀ step ∈ (solve first "(2+3)*(7-(4/8))").trace.filterMap Step.operation?,
      step.outcome.value.magnitude.isFinite = true ∧ ¬step.HasZeroFactor := by decide +kernel
  obtain ⟨rule, solved⟩ := solve_exact first
  have product := (rule .mul tiny tiny rfl bounded bounded (by decide +kernel)).2
    (by decide +kernel) (by decide +kernel)
  have listed : ∀ step, .operation step ∈ (solve first "(2+3)*(7-(4/8))").trace →
      step.outcome.value.magnitude.isFinite = true ∧ ¬step.HasZeroFactor := fun step member =>
    steps step (List.mem_filterMap.2 ⟨.operation step, member, rfl⟩)
  have result := solved "(2+3)*(7-(4/8))" (.inr (by decide +kernel)) balanced some operands
    fun step member => (listed step member).1
  exact
    ⟨bounded, by decide +kernel, product.2 ⟨by decide +kernel, by decide +kernel⟩, balanced, some,
    operands, steps, result.2.2 fun step member => (listed step member).2⟩

/-- The product of an exact zero and an exact number has lost its uncertainty, though its value is
finite and nothing is divided. -/
theorem product_zero_lost :
    let zero : Measure := ⟨.ofText "0", .exact⟩
    let five : Measure := ⟨.ofText "5", .exact⟩
    zero.Bounded ∧ five.Bounded
      ∧ (Operator.mul.apply zero five).outcome.value.magnitude.isFinite = true
      ∧ (Operator.mul.apply zero five).outcome.uncertainty.magnitude.isNaN = true
      ∧ (solve default "0*5").result.measure.value.magnitude.isFinite = true
      ∧ (solve default "0*5").result.measure.uncertainty.magnitude.isNaN = true :=
  ⟨⟨by decide +kernel, by decide +kernel, by decide +kernel⟩,
    ⟨by decide +kernel, by decide +kernel, by decide +kernel⟩, by decide +kernel, by decide +kernel,
    by decide +kernel, by decide +kernel⟩

end PlusMinus
