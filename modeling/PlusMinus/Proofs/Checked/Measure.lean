import PlusMinus.Checked.Measure
import PlusMinus.Proofs.Checked.Decimal
import PlusMinus.Proofs.Decimal.Leading

/-! The refusals of telling how precisely a measure is known that cannot happen. -/

namespace PlusMinus

namespace Double

/-- The order of a positive uncertainty is never refused. -/
theorem checkedRoundedOrder_eq_ok {u : Double} (finite : u.isFinite = true)
    (nonzero : u.isZero = false) : u.checkedRoundedOrder = .ok u.roundedOrder := by
  obtain ⟨coefficient, low, high⟩ := shortest_inside finite nonzero
  unfold checkedRoundedOrder roundedOrder
  generalize u.shortest = decimal at coefficient low high
  unfold Decimal.leading at low high
  dsimp only
  -- The digits with a point behind the first denote a number from one on.
  generalize order : decimal.exponent + digitCount decimal.coefficient - 1 = leading
  have unit : Decimal.leading ⟨decimal.coefficient, decimal.exponent - leading⟩ = 1 := by
    unfold Decimal.leading
    dsimp only
    omega
  obtain ⟨quanta, fits, digits, least⟩ := Decimal.exists_toDouble_of_leading
    (d := ⟨decimal.coefficient, decimal.exponent - leading⟩) coefficient unit
  rw [digits]
  have some : (Double.finite false quanta fits).isZero = false := by
    have positive : 0 < one := twoTo_pos 1074
    exact beq_eq_false_iff_ne.2 (by omega)
  -- Neither the digits nor what they are rounded to is zero, so both have logarithms.
  have rounded := isZero_roundHalfUp fits least
  have whole := isFinite_roundHalfUp (x := .finite false quanta fits) rfl
  -- The order and both logarithms are of moderate size.
  have range : (ofInt leading).Within 14 :=
    within_ofInt (by decide) (by rw [show twoTo 14 = 16384 from rfl]; omega)
  have exact := within_log10 (x := .finite false quanta fits) rfl
  have changed := within_log10 whole
  have total := range.add (exact.sub changed (by decide)) (by decide)
  rw [checkedRoundHalfUp_eq_ok, Fault.ok_bind, checkedLog10_eq_ok rfl some, Fault.ok_bind,
    checkedLog10_eq_ok whole rounded, Fault.ok_bind, checkedInt_eq_ok range.isFinite, Fault.ok_bind,
    checkedRoundHalfUp_eq_ok, Fault.ok_bind,
      checkedFloor_eq_ok (isFinite_roundHalfUp total.isFinite)]

end Double

/-- The decimal place that an uncertainty decides is told without a refusal. -/
theorem Figure.checkedPlace?_eq_ok (uncertainty : Figure) :
    uncertainty.checkedPlace? = .ok uncertainty.place? := by
  unfold checkedPlace? place?
  -- Only a positive finite uncertainty is asked for its order.
  split
  · rename_i positive
    split
    · rename_i finite
      rw [Double.checkedRoundedOrder_eq_ok finite (Double.isZero_of_lt positive.2)]
      rfl
    · rfl
  · rfl

/-- The significant figures of a value are counted without a refusal. -/
theorem checkedSignificantFigures_eq_ok (value : Figure) (uncertainty : Option Figure) :
    checkedSignificantFigures value uncertainty = .ok (significantFigures value uncertainty) := by
  unfold checkedSignificantFigures significantFigures
  generalize uncertainty.filter (·.digits ≠ "") = known
  cases known with
  | none => rfl
  | some u =>
    dsimp only
    split
    · rfl
    split
    · rename_i positive
      -- The value counts as one tenth when it has no order of its own.
      have finite :
          (if (Double.ofText value.digits).isZero ∨ !(Double.ofText value.digits).isFinite then
          Double.ofQuotient .toEven false Double.one 10 else Double.ofText value.digits).isFinite
            = true := by
        split
        · decide +kernel
        · rename_i other
          simpa using fun nothing => other (.inr nothing)
      rw [Double.checkedOrder_eq_ok finite, Fault.ok_bind, Double.checkedOrder_eq_ok positive.2,
        Fault.ok_bind]
      rfl
    · rfl

/-- The decimal place that a value is known to is told without a refusal. -/
theorem checkedDecimalPlace_eq_ok (value : Figure) (uncertainty : Option Figure) :
    checkedDecimalPlace value uncertainty = .ok (decimalPlace value uncertainty) := by
  unfold checkedDecimalPlace decimalPlace
  cases uncertainty with
  | none => rfl
  | some u =>
    dsimp only
    rw [u.checkedPlace?_eq_ok]
    rfl

end PlusMinus
