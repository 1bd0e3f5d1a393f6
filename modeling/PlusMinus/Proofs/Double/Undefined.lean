import PlusMinus.Proofs.Double.Order
import PlusMinus.Propagation.Operation

/-! Where a relative uncertainty makes the uncertainty of a product no number. -/

namespace PlusMinus

open Double

namespace Double

variable {u v x y : Double}

/-- What is no number is not zero. -/
theorem isZero_of_isNaN (none : x.isNaN = true) : x.isZero = false := by
  cases x with
  | nan => rfl
  | infinite negative => cases none
  | finite negative quanta fits => cases none

/-- Zero is finite. -/
theorem isFinite_of_isZero (none : x.isZero = true) : x.isFinite = true := by
  obtain ⟨s, rfl⟩ := exists_of_isZero none
  rfl

/-- A sum with a term that is no number is none. -/
theorem isNaN_add (none : x.isNaN = true ∨ y.isNaN = true) : (x + y).isNaN = true := by
  rcases none with none | none
  · cases x with
    | nan => rfl
    | infinite negative => cases none
    | finite negative quanta fits => cases none
  · cases y with
    | nan => cases x <;> rfl
    | infinite negative => cases none
    | finite negative quanta fits => cases none

/-- Numbers that are finite or the positive infinity have a number as their sum. -/
theorem isNaN_add_eq_false (first : x.isFinite = true ∨ x = infinite false)
    (second : y.isFinite = true ∨ y = infinite false) : (x + y).isNaN = false := by
  refine eq_false_of_ne_true fun none => ?_
  -- Only opposite infinities have none, and one of these would be the negative one.
  rcases of_isNaN_add none with rfl | rfl | ⟨negative, rfl, rfl⟩
  · rcases first with first | first <;> cases first
  · rcases second with second | second <;> cases second
  · cases negative
    · rcases second with second | second <;> cases second
    · rcases first with first | first <;> cases first

/-- Zeros add up to a zero, whatever their signs. -/
theorem isZero_add (first : x.isZero = true) (second : y.isZero = true) :
    (x + y).isZero = true := by
  obtain ⟨s, rfl⟩ := exists_of_isZero first
  obtain ⟨t, rfl⟩ := exists_of_isZero second
  cases s <;> cases t <;> decide +kernel

/-- A part of a finite magnitude that is zero is zero. -/
theorem isZero_abs_mul (isFinite : x.isFinite = true) (none : y.isZero = true) :
    (x.abs * y).isZero = true := by
  obtain ⟨s, a, f, rfl⟩ := exists_of_isFinite isFinite
  obtain ⟨t, rfl⟩ := exists_of_isZero none
  have unit : 0 < one := twoTo_pos _
  rw [Double.abs, mul_finite, Nat.mul_zero, ofQuotient_zero _ _ unit]
  rfl

/-- What is no number is a part of nothing that is one. -/
theorem isNaN_div (none : x.isNaN = true) (y : Double) : (x / y).isNaN = true := by
  cases x with
  | nan => rw [nan_div]; rfl
  | infinite negative => cases none
  | finite negative quanta fits => cases none

/-- A part of a finite magnitude is no number just where what it is a part by is none, or where
nothing is multiplied with what is not finite. -/
theorem isNaN_abs_mul_iff (isFinite : x.isFinite = true) :
    (x.abs * y).isNaN = true ↔ y.isNaN = true ∨ x.isZero = true ∧ y.isFinite = false := by
  obtain ⟨s, a, f, rfl⟩ := exists_of_isFinite isFinite
  -- Only zero times an infinity makes a new one.
  cases y with
  | nan => exact iff_of_true rfl (.inl rfl)
  | infinite t =>
    change (if a = 0 then nan else infinite (false != t)).isNaN = true ↔ _
    split <;> simp_all [isNaN, isZero, Double.isFinite]
  | finite t b g =>
    rw [Double.abs, mul_finite, isNaN_ofQuotient]
    simp [isNaN, Double.isFinite]

/-- Nothing finite is a finite part of zero. -/
theorem isFinite_div_zero (isFinite : u.isFinite = true) (none : v.isZero = true) :
    (u / v.abs).isFinite = false := by
  obtain ⟨s, a, f, rfl⟩ := exists_of_isFinite isFinite
  obtain ⟨t, rfl⟩ := exists_of_isZero none
  rw [Double.abs, div_zero]
  split <;> rfl

/-- What is not below zero is a finite part of what is not zero, or too large for one. -/
theorem relative_cases (isFinite : u.isFinite = true) (bound : zero.le u = true)
    (range : v.isFinite = true) (some : v.isZero = false) :
    (u / v.abs).isFinite = true ∨ u / v.abs = infinite false := by
  obtain ⟨s, a, f, rfl⟩ := exists_of_isFinite isFinite
  obtain ⟨t, b, g, rfl⟩ := exists_of_isFinite range
  have divisor : b ≠ 0 := by simpa [isZero] using some
  rw [Double.abs, div_finite _ _ divisor]
  cases s with
  | false =>
    unfold ofQuotient
    dsimp only
    split
    · exact .inl rfl
    · exact .inr rfl
  | true =>
    -- Only zero has a minus here.
    have none : a = 0 := by
      simp only [le, position?, signedQuanta, zero, decide_eq_true_eq] at bound
      omega
    rw [none, Nat.zero_mul, ofQuotient_zero _ _ (Nat.pos_of_ne_zero divisor)]
    exact .inl rfl

/-- Nothing is the part nothing of what is not zero. -/
theorem isZero_zero_div (none : u.isZero = true) (range : v.isFinite = true)
    (some : v.isZero = false) : (u / v.abs).isZero = true := by
  obtain ⟨s, rfl⟩ := exists_of_isZero none
  obtain ⟨t, b, g, rfl⟩ := exists_of_isFinite range
  have divisor : b ≠ 0 := by simpa [isZero] using some
  rw [Double.abs, div_finite _ _ divisor, Nat.zero_mul,
    ofQuotient_zero _ _ (Nat.pos_of_ne_zero divisor)]
  rfl

end Double

/-- A finite product or quotient of finite numbers is zero if one of them is. -/
theorem Operator.isZero_compute {operator : Operator}
    (product : operator.isProduct = true) {x y : Double}
    (first : x.isFinite = true) (second : y.isFinite = true)
    (isFinite : (operator.compute x y).isFinite = true) (none : x.isZero = true ∨ y.isZero = true) :
    (operator.compute x y).isZero = true := by
  obtain ⟨s, a, f, rfl⟩ := exists_of_isFinite first
  obtain ⟨t, b, g, rfl⟩ := exists_of_isFinite second
  simp only [isZero, beq_iff_eq] at none
  cases operator with
  | add | sub => cases product
  | mul =>
    have zero : a * b = 0 := Nat.mul_eq_zero.2 none
    have unit : 0 < one := twoTo_pos _
    rw [compute, mul_finite, zero, ofQuotient_zero _ _ unit]
    rfl
  | div =>
    -- Nothing divided by zero is finite, so that it is the dividend that is zero.
    by_cases divisor : b = 0
    · subst divisor
      rw [compute, div_zero] at isFinite
      split at isFinite <;> cases isFinite
    · rw [compute, div_finite _ _ divisor, none.resolve_right divisor, Nat.zero_mul,
        ofQuotient_zero _ _ (Nat.pos_of_ne_zero divisor)]
      rfl

end PlusMinus
