import PlusMinus.Proofs.Double.Quotient

/-! Signs in arithmetic: what is computed without minus signs has none, and the sign of a zero only
matters in divisions by it. -/

namespace PlusMinus.Double

/-- The exact sum of two finite numbers is rounded once. -/
theorem add_finite {s t : Bool} {a b : Nat} (f : Fits a) (g : Fits b) :
    finite s a f + finite t b g
      = ofQuotient .toEven
        (if (finite s a f).signedQuanta + (finite t b g).signedQuanta = 0 then s && t
          else (finite s a f).signedQuanta + (finite t b g).signedQuanta < 0)
        ((finite s a f).signedQuanta + (finite t b g).signedQuanta).natAbs 1 := by
  change add _ _ = _
  simp only [add]

/-- The exact product of two finite numbers is rounded once. -/
theorem mul_finite {s t : Bool} {a b : Nat} (f : Fits a) (g : Fits b) :
    finite s a f * finite t b g = ofQuotient .toEven (s != t) (a * b) one := by
  change mul _ _ = _
  simp only [mul]

/-- The exact quotient of two finite numbers, the second not zero, is rounded once. -/
theorem div_finite {s t : Bool} {a b : Nat} (f : Fits a) (g : Fits b) (nonzero : b ≠ 0) :
    finite s a f / finite t b g = ofQuotient .toEven (s != t) (a * one) b := by
  change div _ _ = _
  simp only [div, if_neg nonzero]

/-- A quotient by zero is an infinity, or no number when the dividend is zero too. -/
theorem div_zero {s t : Bool} {a : Nat} (f : Fits a) :
    finite s a f / finite t 0 fits_zero = if a = 0 then nan else infinite (s != t) := by
  change div _ _ = _
  simp only [div, if_true]

/-- A double without a minus is no number, the positive infinity or a finite magnitude. -/
theorem nonnegative_cases {x : Double} (nonnegative : x.isNegative = false) :
    x = nan ∨ x = infinite false ∨ ∃ quanta fits, x = finite false quanta fits := by
  -- What is no number carries no sign, and the two others carry theirs openly.
  cases x with
  | nan => exact .inl rfl
  | infinite negative =>
    cases nonnegative
    exact .inr (.inl rfl)
  | finite negative quanta fits =>
    cases nonnegative
    exact .inr (.inr ⟨quanta, fits, rfl⟩)

/-- A double without a minus is no number or at least zero. -/
theorem isNaN_or_zero_le {x : Double} (nonnegative : x.isNegative = false) :
    x.isNaN = true ∨ zero.le x = true := by
  rcases nonnegative_cases nonnegative with rfl | rfl | ⟨quanta, fits, rfl⟩
  · exact .inl rfl
  · exact .inr (by decide +kernel)
  · exact .inr (by simp [le, position?, signedQuanta, zero])

/-- A double without a minus is not below zero. -/
theorem lt_zero_of_nonnegative {x : Double} (nonnegative : x.isNegative = false) :
    x.lt zero = false := by
  rcases nonnegative_cases nonnegative with rfl | rfl | ⟨quanta, fits, rfl⟩
  · rfl
  · decide +kernel
  · simp [lt, position?, signedQuanta, zero]

/-- What is not below zero is a number, and so is zero. -/
theorem zero_le_iff (x : Double) : zero.le x = true ↔ x.isNaN = false ∧ x.lt zero = false := by
  cases x with
  | nan => decide
  | infinite negative => cases negative <;> decide +kernel
  | finite negative quanta fits => simp [Double.le, lt, position?, isNaN, zero, signedQuanta]

/-- The sum of doubles without a minus has none. -/
theorem isNegative_add {x y : Double} (left : x.isNegative = false) (right : y.isNegative = false) :
    (x + y).isNegative = false := by
  rcases nonnegative_cases left with rfl | rfl | ⟨a, f, rfl⟩ <;>
    rcases nonnegative_cases right with rfl | rfl | ⟨b, g, rfl⟩
  case inr.inr.inr.inr =>
    -- Two finite numbers have a sum that is not below zero.
    rw [add_finite, isNegative_ofQuotient]
    by_cases none : (finite false a f).signedQuanta + (finite false b g).signedQuanta = 0
    · rw [if_pos none]
      rfl
    · rw [if_neg none]
      dsimp only [signedQuanta]
      exact decide_eq_false (by omega)
  all_goals rfl

/-- The product of doubles without a minus has none. -/
theorem isNegative_mul {x y : Double} (left : x.isNegative = false) (right : y.isNegative = false) :
    (x * y).isNegative = false := by
  rcases nonnegative_cases left with rfl | rfl | ⟨a, _, rfl⟩ <;>
    rcases nonnegative_cases right with rfl | rfl | ⟨b, _, rfl⟩
  -- An infinity times zero is no number, and carries no sign either.
  case inr.inl.inr.inr =>
    change (if b = 0 then nan else infinite false).isNegative = false
    split <;> rfl
  case inr.inr.inr.inl =>
    change (if a = 0 then nan else infinite false).isNegative = false
    split <;> rfl
  case inr.inr.inr.inr => rw [mul_finite, isNegative_ofQuotient, bne_self_eq_false]
  all_goals rfl

/-- The quotient of doubles without a minus has none. -/
theorem isNegative_div {x y : Double} (left : x.isNegative = false) (right : y.isNegative = false) :
    (x / y).isNegative = false := by
  rcases nonnegative_cases left with rfl | rfl | ⟨a, _, rfl⟩ <;>
    rcases nonnegative_cases right with rfl | rfl | ⟨b, _, rfl⟩
  case inr.inr.inr.inr =>
    -- Division by zero leads to an infinity with the product of the signs.
    by_cases zero : b = 0
    · subst zero
      rw [div_zero]
      split <;> rfl
    · rw [div_finite _ _ zero, isNegative_ofQuotient, bne_self_eq_false]
  all_goals rfl

/-- A magnitude has no minus. -/
theorem isNegative_abs (x : Double) : x.abs.isNegative = false := by
  cases x <;> rfl

/-- Equal doubles, or two zeros. -/
def Alike (x y : Double) : Prop := x = y ∨ (x.isZero = true ∧ y.isZero = true)

instance (x y : Double) : Decidable (Alike x y) := inferInstanceAs (Decidable (_ ∨ _))

namespace Alike

/-- A double is like itself. -/
theorem refl (x : Double) : Alike x x := .inl rfl

/-- Likeness does not depend on the order. -/
theorem symm {x y : Double} (alike : Alike x y) : Alike y x :=
  alike.imp Eq.symm And.symm

/-- Doubles that are like the same one are alike. -/
theorem trans {x y z : Double} (first : Alike x y) (second : Alike y z) : Alike x z := by
  rcases first with rfl | ⟨zero, middle⟩
  · exact second
  · -- What is like a zero is a zero.
    rcases second with rfl | ⟨_, last⟩
    · exact .inr ⟨zero, middle⟩
    · exact .inr ⟨zero, last⟩

end Alike

/-- A finite double is a sign with a magnitude. -/
theorem exists_of_isFinite {x : Double} (finite : x.isFinite = true) :
    ∃ negative quanta fits, x = .finite negative quanta fits := by
  cases x with
  | nan => cases finite
  | infinite negative => cases finite
  | finite negative quanta fits => exact ⟨negative, quanta, fits, rfl⟩

/-- A finite double is a number. -/
theorem isNaN_of_isFinite {x : Double} (finite : x.isFinite = true) : x.isNaN = false := by
  obtain ⟨negative, quanta, fits, rfl⟩ := exists_of_isFinite finite
  rfl

/-- A zero is a finite number without quanta. -/
theorem exists_of_isZero {x : Double} (zero : x.isZero = true) :
    ∃ negative, x = .finite negative 0 fits_zero := by
  cases x with
  | nan => cases zero
  | infinite negative => cases zero
  | finite negative quanta fits =>
    -- Only the sign is left open.
    have none : quanta = 0 := by simpa [isZero] using zero
    subst none
    exact ⟨negative, rfl⟩

/-- Whether a double is finite does not depend on the sign of a zero. -/
theorem Alike.isFinite {x y : Double} (alike : Alike x y) : x.isFinite = y.isFinite := by
  rcases alike with rfl | ⟨left, right⟩
  · rfl
  · obtain ⟨_, rfl⟩ := exists_of_isZero left
    obtain ⟨_, rfl⟩ := exists_of_isZero right
    rfl

/-- Whether a double is zero does not depend on its sign. -/
theorem Alike.isZero {x y : Double} (alike : Alike x y) : x.isZero = y.isZero := by
  rcases alike with rfl | ⟨left, right⟩
  · rfl
  · rw [left, right]

/-- Whether a double is a number does not depend on the sign of a zero. -/
theorem Alike.isNaN {x y : Double} (alike : Alike x y) : x.isNaN = y.isNaN := by
  rcases alike with rfl | ⟨left, right⟩
  · rfl
  · obtain ⟨_, rfl⟩ := exists_of_isZero left
    obtain ⟨_, rfl⟩ := exists_of_isZero right
    rfl

/-- A quotient of nothing is rounded to zero. -/
theorem ofQuotient_zero (tie : Tie) (negative : Bool) {denominator : Nat}
    (positive : 0 < denominator) :
    ofQuotient tie negative 0 denominator = .finite negative 0 fits_zero := by
  have rounded := ofQuotient_of_fits tie negative positive fits_zero
  rwa [Nat.zero_mul] at rounded

/-- Adding to either zero leads to the same number but for the sign of a zero. -/
theorem alike_zero_add (s t : Bool) (y : Double) :
    Alike (.finite s 0 fits_zero + y) (.finite t 0 fits_zero + y) := by
  cases y with
  | nan => exact .refl _
  | infinite negative => exact .refl _
  | finite negative quanta fits =>
    have nothing (sign : Bool) : (finite sign 0 fits_zero).signedQuanta = 0 := by
      cases sign <;> rfl
    simp only [add_finite, nothing, Int.zero_add]
    -- The signs of the zeros only meet when the sum is zero itself.
    by_cases none : (finite negative quanta fits).signedQuanta = 0
    · rw [none]
      simp only [Int.natAbs_zero, ofQuotient_zero _ _ (Nat.zero_lt_one)]
      exact .inr ⟨rfl, rfl⟩
    · simp only [if_neg none]
      exact .refl _

/-- Either zero times a number is the same but for the sign of a zero. -/
theorem alike_zero_mul (s t : Bool) (y : Double) :
    Alike (.finite s 0 fits_zero * y) (.finite t 0 fits_zero * y) := by
  cases y with
  | nan => exact .refl _
  | infinite negative => exact .refl _
  | finite negative quanta fits =>
    -- Nothing is left of the product but its sign.
    have unit : 0 < one := twoTo_pos _
    rw [mul_finite, mul_finite, Nat.zero_mul, ofQuotient_zero _ _ unit, ofQuotient_zero _ _ unit]
    exact .inr ⟨rfl, rfl⟩

/-- Either zero divided by a number that is not zero is the same but for the sign of a zero. -/
theorem alike_zero_div (s t : Bool) {y : Double} (nonzero : y.isZero = false) :
    Alike (.finite s 0 fits_zero / y) (.finite t 0 fits_zero / y) := by
  cases y with
  | nan => exact .refl _
  | infinite negative => exact .inr ⟨rfl, rfl⟩
  | finite negative quanta fits =>
    -- Nothing is left of the quotient but its sign.
    have divisor : quanta ≠ 0 := by simpa [isZero] using nonzero
    rw [div_finite _ _ divisor, div_finite _ _ divisor, Nat.zero_mul,
      ofQuotient_zero _ _ (Nat.pos_of_ne_zero divisor),
      ofQuotient_zero _ _ (Nat.pos_of_ne_zero divisor)]
    exact .inr ⟨rfl, rfl⟩

/-- The order of a sum does not matter. -/
theorem add_comm (x y : Double) : x + y = y + x := by
  -- Neither the sum nor the rule for the sign of a zero looks at the order.
  change add x y = add y x
  cases x <;> cases y <;> simp only [add]
  · split
    · rename_i same
      rw [if_pos same.symm, same]
    · rename_i different
      rw [if_neg (Ne.symm different)]
  · rw [Int.add_comm, Bool.and_comm]

/-- The order of a product does not matter. -/
theorem mul_comm (x y : Double) : x * y = y * x := by
  change mul x y = mul y x
  have swap (s t : Bool) : (s != t) = (t != s) := by cases s <;> cases t <;> rfl
  cases x <;> cases y <;> simp only [mul]
  case finite.finite s a _ t b _ => rw [swap, Nat.mul_comm a b]
  all_goals rw [swap]

namespace Alike

variable {x y z w : Double}

/-- An operation that does not tell the zeros apart keeps numbers alike. -/
theorem congr {f : Double → Double}
    (zeros : ∀ s t, Alike (f (.finite s 0 fits_zero)) (f (.finite t 0 fits_zero)))
    (alike : Alike x y) : Alike (f x) (f y) := by
  rcases alike with rfl | ⟨first, second⟩
  · exact .refl _
  · -- Numbers that are not equal are zeros with different signs.
    obtain ⟨s, rfl⟩ := exists_of_isZero first
    obtain ⟨t, rfl⟩ := exists_of_isZero second
    exact zeros s t

/-- Sums of numbers that are alike are alike. -/
theorem add (left : Alike x y) (right : Alike z w) : Alike (x + z) (y + w) := by
  -- One side is exchanged after the other.
  have first : Alike (x + z) (y + z) := left.congr (f := (· + z)) fun s t => alike_zero_add s t z
  have second : Alike (z + y) (w + y) := right.congr (f := (· + y)) fun s t => alike_zero_add s t y
  rw [add_comm z, add_comm w] at second
  exact first.trans second

/-- Opposite numbers of numbers that are alike are alike. -/
theorem neg (alike : Alike x y) : Alike (-x) (-y) :=
  alike.congr (f := Neg.neg) fun _ _ => .inr ⟨rfl, rfl⟩

/-- Differences of numbers that are alike are alike. -/
theorem sub (left : Alike x y) (right : Alike z w) : Alike (x - z) (y - w) :=
  left.add right.neg

/-- Products of numbers that are alike are alike. -/
theorem mul (left : Alike x y) (right : Alike z w) : Alike (x * z) (y * w) := by
  have first : Alike (x * z) (y * z) := left.congr (f := (· * z)) fun s t => alike_zero_mul s t z
  have second : Alike (z * y) (w * y) := right.congr (f := (· * y)) fun s t => alike_zero_mul s t y
  rw [mul_comm z, mul_comm w] at second
  exact first.trans second

/-- Quotients of numbers that are alike are alike, unless a divisor is zero. -/
theorem div (left : Alike x y) (right : Alike z w) (nonzero : z.isZero = false) :
    Alike (x / z) (y / w) := by
  -- Divisors that are not zero are equal when they are alike.
  have same : z = w := right.resolve_right fun zeros => by simp [zeros.1] at nonzero
  subst same
  exact left.congr (f := (· / z)) fun s t => alike_zero_div s t nonzero

end Alike

end PlusMinus.Double
