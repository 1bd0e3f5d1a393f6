import PlusMinus.Proofs.Double.Rounds
import PlusMinus.Proofs.Expression.Chosen

/-! What an expression denotes in floating-point arithmetic, as that is specified: the exact outcome
of an operation on finite numbers is rounded, infinities and zeros have rules of their own, and a
quotient by zero is an infinity unless it is that of a zero. Walking the expression leads there and
nowhere else. -/

namespace PlusMinus

open Double

/-- A double with the opposite number and the opposite sign. -/
inductive Double.Opposite : Double → Double → Prop
  | undefined : Opposite .nan .nan
  | infinite (negative : Bool) : Opposite (.infinite negative) (.infinite !negative)
  | finite {x y : Double} (left : x.isFinite = true) (right : y.isFinite = true)
      (number : y.toRat = -x.toRat) (sign : y.isNegative = !x.isNegative) : Opposite x y

namespace Double

variable {x y : Double}

/-- A finite double that is not zero has the sign of its number. -/
theorem sign_cases (isFinite : x.isFinite = true) (some : x.toRat ≠ 0) :
    (0 < x.toRat ∧ x.isNegative = false) ∨ (x.toRat < 0 ∧ x.isNegative = true) := by
  obtain ⟨negative, quanta, fits, rfl⟩ := exists_of_isFinite isFinite
  have unit : (0 : Rat) < one := Nat.cast_pos.2 unit_pos
  have size : (0 : Rat) ≤ (quanta : Rat) / one := div_nonneg (Nat.cast_nonneg _) unit.le
  rw [toRat_eq, signedQuanta_finite] at some ⊢
  -- The number is that of the quanta with the sign, and there are some.
  cases negative with
  | false =>
    simp only [Bool.false_eq_true, if_false, Int.cast_natCast] at some ⊢
    exact .inl ⟨lt_of_le_of_ne size (Ne.symm some), rfl⟩
  | true =>
    simp only [if_true, Int.cast_neg, Int.cast_natCast, neg_div] at some ⊢
    exact .inr
      ⟨neg_neg_of_pos (lt_of_le_of_ne size fun none => some (by rw [← none, neg_zero])), rfl⟩

/-- The signs of two numbers differ when one is above zero and the other below. -/
theorem isNegative_ne_iff (first : x.isFinite = true) (second : y.isFinite = true)
    (some : x.toRat ≠ 0) (some' : y.toRat ≠ 0) :
    (x.isNegative != y.isNegative) = true
      ↔ 0 < x.toRat ∧ y.toRat < 0 ∨ x.toRat < 0 ∧ 0 < y.toRat := by
  rcases sign_cases first some with ⟨order, sign⟩ | ⟨order, sign⟩ <;>
    rcases sign_cases second some' with ⟨order', sign'⟩ | ⟨order', sign'⟩ <;>
    simp [sign, sign', order, order', not_lt_of_gt]

/-- A sum has the sign of the exact one; a sum of zero is only negative if both terms are. -/
theorem isNegative_add_finite (first : x.isFinite = true) (second : y.isFinite = true) :
    (x + y).isNegative = if x.toRat + y.toRat = 0 then x.isNegative && y.isNegative
      else decide (x.toRat + y.toRat < 0) := by
  obtain ⟨s, a, f, rfl⟩ := exists_of_isFinite first
  obtain ⟨t, b, g, rfl⟩ := exists_of_isFinite second
  have unit : (0 : Rat) < one := Nat.cast_pos.2 unit_pos
  -- The sum is one of quanta.
  have total : (finite s a f).toRat + (finite t b g).toRat
      = ((finite s a f).signedQuanta + (finite t b g).signedQuanta : Int) / one := by
    rw [toRat_eq, toRat_eq, ← add_div, Int.cast_add]
  have none : (finite s a f).toRat + (finite t b g).toRat = 0
      ↔ (finite s a f).signedQuanta + (finite t b g).signedQuanta = 0 := by
    rw [total, div_eq_zero_iff, or_iff_left unit.ne', Int.cast_eq_zero]
  have below : (finite s a f).toRat + (finite t b g).toRat < 0
      ↔ (finite s a f).signedQuanta + (finite t b g).signedQuanta < 0 := by
    rw [total, div_lt_iff₀ unit, zero_mul, Int.cast_lt_zero]
  rw [add_finite, isNegative_ofQuotient]
  simp only [none, below]
  rfl

end Double

namespace Operator

/-- The sign of an outcome that is exactly zero: that of both terms of a sum if they share one, and
that of the signs of the factors taken together. -/
def zeroSign : Operator → Double → Double → Bool
  | .add, x, y => x.isNegative && y.isNegative
  | .sub, x, y => x.isNegative && !y.isNegative
  | .mul, x, y | .div, x, y => x.isNegative != y.isNegative

/-- The outcome of an operation on doubles. -/
inductive Yields : Operator → Double → Double → Double → Prop
  | undefined {operator : Operator} {x y : Double} (none : x.isNaN = true ∨ y.isNaN = true) :
      Yields operator x y .nan
  /-- The exact outcome of finite numbers is rounded; only by zero nothing is divided. -/
  | rounded {operator : Operator} {x y z : Double} (first : x.isFinite = true)
      (second : y.isFinite = true) (divisor : operator = .div → y.isZero = false)
      (rounds : Rounds (operator.exact x.toRat y.toRat) (operator.zeroSign x y) z) :
      Yields operator x y z
  | byZero {x y : Double} (first : x.isFinite = true) (some : x.isZero = false)
      (second : y.isZero = true) : Yields .div x y (.infinite (x.isNegative != y.isNegative))
  | zeroByZero {x y : Double} (first : x.isZero = true) (second : y.isZero = true) :
      Yields .div x y .nan
  | infiniteSum {s : Bool} {y : Double} (second : y.isFinite = true ∨ y = .infinite s) :
      Yields .add (.infinite s) y (.infinite s)
  | sumInfinite {x : Double} {t : Bool} (first : x.isFinite = true) :
      Yields .add x (.infinite t) (.infinite t)
  | oppositeInfinities (s : Bool) : Yields .add (.infinite s) (.infinite !s) .nan
  | infiniteDifference {s : Bool} {y : Double} (second : y.isFinite = true ∨ y = .infinite !s) :
      Yields .sub (.infinite s) y (.infinite s)
  | differenceInfinite {x : Double} {t : Bool} (first : x.isFinite = true) :
      Yields .sub x (.infinite t) (.infinite !t)
  | sameInfinities (s : Bool) : Yields .sub (.infinite s) (.infinite s) .nan
  | infiniteProduct {x y : Double} (first : x.isNaN = false ∧ x.isZero = false)
      (second : y.isNaN = false ∧ y.isZero = false)
      (infinite : ¬(x.isFinite = true ∧ y.isFinite = true)) :
      Yields .mul x y (.infinite (x.isNegative != y.isNegative))
  | infiniteByZero {s : Bool} {y : Double} (second : y.isZero = true) :
      Yields .mul (.infinite s) y .nan
  | zeroByInfinite {x : Double} {t : Bool} (first : x.isZero = true) :
      Yields .mul x (.infinite t) .nan
  | infiniteQuotient {s : Bool} {y : Double} (second : y.isFinite = true) :
      Yields .div (.infinite s) y (.infinite (s != y.isNegative))
  | quotientInfinite {x z : Double} {t : Bool} (first : x.isFinite = true) (zero : z.isZero = true)
      (sign : z.isNegative = (x.isNegative != t)) : Yields .div x (.infinite t) z
  | quotientInfinities (s t : Bool) : Yields .div (.infinite s) (.infinite t) .nan

/-- The sign of an outcome of finite numbers is that of the exact one. -/
theorem isNegative_compute (operator : Operator) {x y : Double} (first : x.isFinite = true)
    (second : y.isFinite = true) (divisor : operator = .div → y.isZero = false) :
    (operator.compute x y).isNegative
      = if operator.exact x.toRat y.toRat = 0 then operator.zeroSign x y
        else decide (operator.exact x.toRat y.toRat < 0) := by
  -- A product or a quotient has the sign that the signs of its factors make.
  have product (computed : (operator.compute x y).isNegative = (x.isNegative != y.isNegative))
      (same : operator.zeroSign x y = (x.isNegative != y.isNegative))
      (apart : operator.exact x.toRat y.toRat ≠ 0 → x.toRat ≠ 0 ∧ y.toRat ≠ 0)
      (below : operator.exact x.toRat y.toRat < 0
        ↔ 0 < x.toRat ∧ y.toRat < 0 ∨ x.toRat < 0 ∧ 0 < y.toRat) :
      (operator.compute x y).isNegative
        = if operator.exact x.toRat y.toRat = 0 then operator.zeroSign x y
          else decide (operator.exact x.toRat y.toRat < 0) := by
    rw [computed, same]
    split
    · rfl
    · rename_i some
      obtain ⟨left, right⟩ := apart some
      rw [Bool.eq_iff_iff, decide_eq_true_iff, below, isNegative_ne_iff first second left right]
  cases operator with
  | add => exact isNegative_add_finite first second
  | sub =>
    -- A difference is the sum with the opposite.
    have difference := isNegative_add_finite first ((isFinite_neg y).trans second)
    have sign : (-y).isNegative = !y.isNegative := by
      obtain ⟨t, b, g, rfl⟩ := exists_of_isFinite second
      rfl
    rw [sign, toRat_neg, ← sub_eq_add_neg] at difference
    exact difference
  | mul =>
    refine product ?_ rfl mul_ne_zero_iff.1 mul_neg_iff
    obtain ⟨s, a, f, rfl⟩ := exists_of_isFinite first
    obtain ⟨t, b, g, rfl⟩ := exists_of_isFinite second
    exact (congrArg isNegative (mul_finite f g)).trans (isNegative_ofQuotient _ _ _ _)
  | div =>
    refine product ?_ rfl div_ne_zero_iff.1 div_neg_iff
    have some := divisor rfl
    obtain ⟨s, a, f, rfl⟩ := exists_of_isFinite first
    obtain ⟨t, b, g, rfl⟩ := exists_of_isFinite second
    have some : b ≠ 0 := by simpa [isZero] using some
    exact (congrArg isNegative (div_finite f g some)).trans (isNegative_ofQuotient _ _ _ _)

/-- An operation on finite numbers rounds the exact outcome. -/
theorem rounds_compute (operator : Operator) {x y : Double} (first : x.isFinite = true)
    (second : y.isFinite = true) (divisor : operator = .div → y.isZero = false) :
    Rounds (operator.exact x.toRat y.toRat) (operator.zeroSign x y) (operator.compute x y) :=
  rounds_of_alike (operator.compute_alike_nearest first second divisor)
    (operator.isNegative_compute first second divisor)

/-- An operation on what is no number has no number for an outcome. -/
theorem compute_eq_nan {operator : Operator} {x y : Double}
    (none : x.isNaN = true ∨ y.isNaN = true) :
    operator.compute x y = .nan := by
  rcases none with none | none
  · cases x with
    | nan => exact (operator.compute_nan y).1
    | infinite s => cases none
    | finite s a f => cases none
  · cases y with
    | nan => exact (operator.compute_nan x).2
    | infinite s => cases none
    | finite s a f => cases none

/-- A product with an infinity has the sign that both factors make, if neither of them is a zero. -/
theorem mul_infinite {x y : Double} (first : x.isNaN = false ∧ x.isZero = false)
    (second : y.isNaN = false ∧ y.isZero = false)
    (infinite : ¬(x.isFinite = true ∧ y.isFinite = true)) :
    x * y = .infinite (x.isNegative != y.isNegative) := by
  -- At least one factor is infinite, and the other one is no zero, so only the signs are left.
  cases x with
  | nan => cases first.1
  | infinite s =>
    cases y with
    | nan => cases second.1
    | infinite t => rfl
    | finite t b g =>
      have some : b ≠ 0 := by simpa [isZero] using second.2
      exact if_neg some
  | finite s a f =>
    have some : a ≠ 0 := by simpa [isZero] using first.2
    cases y with
    | nan => cases second.1
    | infinite t => exact if_neg some
    | finite t b g => exact absurd ⟨rfl, rfl⟩ infinite

/-- A quotient by zero has no number for an outcome or an infinite one. -/
theorem div_zero (s t : Bool) {a : Nat} (f : Fits a) :
    finite s a f / finite t 0 fits_zero = if a = 0 then .nan else .infinite (s != t) := by
  change Double.div _ _ = _
  simp only [Double.div, if_true]

/-- An operation on finite numbers yields what it computes. -/
theorem yields_compute_finite (operator : Operator) {x y : Double} (first : x.isFinite = true)
    (second : y.isFinite = true) : operator.Yields x y (operator.compute x y) := by
  by_cases divisor : operator = .div → y.isZero = false
  · exact .rounded first second divisor (operator.rounds_compute first second divisor)
  -- What is left is a quotient by zero, of zero or of another number.
  simp only [Classical.not_imp, Bool.not_eq_false] at divisor
  obtain ⟨rfl, none⟩ := divisor
  obtain ⟨s, a, f, rfl⟩ := exists_of_isFinite first
  obtain ⟨t, rfl⟩ := exists_of_isZero none
  change Yields .div _ _ (finite s a f / finite t 0 fits_zero)
  rw [div_zero]
  split
  · rename_i zero
    exact .zeroByZero (beq_iff_eq.2 zero) rfl
  · rename_i some
    exact .byZero rfl (by simpa [isZero] using some) rfl

/-- An operation on an infinity and a number yields what it computes. -/
theorem yields_compute_infinite (operator : Operator) (s : Bool) {y : Double}
    (second : y.isNaN = false) :
    operator.Yields (.infinite s) y (operator.compute (.infinite s) y) := by
  -- Two infinities may cancel each other, and a zero makes a product undefined; otherwise the
  -- infinity decides.
  cases y with
  | nan => cases second
  | infinite t =>
    cases operator with
    | add =>
      cases s <;> cases t
      exacts [.infiniteSum (.inr rfl), .oppositeInfinities false, .oppositeInfinities true,
        .infiniteSum (.inr rfl)]
    | sub =>
      cases s <;> cases t
      exacts [.sameInfinities false, .infiniteDifference (.inr rfl), .infiniteDifference (.inr rfl),
        .sameInfinities true]
    | mul => exact .infiniteProduct ⟨rfl, rfl⟩ ⟨rfl, rfl⟩ fun both => Bool.false_ne_true both.1
    | div => exact .quotientInfinities s t
  | finite t b g =>
    cases operator with
    | add => exact .infiniteSum (.inl rfl)
    | sub => exact .infiniteDifference (.inl rfl)
    | mul =>
      change Yields .mul _ _ (if b = 0 then .nan else .infinite (s != t))
      split
      · rename_i zero
        exact .infiniteByZero (beq_iff_eq.2 zero)
      · rename_i some
        exact .infiniteProduct ⟨rfl, rfl⟩ ⟨rfl, by simpa [isZero] using some⟩
          fun both => Bool.false_ne_true both.1
    | div => exact .infiniteQuotient rfl

/-- What an operation computes is what it yields. -/
theorem yields_compute (operator : Operator) (x y : Double) :
    operator.Yields x y (operator.compute x y) := by
  -- Operands that are no number come first, then whether the left one is infinite, or else the
  -- right one; two finite operands are rounded.
  cases undefined : x.isNaN || y.isNaN with
  | true =>
    have none : x.isNaN = true ∨ y.isNaN = true := by simpa using undefined
    rw [compute_eq_nan none]
    exact .undefined none
  | false =>
    obtain ⟨left, right⟩ := Bool.or_eq_false_iff.1 undefined
    cases x with
    | nan => cases left
    | infinite s => exact operator.yields_compute_infinite s right
    | finite s a f =>
      cases y with
      | nan => cases right
      | finite t b g => exact operator.yields_compute_finite rfl rfl
      | infinite t =>
        cases operator with
        | add => exact .sumInfinite rfl
        | sub => exact .differenceInfinite rfl
        | mul =>
          change Yields .mul _ _ (if a = 0 then .nan else .infinite (s != t))
          split
          · rename_i zero
            exact .zeroByInfinite (beq_iff_eq.2 zero)
          · rename_i some
            exact .infiniteProduct ⟨rfl, by simpa [isZero] using some⟩ ⟨rfl, rfl⟩
              fun both => Bool.false_ne_true both.2
        | div => exact .quotientInfinite rfl rfl rfl

/-- Nothing else is yielded. -/
theorem Yields.eq_compute {operator : Operator} {x y z : Double} (yields : operator.Yields x y z) :
    z = operator.compute x y := by
  -- Where an operation is rounded the rounded number is the only one; everywhere else the kinds of
  -- the operands and their signs tell what is computed.
  cases yields with
  | undefined none => exact (compute_eq_nan none).symm
  | rounded first second divisor rounds =>
    exact rounds.unique (operator.rounds_compute first second divisor)
  | byZero first some second =>
    obtain ⟨s, a, f, rfl⟩ := exists_of_isFinite first
    obtain ⟨t, rfl⟩ := exists_of_isZero second
    have some : a ≠ 0 := by simpa [isZero] using some
    exact ((div_zero s t f).trans (if_neg some)).symm
  | zeroByZero first second =>
    obtain ⟨s, rfl⟩ := exists_of_isZero first
    obtain ⟨t, rfl⟩ := exists_of_isZero second
    exact (div_zero s t fits_zero).symm
  | infiniteSum second =>
    rename_i s
    rcases second with isFinite | rfl
    · obtain ⟨t, b, g, rfl⟩ := exists_of_isFinite isFinite
      rfl
    · cases s <;> rfl
  | sumInfinite first | differenceInfinite first =>
    obtain ⟨s, a, f, rfl⟩ := exists_of_isFinite first
    rfl
  | oppositeInfinities s | sameInfinities s => cases s <;> rfl
  | infiniteDifference second =>
    rename_i s
    rcases second with isFinite | rfl
    · obtain ⟨t, b, g, rfl⟩ := exists_of_isFinite isFinite
      rfl
    · cases s <;> rfl
  | infiniteProduct first second infinite => exact (mul_infinite first second infinite).symm
  | infiniteByZero second =>
    obtain ⟨t, rfl⟩ := exists_of_isZero second
    rfl
  | zeroByInfinite first =>
    obtain ⟨s, rfl⟩ := exists_of_isZero first
    rfl
  | infiniteQuotient second =>
    obtain ⟨t, b, g, rfl⟩ := exists_of_isFinite second
    rfl
  | quotientInfinite first zero sign =>
    obtain ⟨s, a, f, rfl⟩ := exists_of_isFinite first
    obtain ⟨t, rfl⟩ := exists_of_isZero zero
    obtain rfl := sign
    rfl
  | quotientInfinities s t => rfl

end Operator

namespace Double

variable {x y z : Double}

/-- The number with the other sign is the opposite one. -/
theorem opposite_neg (x : Double) : x.Opposite (-x) := by
  cases x with
  | nan => exact .undefined
  | infinite s => exact .infinite s
  | finite s a f => exact .finite rfl rfl (toRat_neg _) rfl

/-- There is one opposite. -/
theorem Opposite.eq_neg (opposite : x.Opposite y) : y = -x := by
  cases opposite with
  | undefined | infinite s => rfl
  | finite left right number sign =>
    -- The number gives the magnitude.
    have magnitudes := congrArg (fun number : Rat => |number|) number
    simp only [abs_neg] at magnitudes
    rw [abs_toRat left, abs_toRat right, div_left_inj' unit_ne, Nat.cast_inj] at magnitudes
    obtain ⟨s, a, f, rfl⟩ := exists_of_isFinite left
    obtain ⟨t, b, g, rfl⟩ := exists_of_isFinite right
    obtain rfl : b = a := magnitudes
    obtain rfl : t = !s := sign
    rfl

end Double

namespace Expression

/-- What an expression stands for in floating-point arithmetic; one with a name stands for
nothing. -/
inductive Denotes : Expression → Double → Prop
  | number (x : Double) : Denotes (.number x) x
  | positive {e : Expression} {x : Double} (operand : Denotes e x) : Denotes (.positive e) x
  | negative {e : Expression} {x y : Double} (operand : Denotes e x) (opposite : x.Opposite y) :
      Denotes (.negative e) y
  | binary {operator : Operator} {l r : Expression} {x y z : Double} (left : Denotes l x)
      (right : Denotes r y) (yields : operator.Yields x y z) : Denotes (.binary operator l r) z

variable {e : Expression} {x : Double}

/-- Walking an expression leads to what it stands for. -/
theorem denotes_of_value? (value : e.value? = some x) : e.Denotes x := by
  -- The induction is on the tree, with one rule of the relation for each of its nodes.
  induction e generalizing x with
  | number y =>
    cases value
    exact .number y
  | name text => cases value
  | positive operand ih => exact .positive (ih value)
  | negative operand ih =>
    obtain ⟨y, inner, rfl⟩ := Option.map_eq_some_iff.1 value
    exact .negative (ih inner) (opposite_neg y)
  | binary operator left right ihLeft ihRight =>
    simp only [value?, Option.bind_eq_bind, Option.bind_eq_some_iff, Option.pure_def,
      Option.some.injEq] at value
    obtain ⟨y, first, z, second, rfl⟩ := value
    exact .binary (ihLeft first) (ihRight second) (operator.yields_compute y z)

/-- An expression stands for nothing but what walking it leads to. -/
theorem Denotes.value? (denotes : e.Denotes x) : e.value? = some x := by
  -- The induction is on the rules, each of which is undone by a step of the walk.
  induction denotes with
  | number x => rfl
  | positive operand ih => exact ih
  | negative operand opposite ih => rw [Expression.value?, ih, opposite.eq_neg, Option.map_some]
  | binary left right yields ihLeft ihRight =>
    rw [Expression.value?, ihLeft, ihRight, yields.eq_compute]
    rfl

end Expression

end PlusMinus
