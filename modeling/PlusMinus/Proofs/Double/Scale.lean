import PlusMinus.Proofs.Checked.Display
import PlusMinus.Proofs.Decimal.Digit
import PlusMinus.Proofs.Double.Overflow

/-! Scaling by powers of ten: each step is off by a factor of at most one part in 2^53, and the
powers themselves are as well. -/

namespace PlusMinus

open Double

/-- Factors that are near one have a product that is near one. -/
theorem abs_mul_sub_one_le {a b r s : Rat} (first : |a - 1| ≤ r) (second : |b - 1| ≤ s) :
    |a * b - 1| ≤ r + s + r * s := by
  -- What the product is off by is what both are off by, and the product of that.
  have parts : a * b - 1 = (a - 1) + (b - 1) + (a - 1) * (b - 1) := by ring
  have product : |(a - 1) * (b - 1)| ≤ r * s := by
    rw [abs_mul]
    exact mul_le_mul first second (abs_nonneg _) ((abs_nonneg _).trans first)
  rw [parts]
  calc |(a - 1) + (b - 1) + (a - 1) * (b - 1)| ≤ |(a - 1) + (b - 1)| + |(a - 1) * (b - 1)| :=
    abs_add_le _ _
    _ ≤ |a - 1| + |b - 1| + |(a - 1) * (b - 1)| := add_le_add_left (abs_add_le _ _) _
    _ ≤ r + s + r * s := add_le_add (add_le_add first second) product

/-- Factors that are near one have a quotient that is near one. -/
theorem abs_div_sub_one_le {a b : Rat} (first : |a - 1| ≤ 1 / 2 ^ 53)
    (second : |b - 1| ≤ 1 / 2 ^ 53) :
    |a / b - 1| ≤ 9 / 4 / 2 ^ 53 := by
  obtain ⟨low, high⟩ := abs_le.1 first
  obtain ⟨low', high'⟩ := abs_le.1 second
  have positive : 0 < b := by linarith
  -- Both bounds are linear after multiplying with the divisor.
  rw [abs_le, le_sub_iff_add_le, sub_le_iff_le_add, le_div_iff₀ positive, div_le_iff₀ positive]
  constructor <;> linarith

/-- A whole number other than zero is one at least. -/
theorem one_le_abs {n : Int} (nonzero : n ≠ 0) : (1 : Rat) ≤ |(n : Rat)| := by
  rw [← Int.cast_abs]
  exact_mod_cast Int.one_le_abs nonzero

namespace Double

variable {x : Double} {z : Rat}

/-- A double that is finite and off from a number by a factor of at most one part in 2^53. -/
def Approximates (x : Double) (z : Rat) : Prop :=
  x.isFinite = true ∧ ∃ factor : Rat, |factor - 1| ≤ 1 / 2 ^ 53 ∧ x.toRat = z * factor

/-- What a number is off by is an error of a factor. -/
theorem approximates_of_error (range : x.isFinite = true)
    (off : ∃ error : Rat, |error| ≤ 1 / 2 ^ 53 ∧ x.toRat = z * (1 + error)) : x.Approximates z := by
  obtain ⟨error, small, value⟩ := off
  refine ⟨range, 1 + error, ?_, value⟩
  rw [add_sub_cancel_left]
  exact small

/-- One tenth is far above the smallest numbers of the normal range. -/
theorem zpow_le_tenth : (10 : Rat) ^ (-300 : Int) ≤ 1 / 10 :=
  (zpow_le_zpow_right₀ (by norm_num) (by decide : (-300 : Int) ≤ -1)).trans_eq (by norm_num)

/-- A number from 10^-300 on is approximated by the double nearest to it. -/
theorem nearest_approximates (normal : z = 0 ∨ 10 ^ (-300 : Int) ≤ |z|)
    (range : (nearest z).isFinite = true) : (nearest z).Approximates z :=
  approximates_of_error range
    (exists_error_nearest (normal.imp_right smallestNormal_le.trans) range)

/-- The opposite is off by the same factor. -/
theorem Approximates.neg (near : x.Approximates z) : (-x).Approximates (-z) := by
  obtain ⟨range, factor, close, value⟩ := near
  exact ⟨(isFinite_neg x).trans range, factor, close, by rw [toRat_neg, value, neg_mul]⟩

/-- Powers of ten have no minus. -/
theorem isNegative_powerOfTen (place : Int) : (powerOfTen place).isNegative = false := by
  unfold powerOfTen
  split <;> rw [isNegative_ofQuotient]

/-- A power of ten is approximated by the double that results are scaled by. -/
theorem powerOfTen_approximates {place : Int} (low : -300 ≤ place) (high : place ≤ 100) :
    (powerOfTen place).Approximates (10 ^ place) := by
  have unit : (0 : Rat) < one := Nat.cast_pos.2 unit_pos
  have range := (powerOfTen_scale place low high).1
  refine approximates_of_error range ?_
  -- The power is a quotient in which one side is one, and in the normal range.
  cases place with
  | ofNat n =>
    have normal : twoTo 52 * 1 ≤ tenTo n * one :=
      Nat.le_trans (by decide +kernel) (Nat.le_mul_of_pos_left one (tenTo_pos n))
    obtain ⟨error, small, value⟩ := exists_error_ofQuotient .upward Nat.one_pos normal range
    refine ⟨error, small, value.trans ?_⟩
    push_cast
    rw [cast_tenTo, one_mul, mul_div_cancel_right₀ _ unit.ne']
    rfl
  | negSucc n =>
    have few : tenTo (n + 1) ≤ tenTo 300 := tenTo_le (by omega)
    have normal : twoTo 52 * tenTo (n + 1) ≤ one :=
      Nat.le_trans (Nat.mul_le_mul_left _ few) (by decide +kernel)
    obtain ⟨error, small, value⟩ := exists_error_ofQuotient .upward (tenTo_pos (n + 1)) normal range
    refine ⟨error, small, value.trans ?_⟩
    rw [cast_tenTo, Int.negSucc_eq, zpow_neg, div_mul_cancel_right₀ unit.ne']
    push_cast
    rfl

/-- The double of a power of ten is positive, and within one tenth of the power. -/
theorem powerOfTen_bounds {place : Int} (low : -300 ≤ place) (high : place ≤ 100) :
    9 / 10 * 10 ^ place ≤ (powerOfTen place).toRat
      ∧ (powerOfTen place).toRat ≤ 11 / 10 * 10 ^ place := by
  have scale : (0 : Rat) < 10 ^ place := zpow_pos (by norm_num) _
  obtain ⟨_, factor, near, value⟩ := powerOfTen_approximates low high
  obtain ⟨least, most⟩ := abs_le.1 near
  rw [value, Rat.mul_comm (10 ^ place) factor]
  constructor <;> refine mul_le_mul_of_nonneg_right ?_ scale.le <;> linarith

end Double

/-- A whole number of units of a power of ten is approximated by the double that it denotes. -/
theorem Decimal.toDouble_approximates {n e : Int} (low : -300 ≤ e)
    (range : (toDouble false ⟨n.natAbs, e⟩).isFinite = true) :
    (toDouble (decide (n < 0)) ⟨n.natAbs, e⟩).Approximates (n * 10 ^ e) := by
  have unit : (0 : Rat) < 10 ^ e := zpow_pos (by norm_num) _
  have total : toRat ⟨n.natAbs, e⟩ = |(n : Rat)| * 10 ^ e := by
    rw [toRat_eq, Nat.cast_natAbs, Int.cast_abs]
  -- Without its sign it is zero or one unit at least.
  have unsigned : (toDouble false ⟨n.natAbs, e⟩).Approximates (|(n : Rat)| * 10 ^ e) := by
    rw [toDouble_eq_nearest, total] at range ⊢
    refine nearest_approximates ?_ range
    by_cases zero : n = 0
    · left
      rw [zero, Int.cast_zero, abs_zero, zero_mul]
    · right
      have power : (10 : Rat) ^ (-300 : Int) ≤ 10 ^ e := zpow_le_zpow_right₀ (by norm_num) low
      rw [abs_mul, abs_abs, abs_of_pos unit]
      exact power.trans (le_mul_of_one_le_left unit.le (one_le_abs zero))
  -- The sign of the whole number is that of the double.
  rcases Int.lt_or_le n 0 with negative | positive
  · have below : (n : Rat) ≤ 0 := by exact_mod_cast negative.le
    have opposite := unsigned.neg
    rw [abs_of_nonpos below, neg_mul, neg_neg] at opposite
    rw [decide_eq_true negative, toDouble_true]
    exact opposite
  · have above : (0 : Rat) ≤ n := by exact_mod_cast positive
    rw [abs_of_nonneg above] at unsigned
    rw [decide_eq_false (Int.not_lt.2 positive)]
    exact unsigned

/-- The outcome of an operation on doubles is finite when the exact one is below a power of two in
range. -/
theorem Operator.isFinite_compute (operator : Operator) {x y : Double} (first : x.isFinite = true)
    (second : y.isFinite = true) (nonzero : operator = .div → y.isZero = false) {e : Nat}
    (small : |operator.exact x.toRat y.toRat| ≤ twoTo e) (range : e < 1024) :
    (operator.compute x y).isFinite = true :=
  (operator.compute_alike_nearest first second nonzero).isFinite.trans
    (isFinite_nearest small range)

/-- The outcome of an operation on doubles approximates the exact one, unless that is out of
range. -/
theorem Operator.compute_approximates (operator : Operator) {x y : Double}
    (first : x.isFinite = true)
    (second : y.isFinite = true) (nonzero : operator = .div → y.isZero = false)
    (normal : operator.exact x.toRat y.toRat = 0
      ∨ 10 ^ (-300 : Int) ≤ |operator.exact x.toRat y.toRat|)
    (range : (operator.compute x y).isFinite = true) :
    (operator.compute x y).Approximates (operator.exact x.toRat y.toRat) := by
  have alike := operator.compute_alike_nearest first second nonzero
  obtain ⟨_, factor, near, value⟩ := nearest_approximates normal (alike.isFinite.symm.trans range)
  exact ⟨range, factor, near, alike.toRat.trans value⟩

end PlusMinus
