import Mathlib.Analysis.SpecialFunctions.Log.Deriv
import PlusMinus.Double.Log

/-! The series for the logarithm of a quotient near one: summed in whole numbers, it is off by less
than one part in 2^191. -/

namespace PlusMinus.Double

section Terms

variable {t : ℝ} {power square : Nat}

/-- The terms of the inverse hyperbolic tangent from an index on. -/
noncomputable def areaTerms (t : ℝ) (index count : Nat) : ℝ :=
  ∑ i ∈ Finset.range count, t ^ (2 * (index + i) + 1) / (2 * (index + i : Nat) + 1)

/-- The first of the terms stands before the others. -/
theorem areaTerms_succ (t : ℝ) (index count : Nat) :
    areaTerms t index (count + 1)
      = t ^ (2 * index + 1) / (2 * (index : Nat) + 1) + areaTerms t (index + 1) count := by
  unfold areaTerms
  rw [Finset.sum_range_succ', add_comm]
  congr 1
  exact Finset.sum_congr rfl fun i _ => by rw [show index + (i + 1) = index + 1 + i by omega]

/-- A number of units of the scale that is not above what it stands for, and below it by some slack
at most. -/
structure Below (slack : ℝ) (n : Nat) (z : ℝ) : Prop where
  le : (n : ℝ) ≤ z * seriesScale
  near : z * seriesScale ≤ n + slack

/-- The scale is positive. -/
theorem scale_pos : (0 : ℝ) < seriesScale := Nat.cast_pos.2 (twoTo_pos 200)

/-- The scale is a power of two. -/
theorem scale_eq : (seriesScale : ℝ) = 2 ^ 200 := by
  rw [seriesScale, show twoTo 200 = 2 ^ 200 from rfl, Nat.cast_pow, Nat.cast_ofNat]

/-- A whole quotient is at most one below the quotient. -/
theorem whole_quotient (n : Nat) {d : Nat} (positive : 0 < d) :
    ((n / d : Nat) : ℝ) * d ≤ n ∧ (n : ℝ) ≤ ((n / d : Nat) + 1) * d := by
  have lower := Nat.div_mul_le_self n d
  have upper := Nat.lt_div_mul_add (a := n) positive
  rw [← Nat.succ_mul] at upper
  exact ⟨by exact_mod_cast lower, by exact_mod_cast upper.le⟩

namespace Below

variable {u v a b : ℝ} {m n : Nat}

/-- With more slack a number is still below. -/
theorem mono (below : Below u n a) (le : u ≤ v) : Below v n a :=
  ⟨below.le, below.near.trans (by linarith)⟩

/-- Two numbers of units have a product that is below by what each of them loses of the other, and
one unit. -/
theorem mul (first : Below u m a) (second : Below v n b) (some : 0 ≤ a) (slack : 0 ≤ u) :
    Below (a * v + b * u + 1) (m * n / seriesScale) (a * b) := by
  have unit := scale_pos
  have size : 0 ≤ a * seriesScale := mul_nonneg some unit.le
  obtain ⟨lower, upper⟩ := whole_quotient (d := seriesScale) (m * n) (twoTo_pos 200)
  push_cast at lower upper
  constructor <;> refine le_of_mul_le_mul_right ?_ unit
  · calc ((m * n / seriesScale : Nat) : ℝ) * seriesScale ≤ m * n := lower
      _ ≤ a * seriesScale * (b * seriesScale) :=
        mul_le_mul first.le second.le (Nat.cast_nonneg n) size
      _ = a * b * seriesScale * seriesScale := by ring
  · -- The product of the two is taken apart into that of the units and what is lost.
    have lost : a * seriesScale * (b * seriesScale - n) ≤ a * seriesScale * v :=
      mul_le_mul_of_nonneg_left (by linarith [second.near]) size
    have lost' : (a * seriesScale - m) * n ≤ u * (b * seriesScale) :=
      (mul_le_mul_of_nonneg_right (by linarith [first.near]) (Nat.cast_nonneg n)).trans
        (mul_le_mul_of_nonneg_left second.le slack)
    calc a * b * seriesScale * seriesScale
        = a * seriesScale * (b * seriesScale - n) + (a * seriesScale - m) * n + m * n := by ring
      _ ≤ a * seriesScale * v + u * (b * seriesScale)
        + (((m * n / seriesScale : Nat) : ℝ) + 1) * seriesScale :=
        add_le_add (add_le_add lost lost') upper
      _ = (((m * n / seriesScale : Nat) : ℝ) + (a * v + b * u + 1)) * seriesScale := by ring

/-- A whole number of units that is divided loses one more unit at most. -/
theorem div (below : Below u n a) {d : Nat} (positive : 0 < d) (slack : 0 ≤ u) :
    Below (u + 1) (n / d) (a / d) := by
  have some : (1 : ℝ) ≤ d := Nat.one_le_cast.2 positive
  obtain ⟨lower, upper⟩ := whole_quotient n positive
  -- The division loses the fraction of a unit, and what was lost before gets no larger.
  constructor
  · rw [div_mul_eq_mul_div, le_div_iff₀ (by linarith)]
    exact lower.trans below.le
  · rw [div_mul_eq_mul_div, div_le_iff₀ (by linarith)]
    have more := le_mul_of_one_le_right slack some
    linarith [below.near]

end Below

/-- The terms that are summed in whole numbers are below those of the series by at most three units
each. -/
theorem atanhTerms_below (nonnegative : 0 ≤ t) (small : t ≤ 1 / 3)
    (squared : Below 2 square (t ^ 2)) (count : Nat) :
    ∀ {index power : Nat}, Below 2 power (t ^ (2 * index + 1)) →
      Below (3 * count) (atanhTerms count index power square) (areaTerms t index count) := by
  have square_small : t ^ 2 ≤ 1 / 9 := by nlinarith
  induction count with
  | zero =>
    intro index power _
    exact ⟨by simp [atanhTerms, areaTerms], by simp [atanhTerms, areaTerms]⟩
  | succ count ih =>
    intro index power below
    -- The next power loses little of the one before, since the square is small.
    have power_small : t ^ (2 * index + 1) ≤ 1 / 3 :=
      (pow_le_of_le_one nonnegative (by linarith) (by omega)).trans small
    have next : Below 2 (power * square / seriesScale) (t ^ (2 * (index + 1) + 1)) := by
      have product := below.mul squared (pow_nonneg nonnegative _) (by norm_num)
      rw [← pow_add] at product
      exact product.mono (by linarith)
    have first := below.div (by omega : 0 < 2 * index + 1) (by norm_num)
    have later := ih next
    rw [areaTerms_succ, atanhTerms]
    push_cast at first ⊢
    constructor
    · have le := add_le_add first.le later.le
      rw [← add_mul] at le
      push_cast
      exact le
    · have near := add_le_add first.near later.near
      rw [← add_mul] at near
      push_cast
      linarith

/-- The terms behind the first sixty-four add less than half a unit to the logarithm. -/
theorem log_areaTerms (nonnegative : 0 ≤ t) (small : t ≤ 1 / 3) :
    2 * areaTerms t 0 64 ≤ Real.log ((1 + t) / (1 - t))
      ∧ Real.log ((1 + t) / (1 - t)) * seriesScale ≤ 2 * areaTerms t 0 64 * seriesScale + 1 := by
  have inside : |t| < 1 := by
    rw [abs_of_nonneg nonnegative]
    linarith
  have series := Real.hasSum_log_sub_log_of_abs_lt_one inside
  rw [← Real.log_div (by linarith) (by linarith)] at series
  -- The partial sum is part of the series for the logarithm of a quotient, whose terms are
  -- positive.
  have finite : ∑ k ∈ Finset.range 64, 2 * (1 / (2 * (k : ℝ) + 1)) * t ^ (2 * k + 1)
      = 2 * areaTerms t 0 64 := by
    rw [areaTerms, Finset.mul_sum]
    refine Finset.sum_congr rfl fun k _ => ?_
    rw [Nat.zero_add]
    ring
  rw [← finite]
  refine ⟨sum_le_hasSum _ (fun k _ => by positivity) series, ?_⟩
  -- The other terms are below those of a geometric series.
  have rest := (hasSum_nat_add_iff' 64).2 series
  have geometric : HasSum (fun k : Nat => 2 * (1 / 3 : ℝ) ^ 129 * (1 / 9 : ℝ) ^ k)
      (2 * (1 / 3) ^ 129 * (1 - 1 / 9)⁻¹) :=
    (hasSum_geometric_of_lt_one (by norm_num) (by norm_num)).mul_left _
  have tail := hasSum_le (fun k => ?_) rest geometric
  · have little : 2 * (1 / 3 : ℝ) ^ 129 * (1 - 1 / 9)⁻¹ * seriesScale ≤ 1 := by
      rw [scale_eq]
      norm_num
    have scaled := mul_le_mul_of_nonneg_right tail scale_pos.le
    rw [sub_mul] at scaled
    linarith
  · have power : t ^ (2 * (k + 64) + 1) ≤ (1 / 3 : ℝ) ^ 129 * (1 / 9 : ℝ) ^ k := by
      calc t ^ (2 * (k + 64) + 1) ≤ (1 / 3 : ℝ) ^ (2 * (k + 64) + 1) :=
        pow_le_pow_left₀ nonnegative small _
        _ = (1 / 3 : ℝ) ^ 129 * (1 / 9 : ℝ) ^ k := by
          rw [show (1 / 9 : ℝ) = (1 / 3) ^ 2 by norm_num, ← pow_mul, ← pow_add]
          congr 1
          omega
    have index : (0 : ℝ) ≤ (k + 64 : Nat) := Nat.cast_nonneg _
    have divisor : 1 / (2 * ((k + 64 : Nat) : ℝ) + 1) ≤ 1 := by
      rw [div_le_one (by linarith)]
      linarith
    calc 2 * (1 / (2 * ((k + 64 : Nat) : ℝ) + 1)) * t ^ (2 * (k + 64) + 1)
        ≤ 2 * 1 * ((1 / 3 : ℝ) ^ 129 * (1 / 9 : ℝ) ^ k) :=
          mul_le_mul (by linarith) power (pow_nonneg nonnegative _) (by norm_num)
      _ = 2 * (1 / 3 : ℝ) ^ 129 * (1 / 9 : ℝ) ^ k := by ring

end Terms

/-- The sum of the series for the logarithm of a quotient, in units of the scale; of the two parts
it takes the difference and the sum. -/
def seriesSum (difference sum : Nat) : Nat :=
  atanhTerms 64 0 (difference * seriesScale / sum)
    (difference * seriesScale / sum * (difference * seriesScale / sum) / seriesScale)

/-- Twice the sum of the series is near the logarithm of a quotient from one to two. -/
theorem log_near {a b : Nat} (positive : 0 < b) (le : b ≤ a) (most : a ≤ 2 * b) :
    |2 * (seriesSum (a - b) (a + b) : ℝ) / seriesScale - Real.log (a / b)| ≤ 1 / 2 ^ 191 := by
  have some : (0 : ℝ) < b := Nat.cast_pos.2 positive
  have unit := scale_pos
  -- The argument of the series is at most one third.
  obtain ⟨c, rfl⟩ := Nat.exists_eq_add_of_le' le
  have few : (c : ℝ) ≤ b := by exact_mod_cast (by omega : c ≤ b)
  have rest : (0 : ℝ) ≤ c := Nat.cast_nonneg c
  have sum : (0 : ℝ) < c + b + b := by linarith
  have nonnegative : 0 ≤ (c : ℝ) / (c + b + b) := div_nonneg (Nat.cast_nonneg c) sum.le
  have small : (c : ℝ) / (c + b + b) ≤ 1 / 3 := by
    rw [div_le_div_iff₀ sum (by norm_num)]
    linarith
  have quotient : (1 + (c : ℝ) / (c + b + b)) / (1 - c / (c + b + b)) = (c + b : Nat) / b := by
    have other : (1 : ℝ) - c / (c + b + b) ≠ 0 := by linarith
    push_cast
    rw [div_eq_div_iff other some.ne']
    field_simp
    ring
  -- Each division by the scale loses one unit, so the argument and its square are known up to one
  -- and two of them.
  have ratio : Below 1 (c * seriesScale / (c + b + b)) ((c : ℝ) / (c + b + b)) := by
    have exact : Below 0 (c * seriesScale) c := ⟨by push_cast; exact le_rfl, by push_cast; linarith⟩
    have quotient := exact.div (by omega : 0 < c + b + b) le_rfl
    rw [zero_add] at quotient
    push_cast at quotient
    exact quotient
  have squared :
      Below 2 (c * seriesScale / (c + b + b) * (c * seriesScale / (c + b + b)) / seriesScale)
      (((c : ℝ) / (c + b + b)) ^ 2) := by
    rw [pow_two]
    exact (ratio.mul ratio nonnegative (by norm_num)).mono (by linarith)
  have first : Below 2 (c * seriesScale / (c + b + b)) (((c : ℝ) / (c + b + b)) ^ (2 * 0 + 1)) := by
    rw [Nat.mul_zero, Nat.zero_add, pow_one]
    exact ratio.mono (by norm_num)
  obtain ⟨below, near⟩ := atanhTerms_below nonnegative small squared 64 first
  obtain ⟨least, most⟩ := log_areaTerms nonnegative small
  rw [quotient] at least most
  rw [seriesSum, Nat.add_sub_cancel]
  -- In units of the scale the sum loses less than four hundred of them.
  generalize Real.log ((c + b : Nat) / b) = logarithm at *
  generalize atanhTerms 64 0 _ _ = terms at *
  generalize areaTerms _ 0 64 = area at *
  have scaled := mul_le_mul_of_nonneg_right least unit.le
  rw [abs_le, le_sub_iff_add_le, sub_le_iff_le_add, le_div_iff₀ unit, div_le_iff₀ unit, scale_eq]
    at *
  push_cast at near
  constructor <;> norm_num at * <;> linarith

end PlusMinus.Double
