import Mathlib.Analysis.SpecialFunctions.Log.Base
import PlusMinus.Proofs.Decimal.Digit
import PlusMinus.Proofs.Double.Overflow
import PlusMinus.Proofs.Double.Series

/-! The common logarithm of a double is computed to within one part in 2^53, before it is rounded
for the last time. -/

namespace PlusMinus

namespace Double

section Error

variable {K : Type*} [Field K] [LinearOrder K] [IsStrictOrderedRing K] {a b c p q r s t : K}

/-- What is near a small number is small. -/
theorem abs_le_of_near (near : |a - b| ≤ r) (small : |b| ≤ s) : |a| ≤ r + s := by
  have parts := abs_sub_abs_le_abs_sub a b
  linarith

/-- Bounds of two numbers bound their product. -/
theorem abs_mul_le (first : |a| ≤ r) (second : |b| ≤ s) : |a * b| ≤ r * s := by
  rw [abs_mul]
  exact mul_le_mul first second (abs_nonneg b) ((abs_nonneg a).trans first)

/-- A sum that is near that of two numbers is near the sum of what these are near to. -/
theorem abs_sum_sub_sum_le (first : |p - a| ≤ r) (second : |q - b| ≤ s)
    (third : |c - (p + q)| ≤ t) :
    |c - (a + b)| ≤ r + s + t := by
  have parts := abs_sub_le c (p + q) (a + b)
  have parts' := abs_add_le (p - a) (q - b)
  rw [sub_add_sub_comm] at parts'
  linarith

/-- A multiple of a number that is known nearly is known nearly. -/
theorem abs_mul_sub_le {u v : K} (near : |a * b - u| ≤ r) (some : 0 ≤ a) (most : a ≤ 1)
    (first : |b - c| ≤ s) (second : |u - v| ≤ t) : |a * c - v| ≤ r + s + t := by
  have lost : |a * c - a * b| ≤ s := by
    rw [← mul_sub, abs_mul, abs_of_nonneg some, abs_sub_comm]
    exact (mul_le_of_le_one_left (abs_nonneg _) most).trans first
  have parts := abs_sub_le (a * c) (a * b) v
  have parts' := abs_sub_le (a * b) u v
  linarith

end Error

section Rounding

/-- A power of two in quanta is a fraction of one. -/
theorem twoTo_div_one {bits : Nat} (fine : bits ≤ 1074) :
    (twoTo (1074 - bits) : Rat) / one = 1 / 2 ^ bits := by
  have parts : one = twoTo (1074 - bits) * twoTo bits := by
    rw [one, ← twoTo_add, Nat.sub_add_cancel fine]
  have power : (twoTo bits : Rat) = 2 ^ bits := by rw [cast_twoTo, zpow_natCast]
  rw [parts, Nat.cast_mul, power, ← div_div, div_self (Nat.cast_ne_zero.2 (twoTo_pos _).ne')]

/-- There are doubles at both ends of a short stretch around zero. -/
theorem exists_of_tiny (n : Int) (few : n.natAbs ≤ twoTo 53) :
    ∃ x : Double, x.isFinite = true ∧ x.toRat = n * (1 / 2 ^ 201) := by
  obtain ⟨x, isFinite, value⟩ := exists_of_few few (by decide : 1074 - 201 < 2045)
  refine ⟨x, isFinite, ?_⟩
  rw [value, mul_div_assoc, twoTo_div_one (by decide)]

/-- A number is off from its nearest double by at most one part in 2^53, and by next to nothing
below the normal range. -/
theorem abs_nearest_sub_le_of_isFinite {z : Rat} (range : (nearest z).isFinite = true) :
    |(nearest z).toRat - z| ≤ |z| / 2 ^ 53 + 1 / 2 ^ 200 := by
  rcases le_or_gt smallestNormal |z| with normal | subnormal
  · obtain ⟨error, small, same⟩ := exists_error_nearest (.inr normal) range
    have lost := mul_le_mul_of_nonneg_left small (abs_nonneg z)
    rw [same, show z * (1 + error) - z = z * error by ring, abs_mul]
    linarith [show (0 : Rat) ≤ 1 / 2 ^ 200 by positivity]
  · -- Rounding does not lead out of a short stretch around zero.
    have short : (10 : Rat) ^ (-300 : Int) ≤ 1 / 2 ^ 201 :=
      (zpow_le_zpow_right₀ (by norm_num) (by decide : (-300 : Int) ≤ -61)).trans (by norm_num)
    have inside : |z| ≤ 1 / 2 ^ 201 := subnormal.le.trans (smallestNormal_le.trans short)
    obtain ⟨low, isFinite, below⟩ := exists_of_tiny (-1) (by decide)
    obtain ⟨high, isFinite', above⟩ := exists_of_tiny 1 (by decide)
    rw [Int.cast_neg, Int.cast_one, neg_one_mul] at below
    rw [Int.cast_one, one_mul] at above
    obtain ⟨least, most⟩ := abs_le.1 inside
    have lower := (nearest_between isFinite range).1 (below.trans_le least)
    have upper := (nearest_between isFinite' range).2 (most.trans above.ge)
    have positive : 0 ≤ |z| / 2 ^ 53 := div_nonneg (abs_nonneg z) (by norm_num)
    rw [abs_le]
    constructor <;> linarith

end Rounding

end Double

open Double

/-- An outcome that is the number of a double is not rounded. -/
theorem Operator.compute_of_exact (operator : Operator) {x y z : Double} (first : x.isFinite = true)
    (second : y.isFinite = true) (nonzero : operator = .div → y.isZero = false)
    (third : z.isFinite = true)
    (exact : operator.exact x.toRat y.toRat = z.toRat) : (operator.compute x y).Alike z := by
  have alike := operator.compute_alike_nearest first second nonzero
  rw [exact] at alike
  exact alike.trans (alike_nearest third).symm

/-- Powers of two are one at least. -/
theorem Double.one_le_twoTo (n : Nat) : (1 : Rat) ≤ twoTo n := by
  exact_mod_cast Nat.one_le_two_pow

/-- An operation whose exact outcome is of moderate size is off by at most one part in 2^53, and by
next to nothing below the normal range. -/
theorem Operator.abs_compute_sub_le (operator : Operator) {x y : Double} (first : x.isFinite = true)
    (second : y.isFinite = true) (nonzero : operator = .div → y.isZero = false) {bound : Rat}
    (small : |operator.exact x.toRat y.toRat| ≤ bound) (moderate : bound ≤ twoTo 20) :
    (operator.compute x y).isFinite = true
      ∧ |(operator.compute x y).toRat - operator.exact x.toRat y.toRat|
        ≤ bound / 2 ^ 53 + 1 / 2 ^ 200 := by
  -- What is rounded is far from the largest double.
  have range := isFinite_nearest (small.trans moderate) (by decide : 20 < 1024)
  have alike := operator.compute_alike_nearest first second nonzero
  refine ⟨alike.isFinite.trans range, ?_⟩
  rw [alike.toRat]
  refine (abs_nearest_sub_le_of_isFinite range).trans ?_
  have scaled := div_le_div_of_nonneg_right small (by positivity : (0 : Rat) ≤ 2 ^ 53)
  linarith

namespace Double

section Constants

/-- The logarithm of two by the series. -/
def seriesTwo : Rat := (2 * seriesSum 1 3 : Nat) / seriesScale

/-- The logarithm of ten by the series, which is made from those of two and of five quarters. -/
def seriesTen : Rat := (6 * seriesSum 1 3 + 2 * seriesSum 1 9 : Nat) / seriesScale

/-- The logarithms by the series are those of two and of ten. -/
theorem series_near :
    |(seriesTwo : ℝ) - Real.log 2| ≤ 1 / 2 ^ 191
      ∧ |(seriesTen : ℝ) - Real.log 10| ≤ 1 / 2 ^ 188 := by
  have two := log_near (a := 2) (b := 1) (by decide) (by decide) (by decide)
  have quarters := log_near (a := 5) (b := 4) (by decide) (by decide) (by decide)
  -- Ten is two to the third times five quarters, and the series converges fast for both.
  have ten : Real.log 10 = 3 * Real.log 2 + Real.log (5 / 4) := by
    rw [show (10 : ℝ)
      = 2 ^ 3 * (5 / 4) by norm_num, Real.log_mul (by norm_num) (by norm_num), Real.log_pow]
    norm_num
  push_cast [seriesTwo, seriesTen] at two quarters ⊢
  rw [div_one] at two
  refine ⟨two, ?_⟩
  have sum : (6 * seriesSum 1 3 + 2 * seriesSum 1 9 : ℝ) / seriesScale
      = 3 * (2 * seriesSum 1 3 / seriesScale) + 2 * seriesSum 1 9 / seriesScale := by ring
  rw [ten, sum]
  rw [abs_le] at *
  norm_num at two quarters ⊢
  constructor <;> linarith

/-- What the constants are in numbers: between which ones the logarithms by the series are, how near
the constants that logarithms are taken with are to these, how large they are, and of how few bits
the leading part is. -/
theorem constants :
    (((6931 / 10 ^ 4 + 1 / 2 ^ 188 ≤ seriesTwo) ∧ seriesTwo ≤ 6932 / 10 ^ 4 - 1 / 2 ^ 188)
        ∧ 23025 / 10 ^ 4 + 1 / 2 ^ 188 ≤ seriesTen ∧ seriesTen ≤ 23026 / 10 ^ 4 - 1 / 2 ^ 188)
      ∧ (|log10E.toRat * seriesTen - 1| ≤ 22779 / 10 ^ 5 / 2 ^ 53
        ∧ |(log10TwoHigh.toRat + log10TwoLow.toRat) * seriesTen - seriesTwo| ≤ 1 / 2 ^ 91)
      ∧ ((log10E.isFinite = true ∧ 0 ≤ log10E.toRat ∧ log10E.toRat ≤ 4343 / 10 ^ 4)
        ∧ (log10TwoHigh.isFinite = true ∧ 0 ≤ log10TwoHigh.toRat ∧ log10TwoHigh.toRat ≤ 1 / 2)
        ∧ log10TwoLow.isFinite = true ∧ 0 ≤ log10TwoLow.toRat ∧ log10TwoLow.toRat ≤ 1 / 2 ^ 41)
      ∧ log10TwoHigh.toRat = (log10TwoHigh.magnitude / twoTo 1033 : Nat) * twoTo 1033 / one
        ∧ log10TwoHigh.magnitude / twoTo 1033 ≤ twoTo 40 := by
  decide +kernel

/-- The logarithm of ten is positive. -/
theorem log_ten_pos : 0 < Real.log 10 := Real.log_pos (by norm_num)

/-- Between which numbers the logarithms of two and of ten are. -/
theorem log_bounds :
    (6931 / 10 ^ 4 ≤ Real.log 2 ∧ Real.log 2 ≤ 6932 / 10 ^ 4)
      ∧ 23025 / 10 ^ 4 ≤ Real.log 10 ∧ Real.log 10 ≤ 23026 / 10 ^ 4 := by
  obtain ⟨two, ten⟩ := series_near
  have series := constants.1
  simp only [← Rat.cast_le (K := ℝ)] at series
  push_cast at series
  -- The sums are further from these bounds than from the logarithms.
  rw [abs_le] at two ten
  norm_num at *
  refine ⟨⟨?_, ?_⟩, ?_, ?_⟩ <;> linarith

/-- The common logarithm of e is off by less than a quarter of one part in 2^53. -/
theorem log10E_near : |(log10E.toRat : ℝ) * Real.log 10 - 1| ≤ 2278 / 10 ^ 4 / 2 ^ 53 := by
  obtain ⟨_, ⟨series, _⟩, ⟨⟨_, some, most⟩, _⟩, _⟩ := constants
  have most : log10E.toRat ≤ 1 := most.trans (by norm_num)
  rw [← Rat.cast_le (K := ℝ)] at series some most
  push_cast at series some most
  refine (abs_mul_sub_le series some most series_near.2 (t := 0) (by simp)).trans ?_
  norm_num

/-- The two parts of the common logarithm of two leave next to nothing of it. -/
theorem log10Two_near :
    |((log10TwoHigh.toRat + log10TwoLow.toRat : Rat) : ℝ) * Real.log 10
      - Real.log 2| ≤ 1 / 2 ^ 90 := by
  obtain ⟨_, ⟨_, series⟩, ⟨_, ⟨_, high, high'⟩, _, low, low'⟩, _⟩ := constants
  have some : 0 ≤ log10TwoHigh.toRat + log10TwoLow.toRat := add_nonneg high low
  have most : log10TwoHigh.toRat + log10TwoLow.toRat ≤ 1 :=
    (add_le_add high' low').trans (by norm_num)
  rw [← Rat.cast_le (K := ℝ)] at series some most
  rw [Rat.cast_zero] at some
  rw [Rat.cast_one] at most
  rw [Rat.cast_abs, Rat.cast_sub, Rat.cast_mul] at series
  -- The constants are near the quotient of the two series, which are near the logarithms.
  refine (abs_mul_sub_le series some most series_near.2 series_near.1).trans ?_
  push_cast
  norm_num

end Constants

section Significand

variable {a b : Nat}

/-- The logarithm of a quotient from one half to two is no larger than that of two. -/
theorem abs_log_quotient_le (some : 0 < a) (some' : 0 < b) (most : a ≤ 2 * b) (most' : b ≤ 2 * a) :
    |Real.log (a / b)| ≤ Real.log 2 := by
  have first : (0 : ℝ) < a := Nat.cast_pos.2 some
  have second : (0 : ℝ) < b := Nat.cast_pos.2 some'
  have upper : (a : ℝ) ≤ 2 * b := by exact_mod_cast most
  have lower : (b : ℝ) ≤ 2 * a := by exact_mod_cast most'
  -- The logarithm increases, so the two ends of the range bound it.
  rw [abs_le, ← Real.log_inv]
  constructor
  · refine Real.log_le_log (by norm_num) ?_
    rw [le_div_iff₀ second]
    linarith
  · refine Real.log_le_log (div_pos first second) ?_
    rwa [div_le_iff₀ second]

/-- The logarithm of a significand is the double nearest to twice the sum of the series, with the
sign of the logarithm. -/
theorem lnQuotient_alike (a b : Nat) :
    (lnQuotient a b).Alike (nearest (if a < b then -(2 * seriesSum (b - a) (a + b) / seriesScale)
      else 2 * seriesSum (a - b) (a + b) / seriesScale)) := by
  -- The series is summed over the difference without its sign, which is put back by the rounding.
  have same : lnQuotient a b
      = ofQuotient .toEven (a < b)
        (2 * seriesSum (if a < b then b - a else a - b) (a + b) * one) seriesScale := rfl
  have positive : 0 < seriesScale := twoTo_pos 200
  rw [same]
  refine (ofQuotient_alike_rounded_signed _ _ positive).nearest positive ?_
  by_cases less : a < b
  · simp only [less, decide_true, if_true]
    push_cast
    rw [neg_div, mul_div_mul_right _ _ unit_ne]
  · simp only [less, decide_false, Bool.false_eq_true, if_false]
    push_cast
    exact mul_div_mul_right _ _ unit_ne

/-- What the logarithm of a significand is nearest to differs from the logarithm by next to
nothing. -/
theorem exists_lnQuotient_near (some : 0 < a) (some' : 0 < b) (most : a ≤ 2 * b)
    (most' : b ≤ 2 * a) :
    ∃ z : Rat, (lnQuotient a b).Alike (nearest z) ∧ |(z : ℝ) - Real.log (a / b)| ≤ 1 / 2 ^ 191 := by
  refine ⟨_, lnQuotient_alike a b, ?_⟩
  split
  · -- Below one it is the opposite of that of the inverse.
    rename_i less
    have near := log_near some less.le most'
    rw [← inv_div (a : ℝ), Real.log_inv, Nat.add_comm] at near
    push_cast
    rw [← abs_neg, neg_sub', neg_neg]
    exact near
  · rename_i reached
    push_cast
    exact log_near some' (not_lt.1 reached) most

/-- The logarithm of a significand is off by little more than the one rounding. -/
theorem lnQuotient_near (some : 0 < a) (some' : 0 < b) (most : a ≤ 2 * b) (most' : b ≤ 2 * a) :
    (lnQuotient a b).isFinite = true ∧ |(lnQuotient a b).toRat| ≤ 6933 / 10 ^ 4
      ∧ |((lnQuotient a b).toRat : ℝ) - Real.log (a / b)| ≤ 6933 / 10 ^ 4 / 2 ^ 53 := by
  obtain ⟨z, alike, near⟩ := exists_lnQuotient_near some some' most most'
  have size := (abs_log_quotient_le some some' most most').trans log_bounds.1.2
  -- The sum is not above the logarithm of two by more than the series loses, so the rounding does
  -- not overflow and loses no more than its part of that.
  have few : |z| ≤ 1 / 2 ^ 191 + 6932 / 10 ^ 4 := by
    rw [← Rat.cast_le (K := ℝ)]
    push_cast
    exact abs_le_of_near near size
  have range : (nearest z).isFinite = true := by
    refine isFinite_nearest (e := 0) (few.trans ?_) (by decide)
    rw [show twoTo 0 = 1 from rfl]
    norm_num
  have lost := abs_nearest_sub_le_of_isFinite range
  rw [← alike.toRat] at lost
  refine ⟨alike.isFinite.trans range, ?_, ?_⟩
  · refine (abs_le_of_near lost few).trans ?_
    norm_num at few ⊢
    linarith
  · have parts := abs_sub_le ((lnQuotient a b).toRat : ℝ) z (Real.log (a / b))
    rw [← Rat.cast_le (K := ℝ)] at lost few
    push_cast at lost few
    norm_num at parts near lost few ⊢
    linarith

end Significand

section Sum

variable {x : Double}

/-- The logarithm of a number is taken from that of its significand and from the exponent of a power
of two. -/
theorem exists_power (isFinite : x.isFinite = true) (nonzero : x.isZero = false) :
    ∃ k : Nat, k ≤ 2100 ∧ 0 < x.magnitude ∧ x.magnitude ≤ 2 * twoTo k ∧ twoTo k ≤ 2 * x.magnitude
      ∧ x.log10
        = (ofInt ((k : Int) - 1074) * log10TwoLow + log10E * lnQuotient x.magnitude (twoTo k))
        + ofInt ((k : Int) - 1074) * log10TwoHigh := by
  have bits : x.magnitude ≠ 0 ∧ x.magnitude < limit := by
    obtain ⟨negative, quanta, fits, rfl⟩ := exists_of_isFinite isFinite
    exact ⟨by simpa [isZero, magnitude] using nonzero, fits.1⟩
  unfold log10
  dsimp only
  generalize x.magnitude = quanta at bits
  obtain ⟨some, less⟩ := bits
  have least : twoTo quanta.log2 ≤ quanta := Nat.log2_self_le some
  have most : quanta < twoTo (quanta.log2 + 1) := Nat.lt_log2_self
  have next : twoTo (quanta.log2 + 1) = twoTo quanta.log2 * 2 := twoTo_add _ 1
  have range : quanta.log2 < 2098 := log2_lt_of_lt_twoTo (by decide) less
  -- The power is that of the leading bit, or the next one below one.
  by_cases below : (quanta.log2 : Int) - 1074 < 0
  · refine ⟨quanta.log2 + 1, by omega, by omega, by omega, by omega, ?_⟩
    rw [if_pos below, if_pos below, show ((quanta.log2 + 1 : Nat) : Int) - 1074
      = quanta.log2 - 1074 + 1 by omega]
  · refine ⟨quanta.log2, by omega, by omega, by omega, by omega, ?_⟩
    rw [if_neg below, if_neg below]

/-- The multiples of the leading bits of the common logarithm of two are exact. -/
theorem mul_log10TwoHigh {n : Int} (few : n.natAbs ≤ 1100) :
    (ofInt n * log10TwoHigh).isFinite = true
      ∧ (ofInt n * log10TwoHigh).toRat = n * log10TwoHigh.toRat := by
  obtain ⟨_, _, ⟨_, ⟨isFinite, _⟩, _⟩, value, bits⟩ := constants
  generalize log10TwoHigh.magnitude / twoTo 1033 = m at value bits
  have most : n.natAbs ≤ twoTo 53 := few.trans (by decide)
  -- The leading bits leave room for the multiplier in the 53 bits of a double.
  have product : (n * m : Int).natAbs ≤ twoTo 53 := by
    rw [Int.natAbs_mul, Int.natAbs_natCast]
    exact (Nat.mul_le_mul few bits).trans (by decide)
  obtain ⟨w, finite, same⟩ := exists_of_few product (by decide : 1033 < 2045)
  have exact : w.toRat = n * log10TwoHigh.toRat := by
    rw [same, value, Int.cast_mul, Int.cast_natCast]
    ring
  have alike : (ofInt n * log10TwoHigh).Alike w :=
    Operator.mul.compute_of_exact (isFinite_ofInt most) isFinite (by simp) finite
      ((congrArg (· * log10TwoHigh.toRat) (toRat_ofInt most)).trans exact.symm)
  exact ⟨alike.isFinite.trans finite, alike.toRat.trans exact⟩

/-- Three roundings lead to what is added to the multiple of the leading bits; none of them loses
more than its part of one in 2^53. -/
theorem remainder_near {y : Int} {l : Double} (few : y.natAbs ≤ 1100) (isFinite : l.isFinite = true)
    (small : |l.toRat| ≤ 6933 / 10 ^ 4) :
    (ofInt y * log10TwoLow + log10E * l).isFinite = true
      ∧ |(ofInt y * log10TwoLow + log10E * l).toRat| ≤ 1
      ∧ |(ofInt y * log10TwoLow + log10E * l).toRat
        - (y * log10TwoLow.toRat + log10E.toRat * l.toRat)|
        ≤ 6026 / 10 ^ 4 / 2 ^ 53 := by
  obtain ⟨_, _, ⟨⟨real, some, most⟩, _, real', low, low'⟩, _⟩ := constants
  have bits : y.natAbs ≤ twoTo 53 := few.trans (by decide)
  have bound : |(y : Rat)| ≤ 1100 := by
    rw [← Int.cast_abs, Int.abs_eq_natAbs]
    exact_mod_cast few
  have moderate := one_le_twoTo 20
  -- Both products are small, and so is their sum: each bound tells what its rounding may lose.
  have first : |(ofInt y).toRat * log10TwoLow.toRat| ≤ 1100 * (1 / 2 ^ 41) := by
    rw [toRat_ofInt bits, abs_mul, abs_of_nonneg low]
    exact mul_le_mul bound low' low (by norm_num)
  have second : |log10E.toRat * l.toRat| ≤ 4343 / 10 ^ 4 * (6933 / 10 ^ 4) := by
    rw [abs_mul, abs_of_nonneg some]
    exact mul_le_mul most small (abs_nonneg _) (by norm_num)
  obtain ⟨range, lost⟩ :=
    Operator.mul.abs_compute_sub_le (isFinite_ofInt bits) real' (by simp) first
    (le_trans (by norm_num) moderate)
  obtain ⟨range', lost'⟩ := Operator.mul.abs_compute_sub_le real isFinite (by simp) second
    (le_trans (by norm_num) moderate)
  simp only [Operator.exact] at lost lost'
  -- What was lost before is counted into the size of the sum.
  have third :
      |(Operator.mul.compute (ofInt y) log10TwoLow).toRat + (Operator.mul.compute log10E l).toRat|
      ≤ 3012 / 10 ^ 4 := by
    refine (abs_add_le _ _).trans
      ((add_le_add (abs_le_of_near lost first) (abs_le_of_near lost' second)).trans ?_)
    norm_num
  obtain ⟨range'', lost''⟩ :=
    Operator.add.abs_compute_sub_le range range' (by simp) third (le_trans (by norm_num) moderate)
  rw [← toRat_ofInt bits]
  exact ⟨range'', (abs_le_of_near lost'' third).trans (by norm_num),
    (abs_sum_sub_sum_le lost lost' lost'').trans (by norm_num)⟩

/-- How far the sum is from a common logarithm, given what the remainder loses. -/
theorem abs_sum_sub_le {y rest μ l : ℝ} (few : |y| ≤ 1100) (near : |l - μ| ≤ 6933 / 10 ^ 4 / 2 ^ 53)
    (size : |μ| ≤ 6932 / 10 ^ 4)
    (lost : |rest - (y * (log10TwoLow.toRat : ℝ) + (log10E.toRat : ℝ) * l)|
      ≤ 6026 / 10 ^ 4 / 2 ^ 53) :
    |rest + y * (log10TwoHigh.toRat : ℝ) - (y * Real.log 2 + μ) / Real.log 10|
      ≤ 98 / 10 ^ 2 / 2 ^ 53 := by
  obtain ⟨_, least, most⟩ := log_bounds
  have positive := log_ten_pos
  have ten : |Real.log 10| ≤ 23026 / 10 ^ 4 := by rwa [abs_of_pos positive]
  have scaled : |(log10E.toRat : ℝ) * Real.log 10| ≤ 1001 / 10 ^ 3 :=
    (abs_le_of_near log10E_near abs_one.le).trans (by norm_num)
  -- Four differences make up the one of the whole, all of them scaled by the logarithm of ten.
  have rounding := abs_mul_le ten lost
  have exponent := abs_mul_le few log10Two_near
  have series := abs_mul_le scaled near
  have constant := abs_mul_le log10E_near size
  have parts : (rest + y * (log10TwoHigh.toRat : ℝ)) * Real.log 10 - (y * Real.log 2 + μ)
      = Real.log 10 * (rest - (y * (log10TwoLow.toRat : ℝ) + (log10E.toRat : ℝ) * l))
        + y * (((log10TwoHigh.toRat + log10TwoLow.toRat : Rat) : ℝ) * Real.log 10 - Real.log 2)
        + (log10E.toRat : ℝ) * Real.log 10 * (l - μ)
          + ((log10E.toRat : ℝ) * Real.log 10 - 1) * μ := by
    push_cast
    ring
  have whole : |(rest + y * (log10TwoHigh.toRat : ℝ)) * Real.log 10 - (y * Real.log 2 + μ)|
      ≤ 98 / 10 ^ 2 / 2 ^ 53 * (23025 / 10 ^ 4) := by
    rw [parts]
    refine (abs_add_le _ _).trans (le_trans (add_le_add_left ((abs_add_le _ _).trans
      (add_le_add_left ((abs_add_le _ _).trans (add_le_add rounding exponent)) _)) _) ?_)
    norm_num at series constant ⊢
    linarith
  rw [← mul_div_cancel_right₀ (rest + y * (log10TwoHigh.toRat : ℝ)) positive.ne', ← sub_div,
    abs_div, abs_of_pos positive, div_le_iff₀ positive]
  exact whole.trans (mul_le_mul_of_nonneg_left least (by norm_num))

/-- The logarithm of a number by its significand and its power of two. -/
theorem log_abs_toRat (isFinite : x.isFinite = true) (some : 0 < x.magnitude) (k : Nat) :
    Real.log (|x.toRat| : Rat) = ((k : Int) - 1074 : Int) * Real.log 2
      + Real.log (x.magnitude / (twoTo k : Nat)) := by
  have nonzero : (x.magnitude : ℝ) ≠ 0 := Nat.cast_ne_zero.2 some.ne'
  -- The magnitude counts quanta of 2^-1074, whose logarithm is that many times the one of two.
  have power : ∀ n : Nat, (twoTo n : ℝ) ≠ 0 := fun n => Nat.cast_ne_zero.2 (twoTo_pos n).ne'
  have log : ∀ n : Nat, Real.log (twoTo n : Nat) = n * Real.log 2 := fun n => by
    rw [show twoTo n = 2 ^ n from rfl, Nat.cast_pow, Real.log_pow, Nat.cast_ofNat]
  have unit : Real.log (one : Nat) = 1074 * Real.log 2 := by
    rw [show one = twoTo 1074 from rfl, log, Nat.cast_ofNat]
  have unit' : (one : ℝ) ≠ 0 := power 1074
  rw [abs_toRat isFinite, Rat.cast_div,
    Rat.cast_natCast, Rat.cast_natCast, Real.log_div nonzero unit', Real.log_div nonzero (power k),
    log, unit]
  push_cast
  ring

/-- What the common logarithm of a number is nearest to is off by less than one part in 2^53. -/
theorem exists_log10_near (isFinite : x.isFinite = true) (nonzero : x.isZero = false) :
    x.log10.isFinite = true ∧ ∃ z : Rat, x.log10.Alike (nearest z)
      ∧ |(z : ℝ) - Real.logb 10 (|x.toRat| : Rat)| ≤ 98 / 10 ^ 2 / 2 ^ 53 := by
  obtain ⟨k, range, some, most, most', same⟩ := exists_power isFinite nonzero
  have few : ((k : Int) - 1074).natAbs ≤ 1100 := by omega
  have log := log_abs_toRat isFinite some k
  obtain ⟨series, small, near⟩ := lnQuotient_near some (twoTo_pos k) most most'
  have size := (abs_log_quotient_le some (twoTo_pos k) most most').trans log_bounds.1.2
  have bound : |(((k : Int) - 1074 : Int) : Rat)| ≤ 1100 := by
    rw [← Int.cast_abs, Int.abs_eq_natAbs]
    exact_mod_cast few
  obtain ⟨_, _, ⟨_, ⟨_, high, high'⟩, _⟩, _⟩ := constants
  obtain ⟨exact, multiple⟩ := mul_log10TwoHigh few
  obtain ⟨finite, slight, lost⟩ := remainder_near few series small
  -- The last sum is the only rounding that is left.
  have alike := Operator.add.compute_alike_nearest finite exact (by simp)
  simp only [Operator.exact, multiple] at alike
  rw [same]
  refine ⟨alike.isFinite.trans (isFinite_nearest (e := 20) ?_ (by decide)), _, alike, ?_⟩
  · have scaled : |(((k : Int) - 1074 : Int) : Rat) * log10TwoHigh.toRat| ≤ 1100 * (1 / 2) := by
      rw [abs_mul, abs_of_nonneg high]
      exact mul_le_mul bound high' high (by norm_num)
    rw [show twoTo 20 = 1048576 from rfl]
    refine (abs_add_le _ _).trans ((add_le_add slight scaled).trans ?_)
    norm_num
  · rw [Real.logb, log]
    simp only [← Rat.cast_le (K := ℝ)] at lost bound
    push_cast at lost bound ⊢
    exact abs_sum_sub_le bound near size lost

end Sum

end Double

end PlusMinus
