import PlusMinus.Proofs.Decimal.Leading
import PlusMinus.Proofs.Double.Nearest

/-! Rounded decimals that are read again: the double of a number that was rounded to a decimal place
is rounded to the same decimal there, and with significant digits it is unless a power of ten reads
back too far below itself. -/

namespace PlusMinus

open Double

namespace Decimal

variable {x : Double} {e : Int} {c : Nat} {z : Rat}

/-- A decimal denotes the double nearest to its value. -/
theorem toDouble_eq_nearest (d : Decimal) : d.toDouble false = nearest d.toRat := by
  have nonnegative := d.toRat_nonneg
  rw [toDouble_eq_ofQuotient, nearest, decide_eq_false (not_lt.2 nonnegative)]
  -- The quotient of quanta is that of the value in lowest terms.
  refine ofQuotient_congr .toEven false (tenTo_pos _) d.toRat.den_pos ?_
  have cross : (d.quanta.1 * d.toRat.den : Rat) = d.toRat.num.natAbs * one * d.quanta.2 := by
    rw [quanta_eq, natAbs_num_of_nonneg nonnegative]
    ring
  exact_mod_cast cross

/-- A power of ten without a fraction denotes the double of a whole number. -/
theorem toDouble_power (n : Nat) : (power n).toDouble false = ofInt (tenTo n) := by
  have exponent : (-(n : Int)).toNat = 0 := by omega
  rw [toDouble_eq_ofQuotient, quanta, power, Int.toNat_natCast,
    exponent, Nat.one_mul, ofInt, Int.natAbs_natCast,
    decide_eq_false (Int.not_lt.2 (Int.natCast_nonneg _))]
  rfl

/-- A small power of ten reaches as far as its whole number. -/
theorem reach_power {n count : Nat} (same : tenTo n = count) (few : count ≤ twoTo 53) :
    (power n).reach = count * one := by
  subst same
  have positive : ¬(tenTo n : Int) < 0 := Int.not_lt.2 (Int.natCast_nonneg _)
  obtain ⟨fits, same⟩ := ofInt_eq (n := tenTo n) few
  -- The whole number is a double, so that the decimal denotes it exactly.
  have denotes : (power n).toDouble false = (ofInt (tenTo n)).abs := by
    rw [toDouble_power, same, decide_eq_false positive]
    rfl
  rw [reach_eq_magnitude (isFinite_ofInt (n := tenTo n) few) denotes, (ofInt_natCast few).1]

/-- The number of units of a power of ten that is nearest to a number, a half going up. -/
def units (z : Rat) (exponent : Int) : Int := ⌊z / 10 ^ exponent + 1 / 2⌋

/-- A number is nearest to so many units when it is less than half a unit away from them. -/
theorem units_eq_iff {n : Int} :
    units z e = n ↔ n * 10 ^ e - 10 ^ e / 2 ≤ z ∧ z < n * 10 ^ e + 10 ^ e / 2 := by
  have unit : (0 : Rat) < 10 ^ e := zpow_pos (by norm_num) _
  rw [units, Int.floor_eq_iff, div_add_div _ _ unit.ne' two_ne_zero, le_div_iff₀ (by linarith),
    div_lt_iff₀ (by linarith)]
  constructor <;> rintro ⟨low, high⟩ <;> constructor <;> linarith

/-- A magnitude with an odd number of steps has few of them. -/
theorem lt_of_fits {m k : Nat} (odd : m % 2 = 1) (fits : Fits (m * twoTo k)) : m < twoTo 53 := by
  have positive : 0 < m * twoTo k := Nat.mul_pos (by omega) (twoTo_pos k)
  -- The steps are not larger than the power of two that is left of the magnitude.
  have step : (m * twoTo k).log2 - 52 ≤ k := by
    by_contra larger
    obtain ⟨j, same⟩ := Nat.dvd_of_mod_eq_zero fits.2
    have split : spacing (m * twoTo k)
        = twoTo k * (2 * twoTo ((m * twoTo k).log2 - 52 - k - 1)) := by
      rw [spacing, show 2 = twoTo 1 from rfl, ← twoTo_add, ← twoTo_add]
      congr 1
      omega
    rw [split, Nat.mul_comm m, Nat.mul_assoc, Nat.mul_assoc] at same
    have even := Nat.eq_of_mul_eq_mul_left (twoTo_pos k) same
    omega
  have below : m * twoTo k < twoTo (53 + k) := by
    have bound : (m * twoTo k).log2 < 53 + k := by omega
    exact (Nat.log2_lt (by omega)).1 bound
  rw [twoTo_add] at below
  exact Nat.lt_of_mul_lt_mul_right below

/-- A power of ten is one of five times one of two. -/
theorem tenTo_eq (k : Nat) : tenTo k = 5 ^ k * twoTo k := Nat.mul_pow 5 2 k

/-- Doubles are not apart by a fraction of one that is a power of ten. -/
theorem sub_ne_tenth {a b : Int} {k : Nat} (some : 0 < k) : (b - a) * tenTo k ≠ one := by
  intro gap
  have divides : (5 : Int) ∣ one := by
    rw [← gap, tenTo_eq, ← Nat.succ_pred_eq_of_pos some, Nat.pow_succ]
    exact ⟨(b - a) * (5 ^ (k.pred) * twoTo (k.pred + 1)), by push_cast; ring⟩
  -- One has a power of two as its number of quanta, which five does not divide.
  have coprime : ∀ bits, Nat.Coprime 5 (twoTo bits) := fun bits =>
    Nat.Coprime.pow_right bits (by decide)
  exact absurd ((coprime 1074).eq_one_of_dvd (Int.natCast_dvd_natCast.1 divides)) (by decide)

/-- A double that is an odd number of halves of a power of ten has the fives of that power among its
quanta. -/
theorem magnitude_of_halves {k : Nat} (isFinite : x.isFinite = true)
    (value : x.toRat = c * 10 ^ k + 10 ^ k / 2) :
    x.magnitude = (2 * c + 1) * 5 ^ k * twoTo (k + 1073) := by
  obtain ⟨negative, quanta, fits, rfl⟩ := exists_of_isFinite isFinite
  -- Counted in quanta, twice the number is an odd multiple of the power of ten.
  have halves : 2 * (finite negative quanta fits).signedQuanta = (2 * c + 1) * tenTo k * one := by
    rw [Double.toRat_eq, div_eq_iff unit_ne] at value
    have scaled : (2 * (finite negative quanta fits).signedQuanta : Rat)
        = (2 * c + 1) * tenTo k * one := by
      rw [value, cast_tenTo, zpow_natCast]
      ring
    exact_mod_cast scaled
  have product : (2 * c + 1) * tenTo k * one = 2 * ((2 * c + 1) * 5 ^ k * twoTo (k + 1073)) := by
    rw [one_eq, tenTo_eq, twoTo_add]
    ring
  have same : 2 * (finite negative quanta fits).signedQuanta
      = (2 * ((2 * c + 1) * 5 ^ k * twoTo (k + 1073)) : Nat) := by
    rw [halves, ← product]
    push_cast
    rfl
  have positive : 0 < (2 * c + 1) * 5 ^ k * twoTo (k + 1073) :=
    Nat.mul_pos (Nat.mul_pos (by omega) (Nat.pow_pos (by decide))) (twoTo_pos _)
  rw [signedQuanta_finite] at same
  rw [magnitude]
  split at same <;> omega

/-- There is a double of so many units of a power of ten if half a unit more has few bits. -/
theorem exists_of_few_halves {k : Nat} (few : (2 * c + 1) * 5 ^ k < twoTo 53) :
    ∃ w : Double, w.isFinite = true ∧ w.toRat = c * 10 ^ k := by
  have five : 0 < 5 ^ k := Nat.pow_pos (by decide)
  -- The fives alone bound the exponent, so that the power of two stays in range.
  have place : k < 53 := by
    have smaller : twoTo k ≤ 5 ^ k := Nat.pow_le_pow_left (by decide) k
    have least : 5 ^ k ≤ (2 * c + 1) * 5 ^ k := Nat.le_mul_of_pos_left _ (by omega)
    exact (Nat.pow_lt_pow_iff_right (by decide : 1 < 2)).1
      (Nat.lt_of_le_of_lt (Nat.le_trans smaller least) few)
  have bits : (c * 5 ^ k : Nat) ≤ twoTo 53 :=
    Nat.le_trans (Nat.mul_le_mul_right _ (by omega)) (Nat.le_of_lt few)
  obtain ⟨w, isFinite, value⟩ :=
    exists_of_few (n := (c * 5 ^ k : Nat)) (by rwa [Int.natAbs_natCast])
      (by omega : k + 1074 < 2045)
  have ten : (10 : Rat) ^ k = 5 ^ k * twoTo k := by
    have same := tenTo_eq k
    rw [tenTo, Nat.pow_eq] at same
    exact_mod_cast same
  refine ⟨w, isFinite, ?_⟩
  rw [value, twoTo_add, show twoTo 1074 = one from rfl, ten, Nat.cast_mul (twoTo k),
    ← mul_assoc, mul_div_cancel_right₀ _ unit_ne]
  push_cast
  ring

/-- Between two doubles that are half a unit of a power of ten away on both sides there is one. -/
theorem exists_between {y : Double} (right : y.isFinite = true)
    (low : x.toRat = c * 10 ^ e - 10 ^ e / 2) (high : y.toRat = c * 10 ^ e + 10 ^ e / 2) :
    ∃ w : Double, w.isFinite = true ∧ w.toRat = c * 10 ^ e := by
  rcases Int.lt_or_le e 0 with fraction | whole
  · -- The two are a fraction of one apart, and it would be a whole number of quanta.
    have powers := zpow_mul_tenTo e
    rw [Double.toRat_eq, div_eq_iff unit_ne] at low high
    rw [show e.toNat = 0 by omega, show tenTo 0 = 1 from rfl, Nat.cast_one] at powers
    have gap : ((y.signedQuanta - x.signedQuanta : Int) : Rat) * tenTo (-e).toNat = one := by
      have apart : ((y.signedQuanta - x.signedQuanta : Int) : Rat) = 10 ^ e * one := by
        push_cast
        rw [low, high]
        ring
      rw [apart, mul_right_comm, powers, one_mul]
    exact absurd (by exact_mod_cast gap) (sub_ne_tenth (by omega : 0 < (-e).toNat))
  · -- The upper one is an odd number of halves, so that the whole number of units has fewer bits.
    obtain ⟨k, rfl⟩ := Int.eq_ofNat_of_zero_le whole
    rw [zpow_natCast] at high ⊢
    have odd : (2 * c + 1) * 5 ^ k % 2 = 1 := by
      have five : Odd (5 ^ k) := Odd.pow (by decide)
      exact Nat.odd_iff.1 ((odd_two_mul_add_one c).mul five)
    obtain ⟨negative, quanta, fits, rfl⟩ := exists_of_isFinite right
    have steps : quanta = (2 * c + 1) * 5 ^ k * twoTo (k + 1073) := magnitude_of_halves right high
    rw [steps] at fits
    exact exists_of_few_halves (lt_of_fits odd fits)

/-- The double of a number that was rounded to units of a power of ten is nearest to the same number
of units. -/
theorem units_nearest (isFinite : x.isFinite = true) (count : units x.toRat e = c)
    (range : (nearest (c * 10 ^ e)).isFinite = true) :
    units (nearest (c * 10 ^ e)).toRat e = c := by
  have unit : (0 : Rat) < 10 ^ e := zpow_pos (by norm_num) _
  have nonnegative : (0 : Rat) ≤ c * 10 ^ e := mul_nonneg (Nat.cast_nonneg _) unit.le
  have nearer := abs_nearest_sub_le isFinite nonnegative range
  obtain ⟨low, high⟩ := units_eq_iff.1 count
  rw [Int.cast_natCast] at low high
  -- The number itself is no nearer to the units than the double that they are read as.
  have near : |x.toRat - c * 10 ^ e| ≤ 10 ^ e / 2 := abs_le.2 ⟨by linarith, by linarith⟩
  obtain ⟨least, most⟩ := abs_le.1 (nearer.trans near)
  rw [units_eq_iff, Int.cast_natCast]
  refine ⟨by linarith, lt_of_le_of_ne (by linarith) fun tie => ?_⟩
  -- At the upper half the double that was rounded is at the lower one, and one between them is
  -- nearer.
  have apart : 10 ^ e / 2 ≤ |x.toRat - c * 10 ^ e| := by
    refine le_trans ?_ nearer
    rw [tie, add_sub_cancel_left]
    exact le_abs_self _
  have lower : x.toRat = c * 10 ^ e - 10 ^ e / 2 := by
    rcases le_abs.1 apart with above | below <;> linarith
  obtain ⟨w, between, value⟩ := exists_between range lower tie
  have exact := (alike_nearest between).toRat
  rw [value, tie] at exact
  linarith

end Decimal

namespace Double

variable {x y : Double}

/-- A magnitude without its sign is its quanta by those of one. -/
theorem toRat_abs (x : Double) : x.abs.toRat = x.magnitude / one := by
  rw [toRat_eq]
  cases x with
  | finite negative quanta fits => exact congrArg (· / (one : Rat)) (Int.cast_natCast quanta)
  | nan => exact congrArg (· / (one : Rat)) (Int.cast_natCast 0)
  | infinite negative => exact congrArg (· / (one : Rat)) (Int.cast_natCast 0)

/-- Only what is finite is finite without its sign. -/
theorem isFinite_abs (x : Double) : x.abs.isFinite = x.isFinite := by cases x <;> rfl

/-- Without its sign a number is as large. -/
theorem magnitude_abs (x : Double) : x.abs.magnitude = x.magnitude := by cases x <;> rfl

/-- Numbers that are equal but for the sign of a zero are as large. -/
theorem Alike.magnitude (alike : x.Alike y) : x.magnitude = y.magnitude := by
  rcases alike with rfl | ⟨left, right⟩
  · rfl
  · rw [magnitude_of_isZero left, magnitude_of_isZero right]

/-- A decimal denotes a magnitude without a sign. -/
theorem abs_toDouble (d : Decimal) : (d.toDouble false).abs = d.toDouble false := by
  have sign := d.isNegative_toDouble false
  cases same : d.toDouble false with
  | nan => rfl
  | infinite negative => rw [same] at sign; cases sign; rfl
  | finite negative quanta fits => rw [same] at sign; cases sign; rfl

/-- A magnitude is one. -/
theorem fits_magnitude (x : Double) : Fits x.magnitude := by
  cases x with
  | finite negative quanta fits => exact fits
  | nan => exact fits_zero
  | infinite negative => exact fits_zero

section Places

variable {places : Nat}

/-- The quanta of a number at a number of decimal places. -/
theorem toPlaces_quanta (x : Double) (places : Nat) :
    (x.toPlaces places).quanta = ((x.toPlaces places).coefficient * one, tenTo places) := by
  unfold Decimal.quanta toPlaces
  dsimp only
  rw [show (-places : Int).toNat = 0 by omega, show (-(-places : Int)).toNat = places by omega,
    show tenTo 0 = 1 from rfl, Nat.mul_one]

/-- A magnitude at a number of decimal places is the nearest number of units there. -/
theorem toPlaces_eq (x : Double) (places : Nat) :
    ((x.toPlaces places).coefficient : Int) = Decimal.units x.abs.toRat (-places) := by
  rw [toPlaces, roundDiv_upward_eq unit_pos, Decimal.units, toRat_abs, zpow_neg, zpow_natCast]
  push_cast
  rw [cast_tenTo, zpow_natCast, div_inv_eq_mul, div_mul_eq_mul_div]

/-- Numbers with the same number of units at a decimal place are the same decimal there. -/
theorem toPlaces_congr (same : (x.toPlaces places).coefficient = (y.toPlaces places).coefficient) :
    x.toPlaces places = y.toPlaces places := by
  unfold toPlaces at same ⊢
  dsimp only at same
  rw [same]

/-- A magnitude below 10^21 that is rounded to decimal places denotes a double that is finite and
below 10^21 as well. -/
theorem toDouble_toPlaces (isFinite : x.isFinite = true)
    (small : x.magnitude < fixedLimit) (places : Nat) :
    ((x.toPlaces places).toDouble false).isFinite = true
      ∧ ((x.toPlaces places).toDouble false).magnitude < fixedLimit := by
  rcases Nat.lt_or_ge x.magnitude (twoTo 53 * one) with few | large
  · -- Rounding does not lead across 2^53.
    have most : (x.toPlaces places).coefficient ≤ twoTo 53 * tenTo places := by
      unfold toPlaces
      dsimp only
      refine roundDiv_le_of_le_mul .upward unit_pos ?_
      rw [Nat.mul_right_comm]
      exact Nat.mul_le_mul_right _ (Nat.le_of_lt few)
    have within : ((x.toPlaces places).toDouble false).Within 53 := by
      rw [Decimal.toDouble_eq_ofQuotient, toPlaces_quanta]
      refine within_ofQuotient _ _ (tenTo_pos _) (by decide) ?_
      rw [Nat.mul_right_comm]
      exact Nat.mul_le_mul_right _ most
    obtain ⟨negative, quanta, fits, same, bound⟩ := within
    rw [same]
    exact ⟨rfl, Nat.lt_of_le_of_lt bound (Nat.mul_lt_mul_of_pos_right (by decide) unit_pos)⟩
  · -- From 2^53 on a double is whole, and keeps its value at every decimal place.
    obtain ⟨k, whole⟩ := one_dvd_of_large (fits_magnitude x) large
    have coefficient : (x.toPlaces places).coefficient = k * tenTo places := by
      rw [toPlaces, whole, Nat.mul_assoc, Nat.mul_comm one, roundDiv_of_mul .upward _ unit_pos]
    have value : (x.toPlaces places).toRat = x.abs.toRat := by
      rw [toRat_abs, Decimal.toRat_eq, coefficient, whole, toPlaces, zpow_neg, ← cast_tenTo]
      push_cast
      rw [mul_div_cancel_left₀ _ unit_ne,
        mul_inv_cancel_right₀ (Nat.cast_ne_zero.2 (tenTo_pos _).ne')]
    have alike := alike_nearest (x := x.abs) ((isFinite_abs x).trans isFinite)
    rw [Decimal.toDouble_eq_nearest, value, ← alike.isFinite, ← alike.magnitude,
      magnitude_abs, isFinite_abs]
    exact ⟨isFinite, small⟩

/-- The double of a number that was rounded to decimal places is rounded to the same decimal
there. -/
theorem toPlaces_toDouble (isFinite : x.isFinite = true)
    (small : x.magnitude < fixedLimit) (places : Nat) :
    ((x.toPlaces places).toDouble false).toPlaces places = x.toPlaces places := by
  have range := (toDouble_toPlaces isFinite small places).1
  have value : (x.toPlaces places).toRat = (x.toPlaces places).coefficient * 10 ^ (-places : Int) :=
    Decimal.toRat_eq _
  have again := toPlaces_eq ((x.toPlaces places).toDouble false) places
  rw [Decimal.toDouble_eq_nearest, value] at range
  -- Rounding to a place counts units, and the double nearest to them has as many.
  rw [abs_toDouble, Decimal.toDouble_eq_nearest, value,
    Decimal.units_nearest ((isFinite_abs x).trans isFinite) (toPlaces_eq x places).symm range,
    ← value, ← Decimal.toDouble_eq_nearest] at again
  exact toPlaces_congr (Int.natCast_inj.1 again)

end Places

section Digits

variable {count : Nat} {k : Int} {c : Nat}

/-- A number other than zero lies between the power of ten of its leading digit and the next one. -/
theorem abs_bounds (nonzero : x.magnitude ≠ 0) :
    (10 : Rat) ^ x.leadingExponent ≤ x.abs.toRat ∧ x.abs.toRat < 10 ^ (x.leadingExponent + 1) := by
  have unit : (0 : Rat) < one := Nat.cast_pos.2 unit_pos
  obtain ⟨low, high⟩ := leadingExponent_bounds (Nat.pos_of_ne_zero nonzero) unit_pos
  rw [toRat_abs, le_div_iff₀ unit, div_lt_iff₀ unit]
  exact ⟨low, high⟩

/-- The leading digit of a number stands at the power of ten that it is not below, if it is below
the next one. -/
theorem leadingExponent_eq (low : (10 : Rat) ^ k ≤ x.abs.toRat)
    (high : x.abs.toRat < 10 ^ (k + 1)) :
    x.leadingExponent = k := by
  have ten : (1 : Rat) < 10 := by norm_num
  have nonzero : x.magnitude ≠ 0 := by
    intro zero
    rw [toRat_abs, zero, Nat.cast_zero, zero_div] at low
    exact absurd low (not_le.2 (zpow_pos (by norm_num) k))
  -- Only one power of ten has the number between it and the next one.
  obtain ⟨least, most⟩ := abs_bounds nonzero
  have above := (zpow_lt_zpow_iff_right₀ ten).1 (low.trans_lt most)
  have below := (zpow_lt_zpow_iff_right₀ ten).1 (least.trans_lt high)
  omega

/-- A number with so many digits is the nearest number of units of the last one, if there is no
carry. -/
theorem toDigits_eq (lead : x.leadingExponent = k)
    (rounded : Decimal.units x.abs.toRat (k - count + 1) = c) :
    x.toDigits count
      = if c = tenTo count then ⟨tenTo (count - 1), k - count + 1 + 1⟩ else ⟨c, k - count + 1⟩ := by
  have unit : (0 : Rat) < 10 ^ (k - count + 1) := zpow_pos (by norm_num) _
  have scaled := shiftQuotient_eq x.magnitude one (k - count + 1)
  have parts := shiftQuotient_pos x.magnitude unit_pos (k - count + 1)
  -- The quotient that is rounded is the magnitude in units of the last digit.
  unfold toDigits
  rw [lead]
  dsimp only
  generalize shiftQuotient x.magnitude one (k - count + 1) = quotient at scaled parts
  obtain ⟨n, d⟩ := quotient
  dsimp only at scaled parts ⊢
  have same : roundDiv .upward n d = c := by
    have value : (n : Rat) / d = x.abs.toRat / 10 ^ (k - count + 1) := by
      have divisor : (0 : Rat) < one * 10 ^ (k - count + 1) :=
        mul_pos (Nat.cast_pos.2 unit_pos) unit
      rw [toRat_abs, div_div, div_eq_div_iff (Nat.cast_pos.2 parts).ne' divisor.ne']
      linarith
    have rounding := roundDiv_upward_eq (n := n) parts
    rw [value] at rounding
    exact Int.natCast_inj.1 (rounding.trans rounded)
  rw [same]

/-- A number that is rounded to digits has so many of them before a carry, and at most one unit of
the last one is lost. -/
theorem exists_toDigits (nonzero : x.magnitude ≠ 0) (some : 0 < count) :
    ∃ c : Nat, Decimal.units x.abs.toRat (x.leadingExponent - count + 1) = c
      ∧ tenTo (count - 1) ≤ c ∧ c ≤ tenTo count := by
  obtain ⟨low, high⟩ := abs_bounds nonzero
  obtain ⟨front, next⟩ := zpow_eq_units x.leadingExponent some
  have unit : (0 : Rat) < 10 ^ (x.leadingExponent - count + 1) := zpow_pos (by norm_num) _
  rw [front] at low
  rw [next] at high
  generalize x.leadingExponent - count + 1 = e at *
  obtain ⟨least, most⟩ := Decimal.units_eq_iff.1 (rfl : Decimal.units x.abs.toRat e = _)
  generalize Decimal.units x.abs.toRat e = c at *
  -- One unit more or less would be further away than half a unit.
  have above : (tenTo (count - 1) : Int) ≤ c := by
    by_contra less
    have step : ((c : Rat) + 1) * 10 ^ e ≤ tenTo (count - 1) * 10 ^ e :=
      mul_le_mul_of_nonneg_right (by exact_mod_cast Int.not_le.1 less) unit.le
    linarith
  have below : c ≤ (tenTo count : Int) := by
    by_contra more
    have step : ((tenTo count : Rat) + 1) * 10 ^ e ≤ c * 10 ^ e :=
      mul_le_mul_of_nonneg_right (by exact_mod_cast Int.not_le.1 more) unit.le
    linarith
  exact ⟨c.toNat, by omega, by omega, by omega⟩

/-- The double of a number that was rounded to digits is at most half a unit of the last one away
from their value. -/
theorem abs_toDouble_sub_le {e : Int} (isFinite : x.isFinite = true)
    (rounded : Decimal.units x.abs.toRat e = c) (range : (nearest (c * 10 ^ e)).isFinite = true) :
    |(nearest (c * 10 ^ e)).toRat - c * 10 ^ e| ≤ 10 ^ e / 2 := by
  have unit : (0 : Rat) < 10 ^ e := zpow_pos (by norm_num) _
  obtain ⟨low, high⟩ := Decimal.units_eq_iff.1 rounded
  rw [Int.cast_natCast] at low high
  -- The number that was rounded is a double as near as that, and the nearest one is no further
  -- away.
  have nearer := abs_nearest_sub_le (x := x.abs) ((isFinite_abs x).trans isFinite)
    (mul_nonneg (Nat.cast_nonneg c) unit.le) range
  exact nearer.trans (abs_le.2 ⟨by linarith, by linarith⟩)

/-- A number that is at most one twentieth of the last place below a power of ten, and less than one
half above it, is rounded to that power. -/
theorem toDigits_near_power (some : 0 < count)
    (low : 10 ^ k - 10 ^ (k - count + 1) / 20 ≤ x.abs.toRat)
    (high : x.abs.toRat < 10 ^ k + 10 ^ (k - count + 1) / 2) :
    x.toDigits count = ⟨tenTo (count - 1), k - count + 1⟩ := by
  have unit : (0 : Rat) < 10 ^ (k - count + 1) := zpow_pos (by norm_num) _
  have powers : ∀ m : Int, (10 : Rat) ^ (m + 1) = 10 * 10 ^ m := fun m => by
    rw [Int.add_comm, zpow_one_add₀ (by norm_num)]
  have leading := powers k
  have tenth := powers (k - 1)
  rw [Int.sub_add_cancel] at tenth
  obtain ⟨front, next⟩ := zpow_eq_units k some
  -- One unit of the last digit is not more than the power of ten itself.
  have single : (1 : Rat) * 10 ^ (k - count + 1) ≤ tenTo (count - 1) * 10 ^ (k - count + 1) :=
    mul_le_mul_of_nonneg_right (by exact_mod_cast tenTo_pos _) unit.le
  rcases lt_or_ge x.abs.toRat (10 ^ k) with less | reached
  · -- Below the power of ten the digits are finer, and there is a carry.
    have lead : x.leadingExponent = k - 1 :=
      leadingExponent_eq (by linarith) (by rw [Int.sub_add_cancel]; exact less)
    have finer := powers (k - 1 - count + 1)
    rw [show k - 1 - count + 1 + 1 = k - count + 1 by omega] at finer
    have units : Decimal.units x.abs.toRat (k - 1 - count + 1) = tenTo count := by
      rw [finer] at next low
      rw [Decimal.units_eq_iff, Int.cast_natCast]
      constructor <;> linarith
    rw [toDigits_eq lead units, if_pos rfl, show k - 1 - count + 1 + 1 = k - count + 1 by omega]
  · have units : Decimal.units x.abs.toRat (k - count + 1) = tenTo (count - 1) := by
      rw [Decimal.units_eq_iff, Int.cast_natCast]
      constructor <;> linarith
    have other : tenTo (count - 1) ≠ tenTo count := (tenTo_lt (by omega)).ne
    rw [toDigits_eq (leadingExponent_eq reached (by linarith)) units, if_neg other]

/-- The double of a number that was rounded to significant digits is rounded to the same digits,
unless they are a power of ten and the double is more than one twentieth of the last place below
it. -/
theorem toDigits_toDouble (isFinite : x.isFinite = true)
    (nonzero : x.magnitude ≠ 0) (some : 0 < count)
    (range : ((x.toDigits count).toDouble false).isFinite = true)
    (regained : (x.toDigits count).coefficient = tenTo (count - 1) →
      (x.toDigits count).toRat - ((x.toDigits count).toDouble false).toRat
        ≤ 10 ^ (x.toDigits count).exponent / 20) :
    ((x.toDigits count).toDouble false).magnitude ≠ 0
      ∧ ((x.toDigits count).toDouble false).toDigits count = x.toDigits count := by
  obtain ⟨c, rounded, least, most⟩ := exists_toDigits nonzero some
  have digits := toDigits_eq rfl rounded
  obtain ⟨front, next⟩ := zpow_eq_units x.leadingExponent some
  have value : (x.toDigits count).toRat = c * 10 ^ (x.leadingExponent - count + 1) := by
    rw [digits, Decimal.toRat_carry _ _ some]
  have unsigned := abs_toDouble (x.toDigits count)
  rw [Decimal.toDouble_eq_nearest, value] at range regained unsigned ⊢
  have near := abs_toDouble_sub_le isFinite rounded range
  have again := Decimal.units_nearest ((isFinite_abs x).trans isFinite) rounded range
  generalize nearest (c * 10 ^ (x.leadingExponent - count + 1)) = y at *
  generalize x.leadingExponent = k at *
  rw [← unsigned] at near again regained
  -- Everything is counted in units of the last digit.
  have unit : (0 : Rat) < 10 ^ (k - count + 1) := zpow_pos (by norm_num) _
  have units : ∀ {a b : Nat}, a ≤ b → (a : Rat) * 10 ^ (k - count + 1) ≤ b * 10 ^ (k - count + 1) :=
    fun le => mul_le_mul_of_nonneg_right (Nat.cast_le.2 le) unit.le
  have single := units (tenTo_pos (count - 1))
  have lower := units least
  rw [Nat.cast_succ, Nat.cast_zero, zero_add, one_mul] at single
  obtain ⟨below, above⟩ := abs_le.1 near
  refine ⟨fun zero => ?_, ?_⟩
  · rw [toRat_abs, zero, Nat.cast_zero, zero_div] at below
    linarith
  rw [digits] at regained ⊢
  rcases Nat.eq_or_lt_of_le most with carried | fewer
  · -- After a carry the unit of the last digit is ten times as large.
    have wider : (10 : Rat) ^ (k + 1 - count + 1) = 10 * 10 ^ (k - count + 1) := by
      rw [← zpow_one_add₀ (by norm_num), show k + 1 - (count : Int) + 1
        = 1 + (k - count + 1) by omega]
    rw [carried] at below above
    rw [if_pos carried, show k - count + 1 + 1 = k + 1 - count + 1 by omega]
    exact toDigits_near_power some (by linarith) (by linarith)
  rw [if_neg fewer.ne] at regained ⊢
  rcases Nat.eq_or_lt_of_le least with power | more
  · -- A power of ten may read back with its leading digit at a lower place.
    have back := regained power.symm
    have upper := (Decimal.units_eq_iff.1 again).2
    rw [Int.cast_natCast] at upper
    dsimp only at back
    rw [← power] at back upper ⊢
    exact toDigits_near_power some (by linarith) (by linarith)
  · -- Any other number has its leading digit where it was.
    have inner := units (Nat.succ_le_of_lt more)
    have outer := units (Nat.succ_le_of_lt fewer)
    push_cast at inner outer
    rw [toDigits_eq (leadingExponent_eq (by linarith) (by linarith)) again, if_neg fewer.ne]

end Digits

end Double

end PlusMinus
