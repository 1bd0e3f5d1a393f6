import Mathlib.Algebra.Order.Field.Power
import Mathlib.Algebra.Order.Field.Rat
import Mathlib.Tactic.Ring
import PlusMinus.Proofs.Decimal.Rounded
import PlusMinus.Proofs.Double.Order

/-! Rounding to significant digits keeps the order of doubles. -/

namespace PlusMinus

open Double

/-- A number lies between the power of ten of its leading digit and the next one. -/
theorem digitCount_bounds {n : Nat} (positive : 0 < n) :
    tenTo (digitCount n - 1) ≤ n ∧ n < tenTo (digitCount n) := by
  have some : 0 < digitCount n := Nat.length_toDigits_pos
  exact ⟨tenTo_le_of_digitCount positive, (digitCount_le_iff some).1 (Nat.le_refl _)⟩

/-- A power of ten as a rational number. -/
theorem cast_tenTo (n : Nat) : (tenTo n : Rat) = 10 ^ (n : Int) := by
  rw [tenTo, Nat.pow_eq, zpow_natCast]
  exact_mod_cast rfl

namespace Double

/-- A quotient of less than half a quantum is rounded to none. -/
theorem roundQuanta_eq_zero (tie : Tie) {n d : Nat} (small : 2 * n < d) :
    roundQuanta tie n d = 0 := by
  -- Below one the steps are single quanta, and the remainder is the number itself.
  have floor : n / d = 0 := Nat.div_eq_of_lt (by omega)
  have step : spacing 0 = 1 := rfl
  unfold roundQuanta roundDiv
  simp only [floor, step, Nat.mul_one]
  rw [Nat.mod_eq_of_lt (by omega), if_pos small]

end Double

namespace Decimal

section Range

variable {d : Decimal}

/-- From 10^310 on a decimal has as many quanta as an infinity. -/
theorem limit_mul_le_quanta (nonzero : d.coefficient ≠ 0) (high : 310 < d.leading) :
    limit * d.quanta.2 ≤ d.quanta.1 := by
  obtain ⟨least, _⟩ := digitCount_bounds (Nat.pos_of_ne_zero nonzero)
  have some : 0 < digitCount d.coefficient := Nat.length_toDigits_pos
  -- 10^310 is above the largest double already, whatever digits stand behind the first one.
  have range : limit ≤ tenTo 310 * one := by decide +kernel
  have powers : tenTo 310 * tenTo (-d.exponent).toNat
      ≤ tenTo (digitCount d.coefficient - 1) * tenTo d.exponent.toNat := by
    unfold leading at high
    rw [← tenTo_add, ← tenTo_add]
    exact tenTo_le (by omega)
  unfold quanta
  dsimp only
  generalize one = unit at range ⊢
  calc limit * tenTo (-d.exponent).toNat
      ≤ tenTo 310 * unit * tenTo (-d.exponent).toNat := Nat.mul_le_mul_right _ range
    _ = tenTo 310 * tenTo (-d.exponent).toNat * unit := Nat.mul_right_comm _ _ _
    _ ≤ tenTo (digitCount d.coefficient - 1) * tenTo d.exponent.toNat * unit :=
      Nat.mul_le_mul_right _ powers
    _ ≤ _ := Nat.mul_le_mul_right _ (Nat.mul_le_mul_right _ least)

/-- Below 10^-330 a decimal is less than half a quantum. -/
theorem two_mul_quanta_lt (nonzero : d.coefficient ≠ 0) (low : d.leading < -330) :
    2 * d.quanta.1 < d.quanta.2 := by
  obtain ⟨_, most⟩ := digitCount_bounds (Nat.pos_of_ne_zero nonzero)
  -- Half a quantum is above 10^-331, and the decimal is below that.
  have range : 2 * one < tenTo 331 := by decide +kernel
  have powers : tenTo (digitCount d.coefficient) * tenTo d.exponent.toNat * tenTo 331
      ≤ tenTo (-d.exponent).toNat := by
    unfold leading at low
    rw [← tenTo_add, ← tenTo_add]
    exact tenTo_le (by omega)
  unfold quanta
  dsimp only
  generalize one = unit at range ⊢
  calc 2 * (d.coefficient * tenTo d.exponent.toNat * unit)
      = d.coefficient * tenTo d.exponent.toNat * (2 * unit) := by ac_rfl
    _ < d.coefficient * tenTo d.exponent.toNat * tenTo 331 :=
      Nat.mul_lt_mul_of_pos_left range (Nat.mul_pos (Nat.pos_of_ne_zero nonzero) (tenTo_pos _))
    _ ≤ tenTo (digitCount d.coefficient) * tenTo d.exponent.toNat * tenTo 331 :=
      Nat.mul_le_mul_right _ (Nat.mul_le_mul_right _ (Nat.le_of_lt most))
    _ ≤ _ := powers

end Range

/-- A decimal whose leading digit is in range or out of it denotes its rounded value: numbers that
far outside the range are rounded to zero or to an infinity. -/
theorem toDouble_eq_ofQuotient (negative : Bool) (d : Decimal) :
    d.toDouble negative = ofQuotient .toEven negative d.quanta.1 d.quanta.2 := by
  by_cases zero : d.coefficient = 0
  · rw [toDouble_of_zero negative zero, quanta, zero, Nat.zero_mul, Nat.zero_mul]
    exact (ofQuotient_zero _ _ (tenTo_pos _)).symm
  by_cases inside : -330 ≤ d.leading ∧ d.leading ≤ 310
  · exact toDouble_of_inside negative zero inside.1 inside.2
  rw [toDouble_of_outside negative zero inside]
  unfold ofQuotient
  dsimp only
  split
  · -- Above the range rounding leads to an infinity.
    rename_i high
    have step : limit % spacing limit = 0 := by decide +kernel
    have parts : 0 < d.quanta.2 := tenTo_pos _
    have rounded := le_roundQuanta .toEven parts step (limit_mul_le_quanta zero high)
    rw [dif_neg (Nat.not_lt.2 rounded)]
  · -- Below it rounding leads to zero.
    have rounded := roundQuanta_eq_zero .toEven (two_mul_quanta_lt zero (by omega))
    rw [dif_pos (by rw [rounded]; exact twoTo_pos _)]
    simp only [rounded]

/-- The two powers of ten that an exponent stands for. -/
theorem zpow_mul_tenTo (exponent : Int) :
    (10 : Rat) ^ exponent * tenTo (-exponent).toNat = tenTo exponent.toNat := by
  rw [cast_tenTo, cast_tenTo, ← zpow_add₀ (by norm_num)]
  congr 1
  omega

/-- The exact value of a decimal as a product with a power of ten. -/
theorem toRat_eq (d : Decimal) : d.toRat = d.coefficient * 10 ^ d.exponent := by
  have powers := zpow_mul_tenTo d.exponent
  unfold toRat
  -- One of the two powers is one: a decimal is divided by a power of ten or multiplied by one.
  split
  · rw [show d.exponent.toNat = 0 by omega, show tenTo 0 = 1 from rfl, Nat.cast_one] at powers
    rw [Rat.mkRat_eq_div, eq_inv_of_mul_eq_one_left powers, Int.cast_natCast, div_eq_mul_inv]
  · rw [show (-d.exponent).toNat = 0 by omega, show tenTo 0 = 1 from rfl, Nat.cast_one, mul_one]
      at powers
    rw [powers]
    push_cast
    rfl

/-- A decimal has no sign of its own. -/
theorem toRat_nonneg (d : Decimal) : 0 ≤ d.toRat := by
  rw [toRat_eq]
  exact mul_nonneg (Nat.cast_nonneg _) (zpow_nonneg (by norm_num) _)

/-- The quanta of a decimal are those of its value. -/
theorem quanta_eq (d : Decimal) : (d.quanta.1 : Rat) = d.toRat * one * d.quanta.2 := by
  have powers := zpow_mul_tenTo d.exponent
  rw [toRat_eq]
  unfold quanta
  dsimp only
  push_cast
  rw [← powers]
  ring

/-- How far the double of a decimal lies from zero. -/
def reach (d : Decimal) : Nat := Double.reach .toEven d.quanta.1 d.quanta.2

/-- A decimal denotes a double that lies on the side of its sign. -/
theorem position?_toDouble (negative : Bool) (d : Decimal) :
    (d.toDouble negative).position? = some (if negative then -(d.reach : Int) else d.reach) := by
  rw [toDouble_eq_ofQuotient, position?_ofQuotient]
  rfl

/-- A larger decimal does not denote a double closer to zero. -/
theorem reach_mono {d e : Decimal} (le : d.toRat ≤ e.toRat) : d.reach ≤ e.reach := by
  have left := d.quanta_eq
  have right := e.quanta_eq
  have positive : 0 < d.quanta.2 := tenTo_pos _
  have positive' : 0 < e.quanta.2 := tenTo_pos _
  -- Both are quotients of quanta, and these are compared crosswise.
  have cross : d.quanta.1 * e.quanta.2 ≤ e.quanta.1 * d.quanta.2 := by
    have scaled : (d.quanta.1 : Rat) * e.quanta.2 ≤ e.quanta.1 * d.quanta.2 := by
      rw [left, right, mul_right_comm]
      refine mul_le_mul_of_nonneg_right ?_ (Nat.cast_nonneg _)
      refine mul_le_mul_of_nonneg_right ?_ (Nat.cast_nonneg _)
      exact mul_le_mul_of_nonneg_right le (Nat.cast_nonneg _)
    exact_mod_cast scaled
  exact Double.reach_mono .toEven positive positive' cross

end Decimal

/-- The leading power of ten of a positive quotient is at most that quotient, and the next one is
above it. -/
theorem leadingExponent_bounds {n d : Nat} (positive : 0 < n) (divisor : 0 < d) :
    (10 : Rat) ^ leadingExponent n d * d ≤ n ∧ (n : Rat) < 10 ^ (leadingExponent n d + 1) * d := by
  unfold leadingExponent
  split
  · -- From one on the digits of the whole part are counted.
    rename_i large
    obtain ⟨least, most⟩ := digitCount_bounds (Nat.div_pos large divisor)
    have some : 0 < digitCount (n / d) := Nat.length_toDigits_pos
    rw [Nat.le_div_iff_mul_le divisor] at least
    rw [Nat.div_lt_iff_lt_mul divisor] at most
    have lower : (tenTo (digitCount (n / d) - 1) : Rat) * d ≤ n := by exact_mod_cast least
    have upper : (n : Rat) < tenTo (digitCount (n / d)) * d := by exact_mod_cast most
    rw [cast_tenTo, show ((digitCount (n / d) - 1 : Nat) : Int)
      = (digitCount (n / d) : Int) - 1 by omega]
      at lower
    rw [cast_tenTo] at upper
    exact ⟨lower, by rwa [Int.sub_add_cancel]⟩
  · -- Below one the digits of the reciprocal are.
    rename_i small
    obtain ⟨least, most⟩ := digitCount_bounds (Nat.div_pos (by omega : n ≤ d - 1) positive)
    have some : 0 < digitCount ((d - 1) / n) := Nat.length_toDigits_pos
    rw [Nat.le_div_iff_mul_le positive] at least
    rw [Nat.div_lt_iff_lt_mul positive] at most
    generalize digitCount ((d - 1) / n) = count at least most some
    have lower : (d : Rat) ≤ tenTo count * n := by exact_mod_cast (by omega : d ≤ tenTo count * n)
    have upper : (tenTo (count - 1) : Rat) * n < d := by
      exact_mod_cast (by omega : tenTo (count - 1) * n < d)
    rw [cast_tenTo] at lower upper
    have ten : (0 : Rat) < 10 := by norm_num
    -- Both bounds are those of the reciprocal, turned round.
    constructor
    · rw [zpow_neg, inv_mul_le_iff₀ (zpow_pos ten _)]
      exact lower
    · rw [show -(count : Int) + 1 = -((count - 1 : Nat) : Int) by omega, zpow_neg,
        lt_inv_mul_iff₀ (zpow_pos ten _)]
      exact upper

/-- A quotient that is scaled by a power of ten. -/
theorem shiftQuotient_eq (n d : Nat) (exponent : Int) :
    (shiftQuotient n d exponent).1 * (10 : Rat) ^ exponent * d
      = n * (shiftQuotient n d exponent).2 := by
  have powers := Decimal.zpow_mul_tenTo exponent
  unfold shiftQuotient
  -- A negative exponent scales the dividend, and any other one the divisor.
  split
  · rw [show exponent.toNat = 0 by omega, show tenTo 0 = 1 from rfl, Nat.cast_one] at powers
    push_cast
    calc (n : Rat) * tenTo (-exponent).toNat * 10 ^ exponent * d
        = n * (10 ^ exponent * tenTo (-exponent).toNat) * d := by ring
      _ = n * d := by rw [powers, mul_one]
  · rw [show (-exponent).toNat = 0 by omega, show tenTo 0 = 1 from rfl, Nat.cast_one, mul_one]
      at powers
    push_cast
    rw [powers]
    ring

/-- A carry out of the leading digit does not change the value. -/
theorem Decimal.toRat_carry (coefficient : Nat) (exponent : Int) {count : Nat} (some : 0 < count) :
    Decimal.toRat (if coefficient = tenTo count then ⟨tenTo (count - 1), exponent + 1⟩
      else ⟨coefficient, exponent⟩) = coefficient * 10 ^ exponent := by
  rw [Decimal.toRat_eq]
  split
  · rename_i carried
    dsimp only
    -- One zero less and the next power of ten make the same number.
    rw [carried, cast_tenTo, cast_tenTo, ← zpow_add₀ (by norm_num), ← zpow_add₀ (by norm_num)]
    congr 1
    omega
  · rfl

/-- The value of a quotient that is rounded to a number of digits. -/
def roundedQuotient (n d count : Nat) : Rat :=
  roundDiv .upward (shiftQuotient n d (leadingExponent n d - count + 1)).1
      (shiftQuotient n d (leadingExponent n d - count + 1)).2
    * 10 ^ (leadingExponent n d - count + 1)

section Rounded

variable {n m d count : Nat}

/-- A power of ten as a number of units of the last of so many digits. -/
theorem zpow_eq_units (exponent : Int) {count : Nat} (some : 0 < count) :
    (10 : Rat) ^ exponent = tenTo (count - 1) * 10 ^ (exponent - count + 1)
      ∧ (10 : Rat) ^ (exponent + 1) = tenTo count * 10 ^ (exponent - count + 1) := by
  have ten : (10 : Rat) ≠ 0 := by norm_num
  rw [cast_tenTo, cast_tenTo, ← zpow_add₀ ten, ← zpow_add₀ ten]
  constructor <;> congr 1 <;> omega

/-- In units of the last of so many digits a quotient has that many digits before the point. -/
theorem le_shiftQuotient (positive : 0 < n) (divisor : 0 < d) (some : 0 < count) :
    tenTo (count - 1) * (shiftQuotient n d (leadingExponent n d - count + 1)).2
      ≤ (shiftQuotient n d (leadingExponent n d - count + 1)).1 := by
  have least := (leadingExponent_bounds positive divisor).1
  have scaled := shiftQuotient_eq n d (leadingExponent n d - count + 1)
  rw [(zpow_eq_units _ some).1] at least
  generalize shiftQuotient n d (leadingExponent n d - count + 1) = quotient at scaled ⊢
  -- The power of ten that both sides have in common is cancelled.
  have factor : (0 : Rat) < 10 ^ (leadingExponent n d - count + 1) * d :=
    mul_pos (zpow_pos (by norm_num) _) (by exact_mod_cast divisor)
  have compared : (tenTo (count - 1) : Rat) * quotient.2 ≤ quotient.1 := by
    refine le_of_mul_le_mul_right ?_ factor
    calc (tenTo (count - 1) : Rat) * quotient.2 * (10 ^ (leadingExponent n d - count + 1) * d)
        = tenTo (count - 1) * 10 ^ (leadingExponent n d - count + 1) * d * quotient.2 := by ring
      _ ≤ n * quotient.2 := mul_le_mul_of_nonneg_right least (Nat.cast_nonneg _)
      _ = quotient.1 * (10 ^ (leadingExponent n d - count + 1) * d) := by rw [← scaled]; ring
  exact_mod_cast compared

/-- A quotient that is rounded to digits stays between the powers of ten around its leading
digit. -/
theorem roundedQuotient_bounds (positive : 0 < n) (divisor : 0 < d) (some : 0 < count) :
    (10 : Rat) ^ leadingExponent n d ≤ roundedQuotient n d count
      ∧ roundedQuotient n d count ≤ 10 ^ (leadingExponent n d + 1) := by
  have parts := shiftQuotient_pos n divisor (leadingExponent n d - count + 1)
  have least := le_shiftQuotient positive divisor some
  have most :=
    roundDiv_le_of_le_mul .upward parts (Nat.le_of_lt (shiftQuotient_lt positive divisor count))
  have unit : (0 : Rat) < 10 ^ (leadingExponent n d - count + 1) := zpow_pos (by norm_num) _
  -- The first of the digits is kept, and at most one more comes before it.
  have kept := Nat.le_trans ((Nat.le_div_iff_mul_le parts).2 least) (le_roundDiv .upward _ _)
  obtain ⟨front, next⟩ := zpow_eq_units (leadingExponent n d) some
  rw [front, next]
  unfold roundedQuotient
  exact ⟨mul_le_mul_of_nonneg_right (by exact_mod_cast kept) unit.le,
    mul_le_mul_of_nonneg_right (by exact_mod_cast most) unit.le⟩

/-- A larger quotient is not rounded to a smaller number of the same digits. -/
theorem roundedQuotient_mono (positive : 0 < n) (divisor : 0 < d) (some : 0 < count) (le : n ≤ m) :
    roundedQuotient n d count ≤ roundedQuotient m d count := by
  have positive' : 0 < m := Nat.lt_of_lt_of_le positive le
  have ten : (1 : Rat) < 10 := by norm_num
  rcases Int.lt_trichotomy (leadingExponent n d) (leadingExponent m d) with less | same | greater
  · -- A power of ten is between numbers that have different leading exponents.
    calc roundedQuotient n d count ≤ 10 ^ (leadingExponent n d + 1) :=
          (roundedQuotient_bounds positive divisor some).2
      _ ≤ 10 ^ leadingExponent m d := zpow_le_zpow_right₀ ten.le (by omega)
      _ ≤ roundedQuotient m d count := (roundedQuotient_bounds positive' divisor some).1
  · -- With the same leading exponent both are rounded to multiples of the same unit.
    unfold roundedQuotient
    rw [same]
    refine mul_le_mul_of_nonneg_right ?_ (zpow_nonneg (by norm_num) _)
    generalize leadingExponent m d - count + 1 = exponent
    have units : roundDiv .upward (shiftQuotient n d exponent).1 (shiftQuotient n d exponent).2
        ≤ roundDiv .upward (shiftQuotient m d exponent).1 (shiftQuotient m d exponent).2 := by
      unfold shiftQuotient
      split
      · exact roundDiv_le_roundDiv .upward d (Nat.mul_le_mul_right _ le)
      · exact roundDiv_le_roundDiv .upward _ le
    exact_mod_cast units
  · -- The leading exponent of a larger number is not smaller.
    have low := (leadingExponent_bounds positive divisor).1
    have high := (leadingExponent_bounds positive' divisor).2
    have absurd : (m : Rat) < m :=
      calc (m : Rat) < 10 ^ (leadingExponent m d + 1) * d := high
        _ ≤ 10 ^ leadingExponent n d * d :=
          mul_le_mul_of_nonneg_right (zpow_le_zpow_right₀ ten.le (by omega)) (Nat.cast_nonneg _)
        _ ≤ n := low
        _ ≤ m := by exact_mod_cast le
    exact (lt_irrefl _ absurd).elim

end Rounded

namespace Double

variable {x y : Double}

/-- The value of a magnitude that is rounded to digits. -/
theorem toRat_toDigits (x : Double) {count : Nat} (some : 0 < count) :
    (x.toDigits count).toRat = roundedQuotient x.magnitude one count := by
  unfold toDigits roundedQuotient leadingExponent
  -- Where rounding makes one digit more, the decimal is written with the next exponent.
  generalize one = unit
  exact Decimal.toRat_carry _ _ some

/-- Digits that are kept of a larger magnitude do not denote a number closer to zero. -/
theorem reach_toDigits_mono (nonzero : x.magnitude ≠ 0) (le : x.magnitude ≤ y.magnitude)
    {count : Nat} (some : 0 < count) : (x.toDigits count).reach ≤ (y.toDigits count).reach := by
  refine Decimal.reach_mono ?_
  rw [toRat_toDigits _ some, toRat_toDigits _ some]
  exact roundedQuotient_mono (Nat.pos_of_ne_zero nonzero) (twoTo_pos 1074) some le

/-- How far a finite number lies from zero when it is rounded to digits. -/
def digitReach (x : Double) (precision : Int) : Nat :=
  if x.magnitude = 0 then 0 else (x.toDigits (clampDigits precision)).reach

/-- A finite number that is rounded to digits stays on the side of its sign. -/
theorem position?_roundDigits (finite : x.isFinite = true) (precision : Int) :
    (x.roundDigits precision).position?
      = some
        (if x.isNegative then -(x.digitReach precision : Int) else x.digitReach precision) := by
  unfold roundDigits digitReach
  by_cases zero : x.magnitude = 0
  · simp [finite, zero, position?, signedQuanta, Double.zero]
  · simp only [finite, zero, ne_eq, not_false_eq_true, decide_true,
      Bool.and_self, if_true, if_false]
    exact Decimal.position?_toDouble _ _

/-- A number of larger magnitude is not rounded to one closer to zero. -/
theorem digitReach_mono (le : x.magnitude ≤ y.magnitude) (precision : Int) :
    x.digitReach precision ≤ y.digitReach precision := by
  unfold digitReach
  split
  · exact Nat.zero_le _
  · rename_i nonzero
    rw [if_neg (by omega)]
    exact reach_toDigits_mono nonzero le (clampDigits_pos precision)

/-- Rounding to digits keeps the order. -/
theorem NotAbove.roundDigits (notAbove : x.NotAbove y) (precision : Int) :
    (x.roundDigits precision).NotAbove (y.roundDigits precision) := by
  refine of_finite (·.roundDigits precision) rfl (fun _ => rfl) notAbove fun left right => ?_
  -- The digits of a number depend on its magnitude, and a zero has none.
  exact of_sides (·.roundDigits precision) (·.digitReach precision)
    (fun z isFinite => position?_roundDigits isFinite precision)
    (fun z w _ _ le => digitReach_mono le precision) (fun z none => if_pos none) notAbove left right

end Double

end PlusMinus
