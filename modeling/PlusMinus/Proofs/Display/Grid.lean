import PlusMinus.Proofs.Display.Figures
import PlusMinus.Proofs.Double.Scale

/-! Results rounded to a decimal place: a number is scaled, made whole and scaled back, and its text
is read as a number that is made the same whole number again, as long as the whole number has few
bits or the place is that of the ones. -/

namespace PlusMinus

open Double Numeral Text

namespace Double

variable {x s : Double} {n : Int}

/-- A number on the grid of a decimal place. -/
def onGrid (x : Double) (place : Int) : Double :=
  (x * powerOfTen place).roundHalfUp / powerOfTen place

/-- A whole number of few bits is small. -/
theorem abs_le_of_few (few : n.natAbs ≤ twoTo 50) : |(n : Rat)| ≤ 2 ^ 50 := by
  have whole : n.natAbs ≤ 2 ^ 50 := few
  rw [← Int.cast_abs, Int.abs_eq_natAbs]
  exact_mod_cast whole

/-- Times a small factor it is smaller. -/
theorem abs_mul_le_of_few (few : n.natAbs ≤ twoTo 50) {factor bound : Rat}
    (near : |factor| ≤ bound) :
    |n * factor| ≤ 2 ^ 50 * bound := by
  rw [abs_mul]
  exact mul_le_mul (abs_le_of_few few) near (abs_nonneg _) (by norm_num)

/-- A number that is at most one half away from a whole number of few bits is zero or in the normal
range, if it is zero where that is, and it has a finite double nearest to it. -/
theorem normal_of_near (few : n.natAbs ≤ twoTo 50) {z : Rat} (near : |z - n| ≤ 1 / 2)
    (none : n = 0 → z = 0) :
    (z = 0 ∨ 10 ^ (-300 : Int) ≤ |z|) ∧ |z| ≤ twoTo 51 := by
  have parts : z = n + (z - n) := by ring
  constructor
  · by_cases zero : n = 0
    · exact .inl (none zero)
    · -- From one on the number is one half at least.
      right
      have least := one_le_abs zero
      have apart := abs_sub_abs_le_abs_sub (n : Rat) z
      rw [abs_sub_comm] at apart
      have tiny := zpow_le_tenth
      linarith
  · have sum := abs_add_le (n : Rat) (z - n)
    have most := abs_le_of_few few
    rw [show twoTo 51 = 2 ^ 51 from rfl, parts]
    push_cast
    linarith

/-- A product that is off from a whole number of few bits by a factor near one and by a small rest
is nearest to that. -/
theorem roundHalfUp_mul (left : x.isFinite = true) (right : s.isFinite = true)
    (few : n.natAbs ≤ twoTo 50)
    {factor rest : Rat} (value : x.toRat * s.toRat = n * factor + rest)
    (near : |factor - 1| ≤ 9 / 4 / 2 ^ 53) (small : |rest| ≤ 1 / 18) (none : n = 0 → rest = 0) :
    (x * s).roundHalfUp = ofInt n := by
  have exact : Operator.mul.exact x.toRat s.toRat = n * factor + rest := value
  have off : |n * factor + rest - n| ≤ 1 / 2 := by
    have sum := abs_add_le (n * (factor - 1)) rest
    have scaled := abs_mul_le_of_few few near
    rw [show n * factor + rest - n = n * (factor - 1) + rest by ring]
    linarith
  obtain ⟨normal, bound⟩ := normal_of_near few off fun zero => by
    rw [none zero, zero, Int.cast_zero, zero_mul, add_zero]
  rw [← exact] at normal bound
  have range : (x * s).isFinite = true :=
    Operator.mul.isFinite_compute left right (by simp) bound (by decide)
  obtain ⟨_, last, close, product⟩ :=
    Operator.mul.compute_approximates left right (by simp) normal range
  rw [exact] at product
  -- Rounding the product adds one more factor.
  have value : (x * s).toRat = n + (n * (factor * last - 1) + rest * last) :=
    product.trans (by ring)
  have scaled := abs_mul_le_of_few few (abs_mul_sub_one_le near close)
  have remains : |rest * last| ≤ 1 / 18 * (1 + 1 / 2 ^ 53) := by
    rw [abs_mul]
    refine mul_le_mul small ?_ (abs_nonneg _) (by norm_num)
    have sum := abs_add_le 1 (last - 1)
    rw [add_sub_cancel, abs_one] at sum
    linarith
  -- Both parts together are still less than one half.
  have total : |n * (factor * last - 1) + rest * last| < 1 / 2 := by
    refine (abs_add_le _ _).trans_lt ((add_le_add scaled remains).trans_lt ?_)
    norm_num
  obtain ⟨low, high⟩ := abs_lt.1 total
  exact roundHalfUp_of_near range (by linarith) (by linarith)

/-- A number of few bits lands on a whole number of few bits when it is made whole. -/
theorem Within.exists_roundHalfUp (within : x.Within 50) :
    ∃ n : Int, n.natAbs ≤ twoTo 50 ∧ x.roundHalfUp = ofInt n := by
  have unit : (0 : Rat) < one := Nat.cast_pos.2 unit_pos
  have bound : |x.toRat| ≤ twoTo 50 := by
    rw [abs_toRat within.isFinite, div_le_iff₀ unit]
    exact_mod_cast (within_iff.1 within).2
  exact ⟨_, natAbs_floor_add_half_le bound, roundHalfUp_eq within.isFinite⟩

/-- Divided by a double, a whole number of few bits is exactly its quotient before that is
rounded. -/
theorem exact_div_ofInt (few : n.natAbs ≤ twoTo 50) (x : Double) :
    Operator.div.exact (ofInt n).toRat x.toRat = n / x.toRat := by
  rw [toRat_ofInt (Nat.le_trans few (by decide))]
  rfl

section Scaled

variable {place : Int}

/-- A whole number of few bits that is scaled back is off by one factor from the number that it is a
multiple of. -/
theorem exists_factor_div (few : n.natAbs ≤ twoTo 50) (low : -300 ≤ place) (high : place ≤ 100)
    (range : (ofInt n / powerOfTen place).isFinite = true) :
    ∃ factor : Rat, |factor - 1| ≤ 1 / 2 ^ 53
      ∧ (ofInt n / powerOfTen place).toRat * (powerOfTen place).toRat = n * factor := by
  have small := (within_ofInt (by decide) few).isFinite
  have unit : (0 : Rat) < 10 ^ place := zpow_pos (by norm_num) _
  obtain ⟨isFinite, nonzero⟩ := powerOfTen_scale place low high
  obtain ⟨least, most⟩ := powerOfTen_bounds low high
  have scale : 0 < (powerOfTen place).toRat := by linarith
  have exact := exact_div_ofInt few (powerOfTen place)
  -- The quotient is zero or in the normal range, since no power of ten here is above 10^100.
  have normal : n / (powerOfTen place).toRat = 0
      ∨ (10 : Rat) ^ (-300 : Int) ≤ |n / (powerOfTen place).toRat| := by
    by_cases zero : n = 0
    · left
      rw [zero, Int.cast_zero, zero_div]
    · right
      have some := one_le_abs zero
      have tiny : (10 : Rat) ^ (-300 : Int) * 10 ^ place ≤ 1 / 10 := by
        rw [← zpow_add₀ (by norm_num)]
        exact (zpow_le_zpow_right₀ (by norm_num) (by omega : -300 + place ≤ -1)).trans_eq
          (by norm_num)
      have scaled :=
        mul_le_mul_of_nonneg_left most (zpow_pos (by norm_num : (0 : Rat) < 10) (-300)).le
      rw [abs_div, abs_of_pos scale, le_div_iff₀ scale]
      linarith
  obtain ⟨_, factor, near, value⟩ :=
    Operator.div.compute_approximates small isFinite (fun _ => nonzero)
      (by rw [exact]; exact normal) range
  rw [exact] at value
  -- The factor by which the quotient is off is that of the product with the scale.
  refine ⟨factor, near, ?_⟩
  rw [show (ofInt n / powerOfTen place).toRat = n / (powerOfTen place).toRat * factor from value,
    mul_right_comm, div_mul_cancel₀ _ scale.ne']

end Scaled

section Fixed

variable {place : Nat}

/-- A whole number of few bits that is scaled back by a power of ten is finite, and off by a
factor. -/
theorem exists_factor_fixed (few : n.natAbs ≤ twoTo 50) (high : place ≤ 100) :
    (ofInt n / powerOfTen place).isFinite = true ∧ ∃ factor : Rat, |factor - 1| ≤ 9 / 4 / 2 ^ 53
      ∧ (ofInt n / powerOfTen place).toRat * 10 ^ (place : Int) = n * factor := by
  have low : -300 ≤ (place : Int) := by omega
  have high' : (place : Int) ≤ 100 := by omega
  have unit : (1 : Rat) ≤ 10 ^ (place : Int) := one_le_zpow₀ (by norm_num) (Int.natCast_nonneg _)
  have small := (within_ofInt (by decide) few).isFinite
  obtain ⟨isFinite, nonzero⟩ := powerOfTen_scale place low high'
  obtain ⟨least, _⟩ := powerOfTen_bounds low high'
  have scale : 0 < (powerOfTen place).toRat := by linarith
  -- Behind the point scaling back makes the number smaller, so that it stays in range.
  have range : (ofInt n / powerOfTen place).isFinite = true := by
    refine Operator.div.isFinite_compute small isFinite (fun _ => nonzero) ?_
      (by decide : 51 < 1024)
    have most := abs_le_of_few few
    rw [exact_div_ofInt few, abs_div, abs_of_pos scale, div_le_iff₀ scale,
      show twoTo 51 = 2 ^ 51 from rfl]
    push_cast
    linarith
  obtain ⟨factor, near, value⟩ := exists_factor_div few low high' range
  obtain ⟨_, grid, close, step⟩ := powerOfTen_approximates low high'
  have some : grid ≠ 0 := by
    have := (abs_le.1 close).1
    intro zero
    rw [zero] at this
    norm_num at this
  refine ⟨range, factor / grid, abs_div_sub_one_le near close, ?_⟩
  rw [step] at value
  rw [mul_div_assoc', eq_div_iff some, mul_assoc]
  exact value

/-- A whole number of few bits that is scaled back is smaller than 10^21. -/
theorem magnitude_div_lt (few : n.natAbs ≤ twoTo 50) (high : place ≤ 100) :
    (ofInt n / powerOfTen place).magnitude < fixedLimit := by
  have unit : (0 : Rat) < one := Nat.cast_pos.2 unit_pos
  have scale : (1 : Rat) ≤ 10 ^ (place : Int) := one_le_zpow₀ (by norm_num) (Int.natCast_nonneg _)
  obtain ⟨range, factor, near, value⟩ := exists_factor_fixed few high
  generalize ofInt n / powerOfTen place = y at range value
  -- It is not larger than its multiple, which is hardly larger than the whole number.
  have multiple : |y.toRat| * 10 ^ (place : Int) = |n + n * (factor - 1)| := by
    rw [← abs_of_pos (lt_of_lt_of_le one_pos scale), ← abs_mul, value]
    ring_nf
  have most := abs_le_of_few few
  have off := abs_mul_le_of_few few near
  have sum := abs_add_le (n : Rat) (n * (factor - 1))
  have least := mul_le_mul_of_nonneg_left scale (abs_nonneg y.toRat)
  rw [Rat.mul_one] at least
  have bound : |y.toRat| < tenTo 21 := by
    rw [show tenTo 21 = 10 ^ 21 from rfl]
    push_cast
    linarith
  rw [abs_toRat range, div_lt_iff₀ unit] at bound
  unfold fixedLimit
  exact_mod_cast bound

/-- A whole number that is scaled back stays on its side of zero. -/
theorem lt_zero_div_iff (few : n.natAbs ≤ twoTo 50) (high : place ≤ 100) :
    (ofInt n / powerOfTen place).lt zero = true ↔ n < 0 := by
  have scale : (0 : Rat) < 10 ^ (place : Int) := zpow_pos (by norm_num) _
  obtain ⟨range, factor, near, value⟩ := exists_factor_fixed few high
  have positive : 0 < factor := by linarith [(abs_le.1 near).1]
  rw [(zero_lt_iff range).2, ← mul_lt_mul_iff_left₀ scale, zero_mul, value, ← zero_mul factor,
    mul_lt_mul_iff_left₀ positive, Int.cast_lt_zero]

/-- A whole number of few bits that is scaled back has that many units at the decimal place. -/
theorem coefficient_div (few : n.natAbs ≤ twoTo 50) (high : place ≤ 100) :
    ((ofInt n / powerOfTen place).toPlaces place).coefficient = n.natAbs := by
  have scale : (0 : Rat) < 10 ^ (place : Int) := zpow_pos (by norm_num) _
  have fraction : (0 : Rat) < 10 ^ (-(place : Int)) := zpow_pos (by norm_num) _
  have inverse := zpow_neg_mul_zpow_self (place : Int) (show (10 : Rat) ≠ 0 by norm_num)
  obtain ⟨range, factor, near, value⟩ := exists_factor_fixed few high
  generalize ofInt n / powerOfTen place = y at range value
  have positive : 0 < factor := by linarith [(abs_le.1 near).1]
  have magnitude : |y.toRat| = |(n : Rat)| * factor * 10 ^ (-(place : Int)) := by
    rw [← abs_of_pos positive, ← abs_mul, ← value, abs_mul, abs_of_pos scale, mul_assoc,
      Rat.mul_comm ((10 : Rat) ^ _), inverse, Rat.mul_one]
  -- The multiple is off by less than half a unit.
  have off : |(n : Rat)| * |factor - 1| ≤ 9 / 32 := by
    rw [← abs_mul]
    exact (abs_mul_le_of_few few near).trans_eq (by norm_num)
  have count : Decimal.units y.abs.toRat (-place) = n.natAbs := by
    have low := mul_le_mul_of_nonneg_left (neg_abs_le (factor - 1)) (abs_nonneg (n : Rat))
    have high := mul_le_mul_of_nonneg_left (le_abs_self (factor - 1)) (abs_nonneg (n : Rat))
    have lower := mul_le_mul_of_nonneg_right low fraction.le
    have upper := mul_le_mul_of_nonneg_right high fraction.le
    have lost := mul_le_mul_of_nonneg_right off fraction.le
    rw [Decimal.units_eq_iff, toRat_abs, ← abs_toRat range, magnitude, Int.cast_natCast,
      Nat.cast_natAbs, Int.cast_abs]
    constructor <;> linarith
  exact Int.natCast_inj.1 ((toPlaces_eq y place).trans count)

/-- The text of a whole number of few bits that is scaled back is read as a double that approximates
the multiple. -/
theorem exists_approximates_fixed (few : n.natAbs ≤ twoTo 50) (high : place ≤ 100) :
    ∃ y, Figure.ofText ((ofInt n / powerOfTen place).fixed place)
        = ⟨(ofInt n / powerOfTen place).fixed place, y⟩
      ∧ y.Approximates (n * 10 ^ (-(place : Int))) := by
  have range := (exists_factor_fixed few high).1
  have small := magnitude_div_lt few high
  have below := lt_zero_div_iff few high
  have coefficient := coefficient_div few high
  generalize ofInt n / powerOfTen place = x at range small below coefficient
  have clamped : clampPlaces place = place := by
    unfold clampPlaces
    omega
  have shape : x.toPlaces place = ⟨n.natAbs, -(place : Int)⟩ := by rw [← coefficient, toPlaces]
  -- The text has the sign and the digits of the whole number.
  have sign : (x.isNegative && decide (x.magnitude ≠ 0)) = decide (n < 0) := by
    rw [lt_zero_iff range] at below
    rw [Bool.eq_iff_iff, Bool.and_eq_true, decide_eq_true_eq, decide_eq_true_eq, below]
  obtain ⟨p, written, value⟩ := exists_plain_fixed range small place
  rw [signText_eq, sign] at written
  rw [clamped, shape] at value
  have isFinite := (toDouble_toPlaces range small place).1
  rw [shape] at isFinite
  refine ⟨_, Figure.ofText_plain p written, ?_⟩
  rw [value]
  exact Decimal.toDouble_approximates (by omega) isFinite

/-- Behind the point the text of a whole number of few bits that is scaled back is read as a number
that is scaled to it again. -/
theorem roundHalfUp_fixed_again (few : n.natAbs ≤ twoTo 50) (high : place ≤ 100) :
    ((Figure.ofText ((ofInt n / powerOfTen place).fixed place)).magnitude
      * powerOfTen place).roundHalfUp
      = ofInt n := by
  obtain ⟨y, figure, isFinite, factor, near, value⟩ := exists_approximates_fixed few high
  obtain ⟨range, grid, close, step⟩ :=
    powerOfTen_approximates (by omega : -300 ≤ (place : Int)) (by omega : (place : Int) ≤ 100)
  have inverse := zpow_neg_mul_zpow_self (place : Int) (show (10 : Rat) ≠ 0 by norm_num)
  -- Reading and scaling add one factor each, and the powers of ten cancel.
  have product : y.toRat * (powerOfTen place).toRat = n * (factor * grid) + 0 := by
    rw [value, step]
    calc n * 10 ^ (-(place : Int)) * factor * (10 ^ (place : Int) * grid)
        = n * (factor * grid) * (10 ^ (-(place : Int)) * 10 ^ (place : Int)) := by ring
      _ = n * (factor * grid) + 0 := by rw [inverse, Rat.mul_one, Rat.add_zero]
  have bound := (abs_mul_sub_one_le near close).trans
    (by norm_num : (1 / 2 ^ 53 + 1 / 2 ^ 53 + 1 / 2 ^ 53 * (1 / 2 ^ 53) : Rat) ≤ 9 / 4 / 2 ^ 53)
  rw [figure]
  exact roundHalfUp_mul isFinite range few product bound (by norm_num) fun _ => rfl

end Fixed

/-- Before the point a whole number of few bits that is scaled back and made whole is scaled to it
again. -/
theorem roundHalfUp_whole_again {place : Int} (few : n.natAbs ≤ twoTo 50) (low : -300 ≤ place)
    (before : place < 0) (range : (ofInt n / powerOfTen place).isFinite = true) :
    ((ofInt n / powerOfTen place).roundHalfUp * powerOfTen place).roundHalfUp = ofInt n := by
  have high : place ≤ 100 := by omega
  obtain ⟨least, most⟩ := powerOfTen_bounds low high
  have unit : (0 : Rat) < 10 ^ place := zpow_pos (by norm_num) _
  have tenth : (10 : Rat) ^ place ≤ 1 / 10 :=
    (zpow_le_zpow_right₀ (by norm_num) (by omega : place ≤ -1)).trans_eq (by norm_num)
  obtain ⟨factor, near, value⟩ := exists_factor_div few low high range
  obtain ⟨half, none⟩ := abs_roundHalfUp_sub_le range
  have whole := isFinite_roundHalfUp range
  generalize (ofInt n / powerOfTen place) = y at range value half none whole
  have scale : 0 < (powerOfTen place).toRat := by linarith
  -- What is lost by making the number whole is less than a unit of the place.
  have product : y.roundHalfUp.toRat * (powerOfTen place).toRat
      = n * factor + (y.roundHalfUp.toRat - y.toRat) * (powerOfTen place).toRat := by
    rw [← value]
    ring
  have rest : |(y.roundHalfUp.toRat - y.toRat) * (powerOfTen place).toRat| ≤ 1 / 18 := by
    rw [abs_mul, abs_of_pos scale]
    calc |y.roundHalfUp.toRat - y.toRat| * (powerOfTen place).toRat
      ≤ 1 / 2 * (11 / 10 * (1 / 10)) :=
          mul_le_mul half (by linarith) scale.le (by norm_num)
      _ ≤ 1 / 18 := by norm_num
  refine roundHalfUp_mul whole (powerOfTen_scale place low high).1 few product
    (near.trans (by norm_num)) rest fun zero => ?_
  have nothing : y.toRat = 0 := by
    rw [zero, Int.cast_zero, zero_mul] at value
    exact (mul_eq_zero.1 value).resolve_right scale.ne'
  rw [nothing, none nothing, sub_zero, zero_mul]

/-- A quotient of finite numbers that is out of range is an infinity. -/
theorem exists_infinite_of_div {y : Double} (left : x.isFinite = true) (right : y.isFinite = true)
    (nonzero : y.isZero = false) (outside : (x / y).isFinite = false) :
    ∃ negative, x / y = infinite negative := by
  obtain ⟨s, a, f, rfl⟩ := exists_of_isFinite left
  obtain ⟨t, b, g, rfl⟩ := exists_of_isFinite right
  rw [div_finite f g (beq_eq_false_iff_ne.1 nonzero)] at outside ⊢
  exact ⟨_, ofQuotient_eq_infinite outside⟩

/-- A product of finite numbers that is out of range is an infinity. -/
theorem exists_infinite_of_mul {y : Double} (left : x.isFinite = true) (right : y.isFinite = true)
    (outside : (x * y).isFinite = false) : ∃ negative, x * y = infinite negative := by
  obtain ⟨s, a, f, rfl⟩ := exists_of_isFinite left
  obtain ⟨t, b, g, rfl⟩ := exists_of_isFinite right
  rw [mul_finite f g] at outside ⊢
  exact ⟨_, ofQuotient_eq_infinite outside⟩

/-- Scaling an infinity, and scaling it back, gives it again. -/
theorem infinite_scaled (negative : Bool) {place : Int} (low : -300 ≤ place) (high : place ≤ 100) :
    infinite negative * powerOfTen place = infinite negative
      ∧ infinite negative / powerOfTen place = infinite negative := by
  -- The scale is a positive double, which an infinity takes over.
  obtain ⟨isFinite, nonzero⟩ := powerOfTen_scale place low high
  have positive := isNegative_powerOfTen place
  generalize powerOfTen place = scale at isFinite nonzero positive
  obtain ⟨sign, quanta, fits, rfl⟩ := exists_of_isFinite isFinite
  obtain rfl : sign = false := positive
  have some : quanta ≠ 0 := beq_eq_false_iff_ne.1 nonzero
  constructor
  · change (if quanta = 0 then nan else infinite (negative != false)) = _
    rw [if_neg some, Bool.bne_false]
  · exact congrArg infinite (Bool.bne_false negative)

/-- An infinity is on every grid. -/
theorem onGrid_infinite (negative : Bool) {place : Int} (low : -300 ≤ place) (high : place ≤ 100) :
    (infinite negative).onGrid place = infinite negative := by
  -- Neither scaling nor making it whole changes an infinity.
  obtain ⟨product, quotient⟩ := infinite_scaled negative low high
  rw [onGrid, product]
  exact quotient

/-- A number of few bits that is put on the grid of a decimal place is read again from its text as
one that is put on the same point of the grid. -/
theorem onGrid_again {place : Int} (low : -300 ≤ place) (high : place ≤ 100)
    (within : (x * powerOfTen place).Within 50) :
    (Figure.ofText ((x.onGrid place).atPlace place)).magnitude.onGrid place = x.onGrid place := by
  obtain ⟨n, few, whole⟩ := within.exists_roundHalfUp
  have point : x.onGrid place = ofInt n / powerOfTen place := by rw [onGrid, whole]
  have again : ∀ y : Double, (y * powerOfTen place).roundHalfUp = ofInt n → y.onGrid place
      = ofInt n / powerOfTen place := fun y same => by rw [onGrid, same]
  rw [point]
  rcases Int.lt_or_le place 0 with before | behind
  · rw [atPlace, if_pos before, Figure.ofText_text, withoutZeroSign_roundHalfUp]
    dsimp only
    cases range : (ofInt n / powerOfTen place).isFinite with
    | true => exact again _ (roundHalfUp_whole_again few low before range)
    | false =>
      -- Scaling back may lead out of range, and then nothing changes any more.
      obtain ⟨isFinite, nonzero⟩ := powerOfTen_scale place low high
      obtain ⟨negative, same⟩ :=
        exists_infinite_of_div (within_ofInt (by decide) few).isFinite isFinite nonzero range
      rw [same]
      exact onGrid_infinite negative low high
  · obtain ⟨places, rfl⟩ := Int.eq_ofNat_of_zero_le behind
    rw [atPlace, if_neg (Int.not_lt.2 behind)]
    exact again _ (roundHalfUp_fixed_again few (by omega))

section Ones

/-- Alike doubles with the same sign are equal. -/
theorem Alike.eq_of_isNegative {y : Double} (alike : x.Alike y)
    (same : x.isNegative = y.isNegative) :
    x = y := by
  rcases alike with rfl | ⟨left, right⟩
  · rfl
  · obtain ⟨s, rfl⟩ := exists_of_isZero left
    obtain ⟨t, rfl⟩ := exists_of_isZero right
    cases same
    rfl

/-- The number of a finite double decides which whole number is nearest to it. -/
theorem Alike.roundHalfUp {y : Double} (alike : x.Alike y) (isFinite : y.isFinite = true) :
    x.roundHalfUp = y.roundHalfUp := by
  rw [roundHalfUp_eq (alike.isFinite.trans isFinite), roundHalfUp_eq isFinite, alike.toRat]

/-- A number of ones stays what it is when it is scaled and scaled back. -/
theorem alike_ones (isFinite : x.isFinite = true) :
    (x * powerOfTen 0).Alike x ∧ (x / powerOfTen 0).Alike x := by
  have scale : powerOfTen 0 = ofInt 1 := powerOfTen_eq (n := 0) (by decide)
  have unit : (ofInt 1).toRat = 1 := toRat_ofInt (by decide)
  have range : (ofInt 1).isFinite = true := isFinite_ofInt (by decide)
  have same := (alike_nearest isFinite).symm
  -- Multiplied or divided by one, the exact outcome is the number itself.
  have product := Operator.mul.compute_alike_nearest isFinite range (by simp)
  have quotient := Operator.div.compute_alike_nearest isFinite range fun _ =>
    isZero_ofInt (by decide)
  rw [unit] at product quotient
  rw [scale]
  have left : Operator.mul.exact x.toRat 1 = x.toRat := Rat.mul_one _
  have right : Operator.div.exact x.toRat 1 = x.toRat := div_one _
  rw [left] at product
  rw [right] at quotient
  exact ⟨product.trans same, quotient.trans same⟩

/-- At the ones place a number is only made whole. -/
theorem onGrid_ones (isFinite : x.isFinite = true) : x.onGrid 0 = x.roundHalfUp := by
  have whole := isFinite_roundHalfUp isFinite
  rw [onGrid, (alike_ones isFinite).1.roundHalfUp isFinite]
  refine (alike_ones whole).2.eq_of_isNegative ?_
  -- A whole number is divided by one, which keeps its sign.
  obtain ⟨fits, scale⟩ := ofInt_eq (n := 1) (by decide)
  rw [show powerOfTen 0 = ofInt 1 from powerOfTen_eq (n := 0) (by decide), scale]
  generalize x.roundHalfUp = w at whole
  obtain ⟨negative, quanta, fits', rfl⟩ := exists_of_isFinite whole
  have some : (1 : Int).natAbs * one ≠ 0 := Nat.mul_ne_zero (by decide) unit_pos.ne'
  rw [div_finite fits' fits some, isNegative_ofQuotient]
  exact Bool.bne_false negative

/-- The magnitude of the whole number nearest to a number is a multiple of one. -/
theorem one_dvd_roundHalfUp (isFinite : x.isFinite = true) : one ∣ x.roundHalfUp.magnitude := by
  rcases roundHalfUp_cases isFinite with ⟨n, few, same⟩ | ⟨same, large⟩
  · obtain ⟨fits, value⟩ := ofInt_eq few
    rw [same, value]
    exact Nat.dvd_mul_left one n.natAbs
  · rw [same]
    exact one_dvd_of_large (fits_magnitude x) large

/-- A whole number with no places behind the point is read as itself. -/
theorem ofText_fixed_ones (isFinite : x.isFinite = true) :
    (Figure.ofText (x.roundHalfUp.fixed 0)).magnitude = x.roundHalfUp := by
  have whole := isFinite_roundHalfUp isFinite
  have unsigned := x.withoutZeroSign_roundHalfUp
  obtain ⟨k, multiple⟩ := one_dvd_roundHalfUp isFinite
  generalize x.roundHalfUp = w at whole unsigned multiple
  rcases Nat.lt_or_ge w.magnitude fixedLimit with small | large
  · -- All of its digits are written.
    obtain ⟨p, written, value⟩ := exists_plain_fixed whole small 0
    rw [signText_eq] at written
    have units : w.toPlaces (clampPlaces 0) = ⟨k, 0⟩ := by
      rw [toPlaces, multiple, show clampPlaces 0 = 0 from rfl,
        show tenTo 0 = 1 from rfl, Nat.mul_one, Nat.mul_comm one,
        roundDiv_of_mul .upward k unit_pos]
      rfl
    have denoted : Decimal.toRat ⟨k, 0⟩ = w.abs.toRat := by
      rw [Decimal.toRat_eq, toRat_abs, multiple, zpow_zero, Nat.cast_mul,
        mul_div_cancel_left₀ _ unit_ne, Rat.mul_one]
    -- The digits are those of the whole number, so that they denote its magnitude.
    have denotes : Decimal.toDouble false ⟨k, 0⟩ = w.abs := by
      have alike := (alike_nearest ((isFinite_abs w).trans whole)).symm
      rw [← denoted, ← Decimal.toDouble_eq_nearest] at alike
      exact alike.eq_of_isNegative
        ((Decimal.isNegative_toDouble false _).trans (isNegative_abs w).symm)
    rw [Figure.ofText_plain p written, value, units]
    exact (signed_abs whole denotes).trans unsigned
  · -- From 10^21 on it is in its shortest form.
    rw [fixed_of_large large, Figure.ofText_text]
    dsimp only
    exact unsigned

/-- Every number that is rounded to the ones place is read as a number that is rounded to the same
one. -/
theorem onGrid_again_ones (isFinite : x.isFinite = true) :
    (Figure.ofText ((x.onGrid 0).atPlace 0)).magnitude.onGrid 0 = x.onGrid 0 := by
  have ones : ¬(0 : Int) < 0 := by decide
  rw [onGrid_ones isFinite, atPlace, if_neg ones, ofText_fixed_ones isFinite,
    onGrid_ones (isFinite_roundHalfUp isFinite), roundHalfUp_again]

end Ones

end Double

/-- Rounded to a decimal place, both are put on its grid. -/
theorem roundToPlace_eq (value uncertainty : Double) (places : Int) :
    roundToPlace value uncertainty places
      = let place := min (max places (-300)) 100
        ⟨(value.onGrid place).atPlace place, (uncertainty.onGrid place).atPlace place⟩ := rfl

/-- A number that stays on the grid of a decimal place: at the ones place every one does, and
elsewhere those of which the multiple has few bits. -/
def SettledOnGrid (x : Double) (place : Int) : Prop :=
  place = 0 ∨ (x * powerOfTen place).Within 50

/-- A number that stays on a grid is read again from its text as one that is put on the same point
of it. -/
theorem SettledOnGrid.again {x : Double} {place : Int} (settled : SettledOnGrid x place)
    (isFinite : x.isFinite = true) (low : -300 ≤ place) (high : place ≤ 100) :
    (Figure.ofText ((x.onGrid place).atPlace place)).magnitude.onGrid place = x.onGrid place := by
  rcases settled with rfl | within
  · exact onGrid_again_ones isFinite
  · exact onGrid_again low high within

/-- A result at a decimal place is rounded to the same texts when it is read again. -/
theorem roundToPlace_again {v u : Double} {places : Int} (left : v.isFinite = true)
    (right : u.isFinite = true)
    (value : SettledOnGrid v (min (max places (-300)) 100))
    (uncertainty : SettledOnGrid u (min (max places (-300)) 100)) :
    roundToPlace (Figure.ofText (roundToPlace v u places).value).magnitude
      (Figure.ofText (roundToPlace v u places).uncertainty).magnitude places
        = roundToPlace v u places := by
  rw [roundToPlace_eq v u, roundToPlace_eq]
  dsimp only
  rw [value.again left (by omega) (by omega), uncertainty.again right (by omega) (by omega)]

end PlusMinus
