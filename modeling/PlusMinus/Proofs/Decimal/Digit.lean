import Mathlib.Algebra.Order.Floor.Semifield
import PlusMinus.Proofs.Decimal.Reread

/-! Decimals of one digit: in a wide range the shortest decimal of the double that they denote has
its leading digit where they have it. -/

namespace PlusMinus

open Double

namespace Decimal

variable {d e : Decimal}

/-- A decimal denotes a finite double when it reaches no further than the largest one. -/
theorem isFinite_toDouble_iff : (d.toDouble false).isFinite = true ↔ d.reach < limit := by
  -- The double lies where the decimal reaches, which is at the limit for the infinity.
  have place := d.position?_toDouble false
  cases same : d.toDouble false with
  | nan =>
    rw [same] at place
    cases place
  | infinite negative =>
    have sign := d.isNegative_toDouble false
    rw [same] at place sign
    cases sign
    simp only [position?, Bool.false_eq_true, if_false, Option.some.injEq] at place
    simp only [isFinite, Bool.false_eq_true, false_iff]
    omega
  | finite negative quanta fits =>
    have range := fits.1
    rw [same] at place
    simp only [isFinite, true_iff]
    have := congrArg Double.magnitude same
    cases negative <;> simp [position?, signedQuanta] at place <;> omega

/-- A decimal that is not larger than another one denotes a finite double when that does. -/
theorem isFinite_toDouble_mono (le : d.toRat ≤ e.toRat)
    (range : (e.toDouble false).isFinite = true) :
    (d.toDouble false).isFinite = true :=
  isFinite_toDouble_iff.2 (Nat.lt_of_le_of_lt (reach_mono le) (isFinite_toDouble_iff.1 range))

/-- A single digit stands at the power of ten that it is taken times. -/
theorem leading_of_digit {c : Nat} (m : Int) (digit : c < 10) : leading ⟨c, m⟩ = m + 1 := by
  have some : 0 < digitCount c := Nat.length_toDigits_pos
  have single : digitCount c ≤ 1 := (digitCount_le_iff (by decide)).2 digit
  unfold leading
  dsimp only
  omega

/-- Zeros at the end of a coefficient do not change where the leading digit stands. -/
theorem leading_normalize (d : Decimal) : d.normalize.leading = d.leading := by
  fun_induction normalize d with
  | case1 d ends ih =>
    -- A zero less in the coefficient is one more in the exponent.
    rw [ih]
    have digits : digitCount d.coefficient = digitCount (d.coefficient / 10) + 1 := by
      rw [← digitCount_mul_ten (by omega)]
      congr 1
      omega
    unfold leading
    dsimp only
    rw [digits]
    omega
  | case2 => rfl

end Decimal

namespace Double

variable {x : Double}

/-- A number that is found with one digit is shown with that. -/
theorem shortest_of_neighbour {d : Decimal} (nonzero : x.magnitude ≠ 0)
    (found : x.neighbour? x.leadingExponent 1 = some d) : x.shortest = d.normalize := by
  unfold shortest
  rw [if_neg nonzero]
  dsimp only
  -- One digit is the first number of digits that is tried.
  have first : List.range 17 = 0 :: List.range' 1 16 := rfl
  rw [first, List.findSome?_cons, found]
  rfl

/-- A magnitude in units of a power of ten, as a quotient. -/
theorem shiftQuotient_abs (x : Double) (e : Int) :
    ((shiftQuotient x.magnitude one e).1 : Rat) * 10 ^ e
      = x.abs.toRat * (shiftQuotient x.magnitude one e).2 := by
  have scaled := shiftQuotient_eq x.magnitude one e
  have unit := unit_ne
  rw [toRat_abs, div_mul_eq_mul_div, eq_div_iff unit]
  exact scaled

/-- The quotient of a magnitude in units of a power of ten. -/
theorem div_shiftQuotient (x : Double) (e : Int) :
    ((shiftQuotient x.magnitude one e).1 : Rat) / (shiftQuotient x.magnitude one e).2
      = x.abs.toRat / 10 ^ e := by
  have parts : ((shiftQuotient x.magnitude one e).2 : Rat) ≠ 0 :=
    Nat.cast_ne_zero.2 (shiftQuotient_pos x.magnitude unit_pos e).ne'
  rw [div_eq_div_iff parts (zpow_ne_zero e (by norm_num))]
  exact x.shiftQuotient_abs e

/-- The whole number of units below a magnitude. -/
theorem floor_shiftQuotient {e : Int} {q : Nat} (low : q * 10 ^ e ≤ x.abs.toRat)
    (high : x.abs.toRat < (q + 1) * 10 ^ e) :
    (shiftQuotient x.magnitude one e).1 / (shiftQuotient x.magnitude one e).2 = q := by
  have unit : (0 : Rat) < 10 ^ e := zpow_pos (by norm_num) _
  have least := (le_div_iff₀ unit).2 low
  rw [← @Nat.floor_div_eq_div Rat, div_shiftQuotient, Nat.floor_eq_iff (q.cast_nonneg.trans least)]
  exact ⟨least, (div_lt_iff₀ unit).2 high⟩

/-- A magnitude of more than half a unit above a whole number of units is rounded up. -/
theorem roundDiv_shiftQuotient {e : Int} {q : Nat}
    (floor : (shiftQuotient x.magnitude one e).1 / (shiftQuotient x.magnitude one e).2 = q)
    (high : (2 * q + 1) * 10 ^ e < 2 * x.abs.toRat) :
    roundDiv .toEven (shiftQuotient x.magnitude one e).1 (shiftQuotient x.magnitude one e).2
      = q + 1 := by
  have unit : (0 : Rat) < 10 ^ e := zpow_pos (by norm_num) _
  have parts := shiftQuotient_pos x.magnitude unit_pos e
  have above : (2 * q + 1 : Rat) < 2 * (x.abs.toRat / 10 ^ e) := by
    rw [← mul_div_assoc, lt_div_iff₀ unit]
    exact high
  rw [← div_shiftQuotient, ← mul_div_assoc, lt_div_iff₀ (Nat.cast_pos.2 parts)] at above
  generalize shiftQuotient x.magnitude one e = quotient at floor above
  rcases roundDiv_cases .toEven quotient.1 quotient.2 with ⟨_, half⟩ | ⟨same, _⟩
  · -- The remainder would be at most half of the divisor.
    have whole := Nat.div_add_mod' quotient.1 quotient.2
    have more : (2 * q + 1) * quotient.2 < 2 * quotient.1 := by exact_mod_cast above
    rw [floor] at whole
    rw [add_mul, Nat.mul_assoc] at more
    omega
  · rw [same, floor]

/-- Just below a power of ten that denotes it, the neighbour above a number is that power, as ten
units of the next lower place. -/
theorem exists_neighbour_below {m : Int} (reads : (Decimal.power m).toDouble false = x.abs)
    (near : 10 ^ m - 10 ^ m / 100 ≤ x.abs.toRat) (less : x.abs.toRat < 10 ^ m) :
    ∃ d, x.neighbour? x.leadingExponent 1 = some d ∧ d.leading = m + 1 := by
  have unit : (0 : Rat) < 10 ^ m := zpow_pos (by norm_num) _
  have tenth : (10 : Rat) ^ m = 10 * 10 ^ (m - 1) := by
    rw [← zpow_one_add₀ (by norm_num), show 1 + (m - 1) = m by omega]
  have lead : x.leadingExponent = m - 1 :=
    leadingExponent_eq (by linarith) (by rw [Int.sub_add_cancel]; exact less)
  -- There are nine whole units of the lower place below the number.
  have floor := floor_shiftQuotient (x := x) (e := m - 1) (q := 9) (by push_cast; linarith)
    (by push_cast; linarith)
  have back : decide (Decimal.toDouble false ⟨9 + 1, m - 1⟩ = x.abs) = true := by
    rw [← reads]
    exact decide_eq_true (Decimal.toDouble_shift false 1 1 m)
  have nearest := roundDiv_shiftQuotient floor (by push_cast; linarith)
  have leading : Decimal.leading ⟨9 + 1, m - 1⟩ = m + 1 := by
    change m - 1 + ((digitCount 10 : Nat) : Int) = m + 1
    rw [show digitCount 10 = 2 by decide]
    omega
  -- Whether or not the neighbour below reads back as well, the one above is the nearer one.
  unfold neighbour?
  rw [lead, show m - 1 - (1 : Nat) + 1 = m - 1 by omega]
  dsimp only
  rw [floor, back, nearest]
  cases decide (Decimal.toDouble false ⟨9, m - 1⟩ = x.abs) with
  | false => exact ⟨_, rfl, leading⟩
  | true => exact ⟨_, rfl, leading⟩

/-- From a power of ten that denotes it on, the neighbour below a number is that power. -/
theorem exists_neighbour_from {m : Int} (reads : (Decimal.power m).toDouble false = x.abs)
    (near : x.abs.toRat ≤ 10 ^ m + 10 ^ m / 100) (reached : 10 ^ m ≤ x.abs.toRat) :
    ∃ d, x.neighbour? x.leadingExponent 1 = some d ∧ d.leading = m + 1 := by
  have unit : (0 : Rat) < 10 ^ m := zpow_pos (by norm_num) _
  have next : (10 : Rat) ^ (m + 1) = 10 * 10 ^ m := by
    rw [Int.add_comm, zpow_one_add₀ (by norm_num)]
  have lead : x.leadingExponent = m := leadingExponent_eq reached (by rw [next]; linarith)
  have floor := floor_shiftQuotient (x := x) (e := m) (q := 1) (by push_cast; linarith)
    (by push_cast; linarith)
  have back : decide (Decimal.toDouble false ⟨1, m⟩ = x.abs) = true := decide_eq_true reads
  have leading : ∀ digit : Nat, digit = 1 ∨ digit = 1 + 1 → Decimal.leading ⟨digit, m⟩ = m + 1 :=
    fun digit few => Decimal.leading_of_digit m (by omega)
  have nearest := roundDiv_cases .toEven (shiftQuotient x.magnitude one m).1
    (shiftQuotient x.magnitude one m).2
  rw [floor] at nearest
  -- Whichever of the neighbours is chosen, it has a single digit at the place of the power.
  unfold neighbour?
  rw [lead, show m - (1 : Nat) + 1 = m by omega]
  dsimp only
  rw [floor, back]
  cases decide (Decimal.toDouble false ⟨1 + 1, m⟩ = x.abs) with
  | false => exact ⟨_, rfl, leading _ (.inl rfl)⟩
  | true => exact ⟨_, rfl, leading _ (nearest.imp And.left And.left)⟩

/-- A double that a power of ten denotes, and that is near it, is shown with its leading digit
there. -/
theorem leading_shortest_of_power {m : Int} (reads : (Decimal.power m).toDouble false = x.abs)
    (near : |x.abs.toRat - 10 ^ m| ≤ 10 ^ m / 100) : x.shortest.leading = m + 1 := by
  have unit : (0 : Rat) < 10 ^ m := zpow_pos (by norm_num) _
  obtain ⟨below, above⟩ := abs_le.1 near
  have nonzero : x.magnitude ≠ 0 := by
    intro zero
    rw [toRat_abs, zero, Nat.cast_zero, zero_div] at below
    linarith
  -- One digit is enough on either side of the power, so that no other neighbour is tried.
  obtain ⟨d, found, leading⟩ : ∃ d, x.neighbour? x.leadingExponent 1 = some d
      ∧ d.leading = m + 1 := by
    rcases lt_or_ge x.abs.toRat (10 ^ m) with less | reached
    · exact exists_neighbour_below reads (by linarith) less
    · exact exists_neighbour_from reads (by linarith) reached
  rw [shortest_of_neighbour nonzero found, Decimal.leading_normalize, leading]

/-- Numbers from 10^-300 on are in the normal range. -/
theorem smallestNormal_le : smallestNormal ≤ 10 ^ (-300 : Int) := by
  have unit : (0 : Rat) < one := Nat.cast_pos.2 unit_pos
  -- In quanta this compares whole numbers.
  have many : twoTo 52 * tenTo 300 ≤ one := by decide +kernel
  have scale : (0 : Rat) < tenTo 300 := Nat.cast_pos.2 (tenTo_pos 300)
  have power : (10 : Rat) ^ (-300 : Int) = (tenTo 300 : Rat)⁻¹ := by
    rw [cast_tenTo, ← zpow_neg]
    rfl
  rw [power, eq_div_of_mul_eq unit.ne' smallestNormal_mul, div_le_iff₀ unit, ← div_eq_inv_mul,
    le_div_iff₀ scale]
  exact_mod_cast many

end Double

namespace Decimal

variable {d : Decimal} {c : Nat} {m : Int}

/-- From 10^-300 on a decimal that denotes a finite double is off from it by at most one part in
2^53. -/
theorem abs_toDouble_sub_le_of_isFinite (low : (10 : Rat) ^ (-300 : Int) ≤ d.toRat)
    (range : (d.toDouble false).isFinite = true) :
    |(d.toDouble false).toRat - d.toRat| ≤ d.toRat / 2 ^ 53 := by
  have positive : 0 < d.toRat := lt_of_lt_of_le (zpow_pos (by norm_num) _) low
  -- The decimal is in the normal range, where the error of rounding is relative.
  rw [toDouble_eq_nearest] at range ⊢
  have inside : smallestNormal ≤ |d.toRat| := by
    rw [abs_of_pos positive]
    exact smallestNormal_le.trans low
  obtain ⟨error, small, value⟩ := exists_error_nearest (.inr inside) range
  rw [value, mul_one_add, add_sub_cancel_left, abs_mul, abs_of_pos positive]
  calc d.toRat * |error| ≤ d.toRat * (1 / 2 ^ 53) := mul_le_mul_of_nonneg_left small positive.le
    _ = d.toRat / 2 ^ 53 := by ring

/-- The shortest decimal of a number from 10^-300 on is off from it by at most one part in 2^53. -/
theorem abs_sub_shortest_le {x : Double} (isFinite : x.isFinite = true)
    (low : (10 : Rat) ^ (-300 : Int) ≤ x.shortest.toRat) :
    |x.abs.toRat - x.shortest.toRat| ≤ x.shortest.toRat / 2 ^ 53 := by
  -- It denotes the number, which is the double nearest to it.
  have same := toDouble_shortest isFinite
  have near := abs_toDouble_sub_le_of_isFinite low (by rw [same, isFinite_abs, isFinite])
  rwa [same] at near

/-- A decimal with a coefficient is one unit of its last place at least. -/
theorem power_le_toRat (some : 0 < d.coefficient) : 10 ^ d.exponent ≤ d.toRat := by
  rw [toRat_eq]
  exact le_mul_of_one_le_left (zpow_nonneg (by norm_num) _) (by exact_mod_cast some)

/-- A decimal is above zero exactly when it has a coefficient. -/
theorem toRat_pos_iff : 0 < d.toRat ↔ 0 < d.coefficient := by
  have unit : (0 : Rat) < 10 ^ d.exponent := zpow_pos (by norm_num) _
  rw [toRat_eq, mul_pos_iff_of_pos_right unit, Nat.cast_pos]

/-- A decimal without places far behind the point denotes a double above zero exactly when it is
above zero. -/
theorem zero_lt_toDouble_iff (low : -300 ≤ d.exponent)
    (range : (d.toDouble false).isFinite = true) :
    zero.lt (d.toDouble false) = true ↔ 0 < d.toRat := by
  rcases Nat.eq_zero_or_pos d.coefficient with none | some
  · rw [toRat_pos_iff, toDouble_of_zero false none, none]
    decide
  · -- From one unit on the double is near the decimal, and so above zero as well.
    have tiny : (10 : Rat) ^ (-300 : Int) ≤ 10 ^ d.exponent := zpow_le_zpow_right₀ (by norm_num) low
    have positive := toRat_pos_iff.2 some
    obtain ⟨near, _⟩ :=
      abs_le.1 (abs_toDouble_sub_le_of_isFinite (tiny.trans (power_le_toRat some)) range)
    rw [(zero_lt_iff range).1]
    exact iff_of_true (by linarith) positive

/-- Between 10^-300 and 10^300 a decimal denotes a double that is off by at most one part in
2^53. -/
theorem abs_toDouble_sub_le (low : (10 : Rat) ^ (-300 : Int) ≤ d.toRat)
    (high : d.toRat ≤ 10 ^ (300 : Int)) :
    (d.toDouble false).isFinite = true
      ∧ |(d.toDouble false).toRat - d.toRat| ≤ d.toRat / 2 ^ 53 := by
  have range : (d.toDouble false).isFinite = true := by
    rw [← toRat_power] at high
    exact isFinite_toDouble_mono high (by decide +kernel)
  exact ⟨range, abs_toDouble_sub_le_of_isFinite low range⟩

/-- The double of a power of ten is near it, and is shown with its leading digit there. -/
theorem leading_shortest_power (low : -300 ≤ m) (high : m ≤ 300) :
    ((power m).toDouble false).isFinite = true
      ∧ |((power m).toDouble false).toRat - 10 ^ m| ≤ 10 ^ m / 2 ^ 53
      ∧ ((power m).toDouble false).shortest.leading = m + 1 := by
  have ten : (1 : Rat) ≤ 10 := by norm_num
  have positive : (0 : Rat) < 10 ^ m := zpow_pos (by norm_num) _
  obtain ⟨range, near⟩ := abs_toDouble_sub_le (d := power m)
    ((zpow_le_zpow_right₀ ten low).trans_eq (toRat_power m).symm)
    ((toRat_power m).trans_le (zpow_le_zpow_right₀ ten high))
  rw [toRat_power] at near
  -- One part in 2^53 is less than the hundredth within which one digit is found.
  refine ⟨range, near, leading_shortest_of_power (abs_toDouble _).symm ?_⟩
  rw [abs_toDouble]
  exact near.trans (by linarith)

/-- The double of a decimal of one digit is finite and above zero, and it is shown with its leading
digit at the same place. -/
theorem leading_shortest_of_digit (some : 0 < c) (digit : c < 10)
    (low : -300 ≤ m) (high : m < 300) :
    (toDouble false ⟨c, m⟩).isFinite = true ∧ zero.lt (toDouble false ⟨c, m⟩) = true
      ∧ (toDouble false ⟨c, m⟩).shortest.leading = m + 1 := by
  have ten : (1 : Rat) ≤ 10 := by norm_num
  have unit : (0 : Rat) < 10 ^ m := zpow_pos (by norm_num) _
  have next : (10 : Rat) ^ (m + 1) = 10 * 10 ^ m := by
    rw [Int.add_comm, zpow_one_add₀ (by norm_num)]
  -- The decimal lies between the power of ten at its place and nine times that.
  have value : toRat ⟨c, m⟩ = c * 10 ^ m := toRat_eq _
  have least : 10 ^ m ≤ toRat ⟨c, m⟩ := by
    rw [value]
    exact le_mul_of_one_le_left unit.le (by exact_mod_cast some)
  have most : toRat ⟨c, m⟩ ≤ 9 * 10 ^ m := by
    rw [value]
    exact mul_le_mul_of_nonneg_right (by exact_mod_cast (by omega : c ≤ 9)) unit.le
  have bound : toRat ⟨c, m⟩ ≤ 10 ^ (m + 1) := by linarith
  obtain ⟨isFinite, near⟩ := abs_toDouble_sub_le (d := ⟨c, m⟩)
    ((zpow_le_zpow_right₀ ten low).trans least) (bound.trans (zpow_le_zpow_right₀ ten high))
  obtain ⟨lower, upper⟩ := abs_le.1 near
  -- It is off by less than the power of ten at its place.
  have above : zero.lt (toDouble false ⟨c, m⟩) = true := (zero_lt_iff isFinite).1.2 (by linarith)
  have nonzero := isZero_of_lt above
  -- Both the power of ten at the place and the next one are shown with their digit there.
  obtain ⟨range, _, shown⟩ := leading_shortest_power low (by omega : m ≤ 300)
  obtain ⟨range', near', shown'⟩ := leading_shortest_power (m := m + 1) (by omega) (by omega)
  obtain ⟨lower', _⟩ := abs_le.1 near'
  have reached := lt_leading_iff isFinite nonzero m range (by omega)
  have beyond := lt_leading_iff isFinite nonzero (m + 1) range' (by omega)
  rw [← reach_eq_magnitude range (abs_toDouble _).symm,
    ← reach_eq_magnitude isFinite (abs_toDouble _).symm] at reached
  have inside := reached.2 (reach_mono ((toRat_power m).trans_le least))
  have outside : ¬ m + 1 < (toDouble false ⟨c, m⟩).shortest.leading := by
    rw [beyond]
    intro larger
    have order : ((power (m + 1)).toDouble false).toRat ≤ (toDouble false ⟨c, m⟩).toRat := by
      rw [← abs_toDouble, ← abs_toDouble ⟨c, m⟩, toRat_abs, toRat_abs]
      exact div_le_div_of_nonneg_right (by exact_mod_cast larger) (Nat.cast_nonneg _)
    linarith
  exact ⟨isFinite, above, by omega⟩

end Decimal

end PlusMinus
