import PlusMinus.Proofs.Double.HalfUp
import PlusMinus.Proofs.Double.Logarithm
import PlusMinus.Proofs.Double.LogarithmNear

/-! Between which whole numbers the common logarithm of a double lies: rounding does not lead it
across a whole number unless the double is next to a power of ten. -/

namespace PlusMinus.Double

section Multiple

variable {x : Double} {place : Nat}

/-- A double with its leading bit far enough above a place is a whole multiple of the power of two
there. -/
theorem exists_multiple (isFinite : x.isFinite = true) (least : twoTo (place + 52) ≤ x.magnitude) :
    ∃ n : Int, x.toRat = n * twoTo place / one := by
  obtain ⟨negative, quanta, fits, rfl⟩ := exists_of_isFinite isFinite
  have bits := le_log2_of_twoTo_le least
  change place + 52 ≤ quanta.log2 at bits
  -- The steps there are multiples of the power.
  obtain ⟨m, same⟩ :=
    (twoTo_dvd (show place ≤ quanta.log2 - 52 by omega)).trans (Nat.dvd_of_mod_eq_zero fits.2)
  refine ⟨if negative then -m else m, ?_⟩
  rw [toRat_eq, signedQuanta_finite, same]
  cases negative
  · rw [if_neg Bool.false_ne_true, if_neg Bool.false_ne_true]
    push_cast
    ring
  · rw [if_pos rfl, if_pos rfl]
    push_cast
    ring

end Multiple

/-- No double is nearer to a number than its nearest one, whatever the sign. -/
theorem abs_nearest_sub_le_of_sign {x : Double} {z : Rat} (isFinite : x.isFinite = true)
    (range : (nearest z).isFinite = true) : |(nearest z).toRat - z| ≤ |x.toRat - z| := by
  rcases le_or_gt 0 z with nonnegative | negative
  · exact abs_nearest_sub_le isFinite nonnegative range
  · -- Below zero everything is turned around.
    have opposite := nearest_neg negative.ne
    have nearer :=
      abs_nearest_sub_le (x := -x) (z := -z) (by rw [isFinite_neg, isFinite]) (by linarith)
      (by rw [opposite, isFinite_neg, range])
    rw [opposite, toRat_neg, toRat_neg] at nearer
    rwa [abs_sub_comm, abs_sub_comm x.toRat, ← neg_sub_neg, ← neg_sub_neg x.toRat]

/-- A number less than half a step below a whole number is not rounded to less. -/
theorem le_nearest_of_close {z : Rat} {n : Int} (bits : Nat) (few : n.natAbs ≤ twoTo 53)
    (fine : bits ≤ 1074)
    (range : (nearest z).isFinite = true) (close : 2 * (n - z) < 1 / 2 ^ bits)
    (coarse : ∀ w : Rat, n - 1 / 2 ^ bits < w → w < n → twoTo 52 * (1 / 2 ^ bits) ≤ |w|) :
    (n : Rat) ≤ (nearest z).toRat := by
  by_contra below
  rw [not_le] at below
  have whole := isFinite_ofInt few
  have value := toRat_ofInt few
  -- It is not further away than the whole number.
  have reached : z < n := by
    by_contra above
    have kept := (nearest_between whole range).1 (by linarith)
    linarith
  have nearer := abs_nearest_sub_le_of_sign whole range
  rw [value, abs_of_pos (sub_pos.2 reached), abs_le] at nearer
  have inside : n - 1 / 2 ^ bits < (nearest z).toRat := by linarith
  -- Between the whole number and the next step below it there is no double.
  have size := coarse _ inside below
  rw [abs_toRat range, ← twoTo_div_one fine, ← mul_div_assoc,
    div_le_div_iff_of_pos_right (Nat.cast_pos.2 unit_pos), ← Nat.cast_mul, Nat.cast_le, ← twoTo_add,
    Nat.add_comm] at size
  obtain ⟨m, same⟩ := exists_multiple range size
  have step : (0 : Rat) < 1 / 2 ^ bits := by positivity
  have unit : (n : Rat) = (n * 2 ^ bits : Int) * (1 / 2 ^ bits) := by
    push_cast
    field_simp
  rw [same, mul_div_assoc, twoTo_div_one fine, unit] at below inside
  have less := lt_of_mul_lt_mul_right below step.le
  rw [← sub_one_mul] at inside
  have more := lt_of_mul_lt_mul_right inside step.le
  have less' : m < n * 2 ^ bits := by exact_mod_cast less
  have more' : n * 2 ^ bits - 1 < m := by exact_mod_cast more
  omega

section Exact

variable {t c : Rat} {e : Int}

/-- The common logarithm of a multiple of a power of ten. -/
theorem logb_mul_zpow {c : ℝ} (positive : 0 < c) (e : Int) :
    Real.logb 10 (c * 10 ^ e) = Real.log c / Real.log 10 + e := by
  have ten := log_ten_pos
  rw [Real.logb, Real.log_mul positive.ne' (zpow_pos (by norm_num) e).ne', Real.log_zpow, add_div,
    mul_div_cancel_right₀ _ ten.ne']

/-- The logarithm of a number from a multiple of a power of ten on, by how far the factor is above
one. -/
theorem le_logb (positive : 0 < c) (reached : c * 10 ^ e ≤ t) :
    (1 - (c : ℝ)⁻¹) / Real.log 10 + e ≤ Real.logb 10 t := by
  have ten := log_ten_pos
  have power : (0 : ℝ) < 10 ^ e := zpow_pos (by norm_num) e
  have positive : (0 : ℝ) < c := Rat.cast_pos.2 positive
  rw [← Rat.cast_le (K := ℝ)] at reached
  push_cast at reached
  -- The logarithm of the factor is at least one less its inverse.
  calc (1 - (c : ℝ)⁻¹) / Real.log 10 + e ≤ Real.log c / Real.log 10 + e :=
        add_le_add_left
          (div_le_div_of_nonneg_right (Real.one_sub_inv_le_log_of_pos positive) ten.le) _
    _ = Real.logb 10 (c * 10 ^ e) := (logb_mul_zpow positive e).symm
    _ ≤ Real.logb 10 t := Real.logb_le_logb_of_le (by norm_num) (mul_pos positive power) reached

/-- The logarithm of a number up to a multiple of a power of ten, by how far the factor is below
one. -/
theorem logb_le (some : 0 < t) (below : t ≤ c * 10 ^ e) :
    Real.logb 10 t ≤ ((c : ℝ) - 1) / Real.log 10 + e := by
  have ten := log_ten_pos
  have power : (0 : ℝ) < 10 ^ e := zpow_pos (by norm_num) e
  have some : (0 : ℝ) < t := Rat.cast_pos.2 some
  rw [← Rat.cast_le (K := ℝ)] at below
  push_cast at below
  have positive : (0 : ℝ) < c := (mul_pos_iff_of_pos_right power).1 (some.trans_le below)
  -- The logarithm of the factor is at most the factor less one.
  calc Real.logb 10 t ≤ Real.logb 10 (c * 10 ^ e) :=
    Real.logb_le_logb_of_le (by norm_num) some below
    _ = Real.log c / Real.log 10 + e := logb_mul_zpow positive e
    _ ≤ ((c : ℝ) - 1) / Real.log 10 + e :=
        add_le_add_left (div_le_div_of_nonneg_right (Real.log_le_sub_one_of_pos positive) ten.le) _

end Exact

section Bounds

variable {x : Double} {e : Int}

/-- A number that is not zero has a magnitude above zero. -/
theorem abs_toRat_pos (isFinite : x.isFinite = true) (nonzero : x.isZero = false) :
    0 < |x.toRat| := by
  have some : x.magnitude ≠ 0 := by
    obtain ⟨negative, quanta, fits, rfl⟩ := exists_of_isFinite isFinite
    simpa [isZero, magnitude] using nonzero
  rw [abs_toRat isFinite]
  exact div_pos (Nat.cast_pos.2 (Nat.pos_of_ne_zero some)) (Nat.cast_pos.2 unit_pos)

/-- Below a power of ten by more than a few steps the logarithm is below its exponent. -/
theorem log10_lt (isFinite : x.isFinite = true) (nonzero : x.isZero = false)
    (below : |x.toRat| ≤ (1 - 5 / 2 * (|e| + 1 : Int) / 2 ^ 53) * 10 ^ e) : x.log10.toRat < e := by
  obtain ⟨finite, z, alike, near⟩ := exists_log10_near isFinite nonzero
  obtain ⟨_, _, most⟩ := log_bounds
  have ten := log_ten_pos
  have size : (0 : Rat) ≤ |(e : Rat)| := abs_nonneg _
  -- The exact logarithm is below the exponent by more than the roundings can make up for.
  have upper : Real.logb 10 (|x.toRat| : Rat) ≤ e - 10855 / 10 ^ 4 * (|(e : ℝ)| + 1) / 2 ^ 53 := by
    have size : (0 : ℝ) ≤ |(e : ℝ)| + 1 := add_nonneg (abs_nonneg _) zero_le_one
    refine (logb_le (abs_toRat_pos isFinite nonzero) below).trans ?_
    push_cast
    have scaled := mul_le_mul_of_nonneg_left most size
    rw [div_add' _ _ _ ten.ne', div_le_iff₀ ten]
    norm_num at scaled ⊢
    linarith
  have close : z ≤ e - (10855 / 10 ^ 4 * (|(e : Rat)| + 1) - 98 / 10 ^ 2) / 2 ^ 53 := by
    rw [← Rat.cast_le (K := ℝ)]
    push_cast
    have near := (abs_le.1 near).2
    linarith
  have reached : z - e ≤ 0 := by linarith
  -- The last rounding loses a part of the logarithm, which is not much larger than the exponent.
  have far : |z| ≤ |(e : Rat)| + (e - z) := by
    have parts := abs_sub_abs_le_abs_sub z e
    rw [abs_of_nonpos reached] at parts
    linarith
  rw [alike.isFinite] at finite
  rw [alike.toRat]
  have lost := (abs_le.1 (abs_nearest_sub_le_of_isFinite finite)).2
  norm_num at close lost ⊢
  linarith

/-- A number of which the logarithm is known to reach a whole number has one that is rounded to no
less. -/
theorem le_log10_of_reached {z : Rat} (few : e.natAbs ≤ twoTo 53) (finite : x.log10.isFinite = true)
    (alike : x.log10.Alike (nearest z)) (reached : (e : Rat) ≤ z) : (e : Rat) ≤ x.log10.toRat := by
  rw [alike.isFinite] at finite
  have kept := (nearest_between (isFinite_ofInt few) finite).1
  rw [toRat_ofInt few] at kept
  rw [alike.toRat]
  exact kept reached

/-- From half as much again as a power of ten on the logarithm is well above its exponent. -/
theorem le_log10_of_far (isFinite : x.isFinite = true) (nonzero : x.isZero = false)
    (few : e.natAbs ≤ twoTo 53)
    (far : 3 / 2 * 10 ^ e ≤ |x.toRat|) : (e : Rat) ≤ x.log10.toRat := by
  obtain ⟨finite, z, alike, near⟩ := exists_log10_near isFinite nonzero
  have lower := le_logb (by norm_num) far
  obtain ⟨_, _, most⟩ := log_bounds
  have ten := log_ten_pos
  -- Half as much again adds more than a tenth to the logarithm, far more than is lost.
  have margin : 1 / 10 ≤ (1 - ((3 / 2 : Rat) : ℝ)⁻¹) / Real.log 10 := by
    rw [le_div_iff₀ ten]
    norm_num at most ⊢
    linarith
  refine le_log10_of_reached few finite alike ?_
  rw [← Rat.cast_le (K := ℝ)]
  have near := (abs_le.1 near).1
  push_cast
  linarith

/-- The logarithms of one and of ten are not below zero and one. -/
theorem logarithmAt_base :
    ((logarithmAt 0 (tenTo 0 * one)).isFinite = true ∧ 0 ≤ (logarithmAt 0 (tenTo 0 * one)).toRat)
      ∧ (logarithmAt 3 (tenTo 1 * one)).isFinite = true
      ∧ 1 ≤ (logarithmAt 3 (tenTo 1 * one)).toRat := by
  decide +kernel

/-- At one and at ten, where doubles are finer than roundings are exact, the logarithm grows with
the significand, and begins with the exponent. -/
theorem le_log10_of_binade {e : Nat} (bits : Nat) (isFinite : x.isFinite = true)
    (nonzero : x.isZero = false)
    (few : e ≤ 1) (reached : tenTo e * one ≤ x.magnitude) (low : twoTo bits ≤ tenTo e)
    (high : 3 * tenTo e ≤ 2 * twoTo (bits + 1))
    (base : (logarithmAt bits (tenTo e * one)).isFinite = true
      ∧ (e : Rat) ≤ (logarithmAt bits (tenTo e * one)).toRat) :
    (e : Rat) ≤ x.log10.toRat := by
  have least : twoTo (bits + 1074) ≤ tenTo e * one := by
    rw [← twoTo_mul_one]
    exact Nat.mul_le_mul_right one low
  have next : 3 * (tenTo e * one) ≤ 2 * twoTo (bits + 1 + 1074) := by
    rw [← twoTo_mul_one, ← Nat.mul_assoc, ← Nat.mul_assoc]
    exact Nat.mul_le_mul_right one high
  rcases Nat.lt_or_ge x.magnitude (twoTo (bits + 1 + 1074)) with inside | above
  · have log : x.magnitude.log2 = bits + 1074 := by
      have low := le_log2_of_twoTo_le (least.trans reached)
      have high := log2_lt_of_lt_twoTo (by omega) inside
      omega
    have order := logarithmAt_notAbove bits least reached
    rw [← log10_eq log] at order
    exact base.2.trans (order.toRat_le base.1 (exists_log10_near isFinite nonzero).1)
  · -- Behind the next power of two the number is far enough above the power of ten.
    have far : 3 / 2 * 10 ^ (e : Int) ≤ |x.toRat| := by
      have many : 3 * (tenTo e * one) ≤ 2 * x.magnitude := by omega
      have many : (3 * (tenTo e * one) : Rat) ≤ 2 * x.magnitude := by exact_mod_cast many
      rw [abs_toRat isFinite, le_div_iff₀ (Nat.cast_pos.2 unit_pos), ← cast_tenTo]
      linarith
    exact_mod_cast le_log10_of_far isFinite nonzero (few.trans (by decide)) far

/-- From one tenth and from a hundred on the logarithm is not below the exponent: the steps between
doubles there are as large as what roundings lose. -/
theorem le_log10_of_fine (isFinite : x.isFinite = true) (nonzero : x.isZero = false)
    (fine : e = -1 ∨ e = 2)
    (reached : 10 ^ e ≤ |x.toRat|) : (e : Rat) ≤ x.log10.toRat := by
  obtain ⟨finite, z, alike, near⟩ := exists_log10_near isFinite nonzero
  have lower := le_logb one_pos ((one_mul _).trans_le reached)
  rw [Rat.cast_one, inv_one, sub_self, zero_div, zero_add] at lower
  -- What is lost is less than half a step of the doubles below the exponent, so rounding makes up
  -- for it.
  have close : e - 98 / 10 ^ 2 / 2 ^ 53 ≤ z := by
    rw [← Rat.cast_le (K := ℝ)]
    push_cast
    linarith [(abs_le.1 near).1]
  have steps : (twoTo 52 : Rat) * (1 / 2 ^ 52) = 1 := by
    rw [cast_twoTo]
    norm_num
  rw [alike.toRat]
  refine le_nearest_of_close 52 (by rcases fine with rfl | rfl <;> decide) (by decide)
    (alike.isFinite.symm.trans finite) ?_ fun w above below => ?_
  · norm_num at close ⊢
    linarith
  · rw [steps, le_abs]
    rcases fine with rfl | rfl
    · right
      push_cast at below
      linarith
    · left
      norm_num at above
      linarith

/-- Next to the other powers of ten, where the steps are larger, not even the double below the power
has a logarithm that is rounded to less. -/
theorem le_log10_of_coarse (isFinite : x.isFinite = true) (nonzero : x.isZero = false)
    (few : e.natAbs ≤ twoTo 53)
    (coarse : e ≤ -2 ∨ 3 ≤ e) (reached : (1 - 1 / 2 ^ 53) * 10 ^ e ≤ |x.toRat|) :
    (e : Rat) ≤ x.log10.toRat := by
  obtain ⟨finite, z, alike, near⟩ := exists_log10_near isFinite nonzero
  obtain ⟨_, least, _⟩ := log_bounds
  have ten := log_ten_pos
  have lower := le_logb (by norm_num) reached
  -- The double below the power loses a little more of the logarithm, but the steps are twice as
  -- large here.
  have lost : -(435 / 10 ^ 3 / 2 ^ 53) ≤ (1 - ((1 - 1 / 2 ^ 53 : Rat) : ℝ)⁻¹) / Real.log 10 := by
    rw [le_div_iff₀ ten]
    norm_num at least ⊢
    linarith
  have close : e - 1415 / 10 ^ 3 / 2 ^ 53 ≤ z := by
    rw [← Rat.cast_le (K := ℝ)]
    push_cast
    linarith [(abs_le.1 near).1]
  -- In steps of this size the exponent is a double with room below it.
  have steps : (twoTo 52 : Rat) * (1 / 2 ^ 51) = 2 := by
    rw [cast_twoTo]
    norm_num
  rw [alike.toRat]
  refine le_nearest_of_close 51 few (by decide) (alike.isFinite.symm.trans finite) ?_
    fun w above below => ?_
  · norm_num at close ⊢
    linarith
  · rw [steps, le_abs]
    rcases coarse with negative | positive
    · right
      have negative : (e : Rat) ≤ -2 := by exact_mod_cast negative
      linarith
    · left
      have positive : (3 : Rat) ≤ e := by exact_mod_cast positive
      norm_num at above
      linarith

/-- From a power of ten on the logarithm is not below its exponent, and for most of the powers
neither is that of the double below it. -/
theorem le_log10 (isFinite : x.isFinite = true) (nonzero : x.isZero = false)
    (few : e.natAbs ≤ twoTo 53)
    (reached : (1 - 1 / 2 ^ 53) * 10 ^ e ≤ |x.toRat|)
    (exact : -1 ≤ e → e ≤ 2 → 10 ^ e ≤ |x.toRat|) :
    (e : Rat) ≤ x.log10.toRat := by
  have quanta : ∀ n : Nat, -1 ≤ (n : Int) → (n : Int) ≤ 2 → e = n →
      tenTo n * one ≤ x.magnitude := by
    rintro n low high rfl
    have size := exact low high
    rw [abs_toRat isFinite, le_div_iff₀ (Nat.cast_pos.2 unit_pos), ← cast_tenTo] at size
    exact_mod_cast size
  -- How fine doubles are next to the exponent decides: at zero and at one they are too fine for
  -- what is lost, so the logarithm is followed through the binade from there on.
  rcases (by omega : e = 0 ∨ e = 1 ∨ (e = -1 ∨ e = 2) ∨ e ≤ -2 ∨ 3 ≤ e) with
    zero | one | fine | coarse
  · have base := le_log10_of_binade (e := 0) 0 isFinite nonzero (by decide)
      (quanta 0 (by decide) (by decide) zero) (by decide) (by decide)
        (by exact_mod_cast logarithmAt_base.1)
    rw [zero]
    exact_mod_cast base
  · have base := le_log10_of_binade (e := 1) 3 isFinite nonzero (by decide)
      (quanta 1 (by decide) (by decide) one) (by decide) (by decide)
        (by exact_mod_cast logarithmAt_base.2)
    rw [one]
    exact_mod_cast base
  · exact le_log10_of_fine isFinite nonzero fine (exact (by omega) (by omega))
  · exact le_log10_of_coarse isFinite nonzero few coarse reached

/-- The order of a number of which the logarithm lies between two whole numbers. -/
theorem order_eq (nonzero : x.isZero = false) (low : (e : Rat) ≤ x.log10.toRat)
    (high : x.log10.toRat < (e + 1 : Int)) : x.order = e := by
  unfold order
  rw [nonzero, if_neg Bool.false_ne_true, floor_eq, Int.floor_eq_iff]
  push_cast at high
  exact ⟨low, high⟩

end Bounds

section Correction

variable {x : Double}

/-- The common logarithm that is computed is off by at most one part in 2^53 of itself and of
one. -/
theorem log10_near (isFinite : x.isFinite = true) (nonzero : x.isZero = false) :
    x.log10.isFinite = true ∧ |(x.log10.toRat : ℝ) - Real.logb 10 (|x.toRat| : Rat)|
      ≤ (|Real.logb 10 (|x.toRat| : Rat)| + 1) / 2 ^ 53 := by
  obtain ⟨finite, z, alike, near⟩ := exists_log10_near isFinite nonzero
  have lost := abs_nearest_sub_le_of_isFinite (alike.isFinite.symm.trans finite)
  rw [← alike.toRat, ← Rat.cast_le (K := ℝ)] at lost
  push_cast at lost
  refine ⟨finite, ?_⟩
  generalize Real.logb 10 (|x.toRat| : Rat) = log at near
  -- The sum is near the logarithm, and the last rounding loses a part of it in 2^53.
  have size := abs_le_of_near near (le_refl |log|)
  have parts := abs_sub_le (x.log10.toRat : ℝ) z log
  norm_num at near lost size parts ⊢
  linarith

/-- The logarithms of numbers with a quotient between three quarters and three halves are less than
one quarter apart. -/
theorem abs_logb_sub_le {a b : ℝ} (positive : 0 < b) (low : 3 / 4 * b ≤ a) (high : a ≤ 3 / 2 * b) :
    |Real.logb 10 a - Real.logb 10 b| ≤ 22 / 100 := by
  have some : 0 < a := by linarith
  obtain ⟨_, least, _⟩ := log_bounds
  have ten := log_ten_pos
  -- The logarithm of the quotient is at least one less the inverse of it, and at most the quotient
  -- less one.
  have above := Real.log_le_sub_one_of_pos (div_pos some positive)
  have below := Real.one_sub_inv_le_log_of_pos (div_pos some positive)
  have most : a / b ≤ 3 / 2 := by rwa [div_le_iff₀ positive]
  have most' : (a / b)⁻¹ ≤ 4 / 3 := by
    rw [inv_div, div_le_iff₀ some]
    linarith
  rw [Real.log_div some.ne' positive.ne'] at above below
  rw [Real.logb, Real.logb, ← sub_div, abs_div, abs_of_pos ten, div_le_iff₀ ten, abs_le]
  norm_num at least
  constructor <;> linarith

/-- The logarithm of a number between one and ten, as it is computed, is off by next to nothing. -/
theorem abs_log10_sub_le (isFinite : x.isFinite = true) (least : 1 ≤ x.toRat)
    (most : x.toRat ≤ 10) :
    x.log10.isFinite = true ∧ |(x.log10.toRat : ℝ) - Real.logb 10 x.toRat| ≤ 2 / 2 ^ 53 := by
  have nonzero := isZero_of_lt ((zero_lt_iff isFinite).1.2 (by linarith))
  obtain ⟨finite, near⟩ := log10_near isFinite nonzero
  rw [abs_of_nonneg (by linarith : 0 ≤ x.toRat)] at near
  -- The logarithm lies between zero and one, which bounds what is lost.
  have lower := le_logb (t := x.toRat) (c := 1) (e := 0) one_pos (by simpa using least)
  have upper := logb_le (t := x.toRat) (c := 1) (e := 1) (by linarith) (by simpa using most)
  simp only [Rat.cast_one, inv_one, sub_self, zero_div, zero_add, Int.cast_zero, Int.cast_one]
    at lower upper
  rw [abs_of_nonneg lower] at near
  refine ⟨finite, near.trans (div_le_div_of_nonneg_right (by linarith) (by norm_num))⟩

/-- A number between one and ten is between three quarters of the whole number nearest to it and
three halves. -/
theorem exists_roundHalfUp (isFinite : x.isFinite = true) (least : 1 ≤ x.toRat)
    (most : x.toRat ≤ 10) :
    ∃ n : Int, x.roundHalfUp = ofInt n ∧ (1 ≤ n ∧ n ≤ 10)
      ∧ 3 / 4 * (n : Rat) ≤ x.toRat ∧ x.toRat ≤ 3 / 2 * (n : Rat) := by
  obtain ⟨n, rounded, low, high⟩ : ∃ n : Int, x.roundHalfUp = ofInt n ∧ (n : Rat) ≤ x.toRat + 1 / 2
      ∧ x.toRat + 1 / 2 < n + 1 :=
        ⟨_, roundHalfUp_eq isFinite, Int.floor_le _, Int.lt_floor_add_one _⟩
  have some : 0 < n := by
    have positive : (0 : Rat) < n := by linarith
    exact_mod_cast positive
  have bound : n < 11 := by
    have bound : (n : Rat) < 11 := by linarith
    exact_mod_cast bound
  have first : (1 : Rat) ≤ n := by exact_mod_cast some
  refine ⟨n, rounded, ⟨some, Int.lt_add_one_iff.1 bound⟩, ?_, by linarith⟩
  -- Less than a quarter of it is lost from two on, and one loses nothing.
  rcases (by omega : n = 1 ∨ 2 ≤ n) with rfl | more
  · norm_num
    linarith
  · have more : (2 : Rat) ≤ n := by exact_mod_cast more
    linarith

/-- Rounding a number between one and ten to a whole number changes its logarithm by less than one
quarter. -/
theorem abs_correction_le (isFinite : x.isFinite = true) (least : 1 ≤ x.toRat)
    (most : x.toRat ≤ 10) :
    |(x.log10 - x.roundHalfUp.log10).toRat| ≤ 1 / 4 := by
  obtain ⟨n, rounded, ⟨some, bound⟩, lower, upper⟩ := exists_roundHalfUp isFinite least most
  have few : n.natAbs ≤ twoTo 53 := le_trans (by omega : n.natAbs ≤ 10) (by decide)
  have value := toRat_ofInt few
  have first : (1 : Rat) ≤ n := by exact_mod_cast some
  have last : (n : Rat) ≤ 10 := by exact_mod_cast bound
  obtain ⟨finite, near⟩ := abs_log10_sub_le isFinite least most
  obtain ⟨finite', near'⟩ := abs_log10_sub_le (isFinite_ofInt few) (first.trans_eq value.symm)
    (value.trans_le last)
  rw [value] at near'
  -- The exact logarithms are less than one quarter apart, and what the two computed ones and their
  -- difference lose is far less than what is left.
  have between : |Real.logb 10 x.toRat - Real.logb 10 (n : Rat)| ≤ 22 / 100 := by
    rw [← Rat.cast_le (K := ℝ)] at lower upper
    push_cast at lower upper ⊢
    exact abs_logb_sub_le (Int.cast_pos.2 some) lower upper
  have close : |x.log10.toRat - (ofInt n).log10.toRat| ≤ 23 / 100 := by
    rw [← Rat.cast_le (K := ℝ)]
    push_cast at near' between ⊢
    rw [abs_le] at near near' between ⊢
    norm_num at near near' between ⊢
    constructor <;> linarith
  have moderate := (by norm_num : (23 / 100 : Rat) ≤ 1).trans (one_le_twoTo 20)
  rw [rounded]
  obtain ⟨_, lost⟩ := Operator.sub.abs_compute_sub_le finite finite' (by simp) close moderate
  exact (abs_le_of_near lost close).trans (by norm_num)

end Correction

end PlusMinus.Double
