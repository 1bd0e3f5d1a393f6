import PlusMinus.Proofs.Display.Grid

/-! Results at a decimal place stay numbers: their texts read back as finite numbers exactly when
neither scaling nor scaling back leads out of range, and otherwise as infinities. -/

namespace PlusMinus

open Double Numeral

/-- The outcome of an operation is at most one tenth larger than the exact one, or than that and
one. -/
theorem Operator.abs_compute_le (operator : Operator) {x y : Double} (first : x.isFinite = true)
    (second : y.isFinite = true) (nonzero : operator = .div → y.isZero = false)
    (range : (operator.compute x y).isFinite = true) :
    |(operator.compute x y).toRat| ≤ 11 / 10 * |operator.exact x.toRat y.toRat| + 1 := by
  have nonnegative := abs_nonneg (operator.exact x.toRat y.toRat)
  rcases le_total |operator.exact x.toRat y.toRat| 1 with small | large
  · -- Nothing is rounded across one or its opposite.
    have one : (ofInt 1).toRat = 1 ∧ (ofInt (-1)).toRat = -1 :=
      ⟨toRat_ofInt (by decide), toRat_ofInt (by decide)⟩
    obtain ⟨low, high⟩ := abs_le.1 small
    have above := (operator.compute_between first second nonzero range
      (isFinite_ofInt (n := -1) (by decide))).1 (by linarith)
    have below := (operator.compute_between first second nonzero range
      (isFinite_ofInt (n := 1) (by decide))).2 (by linarith)
    rw [one.1] at below
    rw [one.2] at above
    have bound : |(operator.compute x y).toRat| ≤ 1 := abs_le.2 ⟨above, below⟩
    linarith
  · -- From one on the outcome is off by a factor near one.
    have tiny := zpow_le_tenth
    obtain ⟨_, factor, near, value⟩ :=
      operator.compute_approximates first second nonzero (.inr (by linarith)) range
    have size : |factor| ≤ 11 / 10 := by
      obtain ⟨low, high⟩ := abs_le.1 near
      exact abs_le.2 ⟨by linarith, by linarith⟩
    have product := mul_le_mul_of_nonneg_left size nonnegative
    rw [value, abs_mul]
    linarith

namespace Double

variable {x : Double} {place : Int}

/-- A number that stays in range on the grid of a decimal place: neither its multiple nor the whole
number next to that, scaled back, reaches the overflow. -/
structure StaysInRange (x : Double) (place : Int) : Prop where
  scaled : |x.toRat * (powerOfTen place).toRat| < overflow
  restored : |(x * powerOfTen place).roundHalfUp.toRat / (powerOfTen place).toRat| < overflow

/-- A number is put on a grid as a finite number if it stays in range, and otherwise as an
infinity. -/
theorem onGrid_cases (isFinite : x.isFinite = true) (low : -300 ≤ place) (high : place ≤ 100) :
    ((x.onGrid place).isFinite = true ∧ x.StaysInRange place)
      ∨ ((∃ negative, x.onGrid place = infinite negative) ∧ ¬x.StaysInRange place) := by
  obtain ⟨range, nonzero⟩ := powerOfTen_scale place low high
  have scaled := Operator.mul.isFinite_compute_iff isFinite range (by simp)
  change (x * powerOfTen place).isFinite = true ↔ _ at scaled
  cases product : (x * powerOfTen place).isFinite with
  | false =>
    -- Once the multiple is an infinity it stays one.
    obtain ⟨negative, same⟩ := exists_infinite_of_mul isFinite range product
    refine .inr ⟨⟨negative, ?_⟩, fun stays => ?_⟩
    · rw [onGrid, same]
      exact (infinite_scaled negative low high).2
    · rw [scaled.2 stays.scaled] at product
      cases product
  | true =>
    have whole := isFinite_roundHalfUp product
    have restored := Operator.div.isFinite_compute_iff whole range fun _ => nonzero
    change (x.onGrid place).isFinite = true ↔ _ at restored
    cases quotient : (x.onGrid place).isFinite with
    | false =>
      refine .inr ⟨exists_infinite_of_div whole range nonzero quotient, fun stays => ?_⟩
      rw [restored.2 stays.restored] at quotient
      cases quotient
    | true => exact .inl ⟨rfl, scaled.1 product, restored.1 quotient⟩

/-- A finite number is shown at a decimal place by a text that reads back as a finite number. -/
theorem isFinite_ofText_atPlace (isFinite : x.isFinite = true) (place : Int) :
    (ofText (x.atPlace place)).isFinite = true := by
  unfold atPlace
  split
  · rw [ofText_text, withoutZeroSign_roundHalfUp]
    exact isFinite_roundHalfUp isFinite
  · rcases Nat.lt_or_ge x.magnitude fixedLimit with small | large
    · -- The digits that are written denote a number below 10^21 as well.
      obtain ⟨p, written, value⟩ := exists_plain_fixed isFinite small place
      rw [signText_eq] at written
      rw [ofText_plain p written, value, (Decimal.toDouble_signed _ _).1]
      exact (toDouble_toPlaces isFinite small _).1
    · rw [fixed_of_large large, ofText_text]
      unfold withoutZeroSign
      split
      · rfl
      · exact isFinite

/-- An infinity is shown at every decimal place by a text that reads back as it. -/
theorem ofText_atPlace_infinite (negative : Bool) (place : Int) :
    ofText ((infinite negative).atPlace place) = infinite negative := by
  have written : (infinite negative).atPlace place = (infinite negative).text := by
    unfold atPlace
    split <;> rfl
  rw [written, ofText_text]
  rfl

/-- The text of a number on a grid never stands for what is no number, and it reads back as a finite
number exactly when the number stays in range. -/
theorem ofText_onGrid (isFinite : x.isFinite = true) (low : -300 ≤ place) (high : place ≤ 100) :
    (ofText ((x.onGrid place).atPlace place)).isNaN = false
      ∧ ((ofText ((x.onGrid place).atPlace place)).isFinite = true ↔ x.StaysInRange place) := by
  rcases onGrid_cases isFinite low high with ⟨range, stays⟩ | ⟨⟨negative, same⟩, leaves⟩
  · have reads := isFinite_ofText_atPlace range place
    exact ⟨isNaN_of_isFinite reads, iff_of_true reads stays⟩
  · rw [same, ofText_atPlace_infinite]
    exact ⟨rfl, iff_of_false Bool.false_ne_true leaves⟩

/-- Behind the point a number stays in range when its multiple does, since scaling back makes it
smaller again. -/
theorem staysInRange_iff_of_nonneg (isFinite : x.isFinite = true) (behind : 0 ≤ place)
    (high : place ≤ 100) :
    x.StaysInRange place ↔ |x.toRat * (powerOfTen place).toRat| < overflow := by
  refine ⟨fun stays => stays.scaled, fun scaled => ⟨scaled, ?_⟩⟩
  obtain ⟨range, _⟩ := powerOfTen_scale place (by omega) high
  have product := (Operator.mul.isFinite_compute_iff isFinite range (by simp)).2 scaled
  have whole := isFinite_roundHalfUp (x := x * powerOfTen place) product
  -- The power of ten is one or far above it.
  have least : 1 ≤ (powerOfTen place).toRat := by
    rcases Int.lt_or_eq_of_le behind with some | rfl
    · have bound := (powerOfTen_bounds (by omega) high).1
      have ten : (10 : Rat) ^ (1 : Int) ≤ 10 ^ place := zpow_le_zpow_right₀ (by norm_num) (by omega)
      rw [zpow_one] at ten
      linarith
    · rw [show powerOfTen 0 = ofInt 1 from powerOfTen_eq (n := 0) (by decide),
        toRat_ofInt (by decide)]
      exact le_rfl
  rw [abs_div, abs_of_pos (lt_of_lt_of_le one_pos least)]
  exact (div_le_self (abs_nonneg _) least).trans_lt (abs_toRat_lt_overflow whole)

/-- The power of ten 10^308 is far below the overflow. -/
theorem tenTo_le_overflow : 17 / 10 * (tenTo 308 : Rat) ≤ overflow := by
  have whole : 17 * tenTo 308 ≤ 10 * (twoTo 1024 - twoTo 970) := by decide +kernel
  have cast : (17 * tenTo 308 : Rat) ≤ 10 * (twoTo 1024 - twoTo 970 : Nat) := by
    exact_mod_cast whole
  rw [overflow]
  linarith

/-- Before the point a number is restored from its multiple with at most a few units of 10^300
more. -/
theorem abs_roundHalfUp_mul_le (isFinite : x.isFinite = true) (low : -300 ≤ place)
    (high : place ≤ 100) (product : (x * powerOfTen place).isFinite = true) :
    |(x * powerOfTen place).roundHalfUp.toRat|
      ≤ (11 / 10 * |x.toRat| + 5 / 3 * 10 ^ (300 : Int)) * (powerOfTen place).toRat := by
  obtain ⟨least, _⟩ := powerOfTen_bounds low high
  have unit : (0 : Rat) < 10 ^ place := zpow_pos (by norm_num) _
  have scale : 0 < (powerOfTen place).toRat := by linarith
  -- Two roundings change the multiple, by one tenth and one, and by one half.
  have grows :=
    Operator.mul.abs_compute_le isFinite (powerOfTen_scale place low high).1 (by simp) product
  change |(x * powerOfTen place).toRat|
    ≤ 11 / 10 * |x.toRat * (powerOfTen place).toRat| + 1 at grows
  rw [abs_mul, abs_of_pos scale] at grows
  have half := (abs_roundHalfUp_sub_le (x := x * powerOfTen place) product).1
  have sum :=
    abs_sub_abs_le_abs_sub (x * powerOfTen place).roundHalfUp.toRat (x * powerOfTen place).toRat
  -- Three halves are not more than as many multiples of 10^300.
  have few : (1 : Rat) ≤ 10 ^ (300 : Int) * 10 ^ place := by
    rw [← zpow_add₀ (by norm_num)]
    exact one_le_zpow₀ (by norm_num) (by omega)
  have scaled := mul_le_mul_of_nonneg_left least (zpow_pos (by norm_num : (0 : Rat) < 10) 300).le
  generalize (10 : Rat) ^ (300 : Int) = large at few scaled ⊢
  rw [add_mul, mul_assoc, mul_assoc]
  linarith

/-- A number of which the multiple is at most 10^308 stays in range; before the point the number
itself counts. -/
theorem StaysInRange.of_le (isFinite : x.isFinite = true) (low : -300 ≤ place) (high : place ≤ 100)
    (bound : |x.toRat| * 10 ^ max place 0 ≤ tenTo 308) : x.StaysInRange place := by
  have top := tenTo_le_overflow
  have positive : (0 : Rat) < tenTo 308 := Nat.cast_pos.2 (tenTo_pos 308)
  have nonnegative := abs_nonneg x.toRat
  obtain ⟨least, most⟩ := powerOfTen_bounds low high
  have unit : (0 : Rat) < 10 ^ place := zpow_pos (by norm_num) _
  have scale : 0 < (powerOfTen place).toRat := by linarith
  -- The multiple is at most one tenth larger than with the power of ten itself.
  have scaled : |x.toRat * (powerOfTen place).toRat| ≤ 11 / 10 * (|x.toRat| * 10 ^ place) := by
    rw [abs_mul, abs_of_pos scale]
    linarith [mul_le_mul_of_nonneg_left most nonnegative]
  rcases Int.le_total 0 place with behind | before
  · rw [Int.max_eq_left behind] at bound
    exact (staysInRange_iff_of_nonneg isFinite behind high).2 (by linarith)
  · rw [Int.max_eq_right before, zpow_zero, mul_one] at bound
    have shrinks : |x.toRat| * 10 ^ place ≤ |x.toRat| * 1 :=
      mul_le_mul_of_nonneg_left (zpow_le_one_of_nonpos₀ (by norm_num) before) nonnegative
    have within : |x.toRat * (powerOfTen place).toRat| < overflow := by linarith
    have product := (Operator.mul.isFinite_compute_iff isFinite (powerOfTen_scale place low high).1
      (by simp)).2 within
    refine ⟨within, ?_⟩
    -- What is restored is hardly larger than the number.
    have restored := abs_roundHalfUp_mul_le isFinite low high product
    have far : (tenTo 308 : Rat) = 10 ^ (300 : Int) * 10 ^ (8 : Int) := by
      rw [cast_tenTo, ← zpow_add₀ (by norm_num)]
      rfl
    have small : (0 : Rat) < 10 ^ (300 : Int) := zpow_pos (by norm_num) _
    rw [abs_div, abs_of_pos scale, div_lt_iff₀ scale]
    refine restored.trans_lt (mul_lt_mul_of_pos_right ?_ scale)
    generalize (10 : Rat) ^ (300 : Int) = large at far small ⊢
    linarith

end Double

/-- A finite value and uncertainty at a decimal place are never shown as what is no number; and each
of them is shown as a finite number exactly when it stays in range at the place that is served. -/
theorem roundEntries_inRange {value uncertainty : Entry} {v u : Figure}
    (first : value.toFigure = .ok v)
    (second : uncertainty.toFigure = .ok u) (isFinite : v.magnitude.isFinite = true)
    (range : u.magnitude.isFinite = true) (precision : Int) :
    ∃ pair, roundEntries value uncertainty precision true = .ok pair
      ∧ (ofText pair.value).isNaN = false ∧ (ofText pair.uncertainty).isNaN = false
      ∧ ((ofText pair.value).isFinite = true
        ↔ v.magnitude.StaysInRange (min (max precision (-300)) 100))
      ∧ ((ofText pair.uncertainty).isFinite = true
        ↔ u.magnitude.StaysInRange (min (max precision (-300)) 100)) := by
  refine ⟨_, roundEntries_eq_ok first second precision true, ?_⟩
  rw [roundResult, if_pos rfl, roundToPlace_eq]
  have low : -300 ≤ min (max precision (-300)) 100 := by omega
  have high : min (max precision (-300)) 100 ≤ 100 := by omega
  -- Both are put on the same grid, independently of each other.
  obtain ⟨number, stays⟩ := ofText_onGrid isFinite low high
  obtain ⟨number', stays'⟩ := ofText_onGrid range low high
  exact ⟨number, number', stays, stays'⟩

/-- The value 12345.678 beside 67 stays in range at the hundreds. -/
theorem roundEntries_inRange_hundreds :
    ∃ pair, roundEntries (.text "12345.678") (.text "67") (-2) true = .ok pair
      ∧ (ofText pair.value).isFinite = true ∧ (ofText pair.uncertainty).isFinite = true := by
  have first : (Entry.text "12345.678").toFigure = .ok (.ofText "12345.678") := rfl
  have second : (Entry.text "67").toFigure = .ok (.ofText "67") := rfl
  have isFinite : (Figure.ofText "12345.678").magnitude.isFinite = true := by decide +kernel
  have range : (Figure.ofText "67").magnitude.isFinite = true := by decide +kernel
  obtain ⟨pair, rounded, _, _, value, bound⟩ :=
    roundEntries_inRange first second isFinite range (-2)
  -- Both are far below 10^308.
  refine ⟨pair, rounded, value.2 (.of_le isFinite (by decide) (by decide) ?_),
    bound.2 (.of_le range (by decide) (by decide) ?_)⟩
  · decide +kernel
  · decide +kernel

/-- At the tenth decimal place 10^300 is scaled out of range, and shown as an infinity; so is the
largest number when ten of its digits are kept, since it is scaled back to more than itself. -/
theorem roundEntries_inRange_infinite :
    roundEntries (.number (ofText "1e300")) (.number zero) 10 true
      = .ok ⟨"Infinity", "0.0000000000"⟩
      ∧ roundEntries (.number (ofText "1.7976931348623157e308")) (.number zero) (-299) true
        = .ok ⟨"Infinity", "0"⟩ := by
  decide +kernel

end PlusMinus
