import PlusMinus.Checked.Double
import PlusMinus.Proofs.Double.Range
import PlusMinus.Proofs.Fault

/-! The refusals of operations on doubles that cannot happen. -/

namespace PlusMinus.Double

/-- A finite double is not refused. -/
theorem checkedFinite_eq_ok {x : Double} (finite : x.isFinite = true) :
    x.checkedFinite = .ok x := by
  obtain ⟨_, _, _, rfl⟩ := exists_of_isFinite finite
  rfl

/-- A finite double is in range. -/
theorem inRange?_eq_some {x : Double} (finite : x.isFinite = true) : x.inRange? = some x := by
  obtain ⟨_, _, _, rfl⟩ := exists_of_isFinite finite
  rfl

/-- A whole number is not refused when it is in range as a double. -/
theorem checkedInt_eq_ok {n : Int} (finite : (ofInt n).isFinite = true) :
    checkedInt n = .ok (ofInt n) := by
  rw [checkedInt, ofInt?, inRange?_eq_some finite, Fault.require]

/-- Finite doubles have a largest whole number below them. -/
theorem checkedFloor_eq_ok {x : Double} (finite : x.isFinite = true) :
    x.checkedFloor = .ok x.floor := by
  unfold checkedFloor
  rw [checkedFinite_eq_ok finite]
  rfl

/-- A quotient by another number than zero is not refused. -/
theorem checkedDiv_eq_ok {x y : Double} (nonzero : y.isZero = false) :
    x.checkedDiv y = .ok (x / y) := by
  unfold checkedDiv
  rw [nonzero]
  rfl

section Logarithm

/-- The terms of the series are no larger than its first power. -/
theorem atanhTerms_le {square : Nat} (small : square ≤ seriesScale) (count index power : Nat) :
    atanhTerms count index power square ≤ count * power := by
  -- Each power is at most the one before it, since the square is at most one.
  induction count generalizing index power with
  | zero => exact Nat.zero_le _
  | succ count ih =>
    have next : power * square / seriesScale ≤ power :=
      Nat.div_le_of_le_mul (by
        rw [Nat.mul_comm seriesScale]
        exact Nat.mul_le_mul_left power small)
    have first : power / (2 * index + 1) ≤ power := Nat.div_le_self _ _
    have later := Nat.le_trans (ih (index + 1) (power * square / seriesScale))
      (Nat.mul_le_mul_left count next)
    have total : (count + 1) * power = count * power + power := Nat.succ_mul count power
    unfold atanhTerms
    omega

/-- The natural logarithm of a quotient is a number of moderate size. -/
theorem within_lnQuotient (numerator : Nat) {denominator : Nat} (positive : 0 < denominator) :
    (lnQuotient numerator denominator).Within 7 := by
  have scale : 0 < seriesScale := twoTo_pos 200
  unfold lnQuotient
  dsimp only
  generalize equal : (if numerator < denominator then denominator - numerator
    else numerator - denominator) = difference
  have less : difference ≤ numerator + denominator := by
    rw [← equal]
    split <;> omega
  -- The argument of the series and its square are at most one.
  have ratio : difference * seriesScale / (numerator + denominator) ≤ seriesScale :=
    Nat.div_le_of_le_mul (Nat.mul_le_mul_right _ less)
  generalize difference * seriesScale / (numerator + denominator) = power at ratio
  have square : power * power / seriesScale ≤ seriesScale :=
    Nat.div_le_of_le_mul (Nat.mul_le_mul ratio ratio)
  -- The series has sixty-four terms, none of them larger than the first power.
  have sum : atanhTerms 64 0 power (power * power / seriesScale) ≤ 64 * seriesScale :=
    Nat.le_trans (atanhTerms_le square 64 0 power) (Nat.mul_le_mul_left 64 ratio)
  refine within_ofQuotient _ _ scale (by decide) ?_
  calc 2 * atanhTerms 64 0 power (power * power / seriesScale) * one
      ≤ 2 * (64 * seriesScale) * one := Nat.mul_le_mul_right one (Nat.mul_le_mul_left 2 sum)
    _ = twoTo 7 * one * seriesScale := by
      rw [show twoTo 7 = 2 * 64 from rfl]
      generalize one = unit
      generalize seriesScale = scale
      ac_rfl

/-- The common logarithm of a finite number is a number of moderate size. -/
theorem within_log10 {x : Double} (finite : x.isFinite = true) : x.log10.Within 13 := by
  -- The exponent has at most eleven bits, and the constants are below one.
  obtain ⟨negative, quanta, fits, rfl⟩ := exists_of_isFinite finite
  have bits : quanta.log2 < 2098 := log2_lt_of_lt_twoTo (by decide) fits.1
  unfold log10
  dsimp only [magnitude]
  -- The constants of the formula are quotients below one.
  have low : log10TwoLow.Within 0 :=
    within_ofQuotient _ _ (tenTo_pos 33) (by decide) (by decide +kernel)
  have high : log10TwoHigh.Within 0 :=
    within_ofQuotient _ _ (tenTo_pos 21) (by decide) (by decide +kernel)
  have base : log10E.Within 0 :=
    within_ofQuotient _ _ (tenTo_pos 21) (by decide) (by decide +kernel)
  generalize power : (if ((quanta.log2 : Int) - 1074) < 0 then (quanta.log2 : Int) - 1074 + 1
    else (quanta.log2 : Int) - 1074) = exponent
  have exponent : (ofInt exponent).Within 11 := within_ofInt (by decide) (by
    rw [show twoTo 11 = 2048 from rfl]
    omega)
  have scaled : 0 < (if ((quanta.log2 : Int) - 1074) < 0 then twoTo (quanta.log2 + 1)
      else twoTo quanta.log2) := by split <;> exact twoTo_pos _
  have logarithm := within_lnQuotient quanta scaled
  -- Each of the three terms is a product of such numbers.
  have correction := exponent.mul low (by decide)
  have significand := (base.mul logarithm (by decide)).mono (f := 11) (by decide)
  have leading := (exponent.mul high (by decide)).mono (f := 12) (by decide)
  exact (correction.add significand (by decide)).add leading (by decide)

/-- A finite number other than zero has a logarithm. -/
theorem checkedLog10_eq_ok {x : Double} (finite : x.isFinite = true) (nonzero : x.isZero = false) :
    x.checkedLog10 = .ok x.log10 := by
  obtain ⟨negative, quanta, fits, rfl⟩ := exists_of_isFinite finite
  simp only [checkedLog10, nonzero]
  rfl

/-- A finite number has an order of magnitude. -/
theorem checkedOrder_eq_ok {x : Double} (finite : x.isFinite = true) :
    x.checkedOrder = .ok x.order := by
  unfold checkedOrder order
  split
  · rfl
  · rename_i nonzero
    -- The logarithm is finite too, and so it has a whole number below it.
    rw [checkedLog10_eq_ok finite (by simpa using nonzero), Fault.ok_bind,
      checkedFloor_eq_ok (within_log10 finite).isFinite]

end Logarithm

section Rounding

/-- The signed quanta of a finite number are those of its magnitude behind its sign. -/
theorem signedQuanta_finite (negative : Bool) (quanta : Nat) (fits : Fits quanta) :
    (finite negative quanta fits).signedQuanta = if negative then -(quanta : Int) else quanta := by
  cases negative <;> rfl

/-- Whole numbers of units are counted by dividing by the unit. -/
theorem signed_mul_div (negative : Bool) (k : Nat) {unit : Nat} (positive : 0 < unit) :
    (if negative then -((unit * k : Nat) : Int) else (unit * k : Nat)) / (unit : Int)
      = if negative then -(k : Int) else k := by
  have nonzero : (unit : Int) ≠ 0 := by omega
  cases negative with
  | false =>
    rw [if_neg Bool.false_ne_true, if_neg Bool.false_ne_true, Int.natCast_mul,
      Int.mul_ediv_cancel_left _ nonzero]
  | true =>
    -- The sign goes over to the number of units, which the unit then leaves.
    rw [if_pos rfl, if_pos rfl, Int.natCast_mul, ← Int.mul_neg, Int.mul_ediv_cancel_left _ nonzero]

/-- The steps of the numbers from 2^53 on are whole numbers. -/
theorem one_dvd_of_large {quanta : Nat} (fits : Fits quanta) (large : twoTo 53 * one ≤ quanta) :
    one ∣ quanta := by
  rw [twoTo_mul_one] at large
  have logarithm := le_log2_of_twoTo_le large
  exact Nat.dvd_trans (twoTo_dvd (by omega)) (Nat.dvd_of_mod_eq_zero fits.2)

/-- A number from 2^53 on is whole. -/
theorem ofInt_floor_of_large (negative : Bool) {quanta : Nat} (fits : Fits quanta)
    (large : twoTo 53 * one ≤ quanta) :
    ofInt (finite negative quanta fits).floor = finite negative quanta fits := by
  obtain ⟨k, whole⟩ := one_dvd_of_large fits large
  have unit : 0 < one := twoTo_pos 1074
  have some : 0 < k := by
    refine Nat.pos_of_ne_zero fun none => ?_
    have positive := Nat.mul_pos (twoTo_pos 53) unit
    rw [whole, none, Nat.mul_zero] at large
    omega
  have floor : (finite negative quanta fits).floor = if negative then -(k : Int) else k := by
    unfold Double.floor
    rw [signedQuanta_finite, whole, signed_mul_div negative k unit]
  -- The whole number has the sign and the magnitude of the double.
  have sign : decide ((finite negative quanta fits).floor < 0) = negative := by
    rw [floor]
    cases negative with
    | false => simp
    | true =>
      rw [if_pos rfl, decide_eq_true_eq]
      omega
  have magnitude : (finite negative quanta fits).floor.natAbs * one = quanta := by
    rw [floor, whole, Nat.mul_comm one]
    cases negative <;> simp
  have rounded := ofQuotient_of_fits .toEven negative (by decide : 0 < 1) fits
  rw [Nat.mul_one] at rounded
  unfold ofInt
  rw [sign, magnitude, rounded]

/-- A number below 2^53 has a whole number below it that is no larger. -/
theorem natAbs_floor_le (negative : Bool) {quanta : Nat} (fits : Fits quanta)
    (small : quanta ≤ twoTo 53 * one) :
    (finite negative quanta fits).floor.natAbs ≤ twoTo 53 := by
  unfold floor
  rw [signedQuanta_finite]
  -- The quanta are divided by those of one, on either side of zero.
  have unit : 0 < one := twoTo_pos 1074
  generalize one = scale at small unit ⊢
  generalize twoTo 53 = bound at small ⊢
  have below : (quanta : Int) ≤ (bound : Int) * (scale : Int) := by exact_mod_cast small
  have low : -(bound : Int) ≤ (if negative then -(quanta : Int) else quanta) / scale := by
    rw [Int.le_ediv_iff_mul_le (by omega), Int.neg_mul]
    split <;> omega
  have high : (if negative then -(quanta : Int) else quanta) / scale ≤ bound :=
    Int.ediv_le_of_le_mul (by omega) (by split <;> omega)
  omega

/-- Nothing is left of a number when it is taken from itself. -/
theorem le_half_sub_self (negative : Bool) (quanta : Nat) (fits : Fits quanta) :
    le half (finite negative quanta fits - finite negative quanta fits) = false := by
  -- The signed quanta of a number and of its opposite cancel.
  have zero :
      (finite negative quanta fits).signedQuanta + (finite (!negative) quanta fits).signedQuanta
      = 0 := by
    cases negative <;> simp only [signedQuanta, Bool.not_true, Bool.not_false] <;> omega
  have difference : finite negative quanta fits - finite negative quanta fits
      = finite (negative && !negative) 0 fits_zero := by
    change finite negative quanta fits + finite (!negative) quanta fits = _
    rw [add_finite fits fits, zero]
    exact ofQuotient_zero _ _ (by decide)
  rw [difference]
  cases negative <;> decide +kernel

/-- Making a number whole is never refused. -/
theorem checkedRoundHalfUp_eq_ok (x : Double) : x.checkedRoundHalfUp = .ok x.roundHalfUp := by
  unfold checkedRoundHalfUp roundHalfUp
  split
  · rename_i finite
    obtain ⟨negative, quanta, fits, rfl⟩ := exists_of_isFinite finite
    dsimp only
    rcases Nat.le_total quanta (twoTo 53 * one) with small | large
    · -- The whole numbers on both sides are small.
      have bound := natAbs_floor_le negative fits small
      generalize (Double.finite negative quanta fits).floor = below at bound
      have bits : twoTo 54 = twoTo 53 + twoTo 53 := by decide
      have positive := twoTo_pos 53
      have whole : (ofInt below).Within 54 := within_ofInt (by decide) (by omega)
      have next : (ofInt (below + 1)).Within 54 := within_ofInt (by decide) (by omega)
      rw [checkedInt_eq_ok whole.isFinite, Fault.ok_bind]
      split
      · exact checkedInt_eq_ok next.isFinite
      · exact checkedInt_eq_ok whole.isFinite
    · -- The number is whole, so that nothing is left above the whole number below it.
      have same := ofInt_floor_of_large negative fits large
      have whole : (ofInt (Double.finite negative quanta fits).floor).isFinite = true := by
        rw [same]
        rfl
      rw [checkedInt_eq_ok whole, Fault.ok_bind, same, le_half_sub_self]
      exact checkedInt_eq_ok whole
  · rfl

/-- A whole number that is not refused is finite. -/
theorem isFinite_of_checkedInt {n : Int} {x : Double} (passed : checkedInt n = .ok x) :
    x.isFinite = true := by
  unfold checkedInt ofInt? ofInt ofQuotient at passed
  dsimp only at passed
  -- What is out of range is refused, so a whole number that passes is finite.
  split at passed
  · cases passed
    rfl
  · cases passed

/-- Making a finite number whole leaves it finite. -/
theorem isFinite_roundHalfUp {x : Double} (finite : x.isFinite = true) :
    x.roundHalfUp.isFinite = true := by
  -- Making a number whole ends with a whole number that has passed.
  have passed := checkedRoundHalfUp_eq_ok x
  unfold checkedRoundHalfUp at passed
  rw [if_pos finite] at passed
  obtain ⟨_, _, last⟩ := Fault.bind_eq_ok.1 passed
  exact isFinite_of_checkedInt last

/-- A number from one on does not become zero when it is made whole. -/
theorem isZero_roundHalfUp {quanta : Nat} (fits : Fits quanta) (least : one ≤ quanta) :
    (finite false quanta fits).roundHalfUp.isZero = false := by
  -- The whole number below it is one at least, and rounding does not go below that.
  have some : 1 ≤ (finite false quanta fits).floor := by
    have positive : 0 < one := twoTo_pos 1074
    unfold floor
    rw [signedQuanta_finite, if_neg Bool.false_ne_true]
    generalize one = unit at positive least
    rw [Int.le_ediv_iff_mul_le (by omega)]
    omega
  have finite : (finite false quanta fits).isFinite = true := rfl
  unfold roundHalfUp
  rw [if_pos finite]
  generalize (Double.finite false quanta fits).floor = below at some
  dsimp only
  split
  · exact isZero_ofInt (by omega)
  · exact isZero_ofInt (by omega)

end Rounding

end PlusMinus.Double
