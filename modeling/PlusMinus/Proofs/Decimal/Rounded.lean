import PlusMinus.Decimal.Rounded
import PlusMinus.Proofs.Decimal.Layout
import PlusMinus.Proofs.Double.Range

/-! Rounded numbers: how many digits they have, and that they are read as what they were rounded
to. -/

namespace PlusMinus

open Numeral

/-- A positive number is at least the power of ten of its leading digit. -/
theorem tenTo_le_of_digitCount {n : Nat} (positive : 0 < n) : tenTo (digitCount n - 1) ≤ n := by
  rcases Nat.eq_zero_or_pos (digitCount n - 1) with zero | more
  · rw [zero]
    exact positive
  · -- One digit less is not enough.
    have many := mt (digitCount_le_iff (n := n) more).2 (by omega)
    omega

/-- A number is below ten times the power of ten of its leading digit. -/
theorem lt_of_digitCount (n : Nat) : n < 10 * tenTo (digitCount n - 1) := by
  have some : 0 < digitCount n := Nat.length_toDigits_pos
  -- One zero more gives a number that has one digit more.
  have below := (digitCount_le_iff some).1 (Nat.le_refl _)
  have next : digitCount n = 1 + (digitCount n - 1) := by omega
  rw [next, tenTo_add] at below
  exact below

/-- A positive quotient is below the power of ten that comes after its leading one. -/
theorem lt_leadingExponent {n d : Nat} (positive : 0 < n) (divisor : 0 < d) :
    n * tenTo (-(leadingExponent n d + 1)).toNat < d * tenTo (leadingExponent n d + 1).toNat := by
  unfold leadingExponent
  split
  · -- From one on, the digits of the whole part are counted.
    have some : 0 < digitCount (n / d) := Nat.length_toDigits_pos
    have whole := (digitCount_le_iff some).1 (Nat.le_refl _)
    rw [show (-((digitCount (n / d) : Int) - 1 + 1)).toNat = 0 by omega,
      show ((digitCount (n / d) : Int) - 1 + 1).toNat = digitCount (n / d) by omega,
      show tenTo 0 = 1 from rfl, Nat.mul_one, Nat.mul_comm d]
    exact (Nat.div_lt_iff_lt_mul divisor).1 whole
  · -- Below one, the zeros behind the point are counted by the reciprocal.
    rename_i small
    have some : 0 < digitCount ((d - 1) / n) := Nat.length_toDigits_pos
    have reciprocal := tenTo_le_of_digitCount (Nat.div_pos (by omega : n ≤ d - 1) positive)
    have below := (Nat.le_div_iff_mul_le positive).1 reciprocal
    generalize digitCount ((d - 1) / n) = digits at some below
    rw [show (-(-(digits : Int) + 1)).toNat = digits - 1 by omega,
      show (-(digits : Int) + 1).toNat = 0 by omega, show tenTo 0 = 1 from rfl, Nat.mul_one]
    rw [Nat.mul_comm]
    omega

/-- A positive quotient, scaled to a number of digits before the point, is below the power of ten of
that number. -/
theorem shiftQuotient_lt {n d : Nat} (positive : 0 < n) (divisor : 0 < d) (count : Nat) :
    (shiftQuotient n d (leadingExponent n d - count + 1)).1
      < tenTo count * (shiftQuotient n d (leadingExponent n d - count + 1)).2 := by
  have below := lt_leadingExponent positive divisor
  generalize leadingExponent n d = leading at below
  unfold shiftQuotient
  split
  · dsimp only
    -- Both sides are compared behind the power of ten that is left of the leading one.
    have powers : tenTo (-(leading - count + 1)).toNat * tenTo (leading + 1).toNat
        = tenTo count * tenTo (-(leading + 1)).toNat := by
      rw [← tenTo_add, ← tenTo_add]
      congr 1
      omega
    have scaled : n * tenTo (-(leading - count + 1)).toNat * tenTo (leading + 1).toNat
        < tenTo count * d * tenTo (leading + 1).toNat :=
      calc n * tenTo (-(leading - count + 1)).toNat * tenTo (leading + 1).toNat
          = tenTo count * (n * tenTo (-(leading + 1)).toNat) := by
            rw [Nat.mul_assoc, powers]
            ac_rfl
        _ < tenTo count * (d * tenTo (leading + 1).toNat) :=
            Nat.mul_lt_mul_of_pos_left below (tenTo_pos count)
        _ = tenTo count * d * tenTo (leading + 1).toNat := (Nat.mul_assoc _ _ _).symm
    exact Nat.lt_of_mul_lt_mul_right scaled
  · dsimp only
    -- The leading power of ten is a multiple of the one that is divided by.
    have powers : tenTo (leading + 1).toNat = tenTo count * tenTo (leading - count + 1).toNat := by
      rw [← tenTo_add]
      congr 1
      omega
    rw [show (-(leading + 1)).toNat = 0 by omega, show tenTo 0 = 1 from rfl, Nat.mul_one, powers]
      at below
    exact Nat.lt_of_lt_of_eq below (by ac_rfl)

/-- Powers of ten grow with their exponents. -/
theorem tenTo_lt {m n : Nat} (less : m < n) : tenTo m < tenTo n :=
  Nat.pow_lt_pow_right (by decide) less

/-- Powers of ten do not become smaller with larger exponents. -/
theorem tenTo_le {m n : Nat} (le : m ≤ n) : tenTo m ≤ tenTo n := Nat.pow_le_pow_right (by decide) le

/-- The divisor of a quotient stays positive when it is scaled. -/
theorem shiftQuotient_pos (numerator : Nat) {denominator : Nat} (positive : 0 < denominator)
    (exponent : Int) : 0 < (shiftQuotient numerator denominator exponent).2 := by
  unfold shiftQuotient
  split
  · exact positive
  · exact Nat.mul_pos positive (tenTo_pos _)

namespace Double

variable {x : Double}

/-- A number that is rounded to digits has at most one more of them before a carry is settled. -/
theorem digitCount_rounded (nonzero : x.magnitude ≠ 0) (count : Nat) :
    digitCount (roundDiv .upward (shiftQuotient x.magnitude one (x.leadingExponent - count + 1)).1
      (shiftQuotient x.magnitude one (x.leadingExponent - count + 1)).2) ≤ count + 1 := by
  have positive : 0 < one := twoTo_pos 1074
  unfold leadingExponent
  generalize one = unit at positive
  have below := shiftQuotient_lt (Nat.pos_of_ne_zero nonzero) positive count
  -- Rounding up may reach the power of ten itself, which has that one digit more.
  have rounded :=
    roundDiv_le_of_le_mul .upward (shiftQuotient_pos _ positive _) (Nat.le_of_lt below)
  exact (digitCount_le_iff (by omega)).2 (Nat.lt_of_le_of_lt rounded (tenTo_lt (by omega)))

/-- A number below 10^21 has at most so many digits before the point. -/
theorem digitCount_toPlaces (small : x.magnitude < fixedLimit) (places : Nat) :
    digitCount (x.toPlaces places).coefficient ≤ places + 22 := by
  have positive : 0 < one := twoTo_pos 1074
  unfold toPlaces
  unfold fixedLimit at small
  generalize one = unit at positive small ⊢
  -- Each place multiplies the bound by ten.
  have scaled : x.magnitude * tenTo places ≤ tenTo (places + 21) * unit := by
    rw [tenTo_add, Nat.mul_comm (tenTo places), Nat.mul_right_comm]
    exact Nat.mul_le_mul_right _ (Nat.le_of_lt small)
  have rounded := roundDiv_le_of_le_mul .upward positive scaled
  exact (digitCount_le_iff (by omega)).2 (Nat.lt_of_le_of_lt rounded (tenTo_lt (by omega)))

end Double

/-- A pointed coefficient is written with digits that stand for it and go on in front of its
places. -/
theorem exists_padded (coefficient places : Nat) :
    ∃ padded : List Char, places < padded.length ∧ (∀ c ∈ padded, c.isDigit = true)
      ∧ Nat.ofDigitChars 10 padded 0 = coefficient
      ∧ pointed coefficient places
        = if places = 0 then padded
          else padded.take (padded.length - places) ++ '.'
            :: padded.drop (padded.length - places) := by
  -- The digits are padded with zeros, so that one of them stands before the point.
  refine ⟨zeros (places + 1 - (Nat.toDigits 10 coefficient).length) ++ Nat.toDigits 10 coefficient,
    ?_, fun c member => ?_, ?_, rfl⟩
  · rw [List.length_append, zeros, List.length_replicate]
    omega
  · rcases List.mem_append.1 member with member | member
    · exact Layout.isDigit_zeros member
    · exact Plain.isDigit_toDigits member
  · rw [zeros, Nat.ofDigitChars_append, Nat.ofDigitChars_replicate_zero, Nat.mul_zero,
      Nat.ofDigitChars_ten_toDigits]

/-- A pointed coefficient is a plain number, whatever exponent is written behind it. -/
theorem exists_plain_pointed (coefficient places : Nat) (scale : Option Int) :
    ∃ p : Plain, p.text = pointed coefficient places ++ scale.elim [] (exponentText 1)
      ∧ p.decimal = ⟨coefficient, scale.getD 0 - places⟩ := by
  obtain ⟨padded, long, digit, value, text⟩ := exists_padded coefficient places
  -- The padded digits are longer than the part behind the point.
  have front : padded.take (padded.length - places) ≠ [] := by
    intro empty
    have length := congrArg List.length empty
    rw [List.length_take, List.length_nil] at length
    omega
  refine ⟨.pointedAt padded (padded.length - places) scale front digit, ?text, ?value⟩
  -- Without places there is no point, and otherwise there are digits behind it.
  case text =>
    unfold Plain.text Plain.point Plain.exponent Plain.pointedAt
    dsimp only
    rw [text, ← List.append_assoc]
    congr 1
    by_cases none : places = 0
    · subst none
      simp
    · rw [if_neg none, if_neg]
      intro empty
      have length := congrArg List.length empty
      rw [List.length_drop, List.length_nil] at length
      omega
  -- Both parts together are the coefficient again.
  case value =>
    rw [Plain.decimal_pointedAt, value]
    congr 2
    omega

namespace Double

variable {x : Double}

/-- The sign of a rounded number is that of its texts. -/
theorem signText_eq (x : Double) :
    x.signText = Numeral.signText (x.isNegative && x.magnitude ≠ 0) := rfl

/-- A number below 10^21 with fixed decimal places is written as the number of units there. -/
theorem fixed_of_small (finite : x.isFinite = true)
    (small : x.magnitude < fixedLimit) (places : Int) :
    x.fixed places = String.ofList (x.signText
      ++ pointed (x.toPlaces (clampPlaces places)).coefficient (clampPlaces places)) := by
  have inside : (x.isFinite && decide (x.magnitude < fixedLimit)) = true := by
    rw [finite, decide_eq_true small, Bool.and_self]
  unfold fixed
  rw [if_pos inside]

/-- From 10^21 on a number is written in shortest form, whatever its decimal places. -/
theorem fixed_of_large (large : fixedLimit ≤ x.magnitude) (places : Int) :
    x.fixed places = x.text := by
  have outside : ¬(x.isFinite && decide (x.magnitude < fixedLimit)) = true := by
    rw [decide_eq_false (Nat.not_lt.2 large), Bool.and_false]
    exact Bool.false_ne_true
  unfold fixed
  rw [if_neg outside]

/-- A number below 10^21 with fixed decimal places is the number rounded to those places, behind its
sign. -/
theorem exists_plain_fixed (finite : x.isFinite = true)
    (small : x.magnitude < fixedLimit) (places : Int) :
    ∃ p : Plain, (x.fixed places).toList = x.signText ++ p.text
      ∧ p.decimal = x.toPlaces (clampPlaces places) := by
  -- The digits stand behind the sign, with the point among them.
  obtain ⟨p, text, value⟩ := exists_plain_pointed (x.toPlaces (clampPlaces places)).coefficient
    (clampPlaces places) none
  rw [Option.elim_none, List.append_nil] at text
  rw [Option.getD_none, Int.zero_sub] at value
  refine ⟨p, ?_, by rw [value, toPlaces]⟩
  rw [fixed_of_small finite small, text, String.toList_ofList]

/-- A number with fixed decimal places reads back as a number. -/
theorem exists_double?_fixed (x : Double) (places : Int) :
    ∃ y, double? (x.fixed places).toList = some y := by
  unfold fixed
  split
  · rename_i small
    rw [Bool.and_eq_true, decide_eq_true_eq] at small
    obtain ⟨p, text, _⟩ := exists_plain_fixed small.1 small.2 places
    rw [← fixed_of_small small.1 small.2, text, signText_eq]
    exact ⟨_, p.double?_text _⟩
  · exact ⟨_, double?_text x⟩

/-- At least one significant digit is written. -/
theorem clampDigits_pos (precision : Int) : 0 < clampDigits precision := by
  unfold clampDigits
  omega

/-- A number other than zero with fixed significant digits is the number rounded to those digits,
behind its sign. -/
theorem exists_plain_precise (finite : x.isFinite = true)
    (nonzero : x.magnitude ≠ 0) (precision : Int) :
    ∃ p : Plain, (x.precise precision).toList = x.signText ++ p.text
      ∧ p.decimal = x.toDigits (clampDigits precision) := by
  have some := clampDigits_pos precision
  unfold precise
  rw [finite, Bool.not_true, if_neg Bool.false_ne_true]
  generalize clampDigits precision = count at some
  dsimp only
  rw [if_neg nonzero, String.toList_ofList]
  generalize x.toDigits count = rounded
  obtain ⟨coefficient, exponent⟩ := rounded
  dsimp only
  by_cases far : exponent + count - 1 < -6 ∨ (count : Int) ≤ exponent + count - 1
  · -- The exponent says where the point belongs, which stands behind the first digit.
    obtain ⟨p, text, value⟩ :=
      exists_plain_pointed coefficient (count - 1) (.some (exponent + count - 1))
    refine ⟨p, ?_, ?_⟩
    · rw [if_pos far, text, Option.elim_some]
    · rw [value, Option.getD_some]
      congr 1
      omega
  · -- The number has digits behind the point, and is not cut off before it.
    obtain ⟨p, text, value⟩ := exists_plain_pointed coefficient (-exponent).toNat none
    refine ⟨p, ?_, ?_⟩
    · rw [if_neg far, text, Option.elim_none, List.append_nil]
    · rw [value, Option.getD_none]
      congr 1
      omega

/-- A number other than zero that is rounded to significant digits is the double that they denote,
with its sign. -/
theorem roundDigits_of_nonzero (finite : x.isFinite = true)
    (nonzero : x.magnitude ≠ 0) (precision : Int) :
    x.roundDigits precision = (x.toDigits (clampDigits precision)).toDouble x.isNegative := by
  unfold roundDigits
  rw [finite, decide_eq_true nonzero, Bool.and_self, if_pos rfl]

/-- A number with fixed significant digits reads back as the double that they denote. -/
theorem double?_precise (finite : x.isFinite = true) (precision : Int) :
    double? (x.precise precision).toList = some (x.roundDigits precision) := by
  by_cases zero : x.magnitude = 0
  · -- A zero is written without its sign.
    obtain ⟨p, text, value⟩ := exists_plain_pointed 0 (clampDigits precision - 1) none
    have read := p.double?_text false
    rw [text, value, Decimal.toDouble_of_zero false rfl] at read
    have none : ¬(true && decide (x.magnitude ≠ 0)) = true := by simp [zero]
    unfold precise roundDigits
    rw [finite, Bool.not_true, if_neg Bool.false_ne_true]
    dsimp only
    rw [if_pos zero, if_neg none, if_pos rfl, String.toList_ofList]
    rwa [Option.elim_none, List.append_nil] at read
  · obtain ⟨p, text, value⟩ := exists_plain_precise finite zero precision
    rw [text, signText_eq, p.double?_text, value, decide_eq_true zero, Bool.and_true,
      roundDigits_of_nonzero finite zero]

end Double

end PlusMinus
