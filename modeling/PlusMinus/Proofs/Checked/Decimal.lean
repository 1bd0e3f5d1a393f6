import PlusMinus.Checked.Decimal
import PlusMinus.Proofs.Checked.Double
import PlusMinus.Proofs.Decimal.Rounded

/-! The refusals of rounding to digits, and of reading them back, that cannot happen. -/

namespace PlusMinus

/-- A coefficient of few enough digits is not refused. -/
theorem checkedCoefficient_eq_ok {coefficient count : Nat} (digits : digitCount coefficient ≤ count)
    (few : count ≤ digitLimit) : checkedCoefficient coefficient = .ok coefficient := by
  unfold checkedCoefficient
  rw [if_neg (by omega)]

/-- A power of ten has one digit more than zeros. -/
theorem digitCount_tenTo_le (count : Nat) : digitCount (tenTo count) ≤ count + 1 :=
  (digitCount_le_iff (by omega)).2 (tenTo_lt (by omega))

namespace Double

variable {x : Double}

/-- At most a hundred significant digits are written. -/
theorem clampDigits_le (precision : Int) : clampDigits precision ≤ 100 := by
  unfold clampDigits
  omega

/-- At most a hundred decimal places are written. -/
theorem clampPlaces_le (places : Int) : clampPlaces places ≤ 100 := by
  unfold clampPlaces
  omega

/-- The text of a double denotes it, but for the sign of a zero. -/
theorem checkedText_eq_ok {text : String} {y : Double}
    (read : Numeral.double? text.toList = some y) :
    checkedText text = .ok y := by
  rw [checkedText, read, Fault.require]

/-- Rounding to at most a hundred significant digits is not refused. -/
theorem checkedDigits_eq_ok (nonzero : x.magnitude ≠ 0) {count : Nat} (few : count ≤ 100) :
    x.checkedDigits count = .ok (x.toDigits count) := by
  have digits := digitCount_rounded nonzero count
  unfold checkedDigits toDigits
  generalize x.leadingExponent - count + 1 = exponent at digits ⊢
  obtain ⟨numerator, denominator⟩ := shiftQuotient x.magnitude one exponent
  dsimp only at digits ⊢
  -- A hundred digits and one for a carry are within the limit.
  have limit : count + 1 ≤ digitLimit := by
    unfold digitLimit
    omega
  rw [checkedCoefficient_eq_ok digits limit, Fault.ok_bind]
  -- A carry leaves a power of ten, which is no longer.
  have carried : checkedCoefficient (tenTo (count - 1)) = .ok (tenTo (count - 1)) :=
    checkedCoefficient_eq_ok (digitCount_tenTo_le _) (by omega)
  split
  · rw [carried, Fault.ok_bind]
    rfl
  · rfl

/-- Writing a fixed number of decimal places is never refused. -/
theorem checkedFixed_eq_ok (x : Double) (places : Int) :
    x.checkedFixed places = .ok (x.fixed places) := by
  unfold checkedFixed fixed
  split
  · rename_i small
    rw [Bool.and_eq_true, decide_eq_true_eq] at small
    -- Below 10^21 there are few digits before the point, and at most a hundred are behind it.
    have few : clampPlaces places + 22 ≤ digitLimit := by
      have := clampPlaces_le places
      unfold digitLimit
      omega
    dsimp only
    rw [checkedCoefficient_eq_ok (digitCount_toPlaces small.2 _) few, Fault.ok_bind]
    rfl
  · rfl

/-- Writing a fixed number of significant digits is never refused. -/
theorem checkedPrecise_eq_ok (x : Double) (precision : Int) :
    x.checkedPrecise precision = .ok (x.precise precision) := by
  unfold checkedPrecise
  -- Zero and what is not finite have no digits to find.
  split
  · rename_i number
    rw [Bool.and_eq_true, decide_eq_true_eq] at number
    rw [checkedDigits_eq_ok number.2 (clampDigits_le precision), Fault.ok_bind]
    rfl
  · rfl

/-- Rounding a value to significant digits is never refused. -/
theorem checkedRoundDigits_eq_ok (x : Double) (precision : Int) :
    x.checkedRoundDigits precision = .ok (x.roundDigits precision) := by
  unfold checkedRoundDigits
  split
  · rename_i finite
    -- A finite number is written in digits, which read back as what they denote.
    rw [checkedPrecise_eq_ok, Fault.ok_bind, checkedText_eq_ok (double?_precise finite precision)]
  · rename_i other
    -- What is not finite stays as it is.
    unfold roundDigits
    rw [eq_false_of_ne_true other]
    rfl

/-- Trimming a number for running text is never refused. -/
theorem checkedTrimmed_eq_ok (x : Double) (digits : Int) :
    x.checkedTrimmed digits = .ok (x.trimmed digits) := by
  unfold checkedTrimmed
  rw [checkedRoundDigits_eq_ok]
  rfl

end Double

end PlusMinus
