import PlusMinus.Decimal.Basic
import PlusMinus.Proofs.Double.Quotient

/-! The double that a decimal denotes depends on its value alone, and the shortest decimal of a
double denotes that double. -/

namespace PlusMinus

/-- A zero behind the digits of a number is one more digit. -/
theorem digitCount_mul_ten {n : Nat} (positive : 0 < n) :
    digitCount (n * 10) = digitCount n + 1 := by
  -- The last digit of ten times a number is a zero behind the digits of the number.
  have digits : Nat.toDigits 10 (n * 10) = Nat.toDigits 10 n ++ Nat.toDigits 10 0 := by
    rw [Nat.toDigits_append_toDigits (by decide) positive (by decide), Nat.mul_comm, Nat.add_zero]
  rw [digitCount, digits, List.length_append, Nat.toDigits_zero]
  rfl

/-- Zeros behind the digits of a number are as many more digits. -/
theorem digitCount_mul_tenTo {n : Nat} (positive : 0 < n) (count : Nat) :
    digitCount (n * tenTo count) = digitCount n + count := by
  -- The zeros are added one at a time.
  induction count with
  | zero => rw [show tenTo 0 = 1 from rfl, Nat.mul_one, Nat.add_zero]
  | succ count ih =>
    rw [tenTo_add, ← Nat.mul_assoc, show tenTo 1 = 10 from rfl,
      digitCount_mul_ten (Nat.mul_pos positive (tenTo_pos count)), ih, Nat.add_assoc]

/-- The number of digits is bounded by the power of ten above a number. -/
theorem digitCount_le_iff {n count : Nat} (some : 0 < count) :
    digitCount n ≤ count ↔ n < tenTo count :=
  Nat.length_toDigits_le_iff (by decide) some

namespace Decimal

/-- The position behind which the leading digit of a decimal stands. -/
def leading (d : Decimal) : Int := d.exponent + digitCount d.coefficient

/-- The value of a decimal in quanta, as a quotient. -/
def quanta (d : Decimal) : Nat × Nat :=
  (d.coefficient * tenTo d.exponent.toNat * Double.one, tenTo (-d.exponent).toNat)

/-- A decimal whose leading digit is in range denotes its rounded value. -/
theorem toDouble_of_inside (negative : Bool) {d : Decimal} (nonzero : d.coefficient ≠ 0)
    (low : -330 ≤ d.leading) (high : d.leading ≤ 310) :
    d.toDouble negative = Double.ofQuotient .toEven negative d.quanta.1 d.quanta.2 := by
  -- One of the two powers of ten is one, whichever sign the exponent has.
  unfold leading at low high
  unfold toDouble quanta
  dsimp only
  rw [if_neg nonzero, if_neg (by omega), if_neg (by omega)]
  split
  · rw [show d.exponent.toNat = 0 by omega, show tenTo 0 = 1 from rfl, Nat.mul_one]
  · rw [show (-d.exponent).toNat = 0 by omega, show tenTo 0 = 1 from rfl]

/-- A decimal whose leading digit is out of range denotes zero or an infinity. -/
theorem toDouble_of_outside (negative : Bool) {d : Decimal} (nonzero : d.coefficient ≠ 0)
    (outside : ¬(-330 ≤ d.leading ∧ d.leading ≤ 310)) :
    d.toDouble negative
      = if 310 < d.leading then .infinite negative
        else .finite negative 0 Double.fits_zero := by
  unfold leading at outside ⊢
  unfold toDouble
  dsimp only
  -- Above the range the value is an infinity, and what is not above it is below.
  rw [if_neg nonzero]
  split
  · rfl
  · rw [if_pos (by omega)]

/-- Zero is denoted by every decimal without a coefficient. -/
theorem toDouble_of_zero (negative : Bool) {d : Decimal} (zero : d.coefficient = 0) :
    d.toDouble negative = .finite negative 0 Double.fits_zero := by
  unfold toDouble
  rw [if_pos zero]

/-- Zeros at the end of the coefficient can be moved into the exponent. -/
theorem toDouble_shift (negative : Bool) (coefficient count : Nat) (exponent : Int) :
    toDouble negative ⟨coefficient * tenTo count, exponent - count⟩
      = toDouble negative ⟨coefficient, exponent⟩ := by
  rcases Nat.eq_zero_or_pos coefficient with rfl | positive
  · rw [toDouble_of_zero negative (Nat.zero_mul _), toDouble_of_zero negative rfl]
  have nonzero : coefficient * tenTo count ≠ 0 :=
    Nat.ne_of_gt (Nat.mul_pos positive (tenTo_pos count))
  -- Both decimals have their leading digit at the same place, and the same value.
  have same : leading ⟨coefficient * tenTo count, exponent - count⟩
      = leading ⟨coefficient, exponent⟩ := by
    unfold leading
    dsimp only
    rw [digitCount_mul_tenTo positive]
    omega
  by_cases inside : -330 ≤ leading ⟨coefficient, exponent⟩ ∧ leading ⟨coefficient, exponent⟩ ≤ 310
  · have powers : tenTo count * tenTo (exponent - count).toNat * tenTo (-exponent).toNat
        = tenTo exponent.toNat * tenTo (-(exponent - count)).toNat := by
      rw [← tenTo_add, ← tenTo_add, ← tenTo_add]
      congr 1
      omega
    rw [toDouble_of_inside negative nonzero (same ▸ inside.1) (same ▸ inside.2),
      toDouble_of_inside negative (Nat.ne_of_gt positive) inside.1 inside.2]
    -- Equal quotients are rounded alike, and these are equal by the powers of ten.
    refine Double.ofQuotient_congr _ _ (tenTo_pos _) (tenTo_pos _) ?_
    unfold quanta
    dsimp only
    generalize Double.one = unit
    calc coefficient * tenTo count * tenTo (exponent - count).toNat * unit
          * tenTo (-exponent).toNat
        = coefficient * unit
          * (tenTo count * tenTo (exponent - count).toNat * tenTo (-exponent).toNat) := by ac_rfl
      _ = coefficient * unit
          * (tenTo exponent.toNat * tenTo (-(exponent - count)).toNat) := by rw [powers]
      _ = coefficient * tenTo exponent.toNat * unit
          * tenTo (-(exponent - count)).toNat := by ac_rfl
  · -- Out of range only the leading digit counts, which is at the same place.
    rw [toDouble_of_outside negative nonzero (same ▸ inside),
      toDouble_of_outside negative (Nat.ne_of_gt positive) inside, same]

/-- A decimal without the zeros at its end denotes the same double. -/
theorem toDouble_normalize (negative : Bool) (d : Decimal) :
    d.normalize.toDouble negative = d.toDouble negative := by
  fun_induction normalize d with
  | case1 d ends ih =>
    rw [ih]
    obtain ⟨coefficient, exponent⟩ := d
    dsimp only at ends ⊢
    -- Each round moves one zero from the coefficient into the exponent.
    have shifted := toDouble_shift negative (coefficient / 10) 1 (exponent + 1)
    have whole : coefficient / 10 * tenTo 1 = coefficient := by
      rw [show tenTo 1 = 10 from rfl]
      omega
    rw [← shifted, whole]
    congr 2
    omega
  | case2 => rfl

/-- A decimal denotes a double of the given sign. -/
theorem isNegative_toDouble (negative : Bool) (d : Decimal) :
    (d.toDouble negative).isNegative = negative := by
  -- Zero, a rounded quotient and a value out of range all take the sign over.
  by_cases zero : d.coefficient = 0
  · rw [toDouble_of_zero negative zero]
    rfl
  by_cases inside : -330 ≤ d.leading ∧ d.leading ≤ 310
  · rw [toDouble_of_inside negative zero inside.1 inside.2, Double.isNegative_ofQuotient]
  · rw [toDouble_of_outside negative zero inside]
    split <;> rfl

/-- The negative double of a decimal is the opposite of the positive one. -/
theorem toDouble_true (d : Decimal) : d.toDouble true = (d.toDouble false).neg := by
  -- Whether the value is in range does not depend on the sign.
  by_cases zero : d.coefficient = 0
  · rw [toDouble_of_zero true zero, toDouble_of_zero false zero]
    rfl
  by_cases inside : -330 ≤ d.leading ∧ d.leading ≤ 310
  · rw [toDouble_of_inside true zero inside.1 inside.2,
      toDouble_of_inside false zero inside.1 inside.2, Double.ofQuotient_true]
  · rw [toDouble_of_outside true zero inside, toDouble_of_outside false zero inside]
    split <;> rfl

end Decimal

namespace Double

/-- All the digits of a finite magnitude denote it. -/
theorem toDouble_exactDecimal {x : Double} (finite : x.isFinite = true)
    (nonzero : x.magnitude ≠ 0) : x.exactDecimal.toDouble false = x.abs := by
  cases x with
  | nan => cases finite
  | infinite negative => cases finite
  | finite negative quanta fits =>
    replace nonzero : quanta ≠ 0 := nonzero
    have fives : 0 < Nat.pow 5 1074 := by decide +kernel
    have coefficient : quanta * Nat.pow 5 1074 ≠ 0 :=
      Nat.ne_of_gt (Nat.mul_pos (Nat.pos_of_ne_zero nonzero) fives)
    -- The smallest magnitude is above 10^-324, and the largest is below 10^309.
    have low : ¬digitCount (quanta * Nat.pow 5 1074) ≤ 743 := by
      rw [digitCount_le_iff (by decide)]
      have small : tenTo 743 ≤ Nat.pow 5 1074 := by decide +kernel
      have least : Nat.pow 5 1074 ≤ quanta * Nat.pow 5 1074 :=
        Nat.le_mul_of_pos_left _ (Nat.pos_of_ne_zero nonzero)
      exact Nat.not_lt.2 (Nat.le_trans small least)
    have high : digitCount (quanta * Nat.pow 5 1074) ≤ 1384 := by
      rw [digitCount_le_iff (by decide)]
      have large : limit * Nat.pow 5 1074 ≤ tenTo 1384 := by decide +kernel
      exact Nat.lt_of_lt_of_le (Nat.mul_lt_mul_of_pos_right fits.1 fives) large
    -- Quanta are powers of one half, so that their digits are powers of five.
    have tens : Nat.pow 5 1074 * tenTo (-1074 : Int).toNat * one
        = tenTo (-(-1074) : Int).toNat := by decide +kernel
    have regroup (a b c d : Nat) : a * b * c * d = a * (b * c * d) := by ac_rfl
    have value := Decimal.toDouble_of_inside false
      (d := exactDecimal (.finite negative quanta fits)) coefficient
      (by unfold Decimal.leading exactDecimal; dsimp only [magnitude]; omega)
      (by unfold Decimal.leading exactDecimal; dsimp only [magnitude]; omega)
    rw [value]
    unfold Decimal.quanta exactDecimal
    dsimp only [magnitude]
    rw [regroup, tens, ofQuotient_of_fits _ _ (tenTo_pos _) fits]
    rfl

/-- A neighbour that is found denotes the magnitude. -/
theorem toDouble_neighbour? {x : Double} {leading : Int} {length : Nat} {d : Decimal}
    (found : x.neighbour? leading length = some d) : d.toDouble false = x.abs := by
  unfold neighbour? at found
  dsimp only at found
  generalize shiftQuotient x.magnitude one (leading - length + 1) = quotient at found
  obtain ⟨n, m⟩ := quotient
  dsimp only at found
  -- The nearest decimal is one of the two neighbours, both of which read back when it is chosen.
  split at found
  · rename_i below above
    cases found
    have low := le_roundDiv .toEven n m
    have high := roundDiv_le .toEven n m
    rcases Nat.lt_or_eq_of_le low with greater | equal
    · have next : roundDiv .toEven n m = n / m + 1 := by omega
      rw [next]
      exact of_decide_eq_true above
    · rw [← equal]
      exact of_decide_eq_true below
  · rename_i below _
    cases found
    exact of_decide_eq_true below
  · rename_i above
    cases found
    exact of_decide_eq_true above
  · cases found

/-- The shortest decimal of a finite double denotes its magnitude. -/
theorem toDouble_shortest {x : Double} (finite : x.isFinite = true) :
    x.shortest.toDouble false = x.abs := by
  -- The digits are those of the first neighbour that reads back, or all there are.
  unfold shortest
  split
  · rename_i zero
    cases x with
    | nan => cases finite
    | infinite negative => cases finite
    | finite negative quanta fits =>
      replace zero : quanta = 0 := zero
      subst zero
      rfl
  · rename_i nonzero
    dsimp only
    rw [Decimal.toDouble_normalize]
    cases found : (List.range 17).findSome? fun i => x.neighbour? x.leadingExponent (i + 1) with
    | none => exact toDouble_exactDecimal finite nonzero
    | some d =>
      obtain ⟨i, _, neighbour⟩ := List.exists_of_findSome?_eq_some found
      exact toDouble_neighbour? neighbour

end Double

end PlusMinus
