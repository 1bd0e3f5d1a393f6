import Mathlib.Data.Rat.Floor
import PlusMinus.Proofs.Checked.Double
import PlusMinus.Proofs.Interval.Regular

/-! Doubles that are numbers of few bits, such as small whole numbers, and doubles that a number is
not rounded across. -/

namespace PlusMinus.Double

/-- One has twice the quanta of one half. -/
theorem one_eq : one = 2 * twoTo 1073 := by decide +kernel

/-- A number of quanta is what the double with its sign and magnitude has. -/
theorem signedQuanta_of_sign {quanta : Int} (fits : Fits quanta.natAbs) :
    (finite (quanta < 0) quanta.natAbs fits).signedQuanta = quanta := by
  rw [signedQuanta_finite]
  by_cases negative : quanta < 0
  · rw [if_pos (decide_eq_true negative)]
    omega
  · rw [if_neg (by simpa using negative)]
    omega

section Few

variable {significand : Nat} {place : Nat}

/-- Numbers of few bits are magnitudes. -/
theorem fits_mul (few : significand ≤ twoTo 53) (range : place < 2045) :
    Fits (significand * twoTo place) := by
  -- Shifting adds no bits, so that only the range is left to be shown.
  refine ⟨?_, mod_spacing_mul few place⟩
  calc significand * twoTo place ≤ twoTo 53 * twoTo place := Nat.mul_le_mul_right _ few
    _ = twoTo (53 + place) := (twoTo_add 53 place).symm
    _ < limit := twoTo_lt (by omega)

/-- A signed number of few bits is a double. -/
theorem exists_of_few {n : Int} (few : n.natAbs ≤ twoTo 53) (range : place < 2045) :
    ∃ x : Double, x.isFinite = true ∧ x.toRat = n * twoTo place / one := by
  -- The quanta are few bits times a power of two, whatever the sign.
  have same : (n * twoTo place : Int).natAbs = n.natAbs * twoTo place := by
    rw [Int.natAbs_mul, Int.natAbs_natCast]
  have fits : Fits (n * twoTo place : Int).natAbs := same ▸ fits_mul few range
  refine ⟨.finite (n * twoTo place < 0) _ fits, rfl, ?_⟩
  rw [toRat_eq, signedQuanta_of_sign fits]
  push_cast
  rfl

/-- Doubles that are not above each other stand for numbers in that order. -/
theorem NotAbove.toRat_le {x y : Double} (notAbove : x.NotAbove y) (left : x.isFinite = true)
    (right : y.isFinite = true) : x.toRat ≤ y.toRat := by
  obtain ⟨s, a, f, rfl⟩ := exists_of_isFinite left
  obtain ⟨t, b, g, rfl⟩ := exists_of_isFinite right
  exact Double.toRat_le (notAbove _ _ rfl rfl)

/-- Finite doubles are in the order of their numbers. -/
theorem NotAbove.of_toRat_le {x y : Double} (left : x.isFinite = true) (right : y.isFinite = true)
    (le : x.toRat ≤ y.toRat) : x.NotAbove y :=
  (nearest_notAbove le).congr (alike_nearest left).symm (alike_nearest right).symm

/-- A number is not rounded across a double. -/
theorem nearest_between {x : Double} {z : Rat} (isFinite : x.isFinite = true)
    (range : (nearest z).isFinite = true) :
    (x.toRat ≤ z → x.toRat ≤ (nearest z).toRat) ∧ (z ≤ x.toRat → (nearest z).toRat ≤ x.toRat) := by
  -- The double is the nearest one to its own number.
  have alike := alike_nearest isFinite
  exact ⟨fun le => ((nearest_notAbove le).congr alike.symm (.refl _)).toRat_le isFinite range,
    fun le => ((nearest_notAbove le).congr (.refl _) alike.symm).toRat_le range isFinite⟩

/-- The number of a finite double is as large as its magnitude. -/
theorem abs_toRat {x : Double} (isFinite : x.isFinite = true) : |x.toRat| = x.magnitude / one := by
  obtain ⟨negative, quanta, fits, rfl⟩ := exists_of_isFinite isFinite
  have unit : (0 : Rat) < one := Nat.cast_pos.2 unit_pos
  have size : |((finite negative quanta fits).signedQuanta : Rat)| = quanta := by
    rw [signedQuanta_finite]
    cases negative <;> simp
  rw [toRat_eq, abs_div, abs_of_pos unit, size]
  rfl

/-- Whether a finite double is below or above zero is told by its number. -/
theorem zero_lt_iff {x : Double} (isFinite : x.isFinite = true) :
    (zero.lt x = true ↔ 0 < x.toRat) ∧ (x.lt zero = true ↔ x.toRat < 0) := by
  obtain ⟨negative, quanta, fits, rfl⟩ := exists_of_isFinite isFinite
  have unit : (0 : Rat) < one := Nat.cast_pos.2 unit_pos
  rw [toRat_eq, div_pos_iff_of_pos_right unit, div_lt_iff₀ unit, zero_mul,
    Int.cast_pos, Int.cast_lt_zero]
  simp [Double.lt, position?, signedQuanta, zero]

/-- A finite double that is neither below zero nor zero is above it. -/
theorem zero_lt_of_nonzero {x : Double} (isFinite : x.isFinite = true)
    (nonnegative : x.lt zero = false)
    (nonzero : x.isZero = false) : zero.lt x = true := by
  obtain ⟨negative, quanta, fits, rfl⟩ := exists_of_isFinite isFinite
  simp only [isZero, beq_eq_false_iff_ne] at nonzero
  cases negative <;> simp [Double.lt, position?, signedQuanta, zero] at nonnegative ⊢ <;> omega

/-- Numbers that are not below zero have magnitudes in their order. -/
theorem magnitude_le {x y : Double} (left : x.isFinite = true) (right : y.isFinite = true)
    (nonnegative : 0 ≤ x.toRat) (le : x.toRat ≤ y.toRat) : x.magnitude ≤ y.magnitude := by
  obtain ⟨s, a, f, rfl⟩ := exists_of_isFinite left
  obtain ⟨t, b, g, rfl⟩ := exists_of_isFinite right
  have unit : (0 : Rat) < one := Nat.cast_pos.2 unit_pos
  -- Doubles are in the order of their signed quanta, and what is not below zero has a minus sign
  -- only before none.
  rw [toRat_eq, le_div_iff₀ unit, zero_mul, Int.cast_nonneg_iff] at nonnegative
  rw [toRat_eq, toRat_eq, div_le_div_iff_of_pos_right unit, Int.cast_le] at le
  rw [signedQuanta_finite] at nonnegative
  rw [signedQuanta_finite, signedQuanta_finite] at le
  change a ≤ b
  cases s <;> cases t <;> simp only [if_true, Bool.false_eq_true, if_false]
    at nonnegative le <;> omega

/-- Small whole numbers are doubles. -/
theorem ofInt_eq {n : Int} (few : n.natAbs ≤ twoTo 53) :
    ∃ fits, ofInt n = finite (n < 0) (n.natAbs * one) fits := by
  have fits : Fits (n.natAbs * one) := fits_mul few (by decide)
  refine ⟨fits, ?_⟩
  have exact := ofQuotient_of_fits .toEven (n < 0) Nat.one_pos fits
  rwa [Nat.mul_one] at exact

/-- A small whole number is a finite double. -/
theorem isFinite_ofInt {n : Int} (few : n.natAbs ≤ twoTo 53) : (ofInt n).isFinite = true := by
  obtain ⟨fits, same⟩ := ofInt_eq few
  rw [same]
  rfl

/-- One that is not below zero has its own magnitude, and no sign. -/
theorem ofInt_natCast {n : Nat} (few : n ≤ twoTo 53) :
    (ofInt n).magnitude = n * one ∧ (ofInt n).isNegative = false := by
  obtain ⟨fits, same⟩ := ofInt_eq (n := n) few
  rw [same, decide_eq_false (Int.not_lt.2 (Int.natCast_nonneg n))]
  exact ⟨rfl, rfl⟩

/-- The whole number zero is the zero without a sign. -/
theorem ofInt_zero : ofInt 0 = zero := by
  unfold ofInt
  rw [Int.natAbs_zero, Nat.zero_mul, ofQuotient_zero _ _ Nat.one_pos]
  rfl

/-- A whole number of quanta is not rounded, whichever way a tie goes. -/
theorem ofQuotient_upward {quanta : Nat} (negative : Bool) (fits : Fits quanta) :
    ofQuotient .upward negative quanta 1 = ofQuotient .toEven negative quanta 1 := by
  have upward := ofQuotient_of_fits .upward negative Nat.one_pos fits
  have even := ofQuotient_of_fits .toEven negative Nat.one_pos fits
  rw [Nat.mul_one] at upward even
  exact upward.trans even.symm

/-- A small power of ten is exact. -/
theorem powerOfTen_eq {n : Nat} (few : tenTo n ≤ twoTo 53) : powerOfTen n = ofInt (tenTo n) := by
  have positive : ¬(tenTo n : Int) < 0 := Int.not_lt.2 (Int.natCast_nonneg _)
  have power : powerOfTen n = ofQuotient .upward false (tenTo n * one) 1 := rfl
  have fits : Fits (tenTo n * one) := fits_mul few (by decide)
  rw [power, ofQuotient_upward false fits, ofInt, decide_eq_false positive, Int.natAbs_natCast]

/-- A small whole number has that number of units as a double. -/
theorem signedQuanta_ofInt {n : Int} (few : n.natAbs ≤ twoTo 53) :
    (ofInt n).signedQuanta = n * one := by
  obtain ⟨fits, same⟩ := ofInt_eq few
  rw [same, signedQuanta_finite, Int.natCast_mul]
  generalize (one : Int) = unit
  by_cases negative : n < 0
  · rw [if_pos (decide_eq_true negative), ← Int.neg_mul, show -(n.natAbs : Int) = n by omega]
  · rw [if_neg (by simpa using negative), show (n.natAbs : Int) = n by omega]

/-- A small whole number is the number of its double. -/
theorem toRat_ofInt {n : Int} (few : n.natAbs ≤ twoTo 53) : (ofInt n).toRat = n := by
  rw [toRat_eq, signedQuanta_ofInt few]
  push_cast
  exact mul_div_cancel_right₀ _ unit_ne

/-- A small whole number is the whole number below its double. -/
theorem floor_ofInt {n : Int} (few : n.natAbs ≤ twoTo 53) : (ofInt n).floor = n := by
  have some : (one : Int) ≠ 0 := by exact_mod_cast unit_pos.ne'
  rw [floor, signedQuanta_ofInt few, Int.mul_ediv_cancel _ some]

end Few

/-- The whole number below a double is the one below its number. -/
theorem floor_eq (x : Double) : x.floor = ⌊x.toRat⌋ := by
  rw [toRat_eq, Rat.floor_intCast_div_natCast, floor]

end PlusMinus.Double

namespace PlusMinus

open Double

/-- The outcome of an operation on doubles is not across a double from the exact one. -/
theorem Operator.compute_between (operator : Operator) {x y z : Double} (first : x.isFinite = true)
    (second : y.isFinite = true) (nonzero : operator = .div → y.isZero = false)
    (range : (operator.compute x y).isFinite = true) (third : z.isFinite = true) :
    (z.toRat ≤ operator.exact x.toRat y.toRat → z.toRat ≤ (operator.compute x y).toRat)
      ∧ (operator.exact x.toRat y.toRat ≤ z.toRat → (operator.compute x y).toRat ≤ z.toRat) := by
  -- The outcome is the exact one rounded once.
  have alike := operator.compute_alike_nearest first second nonzero
  rw [alike.isFinite] at range
  rw [alike.toRat]
  exact nearest_between third range

end PlusMinus
