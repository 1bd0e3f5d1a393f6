import Mathlib.Algebra.Order.Field.Rat
import Mathlib.Tactic.FieldSimp
import Mathlib.Tactic.Ring
import PlusMinus.Proofs.Double.Order
import PlusMinus.Proofs.Interval.Enclosure

/-! The double nearest to a number: operations on doubles lead to the one nearest to the exact
outcome, and the doubles nearest to numbers are in the order of the numbers. -/

namespace PlusMinus

namespace Double

/-- There are quanta in one. -/
theorem unit_pos : 0 < one := twoTo_pos 1074

/-- The double nearest to a number. -/
def nearest (z : Rat) : Double := ofQuotient .toEven (z < 0) (z.num.natAbs * one) z.den

/-- The double of a finite end is the one nearest to it. -/
theorem toDouble_finite (a : Rat) : (Endpoint.finite a).toDouble = nearest a := rfl

/-- A quotient of quanta is rounded like the number that it makes in lowest terms. -/
theorem ofQuotient_reduced (quanta : Int) {parts unit : Nat}
    (positive : 0 < parts) (some : 0 < unit) :
    ofQuotient .toEven (quanta < 0) quanta.natAbs parts
      = ofQuotient .toEven ((quanta : Rat) / (parts * unit) < 0)
        (((quanta : Rat) / (parts * unit)).num.natAbs * unit)
          ((quanta : Rat) / (parts * unit)).den := by
  have divisor : (0 : Rat) < parts * unit := mul_pos (Nat.cast_pos.2 positive) (Nat.cast_pos.2 some)
  have sign : ((quanta : Rat) / (parts * unit) < 0) ↔ quanta < 0 := by
    rw [div_lt_iff₀ divisor, zero_mul, Int.cast_lt_zero]
  simp only [sign]
  generalize value : (quanta : Rat) / (parts * unit) = z
  -- The quotient in lowest terms is the same quotient.
  have cross : z.num * (parts * unit) = quanta * z.den := by
    have same : (z.num : Rat) / z.den = quanta / (parts * unit) := by rw [value, Rat.num_div_den]
    rw [div_eq_div_iff (Nat.cast_ne_zero.2 z.den_nz) divisor.ne'] at same
    exact_mod_cast same
  refine ofQuotient_congr .toEven _ positive z.den_pos ?_
  have magnitudes := congrArg Int.natAbs cross
  simp only [Int.natAbs_mul, Int.natAbs_natCast] at magnitudes
  rw [← magnitudes]
  ac_rfl

/-- A rounded number of parts of a quantum is the double nearest to it. -/
theorem rounded_eq_nearest (quanta : Int) {parts : Nat} (positive : 0 < parts) :
    rounded quanta parts = nearest (quanta / (parts * one)) :=
  ofQuotient_reduced quanta positive unit_pos

/-- A quantum is not nothing. -/
theorem unit_ne : (one : Rat) ≠ 0 := Nat.cast_ne_zero.2 unit_pos.ne'

/-- The double nearest to a number is its number of quanta, rounded. -/
theorem nearest_eq_rounded (z : Rat) : nearest z = rounded (z.num * one) z.den := by
  rw [rounded_eq_nearest _ z.den_pos]
  push_cast
  rw [mul_div_mul_right _ _ unit_ne, Rat.num_div_den]

/-- The doubles nearest to numbers are in the order of the numbers. -/
theorem nearest_notAbove {a b : Rat} (le : a ≤ b) : (nearest a).NotAbove (nearest b) := by
  rw [nearest_eq_rounded, nearest_eq_rounded]
  refine .of_le (le_rounded a.den_pos b.den_pos ?_)
  -- The quotients are compared crosswise, and the unit is in both.
  have cross := (Rat.le_iff a b).1 le
  generalize one = unit
  calc a.num * unit * b.den = a.num * b.den * unit := Int.mul_right_comm _ _ _
    _ ≤ b.num * a.den * unit := Int.mul_le_mul_of_nonneg_right cross (Int.natCast_nonneg _)
    _ = b.num * unit * a.den := Int.mul_right_comm _ _ _

/-- The number of a finite double is a number of quanta. -/
theorem toRat_eq (x : Double) : x.toRat = x.signedQuanta / one := Rat.mkRat_eq_div _ _

/-- Doubles that are alike have the same number. -/
theorem Alike.toRat {x y : Double} (alike : x.Alike y) : x.toRat = y.toRat := by
  rcases alike with rfl | ⟨left, right⟩
  · rfl
  · obtain ⟨s, rfl⟩ := exists_of_isZero left
    obtain ⟨t, rfl⟩ := exists_of_isZero right
    cases s <;> cases t <;> rfl

/-- What a rounded number of parts of a quantum is alike is the double nearest to that number. -/
theorem Alike.nearest {x : Double} {quanta : Int} {parts : Nat} {z : Rat}
    (alike : x.Alike (rounded quanta parts)) (positive : 0 < parts)
    (value : (quanta : Rat) / (parts * one) = z) : x.Alike (nearest z) := by
  rw [← value, ← rounded_eq_nearest _ positive]
  exact alike

/-- A finite double is the nearest one to its number. -/
theorem alike_nearest {x : Double} (finite : x.isFinite = true) : x.Alike (nearest x.toRat) := by
  cases x with
  | nan => cases finite
  | infinite negative => cases finite
  | finite s a f =>
    refine (finite_alike_rounded f).nearest Nat.one_pos ?_
    rw [toRat_eq, Nat.cast_one, one_mul]

end Double

open Double

/-- An operation on finite doubles leads to the double nearest to the exact outcome. -/
theorem Operator.compute_alike_nearest (operator : Operator) {x y : Double}
    (first : x.isFinite = true)
    (second : y.isFinite = true) (nonzero : operator = .div → y.isZero = false) :
    (operator.compute x y).Alike (nearest (operator.exact x.toRat y.toRat)) := by
  cases x with
  | nan => cases first
  | infinite negative => cases first
  | finite s a f =>
    cases y with
    | nan => cases second
    | infinite negative => cases second
    | finite t b g =>
      -- Each operation rounds a number of parts of a quantum, which is the exact outcome.
      rw [toRat_eq, toRat_eq]
      cases operator with
      | add =>
        refine (add_alike_rounded f g).nearest Nat.one_pos ?_
        push_cast
        rw [one_mul, add_div]
        rfl
      | sub =>
        -- A difference is the sum with the opposite number.
        have opposite : (finite (!t) b g).signedQuanta = -(finite t b g).signedQuanta := by
          cases t <;> simp [signedQuanta]
        refine (add_alike_rounded f g).nearest Nat.one_pos ?_
        rw [opposite]
        push_cast
        rw [one_mul, add_div, neg_div, ← sub_eq_add_neg]
        rfl
      | mul =>
        refine (mul_alike_rounded f g).nearest unit_pos ?_
        push_cast
        rw [← div_mul_div_comm]
        rfl
      | div =>
        have divisor : b ≠ 0 := by simpa [isZero] using nonzero rfl
        have parts : (b : Rat) ≠ 0 := by exact_mod_cast divisor
        refine (div_alike_rounded f g divisor).nearest (Nat.pos_of_ne_zero divisor) ?_
        change _ = ((finite s a f).signedQuanta : Rat) / one / ((finite t b g).signedQuanta / one)
        push_cast
        rw [mul_div_mul_right _ _ unit_ne, div_div_div_cancel_right₀ unit_ne]
        -- The signs go to the dividend.
        cases s <;> cases t <;> simp [signedQuanta, neg_div, div_neg]

end PlusMinus
