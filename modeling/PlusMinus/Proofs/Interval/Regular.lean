import Mathlib.Algebra.Order.Field.Power
import PlusMinus.Proofs.Interval.Coarse

/-! Numbers for which doubles are as good as a format without a limit on exponents: rounding them to
the nearest double does not lead across a number of few significant bits. -/

namespace PlusMinus

namespace Double

/-- A coarse number of quanta is below the normal range or a magnitude itself. -/
theorem coarse_cases {significand : Nat} (few : significand ≤ twoTo 53) (place : Int) :
    (significand : Rat) * 2 ^ place < twoTo 52
      ∨ ∃ quanta : Nat, (significand : Rat) * 2 ^ place = quanta ∧ quanta % spacing quanta = 0 := by
  -- Below the place of the units a significand is at most half of 2^53, and from there on it has
  -- zeros behind its bits.
  rcases Int.lt_or_le place 0 with negative | nonnegative
  · have most : (significand : Rat) * 2 ^ place ≤ twoTo 52 :=
      calc (significand : Rat) * 2 ^ place ≤ twoTo 53 * 2 ^ (-1 : Int) := by
            refine mul_le_mul (by exact_mod_cast few) ?_
              (zpow_nonneg (by norm_num) _) (Nat.cast_nonneg _)
            exact zpow_le_zpow_right₀ (by norm_num) (by omega)
        _ = twoTo 52 := by
          rw [cast_twoTo, cast_twoTo, ← zpow_add₀ (by norm_num)]
          norm_num
    rcases lt_or_eq_of_le most with less | equal
    · exact .inl less
    · exact .inr ⟨twoTo 52, equal, mod_spacing_twoTo 52⟩
  · refine .inr ⟨significand * twoTo place.toNat, ?_, mod_spacing_mul few _⟩
    push_cast
    rw [cast_twoTo, show (place.toNat : Int) = place by omega]

section Normal

variable {significand n d : Nat} {place : Int}

/-- A quotient in the normal range is not rounded to less than a coarse number below it. -/
theorem le_roundQuanta_of_coarse (few : significand ≤ twoTo 53) (positive : 0 < d)
    (normal : twoTo 52 * d ≤ n) (le : (significand : Rat) * 2 ^ place * d ≤ n) :
    (significand : Rat) * 2 ^ place ≤ roundQuanta .toEven n d := by
  rcases coarse_cases few place with small | ⟨quanta, same, step⟩
  · have power : twoTo 52 ≤ roundQuanta .toEven n d :=
      le_roundQuanta .toEven positive (mod_spacing_twoTo 52) normal
    exact small.le.trans (by exact_mod_cast power)
  · rw [same] at le ⊢
    exact_mod_cast le_roundQuanta .toEven positive step (by exact_mod_cast le)

/-- A quotient in the normal range is not rounded to more than a coarse number above it. -/
theorem roundQuanta_le_of_coarse (few : significand ≤ twoTo 53) (positive : 0 < d)
    (normal : twoTo 52 * d ≤ n) (le : (n : Rat) ≤ (significand : Rat) * 2 ^ place * d) :
    (roundQuanta .toEven n d : Rat) ≤ (significand : Rat) * 2 ^ place := by
  rcases coarse_cases few place with small | ⟨quanta, same, step⟩
  · -- A number in the normal range is not below one that is not.
    have absurd : (n : Rat) < n :=
      calc (n : Rat) ≤ (significand : Rat) * 2 ^ place * d := le
        _ < twoTo 52 * d := mul_lt_mul_of_pos_right small (by exact_mod_cast positive)
        _ ≤ n := by exact_mod_cast normal
    exact (lt_irrefl _ absurd).elim
  · rw [same] at le ⊢
    exact_mod_cast roundQuanta_le .toEven positive step (by exact_mod_cast le)

end Normal

/-- The smallest number in the normal range. -/
def smallestNormal : Rat := Endpoint.bit (-1022)

/-- A number that the nearest double stands for with all of its 53 bits: it is in the normal range,
or small but exact. -/
def Regular (z : Rat) : Prop :=
  (nearest z).isFinite = true ∧ ((nearest z).toRat = z ∨ smallestNormal ≤ |z|)

instance (z : Rat) : Decidable (Regular z) := inferInstanceAs (Decidable (_ ∧ _))

/-- The smallest number in the normal range has 2^52 quanta. -/
theorem smallestNormal_mul : smallestNormal * one = twoTo 52 := by
  obtain ⟨places, unit, sum⟩ : ∃ places : Int, (one : Rat) = 2 ^ places ∧ -1022 + places = 52 :=
    ⟨1074, cast_unit, rfl⟩
  rw [smallestNormal, Endpoint.bit_eq, unit, ← zpow_add₀ (by norm_num), sum, cast_twoTo]
  rfl

section Magnitude

variable {a z : Rat}

/-- A number that is not negative as a quotient of magnitudes. -/
theorem natAbs_num_of_nonneg (nonnegative : 0 ≤ z) : (z.num.natAbs : Rat) = z * z.den := by
  have positive : (0 : Rat) < z.den := by exact_mod_cast z.den_pos
  rw [← div_eq_iff positive.ne', ← abs_eq_div, abs_of_nonneg nonnegative]

/-- The double nearest to a number that is not negative is a rounded number of quanta. -/
theorem toRat_nearest (nonnegative : 0 ≤ z) (finite : (nearest z).isFinite = true) :
    (nearest z).toRat = roundQuanta .toEven (z.num.natAbs * one) z.den / one := by
  unfold nearest at finite ⊢
  rw [decide_eq_false (not_lt.2 nonnegative)] at finite ⊢
  unfold ofQuotient at finite ⊢
  dsimp only at finite ⊢
  -- A rounded number that does not fit would be an infinity.
  split
  · rw [toRat_eq]
    exact congrArg (· / (one : Rat)) (Int.cast_natCast _)
  · rename_i outside
    rw [dif_neg outside] at finite
    cases finite

/-- A number in the normal range has at least 2^52 quanta in its quotient. -/
theorem twoTo_mul_den_le (normal : smallestNormal ≤ z) (nonnegative : 0 ≤ z) :
    twoTo 52 * z.den ≤ z.num.natAbs * one := by
  -- The smallest normal number has that many quanta, so a larger one has no fewer.
  have scaled : (twoTo 52 : Rat) * z.den ≤ z.num.natAbs * one := by
    rw [natAbs_num_of_nonneg nonnegative, ← smallestNormal_mul]
    calc smallestNormal * one * z.den = smallestNormal * (one * z.den) := mul_assoc _ _ _
      _ ≤ z * (one * z.den) :=
        mul_le_mul_of_nonneg_right normal (mul_nonneg (Nat.cast_nonneg _) (Nat.cast_nonneg _))
      _ = z * z.den * one := by ring
  exact_mod_cast scaled

/-- A number in the normal range is not rounded across a coarse number. -/
theorem nearest_of_normal (coarse : Coarse a) (normal : smallestNormal ≤ z) (nonnegative : 0 ≤ z)
    (finite : (nearest z).isFinite = true) :
    (a ≤ z → a ≤ (nearest z).toRat) ∧ (z ≤ a → (nearest z).toRat ≤ a) := by
  have unit : (0 : Rat) < one := Nat.cast_pos.2 unit_pos
  have parts : (0 : Rat) ≤ one * z.den := mul_nonneg unit.le (Nat.cast_nonneg _)
  have quanta := twoTo_mul_den_le normal nonnegative
  obtain ⟨significand, place, few, same⟩ := coarse
  rw [toRat_nearest nonnegative finite]
  rcases Int.le_total significand 0 with negative | positive
  · -- A number that is not positive is below every magnitude.
    have below : a ≤ 0 := by
      rw [same]
      exact mul_nonpos_of_nonpos_of_nonneg (by exact_mod_cast negative)
        (zpow_nonneg (by norm_num) _)
    refine ⟨fun _ => below.trans (div_nonneg (Nat.cast_nonneg _) unit.le), fun above => ?_⟩
    have least : 0 < smallestNormal := Endpoint.bit_pos _
    exact absurd (normal.trans (above.trans below)) (not_le.2 least)
  · -- In quanta the coarse number has the same significand.
    obtain ⟨places, moved⟩ : ∃ places : Int, a * one = (significand.natAbs : Rat) * 2 ^ places := by
      obtain ⟨places, power⟩ : ∃ places : Int, (one : Rat) = 2 ^ places := ⟨_, cast_unit⟩
      refine ⟨place + places, ?_⟩
      have magnitude : (significand : Rat) = significand.natAbs := by
        rw [Nat.cast_natAbs, abs_of_nonneg positive]
      rw [same, power, zpow_add₀ (by norm_num), magnitude, mul_assoc]
    -- The quotient of the quanta is the number itself in quanta.
    have number : ((z.num.natAbs * one : Nat) : Rat) = z * (one * z.den) := by
      push_cast
      rw [natAbs_num_of_nonneg nonnegative]
      ring
    constructor
    · intro le
      rw [le_div_iff₀ unit, moved]
      refine le_roundQuanta_of_coarse few z.den_pos quanta ?_
      rw [← moved, number, mul_assoc]
      exact mul_le_mul_of_nonneg_right le parts
    · intro le
      rw [div_le_iff₀ unit, moved]
      refine roundQuanta_le_of_coarse few z.den_pos quanta ?_
      rw [← moved, number, mul_assoc]
      exact mul_le_mul_of_nonneg_right le parts

/-- The double nearest to the opposite number is the opposite one. -/
theorem nearest_neg (nonzero : z ≠ 0) : nearest (-z) = -nearest z := by
  change _ = (nearest z).neg
  unfold nearest
  rw [Rat.neg_num, Rat.neg_den, Int.natAbs_neg]
  -- Only the sign differs.
  rcases lt_or_gt_of_ne nonzero with negative | positive
  · have above : ¬-z < 0 := not_lt.2 (neg_nonneg.2 negative.le)
    rw [decide_eq_false above, decide_eq_true negative, ofQuotient_true]
    generalize ofQuotient .toEven false _ _ = magnitude
    cases magnitude <;> simp [Double.neg]
  · have below : -z < 0 := neg_neg_of_pos positive
    rw [decide_eq_true below, decide_eq_false (not_lt.2 positive.le), ofQuotient_true]

/-- The opposite double has the opposite number of quanta. -/
theorem signedQuanta_neg (x : Double) : (-x).signedQuanta = -x.signedQuanta := by
  change x.neg.signedQuanta = _
  cases x with
  | nan => rfl
  | infinite negative => rfl
  | finite negative quanta fits => cases negative <;> simp [Double.neg, signedQuanta]

/-- The opposite double has the opposite number. -/
theorem toRat_neg (x : Double) : (-x).toRat = -x.toRat := by
  rw [toRat, toRat, signedQuanta_neg, Rat.neg_mkRat]

/-- The opposite double is finite when the double is. -/
theorem isFinite_neg (x : Double) : (-x).isFinite = x.isFinite := by
  change x.neg.isFinite = _
  cases x <;> rfl

/-- A regular number is not rounded across a coarse number. -/
theorem Regular.nearest_between (regular : Regular z) (coarse : Coarse a) :
    (a ≤ z → a ≤ (nearest z).toRat) ∧ (z ≤ a → (nearest z).toRat ≤ a) := by
  obtain ⟨finite, exact | normal⟩ := regular
  · rw [exact]
    exact ⟨id, id⟩
  rcases le_total 0 z with nonnegative | nonpositive
  · rw [abs_of_nonneg nonnegative] at normal
    exact nearest_of_normal coarse normal nonnegative finite
  · -- Below zero everything is turned around.
    rw [abs_of_nonpos nonpositive] at normal
    have least : 0 < smallestNormal := Endpoint.bit_pos _
    have nonzero : z ≠ 0 := by
      rintro rfl
      rw [neg_zero] at normal
      exact absurd normal (not_le.2 least)
    have opposite := nearest_neg nonzero
    have finite' : (nearest (-z)).isFinite = true := by rw [opposite, isFinite_neg, finite]
    obtain ⟨below, above⟩ := nearest_of_normal coarse.neg normal (neg_nonneg.2 nonpositive) finite'
    rw [opposite, toRat_neg, neg_le_neg_iff, neg_le_neg_iff] at below above
    exact ⟨above, below⟩

end Magnitude

end Double

namespace Endpoint

variable {e : Endpoint} {z : Rat}

/-- A regular number is not rounded below a coarse end below it. -/
theorem AtMost.nearest (low : e.AtMost z) (coarse : e.Coarse) (regular : Double.Regular z) :
    e.AtMost (Double.nearest z).toRat := by
  cases e with
  | undefined => exact low.elim
  | negInfinity => trivial
  | finite a => exact (regular.nearest_between coarse).1 low
  | posInfinity => exact low.elim

/-- A regular number is not rounded above a coarse end above it. -/
theorem AtLeast.nearest (high : e.AtLeast z) (coarse : e.Coarse) (regular : Double.Regular z) :
    e.AtLeast (Double.nearest z).toRat := by
  cases e with
  | undefined => exact high.elim
  | negInfinity => exact high.elim
  | finite a => exact (regular.nearest_between coarse).2 high
  | posInfinity => trivial

/-- The double nearest to an end below a number is not above the one nearest to the number. -/
theorem AtMost.toDouble (low : e.AtMost z) : e.toDouble.NotAbove (Double.nearest z) := by
  cases e with
  | undefined => exact low.elim
  | negInfinity => exact Double.NotAbove.bottom _
  | finite a =>
    rw [Double.toDouble_finite]
    exact Double.nearest_notAbove low
  | posInfinity => exact low.elim

/-- The double nearest to an end above a number is not below the one nearest to the number. -/
theorem AtLeast.toDouble (high : e.AtLeast z) : (Double.nearest z).NotAbove e.toDouble := by
  cases e with
  | undefined => exact high.elim
  | negInfinity => exact high.elim
  | finite a =>
    rw [Double.toDouble_finite]
    exact Double.nearest_notAbove high
  | posInfinity => exact Double.NotAbove.top _

end Endpoint

end PlusMinus
