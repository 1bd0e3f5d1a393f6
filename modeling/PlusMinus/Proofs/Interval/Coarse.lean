import Mathlib.Algebra.Order.Field.Power
import PlusMinus.Proofs.Interval.Nearest

/-! The ends of computed intervals have few significant bits, like doubles. -/

namespace PlusMinus

/-- A number of at most 53 significant bits, or the power of two that comes next. -/
def Coarse (a : Rat) : Prop :=
  ∃ (significand exponent : Int), significand.natAbs ≤ twoTo 53 ∧ a = significand * 2 ^ exponent

namespace Coarse

/-- Zero has no significant bits. -/
theorem zero : Coarse 0 := ⟨0, 0, Nat.zero_le _, by simp⟩

/-- The opposite of a coarse number is coarse. -/
theorem neg {a : Rat} (coarse : Coarse a) : Coarse (-a) := by
  obtain ⟨significand, exponent, few, rfl⟩ := coarse
  exact ⟨-significand, exponent, by rwa [Int.natAbs_neg], by push_cast; rw [neg_mul]⟩

end Coarse

/-- A power of two as a rational number. -/
theorem cast_twoTo (n : Nat) : (twoTo n : Rat) = 2 ^ (n : Int) := by
  rw [twoTo, Nat.pow_eq, zpow_natCast]
  exact_mod_cast rfl

/-- The magnitude of a number as a quotient. -/
theorem abs_eq_div (x : Rat) : |x| = (x.num.natAbs : Rat) / x.den := by
  conv_lhs => rw [← Rat.num_div_den x]
  rw [abs_div, Nat.abs_cast, ← Int.cast_abs, Int.abs_eq_natAbs, Int.cast_natCast]

namespace Double

/-- The quanta of one as a power of two. -/
theorem cast_unit : (one : Rat) = 2 ^ (1074 : Int) := cast_twoTo 1074

end Double

namespace Endpoint

/-- The value of a bit is a power of two. -/
theorem bit_eq (exponent : Int) : bit exponent = 2 ^ exponent := by
  unfold bit
  split
  · rw [Rat.mkRat_eq_div, cast_twoTo, show ((-exponent).toNat : Int) = -exponent by omega, zpow_neg]
    simp
  · rw [cast_twoTo, show (exponent.toNat : Int) = exponent by omega]

/-- The magnitude of a number is compared with a whole one by its numerator and denominator. -/
theorem abs_lt_natCast (y : Rat) (n : Nat) : |y| < n ↔ y.num.natAbs < n * y.den := by
  rw [abs_eq_div, div_lt_iff₀ (Nat.cast_pos.2 y.den_pos)]
  exact_mod_cast Iff.rfl

/-- The magnitude of a number is below the power of two that the logarithms of its numerator and its
denominator tell. -/
theorem abs_lt_log (x : Rat) :
    |x| < 2 ^ ((x.num.natAbs.log2 : Int) - x.den.log2 + 1) := by
  have two : (2 : Rat) ≠ 0 := by norm_num
  have above : x.num.natAbs < twoTo (x.num.natAbs.log2 + 1) := Nat.lt_log2_self
  have below : twoTo x.den.log2 ≤ x.den := Nat.log2_self_le x.den_nz
  rw [abs_eq_div, div_lt_iff₀ (Nat.cast_pos.2 x.den_pos)]
  -- The numerator is below the next power of two, and the denominator not below its own.
  have power : (2 : Rat) ^ ((x.num.natAbs.log2 : Int) - x.den.log2 + 1) * twoTo x.den.log2
      = twoTo (x.num.natAbs.log2 + 1) := by
    rw [cast_twoTo, cast_twoTo, ← zpow_add₀ two]
    congr 1
    omega
  calc (x.num.natAbs : Rat) < twoTo (x.num.natAbs.log2 + 1) := by exact_mod_cast above
    _ = 2 ^ ((x.num.natAbs.log2 : Int) - x.den.log2 + 1) * twoTo x.den.log2 := power.symm
    _ ≤ _ := mul_le_mul_of_nonneg_left (by exact_mod_cast below) (zpow_nonneg (by norm_num) _)

/-- A number is less than 2^53 times the value of its last bit. -/
theorem abs_lt_lastBit (x : Rat) : |x / bit (lastBit x)| < twoTo 53 := by
  have two : (2 : Rat) ≠ 0 := by norm_num
  have positive := bit_pos
  unfold lastBit
  dsimp only
  generalize guessed : (x.num.natAbs.log2 : Int) - x.den.log2 - 52 = guess
  split
  · -- With less than 52 bits before the point there is room for one more.
    rename_i few
    rw [Nat.div_lt_iff_lt_mul (x / bit guess).den_pos, ← abs_lt_natCast] at few
    have half : x / bit (guess - 1) = 2 * (x / bit guess) := by
      rw [bit_eq, bit_eq, zpow_sub_one₀ two]
      field_simp
    have double : (twoTo 53 : Rat) = 2 * twoTo 52 := by
      rw [show 53 = 1 + 52 from rfl, twoTo_add]
      exact_mod_cast rfl
    rw [half, abs_mul, abs_two, double]
    exact mul_lt_mul_of_pos_left few two_pos
  · -- Otherwise the logarithms tell that there are no more than 53.
    rw [abs_div, abs_of_pos (positive guess), div_lt_iff₀ (positive guess)]
    have bound := abs_lt_log x
    have power : (twoTo 53 : Rat) * bit guess
        = 2 ^ ((x.num.natAbs.log2 : Int) - x.den.log2 + 1) := by
      rw [bit_eq, cast_twoTo, ← zpow_add₀ two]
      congr 1
      omega
    rwa [power]

/-- Rounding down leads to a coarse number. -/
theorem coarse_roundDown (x : Rat) : PlusMinus.Coarse (roundDown x) := by
  unfold roundDown
  split
  · exact .zero
  · refine ⟨(x / bit (lastBit x)).floor, lastBit x, ?_, by rw [bit_eq]⟩
    -- The whole part of a number inside the bound is inside it too, or at its lower end.
    obtain ⟨low, high⟩ := abs_lt.1 (abs_lt_lastBit x)
    have floor := Rat.floor_le (x / bit (lastBit x))
    have next := Rat.lt_floor_add_one (x / bit (lastBit x))
    generalize (x / bit (lastBit x)).floor = significand at floor next
    generalize twoTo 53 = bound at low high
    have above : significand < bound := by exact_mod_cast lt_of_le_of_lt floor high
    have below : ((-bound : Int) : Rat) < (significand + 1 : Int) := by
      push_cast at next ⊢
      exact lt_trans low next
    rw [Int.cast_lt] at below
    omega

/-- Rounding up leads to a coarse number. -/
theorem coarse_roundUp (x : Rat) : Coarse (roundUp x) := (coarse_roundDown (-x)).neg

/-- An end with few significant bits, if it is finite. -/
def Coarse : Endpoint → Prop
  | .finite a => PlusMinus.Coarse a
  | _ => True

namespace Coarse

variable {e f : Endpoint}

/-- An end that is rounded down is coarse. -/
theorem down (e : Endpoint) : e.down.Coarse := by
  cases e with
  | finite a => exact coarse_roundDown a
  | _ => trivial

/-- An end that is rounded up is coarse. -/
theorem up (e : Endpoint) : e.up.Coarse := by
  cases e with
  | finite a => exact coarse_roundUp a
  | _ => trivial

/-- A coarse end with a coarse end in its place when it is undefined. -/
theorem orElse (coarse : e.Coarse) (replacement : f.Coarse) : (e.orElse f).Coarse := by
  cases e with
  | undefined => exact replacement
  | _ => exact coarse

end Coarse

end Endpoint

namespace Interval

/-- Both ends of an interval are coarse. -/
structure Coarse (s : Interval) : Prop where
  low : s.low.Coarse
  high : s.high.Coarse

namespace Coarse

/-- The whole line has no finite ends. -/
theorem whole : Interval.whole.Coarse := ⟨trivial, trivial⟩

/-- The interval of zero is coarse. -/
theorem zero : Interval.zero.Coarse := ⟨.zero, .zero⟩

/-- An interval that is rounded outwards is coarse. -/
theorem outward (low high : Endpoint) {ifLow ifHigh : Endpoint} (first : ifLow.Coarse)
    (second : ifHigh.Coarse) : (Interval.outward low ifLow high ifHigh).Coarse :=
  ⟨(Endpoint.Coarse.down low).orElse first, (Endpoint.Coarse.up high).orElse second⟩

/-- The product of two intervals is coarse. -/
theorem mul (s t : Interval) : (s.mul t).Coarse := by
  -- Each way to multiply rounds both ends outwards, with zero or an infinity for an undefined one.
  have zero : (Endpoint.finite 0).Coarse := PlusMinus.Coarse.zero
  unfold Interval.mul
  split
  · split
    · exact whole
    · exact .zero
  split
  · split
    · exact whole
    · exact .zero
  split
  · split
    · exact outward _ _ zero trivial
    split
    · exact outward _ _ trivial zero
    · exact outward _ _ trivial trivial
  split
  · split
    · exact outward _ _ trivial zero
    split
    · exact outward _ _ zero trivial
    · exact outward _ _ trivial trivial
  · dsimp only
    split
    · exact whole
    · exact ⟨.down _, .up _⟩

/-- The quotient by an interval without numbers below zero is coarse. -/
theorem divNonnegative (s t : Interval) : (Interval.divNonnegative s t).Coarse := by
  have zero : (Endpoint.finite 0).Coarse := PlusMinus.Coarse.zero
  -- The divisor may start at zero; if not, the dividend is on one side of zero or on both. A new
  -- end is a zero, an infinity or rounded outward.
  unfold Interval.divNonnegative
  split
  · split
    · exact whole
    split
    · exact ⟨trivial, .up _⟩
    · exact ⟨.down _, trivial⟩
  split
  · exact outward _ _ zero trivial
  split
  · exact outward _ _ trivial zero
  · exact outward _ _ trivial trivial

/-- The quotient of two intervals is coarse. -/
theorem div (s t : Interval) : (s.div t).Coarse := by
  -- Zero stays zero unless the divisor has a zero, and zero inside the divisor leaves everything
  -- open; otherwise both are negated if the divisor is below zero.
  unfold Interval.div
  split
  · split
    · exact whole
    · exact zero
  split
  · exact whole
  split
  · exact divNonnegative _ _
  · exact divNonnegative _ _

/-- The outcome of an operation on intervals is coarse. -/
theorem compute (operator : Operator) (s t : Interval) :
    (Interval.compute operator s t).Coarse := by
  cases operator with
  | add => exact outward _ _ trivial trivial
  | sub => exact outward _ _ trivial trivial
  | mul => exact mul s t
  | div => exact div s t

end Coarse

end Interval

end PlusMinus
