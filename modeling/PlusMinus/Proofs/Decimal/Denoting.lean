import PlusMinus.Proofs.Decimal.Digit

/-! Which decimals read back as a given double: those that are near enough to it, and those between
it and another one that does. -/

namespace PlusMinus

open Double

namespace Double

section Gap

variable {m k n d : Nat}

/-- The steps of a magnitude divide its distance from a larger one. -/
theorem spacing_le_sub (step : m % spacing m = 0) (step' : k % spacing k = 0) (less : m < k) :
    spacing m ≤ k - m := by
  have shared : spacing m ∣ k :=
    (spacing_dvd (log2_le less.le)).trans (Nat.dvd_of_mod_eq_zero step')
  exact Nat.le_of_dvd (by omega) (Nat.dvd_sub shared (Nat.dvd_of_mod_eq_zero step))

/-- A magnitude is at most 2^53 times as large as its distance from any other one. -/
theorem le_mul_gap (step : m % spacing m = 0) (step' : k % spacing k = 0) (differ : k ≠ m) :
    (m : Int) ≤ twoTo 53 * |(k : Int) - m| := by
  have some := twoTo_pos 53
  rcases Nat.lt_or_gt_of_ne differ with below | above
  · -- Below it the steps may be finer, but then it is as far from the last of those as it is from
    -- their end.
    have gap := spacing_le_sub step' step below
    have front : k + spacing k ≤ twoTo 53 * spacing k := by
      have rest := Nat.le_of_dvd (Nat.sub_pos_of_lt (lt_mul_spacing k))
        (Nat.dvd_sub (Nat.dvd_mul_left (spacing k) (twoTo 53)) (Nat.dvd_of_mod_eq_zero step'))
      have := lt_mul_spacing k
      omega
    have apart : m - twoTo 53 * spacing k + spacing k ≤ m - k := by omega
    have scaled := Nat.mul_le_mul_left (twoTo 53) apart
    have kept := Nat.le_mul_of_pos_left (m - twoTo 53 * spacing k) some
    rw [Nat.mul_add] at scaled
    rw [abs_of_neg (by omega), neg_sub, ← Nat.cast_sub below.le]
    exact_mod_cast (by omega : m ≤ twoTo 53 * (m - k))
  · have gap := Nat.mul_le_mul_left (twoTo 53) (spacing_le_sub step step' above)
    rw [abs_of_pos (by omega), ← Nat.cast_sub above.le]
    exact_mod_cast (lt_mul_spacing m).le.trans gap

/-- A quotient that is near enough to a magnitude is rounded to it: nearer than any other magnitude
can be. -/
theorem roundQuanta_of_near (tie : Tie) (positive : 0 < d) (step : m % spacing m = 0)
    (near : (2 * tenTo 16 : Int) * |((m * d : Nat) : Int) - n| ≤ m * d) :
    roundQuanta tie n d = m := by
  have nearest := roundQuanta_nearest (n := n) tie positive step
  have step' := roundQuanta_mod_spacing tie n d
  generalize roundQuanta tie n d = k at nearest step' ⊢
  by_contra differ
  have gap := mul_le_mul_of_nonneg_right (le_mul_gap step step' differ) (Int.natCast_nonneg d)
  -- What is rounded to is not farther from the quotient than the magnitude is.
  have apart : |(k : Int) - m| * d ≤ 2 * |((m * d : Nat) : Int) - n| := by
    calc |(k : Int) - m| * d = |((k * d : Nat) : Int) - (m * d : Nat)| := by
          rw [Nat.cast_mul, Nat.cast_mul, ← sub_mul, abs_mul, Nat.abs_cast]
      _ ≤ |((k * d : Nat) : Int) - n| + |(n : Int) - (m * d : Nat)| := abs_sub_le _ _ _
      _ ≤ 2 * |((m * d : Nat) : Int) - n| := by
          rw [abs_sub_comm (n : Int)]
          linarith
  have some : 0 < |(k : Int) - m| * d := mul_pos (abs_pos.2 (by omega)) (by exact_mod_cast positive)
  have fine : (twoTo 53 : Int) < tenTo 16 := by decide
  have scaled := mul_le_mul_of_nonneg_left apart (Int.natCast_nonneg (tenTo 16))
  have strict := mul_lt_mul_of_pos_right fine some
  linarith

end Gap

end Double

namespace Decimal

variable {d e : Decimal} {x : Double}

/-- A decimal reads back as a magnitude exactly if it reaches as far from zero. -/
theorem toDouble_eq_abs_iff (isFinite : x.isFinite = true) :
    d.toDouble false = x.abs ↔ d.reach = x.magnitude := by
  constructor
  · exact reach_eq_magnitude isFinite
  · intro reached
    -- What reaches a finite magnitude is in range, and magnitudes tell finite doubles apart.
    have range : d.reach < limit := by
      obtain ⟨negative, quanta, fits, rfl⟩ := exists_of_isFinite isFinite
      exact reached.trans_lt fits.1
    have finite := isFinite_toDouble_iff.2 range
    rw [← abs_toDouble]
    exact abs_congr finite isFinite
      ((reach_eq_magnitude finite (abs_toDouble d).symm).symm.trans reached)

/-- A decimal that is near enough to a magnitude reads back as it. -/
theorem toDouble_of_near (isFinite : x.isFinite = true)
    (near : 2 * tenTo 16 * |d.toRat - x.abs.toRat| ≤ x.abs.toRat) : d.toDouble false = x.abs := by
  obtain ⟨range, steps⟩ := fits_magnitude x
  rw [toDouble_eq_abs_iff isFinite, reach, Double.reach]
  have positive : 0 < d.quanta.2 := tenTo_pos _
  have parts : (0 : Rat) < d.quanta.2 := Nat.cast_pos.2 positive
  have unit : (0 : Rat) < one := Nat.cast_pos.2 unit_pos
  have value : d.toRat = d.quanta.1 / (d.quanta.2 * one) := by
    rw [eq_div_iff (mul_pos parts unit).ne', d.quanta_eq]
    ring
  -- Counted in quanta, the decimal is as near to the magnitude.
  rw [abs_sub_comm, value, toRat_abs, abs_div_sub_div positive, mul_div_assoc',
    div_le_div_iff₀ (mul_pos parts unit) unit, ← mul_assoc] at near
  have close := le_of_mul_le_mul_right near unit
  have same :=
    roundQuanta_of_near .toEven (n := d.quanta.1) positive steps (by exact_mod_cast close)
  rw [same, Nat.min_eq_left range.le]

/-- The quanta of a decimal are compared with a magnitude as the decimal is. -/
theorem quanta_le_iff : d.quanta.1 ≤ x.magnitude * d.quanta.2 ↔ d.toRat ≤ x.abs.toRat := by
  have parts : (0 : Rat) < d.quanta.2 := Nat.cast_pos.2 (tenTo_pos _)
  have unit : (0 : Rat) < one := Nat.cast_pos.2 unit_pos
  rw [toRat_abs, le_div_iff₀ unit, ← mul_le_mul_iff_left₀ parts, ← quanta_eq]
  exact_mod_cast Iff.rfl

/-- The same from above. -/
theorem le_quanta_iff : x.magnitude * d.quanta.2 ≤ d.quanta.1 ↔ x.abs.toRat ≤ d.toRat := by
  have parts : (0 : Rat) < d.quanta.2 := Nat.cast_pos.2 (tenTo_pos _)
  have unit : (0 : Rat) < one := Nat.cast_pos.2 unit_pos
  rw [toRat_abs, div_le_iff₀ unit, ← mul_le_mul_iff_left₀ parts, ← quanta_eq]
  exact_mod_cast Iff.rfl

/-- Between a decimal that reads back and the magnitude itself every decimal does. -/
theorem toDouble_of_between (isFinite : x.isFinite = true) (same : d.toDouble false = x.abs)
    (between : d.toRat ≤ e.toRat ∧ e.toRat ≤ x.abs.toRat
      ∨ x.abs.toRat ≤ e.toRat ∧ e.toRat ≤ d.toRat) :
    e.toDouble false = x.abs := by
  obtain ⟨range, steps⟩ := fits_magnitude x
  have reached := reach_eq_magnitude isFinite same
  have positive : 0 < e.quanta.2 := tenTo_pos _
  rw [toDouble_eq_abs_iff isFinite]
  -- Nothing is rounded across the magnitude.
  rcases between with ⟨low, high⟩ | ⟨low, high⟩
  · have lower := reach_mono low
    have upper := roundQuanta_le .toEven positive steps (quanta_le_iff.2 high)
    have bound : e.reach ≤ roundQuanta .toEven e.quanta.1 e.quanta.2 := Nat.min_le_left _ _
    omega
  · have upper := reach_mono high
    have lower : x.magnitude ≤ e.reach :=
      Nat.le_min.2 ⟨le_roundQuanta .toEven positive steps (le_quanta_iff.2 low), range.le⟩
    omega

end Decimal

end PlusMinus
