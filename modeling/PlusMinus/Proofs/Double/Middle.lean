import PlusMinus.Proofs.Double.Overflow

/-! The middle of two doubles, computed as half of their sum: the sum is rounded, and so is its
half, but neither leads past one of the two. -/

namespace PlusMinus.Double

/-- Twice a magnitude has the steps of a magnitude, be it in range or not. -/
theorem two_mul_mod_spacing {m : Nat} (fits : m % spacing m = 0) : 2 * m % spacing (2 * m) = 0 := by
  by_cases zero : m = 0
  · subst zero
    rfl
  -- The steps at twice the magnitude are at most twice those at the magnitude.
  have steps : spacing (2 * m) ∣ 2 * spacing m := by
    rw [spacing, Nat.log2_two_mul zero, spacing, show 2 = twoTo 1 from rfl, ← twoTo_add]
    exact twoTo_dvd (by omega)
  exact Nat.mod_eq_zero_of_dvd (steps.trans (Nat.mul_dvd_mul_left 2 (Nat.dvd_of_mod_eq_zero fits)))

/-- A whole number of quanta is not rounded across one that has the steps of a magnitude. -/
theorem rounded_between {q m : Int} (fits : m.natAbs % spacing m.natAbs = 0)
    (range : (rounded q 1).isFinite = true) :
    (m ≤ q → m ≤ (rounded q 1).signedQuanta) ∧ (q ≤ m → (rounded q 1).signedQuanta ≤ m) := by
  have inside := (isFinite_ofQuotient_iff .toEven (q < 0) q.natAbs 1).1 range
  have value : (rounded q 1).signedQuanta
      = if q < 0 then -(roundQuanta .toEven q.natAbs 1 : Int)
        else roundQuanta .toEven q.natAbs 1 := by
    unfold rounded ofQuotient
    dsimp only
    rw [dif_pos inside]
    refine (signedQuanta_finite _ _ _).trans ?_
    simp only [decide_eq_true_eq]
  -- Magnitudes keep their order when they are rounded, and a number keeps its sign.
  have up (le : m.natAbs ≤ q.natAbs) : m.natAbs ≤ roundQuanta .toEven q.natAbs 1 :=
    le_roundQuanta .toEven Nat.one_pos fits (by omega)
  have down (le : q.natAbs ≤ m.natAbs) : roundQuanta .toEven q.natAbs 1 ≤ m.natAbs :=
    roundQuanta_le .toEven Nat.one_pos fits (by omega)
  rw [value]
  constructor <;> intro le <;> split <;> omega

/-- A sum is not rounded across twice a double. -/
theorem add_between {x y z : Double} (range : (x + y).isFinite = true)
    (isFinite : z.isFinite = true) :
    (2 * z.toRat ≤ x.toRat + y.toRat → 2 * z.toRat ≤ (x + y).toRat)
      ∧ (x.toRat + y.toRat ≤ 2 * z.toRat → (x + y).toRat ≤ 2 * z.toRat) := by
  obtain ⟨left, right⟩ := isFinite_of_add range
  obtain ⟨r, c, h, rfl⟩ := exists_of_isFinite isFinite
  obtain ⟨s, a, f, rfl⟩ := exists_of_isFinite left
  obtain ⟨t, b, g, rfl⟩ := exists_of_isFinite right
  have unit : (0 : Rat) < one := Nat.cast_pos.2 unit_pos
  have alike := add_alike_rounded (s := s) (t := t) f g
  have fits : (2 * (finite r c h).signedQuanta).natAbs % spacing
      (2 * (finite r c h).signedQuanta).natAbs = 0 := by
    have magnitude : (2 * (finite r c h).signedQuanta).natAbs = 2 * c := by
      rw [signedQuanta_finite]
      cases r <;> simp only [if_true, Bool.false_eq_true, if_false] <;> omega
    rw [magnitude]
    exact two_mul_mod_spacing h.2
  -- In quanta the exact sum is a whole number, and so is twice the double.
  obtain ⟨above, below⟩ := rounded_between fits (alike.isFinite.symm.trans range)
  rw [alike.toRat, toRat_eq, toRat_eq, toRat_eq, toRat_eq, ← add_div, ← mul_div_assoc,
    div_le_div_iff_of_pos_right unit, div_le_div_iff_of_pos_right unit,
      div_le_div_iff_of_pos_right unit,
    div_le_div_iff_of_pos_right unit]
  exact_mod_cast And.intro above below

/-- The middle of two doubles with a sum in range is finite, and it is between them. -/
theorem NotAbove.halve_add {x y : Double} (notAbove : x.NotAbove y)
    (range : (x + y).isFinite = true) :
    (x + y).halve.isFinite = true ∧ x.NotAbove (x + y).halve ∧ (x + y).halve.NotAbove y := by
  obtain ⟨left, right⟩ := isFinite_of_add range
  have order := notAbove.toRat_le left right
  have low := (add_between range left).1 (by linarith)
  have high := (add_between range right).2 (by linarith)
  have half : Operator.div.exact (x + y).toRat (ofInt 2).toRat = (x + y).toRat / 2 := by
    rw [toRat_ofInt (by decide)]
    rfl
  have two : (ofInt 2).isFinite = true ∧ (ofInt 2).isZero = false :=
    ⟨isFinite_ofInt (by decide), isZero_ofInt (by decide)⟩
  -- Half of a number in range is in range, and it is not rounded across either of the two.
  have inside : (x + y).halve.isFinite = true := by
    refine (Operator.div.isFinite_compute_iff range two.1 fun _ => two.2).2 ?_
    have bound := abs_toRat_lt_overflow range
    rw [half, abs_div, abs_of_pos (by norm_num : (0 : Rat) < 2)]
    linarith [abs_nonneg (x + y).toRat]
  have lower := (Operator.div.compute_between range two.1 (fun _ => two.2) inside left).1
    (by rw [half]; linarith)
  have upper := (Operator.div.compute_between range two.1 (fun _ => two.2) inside right).2
    (by rw [half]; linarith)
  exact ⟨inside, of_toRat_le left inside lower, of_toRat_le inside right upper⟩

end PlusMinus.Double
