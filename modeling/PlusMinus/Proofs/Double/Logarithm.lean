import PlusMinus.Proofs.Double.Whole

/-! The logarithm grows with its argument between two powers of two, and rounding a number between
one and ten to a whole number changes its logarithm by less than one quarter. -/

namespace PlusMinus.Double

section Series

/-- A larger argument makes the terms of the series larger. -/
theorem atanhTerms_mono {square square' : Nat} (squares : square ≤ square') (count index : Nat)
    {power power' : Nat} (le : power ≤ power') :
    atanhTerms count index power square ≤ atanhTerms count index power' square' := by
  -- The terms are compared one by one.
  induction count generalizing index power power' with
  | zero => exact Nat.le_refl _
  | succ count ih =>
    have first : power / (2 * index + 1) ≤ power' / (2 * index + 1) := Nat.div_le_div_right le
    have later :=
      ih (index + 1) (Nat.div_le_div_right (c := seriesScale) (Nat.mul_le_mul le squares))
    exact Nat.add_le_add first later

variable {quanta quanta' scale : Nat}

/-- From the scale on, the argument of the series grows with the quanta. -/
theorem ratio_mono (positive : 0 < scale) (least : scale ≤ quanta) (le : quanta ≤ quanta') :
    (quanta - scale) * seriesScale / (quanta + scale)
      ≤ (quanta' - scale) * seriesScale / (quanta' + scale) := by
  obtain ⟨a, rfl⟩ := Nat.exists_eq_add_of_le' least
  obtain ⟨b, rfl⟩ := Nat.exists_eq_add_of_le' le
  rw [Nat.add_sub_cancel, ← Nat.add_assoc b, Nat.add_sub_cancel]
  generalize seriesScale = unit
  have sum : 0 < a + scale + scale := by omega
  -- The argument is at most one, and what is added to its parts is in that proportion.
  have most : a * unit / (a + scale + scale) ≤ unit :=
    Nat.div_le_of_le_mul (Nat.mul_le_mul_right unit (by omega))
  have exact := Nat.div_mul_le_self (a * unit) (a + scale + scale)
  rw [Nat.le_div_iff_mul_le (by omega)]
  generalize a * unit / (a + scale + scale) = ratio at most exact
  calc ratio * (b + a + scale + scale) = b * ratio + ratio * (a + scale + scale) := by ring
    _ ≤ b * unit + a * unit := Nat.add_le_add (Nat.mul_le_mul_left b most) exact
    _ = (b + a) * unit := (Nat.add_mul _ _ _).symm

/-- A larger quotient is not rounded to a smaller double. -/
theorem ofQuotient_notAbove {n m d e : Nat} (positive : 0 < d) (positive' : 0 < e)
    (le : n * e ≤ m * d) :
    (ofQuotient .toEven false n d).NotAbove (ofQuotient .toEven false m e) := by
  intro p q first second
  rw [position?_ofQuotient] at first second
  cases first
  cases second
  simpa using reach_mono .toEven positive positive' le

/-- From the scale on, the logarithm of a quotient grows with the quanta. -/
theorem lnQuotient_notAbove (positive : 0 < scale) (least : scale ≤ quanta)
    (le : quanta ≤ quanta') :
    (lnQuotient quanta scale).NotAbove (lnQuotient quanta' scale) := by
  have ratio := ratio_mono positive least le
  have above : decide (quanta < scale) = false := by simpa using least
  have above' : decide (quanta' < scale) = false := by simpa using Nat.le_trans least le
  unfold lnQuotient
  simp only [above, above', if_neg (Nat.not_lt.2 least),
    if_neg (Nat.not_lt.2 (Nat.le_trans least le))]
  have unit : 0 < seriesScale := twoTo_pos 200
  -- The series is a sum of terms that all grow with the argument.
  refine ofQuotient_notAbove unit unit (Nat.mul_le_mul_right _ (Nat.mul_le_mul_right _ ?_))
  refine Nat.mul_le_mul_left 2 (atanhTerms_mono ?_ 64 0 ratio)
  exact Nat.div_le_div_right (Nat.mul_le_mul ratio ratio)

end Series

section Binade

/-- The logarithm of a number of quanta between two powers of two, by the exponent of the lower
one. -/
def logarithmAt (exponent quanta : Nat) : Double :=
  (ofInt exponent * log10TwoLow + log10E * lnQuotient quanta (twoTo (exponent + 1074)))
    + ofInt exponent * log10TwoHigh

/-- From one on, the logarithm of a number is that between the powers of two around it. -/
theorem log10_eq {x : Double} {exponent : Nat} (bits : x.magnitude.log2 = exponent + 1074) :
    x.log10 = logarithmAt exponent x.magnitude := by
  have power : ((exponent + 1074 : Nat) : Int) - 1074 = exponent := by omega
  have some : ¬(exponent : Int) < 0 := by omega
  unfold log10 logarithmAt
  simp only [bits, power, if_neg some]

/-- From a power of two on, the logarithm grows with the quanta. -/
theorem logarithmAt_notAbove (exponent : Nat) {quanta quanta' : Nat}
    (least : twoTo (exponent + 1074) ≤ quanta) (le : quanta ≤ quanta') :
    (logarithmAt exponent quanta).NotAbove (logarithmAt exponent quanta') := by
  have series := lnQuotient_notAbove (twoTo_pos (exponent + 1074)) least le
  have sign : ∀ {quanta}, twoTo (exponent + 1074) ≤ quanta →
      (lnQuotient quanta (twoTo (exponent + 1074))).isNegative = false := by
    intro quanta least
    rw [lnQuotient, isNegative_ofQuotient]
    exact decide_eq_false (Nat.not_lt.2 least)
  -- Only the middle one of the three terms changes, and the constant in it is positive.
  have middle := series.mul_left (z := log10E) (sign least) (sign (Nat.le_trans least le))
    (isNegative_ofQuotient _ _ _ _)
  exact (NotAbove.add (.of_alike (.refl _)) middle).add_right _

end Binade

end PlusMinus.Double
