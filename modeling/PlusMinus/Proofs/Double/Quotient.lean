import PlusMinus.Double.Arith

/-! Rounding depends on a quotient alone, and leaves a double that is already one. -/

namespace PlusMinus

/-- Rounding a quotient does not depend on a common factor. -/
theorem roundDiv_mul_right (tie : Tie) (numerator denominator : Nat) {factor : Nat}
    (positive : 0 < factor) :
    roundDiv tie (numerator * factor) (denominator * factor)
      = roundDiv tie numerator denominator := by
  -- Neither the quotient nor the comparison of twice the remainder with the divisor changes.
  have twice : 2 * (numerator % denominator * factor)
      = 2 * (numerator % denominator) * factor := (Nat.mul_assoc 2 _ factor).symm
  unfold roundDiv
  dsimp only
  rw [Nat.mul_div_mul_right _ _ positive, Nat.mul_mod_mul_right, twice]
  simp only [Nat.mul_lt_mul_right positive]

/-- A quotient that is a whole number is rounded to it. -/
theorem roundDiv_of_mul (tie : Tie) (n : Nat) {denominator : Nat} (positive : 0 < denominator) :
    roundDiv tie (n * denominator) denominator = n := by
  unfold roundDiv
  dsimp only
  rw [Nat.mul_div_cancel _ positive, Nat.mul_mod_left, if_pos (by omega)]

namespace Double

/-- The rounded magnitude of a quotient does not depend on a common factor. -/
theorem roundQuanta_mul_right (tie : Tie) (numerator denominator : Nat) {factor : Nat}
    (positive : 0 < factor) :
    roundQuanta tie (numerator * factor) (denominator * factor)
      = roundQuanta tie numerator denominator := by
  unfold roundQuanta
  dsimp only
  rw [Nat.mul_div_mul_right _ _ positive, Nat.mul_right_comm, roundDiv_mul_right tie _ _ positive]

/-- Equal quotients are rounded to the same magnitude. -/
theorem roundQuanta_congr (tie : Tie) {n d m e : Nat} (positive : 0 < d) (positive' : 0 < e)
    (equal : n * e = m * d) : roundQuanta tie n d = roundQuanta tie m e := by
  -- Both are brought to the product of the denominators.
  rw [← roundQuanta_mul_right tie n d positive', equal, Nat.mul_comm d e,
    roundQuanta_mul_right tie m e positive]

/-- Equal quotients are rounded to the same double. -/
theorem ofQuotient_congr (tie : Tie) (negative : Bool) {n d m e : Nat} (positive : 0 < d)
    (positive' : 0 < e) (equal : n * e = m * d) :
    ofQuotient tie negative n d = ofQuotient tie negative m e := by
  unfold ofQuotient
  dsimp only
  simp only [roundQuanta_congr tie positive positive' equal]

/-- A quotient that is the magnitude of a double is rounded to it. -/
theorem ofQuotient_of_fits (tie : Tie) (negative : Bool) {quanta denominator : Nat}
    (positive : 0 < denominator) (fits : Fits quanta) :
    ofQuotient tie negative (quanta * denominator) denominator
      = .finite negative quanta fits := by
  -- The magnitude is a whole number of its own steps, so that nothing is rounded away.
  have steps : quanta / spacing quanta * spacing quanta = quanta :=
    Nat.div_mul_cancel (Nat.dvd_of_mod_eq_zero fits.2)
  have step : 0 < spacing quanta := twoTo_pos _
  have rounded : roundQuanta tie (quanta * denominator) denominator = quanta := by
    unfold roundQuanta
    dsimp only
    rw [Nat.mul_div_cancel _ positive]
    have product : quanta * denominator
        = quanta / spacing quanta * (denominator * spacing quanta) := by
      rw [Nat.mul_comm denominator, ← Nat.mul_assoc, steps]
    rw [product, roundDiv_of_mul tie _ (Nat.mul_pos positive step), steps]
  unfold ofQuotient
  dsimp only
  simp only [rounded, fits.1, dif_pos]

/-- The sign of a rounded quotient is the given one. -/
theorem ofQuotient_true (tie : Tie) (numerator denominator : Nat) :
    ofQuotient tie true numerator denominator
      = (ofQuotient tie false numerator denominator).neg := by
  unfold ofQuotient
  dsimp only
  split <;> rfl

/-- A rounded quotient has the given sign. -/
theorem isNegative_ofQuotient (tie : Tie) (negative : Bool) (numerator denominator : Nat) :
    (ofQuotient tie negative numerator denominator).isNegative = negative := by
  unfold ofQuotient
  dsimp only
  split <;> rfl

end Double

end PlusMinus
