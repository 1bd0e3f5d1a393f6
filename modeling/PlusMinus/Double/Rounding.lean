import PlusMinus.Double.Basic

/-! Rounding a quotient of whole numbers, first to a whole number and then to a double. -/

namespace PlusMinus

/-- Where a value halfway between two whole numbers goes. -/
inductive Tie where
  | toEven
  | upward
deriving DecidableEq

/-- The whole number nearest to a quotient. -/
def roundDiv (tie : Tie) (numerator denominator : Nat) : Nat :=
  let below := numerator / denominator
  let twice := 2 * (numerator % denominator)
  if twice < denominator then below
  else if denominator < twice then below + 1
  else match tie with
    | .toEven => below + below % 2
    | .upward => below + 1

/-- Rounding never goes below the floor. -/
theorem le_roundDiv (tie : Tie) (numerator denominator : Nat) :
    numerator / denominator ≤ roundDiv tie numerator denominator := by
  unfold roundDiv
  dsimp only
  split
  · exact Nat.le_refl _
  split
  · exact Nat.le_succ _
  cases tie
  · exact Nat.le_add_right _ _
  · exact Nat.le_succ _

/-- Rounding goes at most one above the floor. -/
theorem roundDiv_le (tie : Tie) (numerator denominator : Nat) :
    roundDiv tie numerator denominator ≤ numerator / denominator + 1 := by
  have parity := Nat.mod_lt (numerator / denominator) (by decide : 2 > 0)
  unfold roundDiv
  dsimp only
  -- Below one half the floor stays; at one half it is the tie that decides.
  split
  · exact Nat.le_succ _
  split
  · exact Nat.le_refl _
  cases tie
  · exact Nat.add_le_add_left (by omega) _
  · exact Nat.le_refl _

namespace Double

/-- The multiple of the local spacing nearest to a quotient of quanta. -/
def roundQuanta (tie : Tie) (numerator denominator : Nat) : Nat :=
  let step := spacing (numerator / denominator)
  roundDiv tie numerator (denominator * step) * step

/-- A magnitude has fewer than 2^53 steps. -/
theorem lt_mul_spacing (m : Nat) : m < twoTo 53 * spacing m := by
  rw [spacing, ← twoTo_add]
  exact Nat.lt_of_lt_of_le Nat.lt_log2_self (Nat.pow_le_pow_right (by decide) (by omega))

/-- Moving a significand by more places gives a magnitude of 53 bits again. -/
theorem mod_spacing_mul {significand : Nat} (few : significand ≤ twoTo 53) (shift : Nat) :
    significand * twoTo shift % spacing (significand * twoTo shift) = 0 := by
  refine Nat.mod_eq_zero_of_dvd ?_
  rcases Nat.lt_or_eq_of_le few with inside | rfl
  · -- Below 2^53 the steps are at most as large as the place.
    by_cases zero : significand * twoTo shift = 0
    · rw [zero]
      exact Nat.dvd_zero _
    have range : significand * twoTo shift < twoTo (53 + shift) := by
      rw [twoTo_add]
      exact Nat.mul_lt_mul_of_pos_right inside (twoTo_pos shift)
    have log : (significand * twoTo shift).log2 < 53 + shift := (Nat.log2_lt zero).2 range
    exact Nat.dvd_trans (twoTo_dvd (by omega)) (Nat.dvd_mul_left _ _)
  · -- At 2^53 the steps are twice as large, and divide the power of two that is reached.
    have log : (twoTo (53 + shift)).log2 = 53 + shift := Nat.log2_two_pow
    rw [← twoTo_add, spacing, log]
    exact twoTo_dvd (by omega)

/-- A power of two is a whole number of the steps there. -/
theorem mod_spacing_twoTo (exponent : Nat) : twoTo exponent % spacing (twoTo exponent) = 0 := by
  have single := @mod_spacing_mul 1 (twoTo_pos 53) exponent
  rwa [Nat.one_mul] at single

/-- A rounded magnitude has at most 53 significant bits. -/
theorem roundQuanta_mod_spacing (tie : Tie) (numerator denominator : Nat) :
    roundQuanta tie numerator denominator % spacing (roundQuanta tie numerator denominator)
      = 0 := by
  -- Rounding adds at most one to the steps below the quotient.
  have above := roundDiv_le tie numerator (denominator * spacing (numerator / denominator))
  rw [← Nat.div_div_eq_div_mul] at above
  have below := (Nat.div_lt_iff_lt_mul (twoTo_pos _)).2 (lt_mul_spacing (numerator / denominator))
  exact mod_spacing_mul (Nat.le_trans above below) _

end Double

end PlusMinus
