import PlusMinus.Proofs.Checked.Double
import PlusMinus.Proofs.Decimal.Order

/-! Where the leading digit of the shortest decimal of a double stands. -/

namespace PlusMinus

open Double

namespace Decimal

/-- A power of ten as a decimal. -/
def power (exponent : Int) : Decimal := ⟨1, exponent⟩

/-- The value of a power of ten. -/
theorem toRat_power (exponent : Int) : (power exponent).toRat = 10 ^ exponent := by
  rw [toRat_eq, power, Nat.cast_one, one_mul]

variable {d : Decimal}

/-- A decimal lies between the power of ten of its leading digit and the next one. -/
theorem toRat_bounds (nonzero : d.coefficient ≠ 0) :
    (10 : Rat) ^ (d.leading - 1) ≤ d.toRat ∧ d.toRat < 10 ^ d.leading := by
  -- The digits of the coefficient say between which powers of ten it lies, and the exponent shifts
  -- them.
  obtain ⟨least, most⟩ := digitCount_bounds (Nat.pos_of_ne_zero nonzero)
  have some : 0 < digitCount d.coefficient := Nat.length_toDigits_pos
  have ten : (10 : Rat) ≠ 0 := by norm_num
  have unit : (0 : Rat) < 10 ^ d.exponent := zpow_pos (by norm_num) _
  rw [toRat_eq]
  constructor
  · calc (10 : Rat) ^ (d.leading - 1) = tenTo (digitCount d.coefficient - 1) * 10 ^ d.exponent := by
          rw [cast_tenTo, ← zpow_add₀ ten]
          congr 1
          unfold leading
          omega
      _ ≤ d.coefficient * 10 ^ d.exponent :=
          mul_le_mul_of_nonneg_right (by exact_mod_cast least) unit.le
  · calc (d.coefficient : Rat) * 10 ^ d.exponent
      < tenTo (digitCount d.coefficient) * 10 ^ d.exponent :=
          mul_lt_mul_of_pos_right (by exact_mod_cast most) unit
      _ = 10 ^ d.leading := by
          rw [cast_tenTo, ← zpow_add₀ ten]
          congr 1
          unfold leading
          omega

/-- A decimal with one digit before the point denotes a number from one on. -/
theorem exists_toDouble_of_leading {d : Decimal} (nonzero : d.coefficient ≠ 0)
    (unit : d.leading = 1) :
    ∃ quanta fits, d.toDouble false = .finite false quanta fits ∧ Double.one ≤ quanta := by
  have digits : 0 < digitCount d.coefficient := Nat.length_toDigits_pos
  have low := tenTo_le_of_digitCount (Nat.pos_of_ne_zero nonzero)
  have high := lt_of_digitCount d.coefficient
  have scale := tenTo_pos (digitCount d.coefficient - 1)
  rw [toDouble_of_inside false nonzero (by omega) (by omega)]
  -- With one digit before the point, all other digits are behind it.
  unfold quanta
  unfold leading at unit
  rw [show d.exponent.toNat = 0 by omega,
    show (-d.exponent).toNat = digitCount d.coefficient - 1 by omega,
    show tenTo 0 = 1 from rfl, Nat.mul_one]
  generalize tenTo (digitCount d.coefficient - 1) = power at low high scale
  -- The value lies between one and ten, and so between the powers of two around them.
  have above : d.coefficient * Double.one ≤ twoTo 4 * Double.one * power := by
    rw [show twoTo 4 = 16 from rfl, Nat.mul_right_comm]
    exact Nat.mul_le_mul_right _ (by omega)
  have below : Double.one * power ≤ d.coefficient * Double.one := by
    rw [Nat.mul_comm]
    exact Nat.mul_le_mul_right _ low
  have least : Double.Fits (twoTo 0 * Double.one) := Double.fits_twoTo (by decide)
  rw [show twoTo 0 = 1 from rfl, Nat.one_mul] at least
  obtain ⟨quanta, fits, rounded, bound, _⟩ :=
    Double.exists_ofQuotient .toEven false scale (by decide) least.2 below above
  exact ⟨quanta, fits, rounded, bound⟩

end Decimal

namespace Double

variable {x y : Double}

/-- A decimal that denotes a magnitude reaches as far from zero as that. -/
theorem reach_eq_magnitude {d : Decimal} (finite : x.isFinite = true)
    (same : d.toDouble false = x.abs) : d.reach = x.magnitude := by
  -- The reach is the place of the double on the line of magnitudes.
  have place := d.position?_toDouble false
  rw [same] at place
  cases x with
  | nan => cases finite
  | infinite negative => cases finite
  | finite negative quanta fits =>
    simpa [position?, signedQuanta, Double.abs, magnitude] using place.symm

/-- The shortest decimal of a positive number has a coefficient, and its leading digit is in
range. -/
theorem shortest_inside {u : Double} (finite : u.isFinite = true) (nonzero : u.isZero = false) :
    u.shortest.coefficient ≠ 0 ∧ -330 ≤ u.shortest.leading ∧ u.shortest.leading ≤ 310 := by
  obtain ⟨negative, quanta, fits, rfl⟩ := exists_of_isFinite finite
  -- The shortest decimal denotes the number that it is taken from.
  have same := toDouble_shortest (x := .finite negative quanta fits) rfl
  have some : quanta ≠ 0 := beq_eq_false_iff_ne.1 nonzero
  -- Otherwise the decimal denotes zero or an infinity.
  have coefficient : (shortest (.finite negative quanta fits)).coefficient ≠ 0 := by
    intro zero
    rw [Decimal.toDouble_of_zero false zero] at same
    exact some (Double.finite.inj same).2.symm
  refine ⟨coefficient, Decidable.byContradiction fun outside => ?_⟩
  rw [Decimal.toDouble_of_outside false coefficient outside] at same
  split at same
  · cases same
  · exact some (Double.finite.inj same).2.symm

/-- A zero has no quanta. -/
theorem magnitude_of_isZero (zero : x.isZero = true) : x.magnitude = 0 := by
  obtain ⟨_, rfl⟩ := exists_of_isZero zero
  rfl

/-- Finite doubles of the same magnitude are the same without their signs. -/
theorem abs_congr (left : x.isFinite = true) (right : y.isFinite = true)
    (same : x.magnitude = y.magnitude) :
    x.abs = y.abs := by
  obtain ⟨_, quanta, _, rfl⟩ := exists_of_isFinite left
  obtain ⟨_, quanta', _, rfl⟩ := exists_of_isFinite right
  change quanta = quanta' at same
  subst same
  rfl

/-- The shortest decimal depends on the magnitude alone. -/
theorem shortest_congr (left : x.isFinite = true) (right : y.isFinite = true)
    (same : x.magnitude = y.magnitude) : x.shortest = y.shortest := by
  have unsigned := abs_congr left right same
  -- Neither the digits that are tried nor what they are compared with has a sign.
  unfold shortest neighbour? leadingExponent exactDecimal
  rw [same, unsigned]

/-- A magnitude that is shown with its leading digit below a place is at most the power of ten
there. -/
theorem magnitude_le_reach_power (finite : x.isFinite = true) {place : Int}
    (below : x.shortest.leading ≤ place) : x.magnitude ≤ (Decimal.power place).reach := by
  cases nonzero : x.isZero with
  | true => exact (magnitude_of_isZero nonzero).symm ▸ Nat.zero_le _
  | false =>
    -- The shortest decimal denotes the number, so that the two decimals can be compared instead.
    rw [← reach_eq_magnitude finite (toDouble_shortest finite)]
    refine Decimal.reach_mono ?_
    rw [Decimal.toRat_power]
    calc x.shortest.toRat ≤ 10 ^ x.shortest.leading :=
        (Decimal.toRat_bounds (shortest_inside finite nonzero).1).2.le
      _ ≤ 10 ^ place := zpow_le_zpow_right₀ (by norm_num) below

/-- A magnitude that is shown with its leading digit above a place is at least the power of ten
there. -/
theorem reach_power_le_magnitude (finite : x.isFinite = true)
    (nonzero : x.isZero = false) {place : Int}
    (above : place < x.shortest.leading) : (Decimal.power place).reach ≤ x.magnitude := by
  -- Here as well the decimals are compared.
  rw [← reach_eq_magnitude finite (toDouble_shortest finite)]
  refine Decimal.reach_mono ?_
  rw [Decimal.toRat_power]
  calc (10 : Rat) ^ place ≤ 10 ^ (x.shortest.leading - 1) :=
        zpow_le_zpow_right₀ (by norm_num) (by omega)
    _ ≤ x.shortest.toRat := (Decimal.toRat_bounds (shortest_inside finite nonzero).1).1

/-- A larger magnitude is not shown with its leading digit at a lower place. -/
theorem leading_shortest_mono (left : x.isFinite = true) (right : y.isFinite = true)
    (nonzero : x.isZero = false) (le : x.magnitude ≤ y.magnitude) :
    x.shortest.leading ≤ y.shortest.leading := by
  by_contra lower
  -- Both would be the power of ten between them, which is shown in one way only.
  have below := magnitude_le_reach_power right (Int.le_refl y.shortest.leading)
  have above := reach_power_le_magnitude left nonzero (Int.not_le.1 lower)
  exact lower (shortest_congr left right (by omega) ▸ Int.le_refl _)

/-- Where the power of ten at a place is shown with its leading digit above that place, so are
exactly the magnitudes from there on. -/
theorem lt_leading_iff (finite : x.isFinite = true) (nonzero : x.isZero = false) (place : Int)
    (bounded : ((Decimal.power place).toDouble false).isFinite = true)
    (shown : place < ((Decimal.power place).toDouble false).shortest.leading) :
    place < x.shortest.leading
      ↔ ((Decimal.power place).toDouble false).magnitude ≤ x.magnitude := by
  have unsigned : ((Decimal.power place).toDouble false).abs
      = (Decimal.power place).toDouble false := by
    have sign := Decimal.isNegative_toDouble false (Decimal.power place)
    cases power : (Decimal.power place).toDouble false with
    | nan => rfl
    | infinite negative => rw [power] at bounded; cases bounded
    | finite negative quanta fits => rw [power] at sign; cases sign; rfl
  have reached := reach_eq_magnitude bounded unsigned.symm
  constructor
  · intro above
    rw [← reached]
    exact reach_power_le_magnitude finite nonzero above
  · intro le
    rw [← reached] at le
    by_contra below
    -- At the power of ten itself the magnitude is shown like that.
    have most := magnitude_le_reach_power finite (Int.not_lt.1 below)
    rw [shortest_congr finite bounded (by omega)] at below
    exact below shown

end Double

end PlusMinus
