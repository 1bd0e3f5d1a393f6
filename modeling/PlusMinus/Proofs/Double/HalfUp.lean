import PlusMinus.Proofs.Double.Whole

/-! The whole number nearest to a double, a half going up: it is the floor of the double raised by
one half, and it is a double itself, so that nothing is rounded. Order, repetition and distance
follow from that. -/

namespace PlusMinus.Double

section Beyond

variable (negative : Bool) {quanta : Nat} (fits : Fits quanta)

/-- What a double has beyond a whole number is less than one half only if it is no larger than the
double itself. -/
theorem beyond_le {below : Int} {r : Nat} (less : r < twoTo 1073)
    (parts : (finite negative quanta fits).signedQuanta = below * one + r) : r ≤ quanta := by
  have unit := one_eq
  rw [signedQuanta_finite] at parts
  generalize one = whole at unit parts
  generalize twoTo 1073 = half at unit less
  rcases Int.lt_or_le below 0 with under | above
  · -- Below zero the double is more than one half away from the whole number above it.
    have next : below * whole ≤ -1 * whole := Int.mul_le_mul_of_nonneg_right (by omega) (by omega)
    cases negative <;> simp only [if_true, Bool.false_eq_true, if_false] at parts <;> omega
  · have next : 0 ≤ below * whole := Int.mul_nonneg above (by omega)
    cases negative <;> simp only [if_true, Bool.false_eq_true, if_false] at parts <;> omega

/-- What a double has beyond a whole number is a magnitude when it is less than one half. -/
theorem beyond_mod_spacing {below : Int} {r : Nat} (less : r < twoTo 1073)
    (parts : (finite negative quanta fits).signedQuanta = below * one + r) : r % spacing r = 0 := by
  have smaller := beyond_le negative fits less parts
  -- The steps there are no larger than those of the double, nor than one.
  have steps : spacing r ∣ quanta :=
    (spacing_dvd (log2_le smaller)).trans (Nat.dvd_of_mod_eq_zero fits.2)
  have whole : spacing r ∣ one := by
    refine twoTo_dvd ?_
    have bits := log2_lt_of_lt_twoTo (by decide) less
    omega
  have double : (spacing r : Int) ∣ (finite negative quanta fits).signedQuanta := by
    rw [signedQuanta_finite]
    split
    · exact Int.dvd_neg.2 (Int.natCast_dvd_natCast.2 steps)
    · exact Int.natCast_dvd_natCast.2 steps
  have rest : (spacing r : Int) ∣ below * one + r := parts ▸ double
  refine Nat.mod_eq_zero_of_dvd (Int.natCast_dvd_natCast.1 ?_)
  exact (Int.dvd_add_right (Int.dvd_mul_of_dvd_right (Int.natCast_dvd_natCast.2 whole))).1 rest

/-- What a double has beyond a whole number is rounded once when that is taken away. -/
theorem sub_ofInt_alike {below : Int} {r : Nat} (few : below.natAbs ≤ twoTo 53)
    (parts : (finite negative quanta fits).signedQuanta = below * one + r) :
    (finite negative quanta fits - ofInt below).Alike (rounded r 1) := by
  obtain ⟨fits', whole⟩ := ofInt_eq few
  -- Taking away is adding the opposite, and the sum of the quanta is what is left.
  have opposite : (finite (!decide (below < 0)) _ fits').signedQuanta = -(below * one) := by
    rw [← signedQuanta_ofInt few, whole]
    exact signedQuanta_neg (finite (decide (below < 0)) _ fits')
  have alike := add_alike_rounded fits fits' (s := negative) (t := !decide (below < 0))
  rw [opposite, parts, show below * (one : Int) + r + -(below * one) = r by omega] at alike
  rw [whole]
  exact alike

/-- Rounding a number of quanta does not lead across one half, if it leaves what is less. -/
theorem half_le_iff {x : Double} {r : Nat} (alike : x.Alike (rounded r 1))
    (exact : r < twoTo 1073 → r % spacing r = 0) : le half x = true ↔ twoTo 1073 ≤ r := by
  have place : (rounded (r : Int) 1).position? = some (reach .toEven r 1 : Int) := by
    rw [rounded, position?_ofQuotient, if_neg (by simp), Int.natAbs_natCast]
  have middle : half.position? = some ((twoTo 1073 : Nat) : Int) := by decide +kernel
  have range : twoTo 1073 < limit := twoTo_lt (by decide)
  have step := mod_spacing_twoTo 1073
  unfold le
  rw [alike.position?, place, middle]
  generalize twoTo 1073 = middle at range step exact
  simp only [decide_eq_true_eq, Int.ofNat_le, reach]
  -- One half is a magnitude, so that rounding keeps what is not below it there.
  constructor
  · intro most
    by_contra less
    have kept : roundQuanta .toEven r 1 ≤ r :=
      roundQuanta_le .toEven Nat.one_pos (exact (Nat.not_le.1 less))
        (Nat.le_of_eq (Nat.mul_one r).symm)
    exact less (Nat.le_trans most (Nat.le_trans (Nat.min_le_left _ _) kept))
  · intro least
    have reached : middle ≤ roundQuanta .toEven r 1 :=
      le_roundQuanta .toEven Nat.one_pos step (by rwa [Nat.mul_one])
    exact Nat.le_min.2 ⟨reached, Nat.le_of_lt range⟩

/-- A double is the whole number below it and less than one beyond that. -/
theorem exists_beyond : ∃ r : Nat, r < one
    ∧ (finite negative quanta fits).signedQuanta
      = (finite negative quanta fits).floor * one + r := by
  have unit := unit_pos
  unfold floor
  generalize one = whole at unit
  -- It is the remainder of the quanta by those of one.
  have least := Int.emod_nonneg (finite negative quanta fits).signedQuanta
    (by omega : (whole : Int) ≠ 0)
  have most := Int.emod_lt_of_pos (finite negative quanta fits).signedQuanta
    (by omega : (0 : Int) < whole)
  have parts := Int.mul_ediv_add_emod (finite negative quanta fits).signedQuanta whole
  refine ⟨((finite negative quanta fits).signedQuanta % whole).toNat, by omega, ?_⟩
  rw [Int.mul_comm, Int.toNat_of_nonneg least]
  exact parts.symm

/-- From 2^53 on nothing is beyond the whole number below. -/
theorem signedQuanta_of_large (large : twoTo 53 * one ≤ quanta) :
    (finite negative quanta fits).signedQuanta = (finite negative quanta fits).floor * one := by
  -- The quanta there are whole numbers of the quanta of one, on either side of zero.
  have whole : (one : Int) ∣ quanta := Int.natCast_dvd_natCast.2 (one_dvd_of_large fits large)
  have divides : (one : Int) ∣ (finite negative quanta fits).signedQuanta := by
    rw [signedQuanta_finite]
    split
    · exact Int.dvd_neg.2 whole
    · exact whole
  exact (Int.ediv_mul_cancel divides).symm

/-- What a double has beyond the whole number below it is compared with one half as it is, although
the difference is rounded. -/
theorem half_le_sub_floor_iff {r : Nat}
    (parts : (finite negative quanta fits).signedQuanta
      = (finite negative quanta fits).floor * one + r) :
    le half (finite negative quanta fits - ofInt (finite negative quanta fits).floor) = true
      ↔ twoTo 1073 ≤ r := by
  rcases Nat.le_total quanta (twoTo 53 * one) with small | large
  · have few := natAbs_floor_le negative fits small
    exact half_le_iff (sub_ofInt_alike negative fits few parts)
      fun less => beyond_mod_spacing negative fits less parts
  · -- A large double is whole, and nothing is left of it.
    have none : r = 0 := by
      rw [signedQuanta_of_large negative fits large] at parts
      omega
    have positive := twoTo_pos 1073
    rw [ofInt_floor_of_large negative fits large, le_half_sub_self, none]
    exact iff_of_false Bool.false_ne_true (Nat.not_le.2 positive)

end Beyond

/-- The nearest whole number, a half going up, is the one below the double raised by one half. -/
theorem roundHalfUp_eq {x : Double} (isFinite : x.isFinite = true) :
    x.roundHalfUp = ofInt ⌊x.toRat + 1 / 2⌋ := by
  obtain ⟨negative, quanta, fits, rfl⟩ := exists_of_isFinite isFinite
  obtain ⟨r, less, parts⟩ := exists_beyond negative fits
  have value : (finite negative quanta fits).toRat
      = (finite negative quanta fits).floor + (r : Rat) / one := by
    rw [toRat_eq, parts]
    push_cast
    rw [add_div, mul_div_cancel_right₀ _ unit_ne]
  -- The comparison with one half is decided on what is beyond the whole number below.
  have compared :
      le half (finite negative quanta fits - ofInt (finite negative quanta fits).floor) = true
      ↔ (1 / 2 : Rat) ≤ r / one := by
    rw [half_le_sub_floor_iff negative fits parts, le_div_iff₀ (Nat.cast_pos.2 unit_pos), one_eq]
    push_cast
    rw [one_div, inv_mul_cancel_left₀ two_ne_zero, Nat.cast_le]
  have above : (0 : Rat) ≤ r / one := div_nonneg (Nat.cast_nonneg _) (Nat.cast_nonneg _)
  have below : (r : Rat) / one < 1 := by
    rw [div_lt_one (by exact_mod_cast unit_pos)]
    exact_mod_cast less
  unfold roundHalfUp
  rw [if_pos isFinite, value]
  dsimp only
  refine congrArg ofInt (Int.floor_eq_iff.2 ?_).symm
  split
  · rename_i half
    have := compared.1 half
    push_cast
    constructor <;> linarith
  · rename_i half
    have := not_le.1 (fun least => half (compared.2 least))
    constructor <;> linarith

/-- A half goes up below zero too. -/
example : (ofText "-2.5").roundHalfUp = ofInt (-2) := by decide +kernel

/-- A double at most one half below a whole number, or less than one half above it, is rounded to
that. -/
theorem roundHalfUp_of_near {x : Double} (isFinite : x.isFinite = true) {n : Int}
    (low : (n : Rat) - 1 / 2 ≤ x.toRat) (high : x.toRat < n + 1 / 2) : x.roundHalfUp = ofInt n := by
  have whole : ⌊x.toRat + 1 / 2⌋ = n := Int.floor_eq_iff.2 ⟨by linarith, by linarith⟩
  rw [roundHalfUp_eq isFinite, whole]

/-- A small whole number is nearest to itself. -/
theorem roundHalfUp_ofInt {n : Int} (few : n.natAbs ≤ twoTo 53) :
    (ofInt n).roundHalfUp = ofInt n := by
  have value := toRat_ofInt few
  exact roundHalfUp_of_near (isFinite_ofInt few) (by linarith) (by linarith)

/-- The whole number nearest to a number within a bound that is whole is within that bound too. -/
theorem natAbs_floor_add_half_le {z : Rat} {bits : Nat} (bound : |z| ≤ twoTo bits) :
    ⌊z + 1 / 2⌋.natAbs ≤ twoTo bits := by
  obtain ⟨low, high⟩ := abs_le.1 bound
  have below := Int.floor_le (z + 1 / 2)
  have above := Int.lt_floor_add_one (z + 1 / 2)
  generalize ⌊z + 1 / 2⌋ = n at below above
  -- It is less than one beyond the bound, and so not beyond it.
  have most : (n : Rat) < (twoTo bits : Int) + 1 := by push_cast; linarith
  have least : (-(twoTo bits : Int) : Rat) - 1 < n := by push_cast; linarith
  have most' : n < (twoTo bits : Int) + 1 := by exact_mod_cast most
  have least' : -(twoTo bits : Int) - 1 < n := by exact_mod_cast least
  omega

section Exact

variable {x y : Double}

/-- Below 2^53 the nearest whole number has few bits as well. -/
theorem natAbs_nearest_le (isFinite : x.isFinite = true) (small : x.magnitude ≤ twoTo 53 * one) :
    ⌊x.toRat + 1 / 2⌋.natAbs ≤ twoTo 53 := by
  refine natAbs_floor_add_half_le ?_
  rw [abs_toRat isFinite, div_le_iff₀ (Nat.cast_pos.2 unit_pos)]
  exact_mod_cast small

/-- From 2^53 on every double is whole and nearest to itself. -/
theorem nearest_of_large (isFinite : x.isFinite = true) (large : twoTo 53 * one ≤ x.magnitude) :
    x.roundHalfUp = x ∧ (⌊x.toRat + 1 / 2⌋ : Rat) = x.toRat := by
  obtain ⟨negative, quanta, fits, rfl⟩ := exists_of_isFinite isFinite
  -- Beyond 53 bits there is no room for a fraction.
  have whole : (finite negative quanta fits).toRat = (finite negative quanta fits).floor := by
    rw [toRat_eq, signedQuanta_of_large negative fits large]
    push_cast
    exact mul_div_cancel_right₀ _ unit_ne
  have same : ⌊(finite negative quanta fits).toRat + 1 / 2⌋ = (finite negative quanta fits).floor :=
    Int.floor_eq_iff.2 ⟨by linarith, by linarith⟩
  exact ⟨by rw [roundHalfUp_eq isFinite, same, ofInt_floor_of_large negative fits large],
    by rw [same, whole]⟩

/-- The nearest whole number is a small one, or the double itself. -/
theorem roundHalfUp_cases (isFinite : x.isFinite = true) :
    (∃ n : Int, n.natAbs ≤ twoTo 53 ∧ x.roundHalfUp = ofInt n)
      ∨ x.roundHalfUp = x ∧ twoTo 53 * one ≤ x.magnitude := by
  rcases Nat.le_total x.magnitude (twoTo 53 * one) with small | large
  · exact .inl ⟨_, natAbs_nearest_le isFinite small, roundHalfUp_eq isFinite⟩
  · exact .inr ⟨(nearest_of_large isFinite large).1, large⟩

/-- The nearest whole number is a double, so that it is not rounded. -/
theorem toRat_roundHalfUp (isFinite : x.isFinite = true) :
    x.roundHalfUp.toRat = ⌊x.toRat + 1 / 2⌋ := by
  rcases Nat.le_total x.magnitude (twoTo 53 * one) with small | large
  · rw [roundHalfUp_eq isFinite, toRat_ofInt (natAbs_nearest_le isFinite small)]
  · obtain ⟨same, whole⟩ := nearest_of_large isFinite large
    rw [same, whole]

/-- A finite number is at most one half away from the whole number nearest to it, and not at all
from zero. -/
theorem abs_roundHalfUp_sub_le (isFinite : x.isFinite = true) :
    |x.roundHalfUp.toRat - x.toRat| ≤ 1 / 2 ∧ (x.toRat = 0 → x.roundHalfUp.toRat = 0) := by
  rw [toRat_roundHalfUp isFinite]
  have below := Int.floor_le (x.toRat + 1 / 2)
  have above := Int.lt_floor_add_one (x.toRat + 1 / 2)
  refine ⟨abs_le.2 ⟨by linarith, by linarith⟩, fun zero => ?_⟩
  rw [zero]
  norm_num

/-- What is not finite is not made whole. -/
theorem roundHalfUp_of_not_finite {x : Double} (outside : x.isFinite = false) :
    x.roundHalfUp = x := by
  unfold roundHalfUp
  rw [outside, if_neg Bool.false_ne_true]

/-- A whole number is not rounded any further. -/
theorem roundHalfUp_again (x : Double) : x.roundHalfUp.roundHalfUp = x.roundHalfUp := by
  cases isFinite : x.isFinite with
  | true =>
    -- The number of the result is whole, and so it is nearest to itself.
    have value := toRat_roundHalfUp isFinite
    rw [roundHalfUp_of_near (isFinite_roundHalfUp isFinite) (n := ⌊x.toRat + 1 / 2⌋) (by linarith)
      (by linarith), roundHalfUp_eq isFinite]
  | false => rw [roundHalfUp_of_not_finite isFinite, roundHalfUp_of_not_finite isFinite]

/-- Making numbers whole keeps their order. -/
theorem NotAbove.roundHalfUp (notAbove : x.NotAbove y) : x.roundHalfUp.NotAbove y.roundHalfUp := by
  refine of_finite Double.roundHalfUp rfl (fun _ => rfl) notAbove fun left right => ?_
  -- The whole number below a number raised by one half grows with the number.
  refine of_toRat_le (isFinite_roundHalfUp left) (isFinite_roundHalfUp right) ?_
  rw [toRat_roundHalfUp left, toRat_roundHalfUp right]
  exact Int.cast_le.2 (Int.floor_le_floor (add_le_add_left (notAbove.toRat_le left right) _))

end Exact

/-- A finite double is made whole without a refusal: the outcome is the floor of the double raised
by one half, and stands for just that whole number. Hence doubles that are in order stay so, a whole
number is kept, and no double is moved by more than one half. -/
theorem roundHalfUp_exact {x : Double} (isFinite : x.isFinite = true) :
    x.checkedRoundHalfUp = .ok x.roundHalfUp ∧ x.roundHalfUp = ofInt ⌊x.toRat + 1 / 2⌋
      ∧ x.roundHalfUp.isFinite = true ∧ x.roundHalfUp.toRat = ⌊x.toRat + 1 / 2⌋
      ∧ (∀ y : Double, y.isFinite = true → x.le y = true → x.roundHalfUp.le y.roundHalfUp = true)
      ∧ x.roundHalfUp.roundHalfUp = x.roundHalfUp
      ∧ |x.roundHalfUp.toRat - x.toRat| ≤ 1 / 2 := by
  have whole := isFinite_roundHalfUp isFinite
  refine ⟨checkedRoundHalfUp_eq_ok x, roundHalfUp_eq isFinite, whole, toRat_roundHalfUp isFinite,
    fun y isFinite' le => ?_, roundHalfUp_again x, (abs_roundHalfUp_sub_le isFinite).1⟩
  exact (NotAbove.of_le le).roundHalfUp.le (isNaN_of_isFinite whole)
    (isNaN_of_isFinite (isFinite_roundHalfUp isFinite'))

/-- The largest double below one half goes to zero, although adding one half to it would be rounded
to one; one half itself goes to one, which is not below. -/
theorem roundHalfUp_exact_below_half :
    (ofText "0.49999999999999994").checkedRoundHalfUp = .ok zero
      ∧ ofText "0.49999999999999994" + half = ofInt 1
      ∧ zero.toRat = ⌊(ofText "0.49999999999999994").toRat + 1 / 2⌋
      ∧ zero.le half.roundHalfUp = true ∧ zero.roundHalfUp = zero
      ∧ |zero.toRat - (ofText "0.49999999999999994").toRat| ≤ 1 / 2 := by
  obtain ⟨passed, _, _, exact, order, again, near⟩ :=
    roundHalfUp_exact (x := ofText "0.49999999999999994") (by decide +kernel)
  have whole : (ofText "0.49999999999999994").roundHalfUp = zero := by decide +kernel
  rw [whole] at passed exact again near
  -- The order is that with one half itself.
  have next := order half (by decide +kernel) (by decide +kernel)
  rw [whole] at next
  exact ⟨passed, by decide +kernel, exact, next, again, near⟩

end PlusMinus.Double
