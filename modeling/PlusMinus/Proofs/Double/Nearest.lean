import PlusMinus.Proofs.Double.Whole

/-! How near rounding stays: no whole number is nearer to a quotient than the one that it is rounded
to, no double is nearer to a number than its nearest one, and in the normal range that is off by at
most one part in 2^53. -/

namespace PlusMinus

section Quotient

variable {n d : Nat}

/-- A quotient is rounded to one of the whole numbers around it, and at most half of the divisor is
lost. -/
theorem roundDiv_cases (tie : Tie) (n d : Nat) :
    (roundDiv tie n d = n / d ∧ 2 * (n % d) ≤ d)
      ∨ (roundDiv tie n d = n / d + 1 ∧ d ≤ 2 * (n % d)) := by
  unfold roundDiv
  dsimp only
  -- Only at a tie does it matter whether the quotient is even.
  have parity := Nat.mod_two_eq_zero_or_one (n / d)
  cases tie <;> dsimp only <;> split <;> (try split) <;> omega

/-- A rounded quotient, times the divisor, is at most half of the divisor away from the dividend. -/
theorem two_mul_roundDiv_sub_le (tie : Tie) (positive : 0 < d) :
    2 * |((roundDiv tie n d * d : Nat) : Int) - n| ≤ d := by
  have parts := Nat.div_add_mod' n d
  have less := Nat.mod_lt n positive
  have next : (n / d + 1) * d = n / d * d + d := Nat.succ_mul _ _
  -- Rounded down the multiple is below the dividend, and rounded up above it.
  rcases roundDiv_cases tie n d with ⟨same, half⟩ | ⟨same, half⟩
  · rw [same, abs_of_nonpos (by omega)]
    omega
  · rw [same, next, abs_of_nonneg (by omega)]
    omega

/-- No other multiple of the divisor is nearer to the dividend than the one of the rounded
quotient. -/
theorem roundDiv_nearest (tie : Tie) (positive : 0 < d) (k : Nat) :
    |((roundDiv tie n d * d : Nat) : Int) - n| ≤ |((k * d : Nat) : Int) - n| := by
  have parts := Nat.div_add_mod' n d
  have less := Nat.mod_lt n positive
  have next : (n / d + 1) * d = n / d * d + d := Nat.succ_mul _ _
  -- The multiple lies on one side of the dividend, as do the two that rounding chooses from.
  have side : k * d ≤ n / d * d ∨ (n / d + 1) * d ≤ k * d := by
    rcases Nat.lt_or_ge (n / d) k with above | below
    · exact .inr (Nat.mul_le_mul_right d above)
    · exact .inl (Nat.mul_le_mul_right d below)
  generalize k * d = multiple at side
  rcases roundDiv_cases tie n d with ⟨same, half⟩ | ⟨same, half⟩
  · rw [same, abs_of_nonpos (by omega), le_abs]
    omega
  · rw [same, next, abs_of_nonneg (by omega), le_abs]
    omega

/-- A quotient with ties going up is rounded to the whole number below it raised by one half. -/
theorem roundDiv_upward_eq (positive : 0 < d) :
    (roundDiv .upward n d : Int) = ⌊(n : Rat) / d + 1 / 2⌋ := by
  have parts := Nat.div_add_mod' n d
  have less := Nat.mod_lt n positive
  -- Half of the divisor is added before the quotient is cut off.
  have bounds : 2 * (roundDiv .upward n d * d) ≤ 2 * n + d
      ∧ 2 * n + d < 2 * (roundDiv .upward n d * d) + 2 * d := by
    unfold roundDiv
    dsimp only
    have next : (n / d + 1) * d = n / d * d + d := Nat.succ_mul _ _
    split
    · omega
    · split <;> omega
  obtain ⟨low, high⟩ := bounds
  -- That is what the floor says in whole numbers.
  have divisor : (0 : Rat) < d := Nat.cast_pos.2 positive
  symm
  rw [Int.floor_eq_iff, div_add_div _ _ divisor.ne' two_ne_zero, le_div_iff₀ (by linarith),
    div_lt_iff₀ (by linarith)]
  have lower : (2 * (roundDiv .upward n d * d) : Rat) ≤ 2 * n + d := by exact_mod_cast low
  have upper : (2 * n + d : Rat) < 2 * (roundDiv .upward n d * d) + 2 * d := by exact_mod_cast high
  push_cast
  constructor <;> linarith

end Quotient

namespace Double

section Quanta

variable {n d : Nat}

/-- A rounded magnitude, times the divisor, is a rounded quotient times the steps at the
quotient. -/
theorem roundQuanta_mul (tie : Tie) (n d : Nat) :
    roundQuanta tie n d * d = roundDiv tie n (d * spacing (n / d)) * (d * spacing (n / d)) := by
  unfold roundQuanta
  dsimp only
  ac_rfl

/-- No magnitude is nearer to a quotient than the rounded one. -/
theorem roundQuanta_nearest (tie : Tie) (positive : 0 < d) {b : Nat} (step : b % spacing b = 0) :
    |((roundQuanta tie n d * d : Nat) : Int) - n| ≤ |((b * d : Nat) : Int) - n| := by
  have parts : 0 < d * spacing (n / d) := Nat.mul_pos positive (twoTo_pos _)
  -- Magnitudes that are whole numbers of the steps at the quotient are further away.
  have whole : ∀ m, spacing (n / d) ∣ m →
      |((roundQuanta tie n d * d : Nat) : Int) - n| ≤ |((m * d : Nat) : Int) - n| := by
    rintro m ⟨k, rfl⟩
    have nearer := roundDiv_nearest (n := n) tie parts k
    have multiple : spacing (n / d) * k * d = k * (d * spacing (n / d)) := by ac_rfl
    rw [roundQuanta_mul, multiple]
    exact nearer
  rcases Nat.lt_or_ge b.log2 (n / d).log2 with less | more
  · -- The power of two below the quotient is one of them, and it is above all magnitudes with finer
    -- steps.
    obtain ⟨below, quotient⟩ := twoTo_between less
    have power := whole (twoTo (n / d).log2) (twoTo_dvd (by omega))
    have reached : twoTo (n / d).log2 * d ≤ n := (Nat.le_div_iff_mul_le positive).1 quotient
    have order := Nat.mul_le_mul_right d (Nat.le_of_lt below)
    refine power.trans ?_
    rw [abs_of_nonpos (by omega), abs_of_nonpos (by omega)]
    omega
  · exact whole b ((spacing_dvd more).trans (Nat.dvd_of_mod_eq_zero step))

/-- In the normal range a rounded magnitude is off by at most one part in 2^53. -/
theorem roundQuanta_error (tie : Tie) (positive : 0 < d) (normal : twoTo 52 * d ≤ n) :
    twoTo 53 * |((roundQuanta tie n d * d : Nat) : Int) - n| ≤ n := by
  have quotient : twoTo 52 ≤ n / d := (Nat.le_div_iff_mul_le positive).2 normal
  have bits := le_log2_of_twoTo_le quotient
  have some : n / d ≠ 0 := by
    have := twoTo_pos 52
    omega
  -- Half a step is what is lost, and there are 2^52 steps at least.
  have steps : twoTo 52 * (d * spacing (n / d)) ≤ n :=
    calc twoTo 52 * (d * spacing (n / d)) = twoTo 52 * spacing (n / d) * d := by ac_rfl
      _ = twoTo (n / d).log2 * d := by
          rw [spacing, ← twoTo_add]
          congr 2
          omega
      _ ≤ n := (Nat.le_div_iff_mul_le positive).1 (Nat.log2_self_le some)
  have lost :=
    two_mul_roundDiv_sub_le (n := n) tie (Nat.mul_pos positive (twoTo_pos ((n / d).log2 - 52)))
  change 2 * |((roundDiv tie n (d * spacing (n / d)) * (d * spacing (n / d)) : Nat) : Int) - n|
    ≤ (d * spacing (n / d) : Nat) at lost
  have bits : twoTo 53 = twoTo 52 * 2 := rfl
  rw [roundQuanta_mul, bits]
  generalize |((roundDiv tie n (d * spacing (n / d)) * (d * spacing (n / d)) : Nat) : Int)
    - n| = error at lost ⊢
  push_cast at lost ⊢
  calc (twoTo 52 : Int) * 2 * error = twoTo 52 * (2 * error) := mul_assoc _ _ _
    _ ≤ twoTo 52 * (d * spacing (n / d)) := mul_le_mul_of_nonneg_left lost (Int.natCast_nonneg _)
    _ ≤ n := by exact_mod_cast steps

end Quanta

/-- A quotient of quanta is as far from a rounded one as in quanta. -/
theorem abs_div_sub_div {m n d : Nat} (positive : 0 < d) :
    |(m : Rat) / one - n / (d * one)| = (|((m * d : Nat) : Int) - n| : Int) / (d * one) := by
  have unit : (0 : Rat) < one := Nat.cast_pos.2 unit_pos
  have divisor : (0 : Rat) < d := Nat.cast_pos.2 positive
  have same : (m : Rat) / one - n / (d * one) = (((m * d : Nat) : Int) - n : Int) / (d * one) := by
    push_cast
    field_simp
  rw [same, abs_div, abs_of_pos (mul_pos divisor unit), Int.cast_abs]

section Nonnegative

variable {z : Rat} (nonnegative : 0 ≤ z)

include nonnegative in
/-- A number is a quotient of quanta. -/
theorem eq_div_quanta : z = (z.num.natAbs * one : Nat) / (z.den * one) := by
  push_cast
  rw [natAbs_num_of_nonneg nonnegative, mul_div_mul_right _ _ unit_ne,
    mul_div_cancel_right₀ _ (Nat.cast_ne_zero.2 z.den_nz)]

include nonnegative in
/-- The distance of a magnitude from a number, in quanta and by the denominator of the number. -/
theorem abs_magnitude_sub (m : Nat) : |(m : Rat) / one - z|
    = (|((m * z.den : Nat) : Int) - (z.num.natAbs * one : Nat)| : Int) / (z.den * one) :=
  (congrArg (fun w => |(m : Rat) / one - w|) (eq_div_quanta nonnegative)).trans
    (abs_div_sub_div z.den_pos)

end Nonnegative

/-- No double is nearer to a number than its nearest one. -/
theorem abs_nearest_sub_le {x : Double} {z : Rat} (isFinite : x.isFinite = true)
    (nonnegative : 0 ≤ z) (range : (nearest z).isFinite = true) :
    |(nearest z).toRat - z| ≤ |x.toRat - z| := by
  obtain ⟨negative, quanta, fits, rfl⟩ := exists_of_isFinite isFinite
  have unit : (0 : Rat) < one := Nat.cast_pos.2 unit_pos
  have positive : (0 : Rat) < z.den := Nat.cast_pos.2 z.den_pos
  have nearer := roundQuanta_nearest (n := z.num.natAbs * one) .toEven z.den_pos fits.2
  -- On the other side of zero the double would be further away.
  have side : |(quanta : Rat) / one - z| ≤ |(finite negative quanta fits).toRat - z| := by
    rw [← show |(finite negative quanta fits).toRat| = quanta / one from abs_toRat rfl]
    calc |(|(finite negative quanta fits).toRat| - z)|
        = |(|(finite negative quanta fits).toRat| - |z|)| := by rw [abs_of_nonneg nonnegative]
      _ ≤ _ := abs_abs_sub_abs_le _ _
  -- In quanta the nearest double is the rounded one.
  refine le_trans ?_ side
  rw [toRat_nearest nonnegative range, abs_magnitude_sub nonnegative, abs_magnitude_sub nonnegative]
  refine div_le_div_of_nonneg_right ?_ (mul_pos positive unit).le
  exact_mod_cast nearer

/-- In the normal range a rounded quotient is off by at most one part in 2^53. -/
theorem exists_error_ofQuotient (tie : Tie) {n d : Nat} (positive : 0 < d)
    (normal : twoTo 52 * d ≤ n)
    (range : (ofQuotient tie false n d).isFinite = true) :
    ∃ error : Rat, |error| ≤ 1 / 2 ^ 53
      ∧ (ofQuotient tie false n d).toRat = n / (d * one) * (1 + error) := by
  have unit : (0 : Rat) < one := Nat.cast_pos.2 unit_pos
  have divisor : (0 : Rat) < d := Nat.cast_pos.2 positive
  have some : (0 : Rat) < n := by
    have least := Nat.mul_pos (twoTo_pos 52) positive
    exact Nat.cast_pos.2 (by omega)
  -- The rounded number is in range, so that it is the rounded quanta.
  have value : (ofQuotient tie false n d).toRat = roundQuanta tie n d / one := by
    unfold ofQuotient at range ⊢
    dsimp only at range ⊢
    split
    · rw [toRat_eq]
      exact congrArg (· / (one : Rat)) (Int.cast_natCast _)
    · rename_i outside
      rw [dif_neg outside] at range
      cases range
  -- The error is what is lost, by the number itself.
  have lost := roundQuanta_error tie positive normal
  rw [value]
  refine ⟨(roundQuanta tie n d * d - n) / n, ?_, ?_⟩
  · have small : (2 ^ 53 : Rat) * |(roundQuanta tie n d * d - n : Rat)| ≤ n := by
      have bits : (2 ^ 53 : Rat) = twoTo 53 := by
        rw [show twoTo 53 = 2 ^ 53 from rfl]
        push_cast
        rfl
      rw [bits]
      exact_mod_cast lost
    rw [abs_div, abs_of_pos some, div_le_iff₀ some]
    linarith
  · field_simp
    ring

/-- The double nearest to a number in the normal range, or to zero, is off by at most one part in
2^53. -/
theorem exists_error_nearest {z : Rat} (normal : z = 0 ∨ smallestNormal ≤ |z|)
    (range : (nearest z).isFinite = true) :
    ∃ error : Rat, |error| ≤ 1 / 2 ^ 53 ∧ (nearest z).toRat = z * (1 + error) := by
  rcases normal with rfl | normal
  · exact ⟨0, by norm_num, by decide +kernel⟩
  -- Below zero everything is turned around.
  wlog nonnegative : 0 ≤ z generalizing z
  · have nonzero : z ≠ 0 := fun zero => nonnegative zero.ge
    have opposite := nearest_neg nonzero
    have range' : (nearest (-z)).isFinite = true := by rw [opposite, isFinite_neg, range]
    obtain ⟨error, small, same⟩ :=
      this range' (normal.trans_eq (abs_neg z).symm) (neg_nonneg.2 (not_le.1 nonnegative).le)
    refine ⟨error, small, ?_⟩
    rw [opposite, toRat_neg] at same
    linarith
  rw [abs_of_nonneg nonnegative] at normal
  have unit : (0 : Rat) < one := Nat.cast_pos.2 unit_pos
  have divisor : (0 : Rat) < z.den := Nat.cast_pos.2 z.den_pos
  -- Otherwise the nearest double is a rounded quotient.
  have unsigned : nearest z = ofQuotient .toEven false (z.num.natAbs * one) z.den := by
    rw [nearest, decide_eq_false (not_lt.2 nonnegative)]
  rw [unsigned] at range
  obtain ⟨error, small, same⟩ :=
    exists_error_ofQuotient .toEven z.den_pos (twoTo_mul_den_le normal nonnegative) range
  refine ⟨error, small, ?_⟩
  rw [unsigned, same]
  push_cast
  rw [natAbs_num_of_nonneg nonnegative]
  field_simp

end Double

end PlusMinus
