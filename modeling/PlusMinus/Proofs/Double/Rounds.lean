import PlusMinus.Proofs.Double.Overflow

/-! Rounding as it is specified, without a word on how it is done: the nearest double, of two that
are equally near the one with the even significand, an infinity from half a step above the largest
double on, and the sign of the number. Each number is rounded to one double in this way, and it is
the one that the operations lead to. -/

namespace PlusMinus

/-- Where another whole number is as near to a quotient, the rounded one is even. -/
theorem roundDiv_tie {n d k : Nat} (positive : 0 < d) (other : k ≠ roundDiv .toEven n d)
    (near : |((k * d : Nat) : Int) - n| = |((roundDiv .toEven n d * d : Nat) : Int) - n|) :
    roundDiv .toEven n d % 2 = 0 := by
  have parts := Nat.div_add_mod' n d
  have less := Nat.mod_lt n positive
  have next : (n / d + 1) * d = n / d * d + d := Nat.succ_mul _ _
  -- The other multiple is below the quotient, above it, or one of the two around it.
  have side : k * d + d ≤ n / d * d ∨ k = n / d ∨ k = n / d + 1 ∨ (n / d + 1) * d + d ≤ k * d := by
    rcases Nat.lt_trichotomy k (n / d) with below | same | above
    · exact .inl ((Nat.succ_mul k d).symm.trans_le (Nat.mul_le_mul_right d below))
    · exact .inr (.inl same)
    · rcases Nat.lt_or_ge (n / d + 1) k with far | close
      · exact .inr (.inr (.inr ((Nat.succ_mul _ d).symm.trans_le (Nat.mul_le_mul_right d far))))
      · exact .inr (.inr (.inl (by omega)))
  -- Off the middle no other one is that near, and in the middle the even one is chosen.
  unfold roundDiv at other near ⊢
  dsimp only at other near ⊢
  simp only [Int.abs_eq_natAbs] at near
  split at near
  · rename_i below
    rw [if_pos below] at other
    rcases side with far | same | same | far
    · omega
    · exact absurd same other
    · rw [same, next] at near
      omega
    · omega
  · rename_i reached
    rw [if_neg reached] at other ⊢
    split at near
    · rename_i above
      rw [if_pos above] at other
      rw [next] at near
      rcases side with far | same | same | far
      · omega
      · rw [same] at near
        omega
      · exact absurd same other
      · omega
    · rename_i middle
      rw [if_neg middle]
      omega

namespace Double

/-- A product with a power of two has an even significand if the factor is even, where the steps are
at least the power. -/
theorem even_of_mul {k i : Nat} (few : k ≤ twoTo 53) (even : k % 2 = 0)
    (steps : twoTo i ∣ spacing (k * twoTo i)) :
    k * twoTo i / spacing (k * twoTo i) % 2 = 0 := by
  generalize size : k * twoTo i = m at steps ⊢
  rcases Nat.lt_or_ge i (m.log2 - 52) with coarser | same
  · -- With larger steps the factor is 2^53, which leaves 2^52 steps.
    have some : m ≠ 0 := by
      rintro rfl
      simp at coarser
    have most : m ≤ twoTo (53 + i) := by
      rw [← size, twoTo_add]
      exact Nat.mul_le_mul_right _ few
    have least : twoTo m.log2 ≤ m := Nat.log2_self_le some
    have reached : m.log2 = 53 + i := by
      have bits : m.log2 ≤ (twoTo (53 + i)).log2 := log2_le most
      rw [show (twoTo (53 + i)).log2 = 53 + i from Nat.log2_two_pow] at bits
      omega
    have exact : m = twoTo 52 * spacing m := by
      rw [spacing, ← twoTo_add, reached, show 52 + (53 + i - 52) = 53 + i by omega]
      exact Nat.le_antisymm most (reached ▸ least)
    have quotient : m / spacing m = twoTo 52 := Nat.div_eq_of_eq_mul_left (twoTo_pos _) exact
    rw [quotient]
    rfl
  · -- Otherwise the steps are the power itself.
    have steps : spacing m = twoTo i := Nat.dvd_antisymm (twoTo_dvd same) steps
    rw [steps, ← size, Nat.mul_div_cancel _ (twoTo_pos i)]
    exact even

/-- Where another magnitude is as near to a quotient, the significand of the rounded one is even. -/
theorem roundQuanta_tie {n d b : Nat} (positive : 0 < d) (step : b % spacing b = 0)
    (other : b ≠ roundQuanta .toEven n d)
    (near : |((b * d : Nat) : Int) - n| = |((roundQuanta .toEven n d * d : Nat) : Int) - n|) :
    roundQuanta .toEven n d / spacing (roundQuanta .toEven n d) % 2 = 0 := by
  rcases Nat.lt_or_ge b.log2 (n / d).log2 with less | more
  · -- The power of two below the quotient is nearer than all magnitudes with finer steps.
    obtain ⟨below, quotient⟩ := twoTo_between less
    have power := roundQuanta_nearest (n := n) .toEven positive (mod_spacing_twoTo (n / d).log2)
    have reached : twoTo (n / d).log2 * d ≤ n := (Nat.le_div_iff_mul_le positive).1 quotient
    have order := Nat.mul_lt_mul_of_pos_right below positive
    rw [← near, abs_of_nonpos (by omega), abs_of_nonpos (by omega)] at power
    omega
  · -- The others are multiples of the steps at the quotient, as is the rounded one.
    have parts : 0 < d * spacing (n / d) := Nat.mul_pos positive (twoTo_pos _)
    obtain ⟨k, rfl⟩ := (spacing_dvd more).trans (Nat.dvd_of_mod_eq_zero step)
    have multiple : spacing (n / d) * k * d = k * (d * spacing (n / d)) := by ac_rfl
    rw [roundQuanta_mul, multiple] at near
    have different : k ≠ roundDiv .toEven n (d * spacing (n / d)) := by
      rintro rfl
      exact other (Nat.mul_comm _ _)
    have even := roundDiv_tie parts different near
    have few : roundDiv .toEven n (d * spacing (n / d)) ≤ twoTo 53 := by
      have above := roundDiv_le .toEven n (d * spacing (n / d))
      rw [← Nat.div_div_eq_div_mul] at above
      have := (Nat.div_lt_iff_lt_mul (twoTo_pos _)).2 (lt_mul_spacing (n / d))
      exact above.trans this
    -- Rounding does not lead below the power of two, so that the steps do not become smaller.
    have steps : spacing (n / d) ∣ spacing (roundQuanta .toEven n d) := by
      by_cases none : n / d = 0
      · rw [none]
        exact twoTo_dvd (Nat.zero_le _)
      have reached : twoTo (n / d).log2 * d ≤ n :=
        (Nat.le_div_iff_mul_le positive).1 (Nat.log2_self_le none)
      exact spacing_dvd (le_log2_of_twoTo_le
        (le_roundQuanta .toEven positive (mod_spacing_twoTo _) reached))
    exact even_of_mul few even steps

/-- Between two magnitudes with even significands there is another one. -/
theorem exists_fits_between {a b : Nat} (f : Fits a) (g : Fits b) (less : a < b)
    (even : a / spacing a % 2 = 0) (even' : b / spacing b % 2 = 0) :
    ∃ c, Fits c ∧ a < c ∧ c < b := by
  have step : 0 < spacing a := twoTo_pos _
  have few : a / spacing a < twoTo 53 := (Nat.div_lt_iff_lt_mul step).2 (lt_mul_spacing a)
  obtain ⟨k, first⟩ := Nat.dvd_of_mod_eq_zero f.2
  have coarser := spacing_dvd (log2_le less.le)
  obtain ⟨m, second⟩ := coarser.trans (Nat.dvd_of_mod_eq_zero g.2)
  rw [Nat.div_eq_of_eq_mul_right step first] at even few
  -- The larger one is an even number of the same steps, be its own steps these or larger ones.
  have parity : m % 2 = 0 := by
    rcases Nat.lt_or_ge (a.log2 - 52) (b.log2 - 52) with larger | same
    · have twice : spacing a * 2 ∣ b := by
        have power : spacing a * 2 = twoTo (a.log2 - 52 + 1) := (twoTo_add _ 1).symm
        rw [power]
        exact (twoTo_dvd larger).trans (Nat.dvd_of_mod_eq_zero g.2)
      rw [second] at twice
      exact Nat.mod_eq_zero_of_dvd (Nat.dvd_of_mul_dvd_mul_left step twice)
    · have steps : spacing b = spacing a := Nat.dvd_antisymm (twoTo_dvd same) coarser
      rw [steps, Nat.div_eq_of_eq_mul_right step second] at even'
      exact even'
  have more : k < m := by
    rw [first, second] at less
    exact Nat.lt_of_mul_lt_mul_left less
  -- One step above the smaller one is an odd number of steps.
  have above : spacing a * k < spacing a * (k + 1) :=
    Nat.mul_lt_mul_of_pos_left (Nat.lt_succ_self k) step
  have below : spacing a * (k + 1) < spacing a * m := Nat.mul_lt_mul_of_pos_left (by omega) step
  rw [← first] at above
  rw [← second] at below
  refine ⟨spacing a * (k + 1), ⟨below.trans g.1, ?_⟩, above, below⟩
  rw [Nat.mul_comm]
  exact mod_spacing_mul few _

/-- Whether the last bit of the significand of a double is zero. -/
def IsEven (x : Double) : Prop := x.magnitude / spacing x.magnitude % 2 = 0

/-- A finite double than which no other one is nearer to a number, and one with an even significand
if another one is as near. -/
structure IsNearest (x : Double) (z : Rat) : Prop where
  isFinite : x.isFinite = true
  nearest : ∀ y : Double, y.isFinite = true → |x.toRat - z| ≤ |y.toRat - z|
  even : ∀ y : Double, y.isFinite = true → y.toRat ≠ x.toRat →
    |y.toRat - z| = |x.toRat - z| → x.IsEven

/-- A double that a number is rounded to, with a given sign where the number is zero. -/
def Rounds (z : Rat) (zeroSign : Bool) (x : Double) : Prop :=
  if |z| < overflow then x.IsNearest z ∧ x.isNegative = if z = 0 then zeroSign else decide (z < 0)
  else x = infinite (z < 0)

section Unique

variable {x y : Double} {z : Rat}

/-- The opposite double has the same magnitude. -/
theorem magnitude_neg (x : Double) : (-x).magnitude = x.magnitude := by
  change x.neg.magnitude = _
  cases x <;> rfl

/-- What is nearest to a number has an opposite that is nearest to the opposite number. -/
theorem IsNearest.neg (nearest : x.IsNearest z) : (-x).IsNearest (-z) := by
  -- All distances stay as they are when everything is turned around.
  have mirror (y : Double) : |(-y).toRat - -z| = |y.toRat - z| := by
    rw [toRat_neg, ← neg_sub', abs_neg]
  have back (y : Double) : |y.toRat - -z| = |(-y).toRat - z| := by
    rw [← mirror (-y), toRat_neg, toRat_neg, neg_neg]
  refine ⟨(isFinite_neg x).trans nearest.isFinite, fun y isFinite => ?_,
    fun y isFinite other near => ?_⟩
  · rw [mirror, back]
    exact nearest.nearest (-y) ((isFinite_neg y).trans isFinite)
  · unfold IsEven
    rw [magnitude_neg]
    rw [mirror, back] at near
    refine nearest.even (-y) ((isFinite_neg y).trans isFinite) (fun same => other ?_) near
    rw [toRat_neg, ← same, toRat_neg, neg_neg]

/-- A double that is alike is nearest to the same number. -/
theorem IsNearest.congr (nearest : x.IsNearest z) (alike : x.Alike y) : y.IsNearest z := by
  rcases alike with rfl | ⟨first, second⟩
  · exact nearest
  -- Two zeros have the same number, and the significand of zero is even.
  have same := Alike.toRat (.inr ⟨first, second⟩)
  obtain ⟨s, rfl⟩ := exists_of_isZero second
  refine ⟨rfl, fun w isFinite => ?_, fun w isFinite other near => ?_⟩
  · rw [← same]
    exact nearest.nearest w isFinite
  · exact (by decide +kernel : (0 : Nat) / spacing 0 % 2 = 0)

/-- There is a double between two numbers of which one is the double of an even magnitude and so is
the other. -/
theorem exists_toRat_between (first : x.isFinite = true) (second : y.isFinite = true)
    (less : x.toRat < y.toRat) (even : x.IsEven) (even' : y.IsEven) :
    ∃ w : Double, w.isFinite = true ∧ x.toRat < w.toRat ∧ w.toRat < y.toRat := by
  have unit : (0 : Rat) < one := Nat.cast_pos.2 unit_pos
  obtain ⟨s, a, f, rfl⟩ := exists_of_isFinite first
  obtain ⟨t, b, g, rfl⟩ := exists_of_isFinite second
  have left := abs_toRat first
  have right := abs_toRat second
  have positive (c : Nat) (h : Fits c) : (finite false c h).toRat = c / one := toRat_eq _
  have negative (c : Nat) (h : Fits c) : (finite true c h).toRat = -(c / one) := by
    rw [toRat_eq, ← neg_div]
    exact congrArg (· / (one : Rat)) (by push_cast [signedQuanta]; rfl)
  -- On one side of zero the magnitudes are compared, and otherwise zero is between the two.
  rcases le_or_gt 0 (finite s a f).toRat with above | below
  · rw [abs_of_nonneg above] at left
    rw [abs_of_nonneg (above.trans less.le)] at right
    rw [left, right, div_lt_div_iff_of_pos_right unit] at less
    obtain ⟨c, h, more, fewer⟩ := exists_fits_between f g (by exact_mod_cast less) even even'
    refine ⟨finite false c h, rfl, ?_, ?_⟩
    · rw [left, positive, div_lt_div_iff_of_pos_right unit]
      exact_mod_cast more
    · rw [right, positive, div_lt_div_iff_of_pos_right unit]
      exact_mod_cast fewer
  rcases le_or_gt (finite t b g).toRat 0 with below' | above
  · rw [abs_of_neg below] at left
    rw [abs_of_nonpos below'] at right
    rw [← neg_lt_neg_iff, left, right, div_lt_div_iff_of_pos_right unit] at less
    -- Below zero the order of the magnitudes is turned round.
    obtain ⟨c, h, more, fewer⟩ := exists_fits_between g f (by exact_mod_cast less) even' even
    refine ⟨finite true c h, rfl, ?_, ?_⟩
    · rw [← neg_lt_neg_iff, left, negative, neg_neg, div_lt_div_iff_of_pos_right unit]
      exact_mod_cast fewer
    · rw [← neg_lt_neg_iff, right, negative, neg_neg, div_lt_div_iff_of_pos_right unit]
      exact_mod_cast more
  · have none : zero.toRat = 0 := by decide +kernel
    rw [← none] at below above
    exact ⟨zero, rfl, below, above⟩

/-- All doubles that are nearest to a number have the same number. -/
theorem IsNearest.toRat_eq (first : x.IsNearest z) (second : y.IsNearest z) :
    x.toRat = y.toRat := by
  by_contra differ
  wlog less : x.toRat < y.toRat generalizing x y
  · exact this second first (Ne.symm differ) (lt_of_le_of_ne (not_lt.1 less) (Ne.symm differ))
  -- They are as near as each other, so that both are even and a double lies between them.
  have near := le_antisymm (first.nearest y second.isFinite) (second.nearest x first.isFinite)
  have even := first.even y second.isFinite (Ne.symm differ) near.symm
  have even' := second.even x first.isFinite differ near
  obtain ⟨w, isFinite, left, right⟩ :=
    exists_toRat_between first.isFinite second.isFinite less even even'
  -- The number is in the middle of the two, and what is between them is nearer.
  have nearer := first.nearest w isFinite
  rcases abs_eq_abs.1 near with same | middle
  · exact differ (by linarith)
  · rw [abs_of_nonpos (by linarith), le_abs] at nearer
    rcases nearer with more | more <;> linarith

/-- A number has one nearest double of each sign. -/
theorem IsNearest.unique (first : x.IsNearest z) (second : y.IsNearest z)
    (sign : x.isNegative = y.isNegative) : x = y := by
  -- The same number has the same magnitude, and with it and the sign a double is given.
  have magnitudes := congrArg (fun number : Rat => |number|) (first.toRat_eq second)
  rw [abs_toRat first.isFinite, abs_toRat second.isFinite, div_left_inj' unit_ne, Nat.cast_inj]
    at magnitudes
  obtain ⟨s, a, f, rfl⟩ := exists_of_isFinite first.isFinite
  obtain ⟨t, b, g, rfl⟩ := exists_of_isFinite second.isFinite
  obtain rfl : a = b := magnitudes
  obtain rfl : s = t := sign
  rfl

/-- A number is rounded to one double. -/
theorem Rounds.unique {zeroSign : Bool} (first : Rounds z zeroSign x)
    (second : Rounds z zeroSign y) :
    x = y := by
  unfold Rounds at first second
  -- Below the threshold the nearest double with an even last bit and with the sign is unique, and
  -- beyond it there is only the infinity.
  split at first
  · rename_i inside
    rw [if_pos inside] at second
    exact first.1.unique second.1 (first.2.trans second.2.symm)
  · rename_i outside
    rw [if_neg outside] at second
    exact first.trans second.symm

end Unique

/-- The magnitude of the nearest double is the rounded number of quanta. -/
theorem magnitude_nearest {z : Rat} (nonnegative : 0 ≤ z)
    (isFinite : (Double.nearest z).isFinite = true) :
    (Double.nearest z).magnitude = roundQuanta .toEven (z.num.natAbs * one) z.den := by
  have unit : (0 : Rat) < one := Nat.cast_pos.2 unit_pos
  have absolute := abs_toRat isFinite
  rw [toRat_nearest nonnegative isFinite, abs_of_nonneg (div_nonneg (Nat.cast_nonneg _) unit.le),
    div_left_inj' unit_ne] at absolute
  exact_mod_cast absolute.symm

/-- The double that a number in range leads to is nearest to it. -/
theorem isNearest_nearest {z : Rat} (range : |z| < overflow) : (Double.nearest z).IsNearest z := by
  have isFinite := isFinite_nearest_iff.2 range
  -- Below zero everything is turned around.
  wlog nonnegative : 0 ≤ z generalizing z
  · have negative := not_le.1 nonnegative
    have opposite := nearest_neg negative.ne
    have turned := this ((abs_neg z).trans_lt range)
      (by rw [opposite, isFinite_neg, isFinite]) (neg_nonneg.2 negative.le)
    have back := turned.neg
    rw [← nearest_neg (neg_ne_zero.2 negative.ne), neg_neg] at back
    exact back
  have none : zero.toRat = 0 := by decide +kernel
  refine ⟨isFinite, fun y other => abs_nearest_sub_le other nonnegative isFinite,
    fun y other differ near => ?_⟩
  -- What is on the other side of zero is further away than zero, and so it is not as near.
  have side : 0 ≤ y.toRat := by
    by_contra below
    have nearer := abs_nearest_sub_le (x := zero) rfl nonnegative isFinite
    rw [← near, none, abs_of_nonpos (by linarith), abs_of_nonpos (by linarith)] at nearer
    linarith
  obtain ⟨s, b, g, rfl⟩ := exists_of_isFinite other
  have magnitude := abs_toRat other
  rw [abs_of_nonneg side] at magnitude
  change (finite s b g).toRat = b / one at magnitude
  -- In quanta the two distances are those of a rounded magnitude and of another one.
  have value := toRat_nearest nonnegative isFinite
  have unit : (0 : Rat) < z.den * one :=
    mul_pos (Nat.cast_pos.2 z.den_pos) (Nat.cast_pos.2 unit_pos)
  rw [magnitude, value, abs_magnitude_sub nonnegative, abs_magnitude_sub nonnegative,
    div_left_inj' unit.ne'] at near
  rw [magnitude, value] at differ
  unfold IsEven
  rw [magnitude_nearest nonnegative isFinite]
  refine roundQuanta_tie z.den_pos g.2 (fun same => differ ?_) (by exact_mod_cast near)
  rw [same]

/-- A double that is alike the nearest one and has the sign of the number is what it is rounded
to. -/
theorem rounds_of_alike {x : Double} {z : Rat} {zeroSign : Bool}
    (alike : x.Alike (Double.nearest z))
    (sign : x.isNegative = if z = 0 then zeroSign else decide (z < 0)) : Rounds z zeroSign x := by
  unfold Rounds
  split
  · rename_i inside
    exact ⟨(isNearest_nearest inside).congr alike.symm, sign⟩
  · rename_i outside
    -- Out of range the nearest double is an infinity, which is like nothing but itself.
    have infinity : Double.nearest z = infinite (z < 0) := by
      apply ofQuotient_eq_infinite
      exact eq_false_of_ne_true (mt isFinite_nearest_iff.1 outside)
    rw [infinity] at alike
    exact alike.resolve_right fun both => Bool.false_ne_true both.2

end Double

end PlusMinus
