import PlusMinus.Proofs.Interval.Endpoint

/-! The operations on intervals keep to the numbers in them: the exact outcome lies in the
interval. -/

namespace PlusMinus.Interval

open Endpoint

/-- A number between the ends of an interval. -/
structure Contains (s : Interval) (x : Rat) : Prop where
  low : s.low.AtMost x
  high : s.high.AtLeast x

instance (s : Interval) (x : Rat) : Decidable (s.Contains x) :=
  decidable_of_iff (s.low.AtMost x ∧ s.high.AtLeast x) ⟨fun both => ⟨both.1, both.2⟩, fun inside =>
    ⟨inside.low, inside.high⟩⟩

/-- Every number is on the whole line. -/
theorem contains_whole (x : Rat) : whole.Contains x := ⟨trivial, trivial⟩

/-- Zero is in the interval that holds only zero. -/
theorem contains_zero : zero.Contains 0 := ⟨le_rfl, le_rfl⟩

/-- An interval that is rounded outwards keeps to a number if its ends and their replacements do. -/
theorem contains_outward {low ifLow high ifHigh : Endpoint} {x : Rat} (lower : low.Lower x)
    (ifLower : ifLow.AtMost x) (upper : high.Upper x) (ifUpper : ifHigh.AtLeast x) :
    (outward low ifLow high ifHigh).Contains x :=
  ⟨lower.down.orElse ifLower, upper.up.orElse ifUpper⟩

section Signs

variable {s : Interval} {x : Rat}

/-- The opposite of a number is in the opposite interval. -/
theorem Contains.neg (inside : s.Contains x) : s.neg.Contains (-x) :=
  ⟨inside.high.neg, inside.low.neg⟩

/-- An interval without numbers below zero ends at or above zero. -/
theorem Contains.low_nonneg (inside : s.Contains x) (sign : s.isNonnegative = true) :
    s.low.AtLeast 0 :=
  atLeast_zero inside.low.defined (by simpa [isNonnegative] using sign)

/-- An interval without numbers above zero ends at or below zero. -/
theorem Contains.high_nonpos (inside : s.Contains x) (sign : s.isNonpositive = true) :
    s.high.AtMost 0 :=
  atMost_zero inside.high.defined (by simpa [isNonpositive] using sign)

/-- An interval with numbers below zero starts at or below zero. -/
theorem Contains.low_nonpos (inside : s.Contains x) (sign : s.isNonnegative = false) :
    s.low.AtMost 0 := by
  refine atMost_zero inside.low.defined ?_
  have below : ¬0 ≤ s.low.sign := by simpa [isNonnegative] using sign
  omega

/-- An interval with numbers above zero ends at or above zero. -/
theorem Contains.high_nonneg (inside : s.Contains x) (sign : s.isNonpositive = false) :
    s.high.AtLeast 0 := by
  refine atLeast_zero inside.high.defined ?_
  have above : ¬s.high.sign ≤ 0 := by simpa [isNonpositive] using sign
  omega

/-- Only zero is in an interval between zeros. -/
theorem Contains.eq_zero (inside : s.Contains x) (zero : s.isZero = true) : x = 0 := by
  -- Ends without a sign are zeros, since ends of an interval that holds a number are defined.
  obtain ⟨low, high⟩ : s.low.sign = 0 ∧ s.high.sign = 0 := by simpa [isZero] using zero
  have below : x ≤ 0 := inside.high.le (atMost_zero inside.high.defined high.le)
  have above : 0 ≤ x := (atLeast_zero inside.low.defined low.ge).le inside.low
  exact le_antisymm below above

end Signs

section Operations

variable {s t : Interval} {x y : Rat}

/-- Sums of numbers in two intervals are in the sum of the intervals. -/
theorem contains_add (first : s.Contains x) (second : t.Contains y) : (s.add t).Contains (x + y) :=
  contains_outward (.inr (first.low.add second.low)) trivial
    (.inr (first.high.add second.high)) trivial

/-- Differences of numbers in two intervals are in the difference of the intervals. -/
theorem contains_sub (first : s.Contains x) (second : t.Contains y) :
    (s.sub t).Contains (x - y) := by
  -- The ends of the second interval change sides.
  rw [Rat.sub_eq_add_neg]
  exact contains_outward (.inr (first.low.add second.high.neg)) trivial
    (.inr (first.high.add second.low.neg)) trivial

/-- A product with a factor around zero is between two of the four products of ends: which ones
depends on the sign of the other factor. -/
theorem products_around (first : s.Contains x) (low : s.low.AtMost 0) (high : s.high.AtLeast 0)
    (second : t.Contains y) :
    (0 ≤ y → (s.low.mul t.high).Lower (x * y) ∧ (s.high.mul t.high).Upper (x * y))
      ∧ (y ≤ 0 → (s.high.mul t.low).Lower (x * y) ∧ (s.low.mul t.low).Upper (x * y)) := by
  -- The second factor is met by its far end, which has its sign.
  constructor
  · intro nonnegative
    exact ⟨lower_mul_left first.low low second.high nonnegative,
      upper_mul first.high high second.high nonnegative⟩
  · intro nonpositive
    exact ⟨lower_mul_right first.high high second.low nonpositive,
      upper_mul_neg first.low low second.low nonpositive⟩

/-- Choosing between ends one by one keeps what holds of one of them, if every choice between two
defined ends keeps what holds of either. -/
theorem foldl_keeps {choose : Endpoint → Endpoint → Endpoint} {kept : Endpoint → Prop}
    (picks : ∀ e f, choose e f = e ∨ choose e f = f)
    (either : ∀ e f, e ≠ .undefined → f ≠ .undefined → kept e ∨ kept f → kept (choose e f))
    {first : Endpoint} {others : List Endpoint} (defined : ∀ e ∈ first :: others, e ≠ .undefined)
    (some : ∃ e ∈ first :: others, kept e) : kept (others.foldl choose first) := by
  -- The first end is replaced by the choice so far.
  induction others generalizing first with
  | nil => simpa using some
  | cons next rest ih =>
    have own : first ≠ .undefined := defined first (by simp)
    have other : next ≠ .undefined := defined next (by simp)
    rw [List.foldl_cons]
    apply ih
    · intro e member
      rcases List.mem_cons.1 member with rfl | member
      · rcases picks first next with same | same <;> rw [same] <;> assumption
      · exact defined e (by simp [member])
    · -- The witness is among the first two ends, and then the choice takes its place, or behind
      -- them.
      obtain ⟨e, member, holds⟩ := some
      rcases List.mem_cons.1 member with rfl | member
      · exact ⟨_, List.mem_cons_self, either _ _ own other (.inl holds)⟩
      rcases List.mem_cons.1 member with rfl | member
      · exact ⟨_, List.mem_cons_self, either _ _ own other (.inr holds)⟩
      · exact ⟨e, List.mem_cons_of_mem _ member, holds⟩

/-- The least of defined ends lies below a number above one of them. -/
theorem atMost_least {first : Endpoint} {others : List Endpoint} {z : Rat}
    (defined : ∀ e ∈ first :: others, e ≠ .undefined)
    (below : ∃ e ∈ first :: others, e.AtMost z) : (least first others).AtMost z := by
  -- Of two ends the lower one is kept.
  refine foldl_keeps (fun e f => ?_) (fun e f _ other holds => ?_) defined below
  · split <;> simp
  · split
    · rename_i order
      exact holds.elim id fun low => low.of_le order
    · rename_i order
      exact holds.elim (fun low => low.of_not_le other (by simpa using order)) id

/-- The greatest of defined ends lies above a number below one of them. -/
theorem atLeast_greatest {first : Endpoint} {others : List Endpoint} {z : Rat}
    (defined : ∀ e ∈ first :: others, e ≠ .undefined)
    (above : ∃ e ∈ first :: others, e.AtLeast z) : (greatest first others).AtLeast z := by
  -- Of two ends the higher one is kept.
  refine foldl_keeps (fun e f => ?_) (fun e f _ other holds => ?_) defined above
  · split <;> simp
  · split
    · rename_i order
      exact holds.elim id fun high => high.of_le order
    · rename_i order
      exact holds.elim (fun high => high.of_not_le other (by simpa using order)) id

/-- A product with a first factor around zero is between the extremes of the products of ends, if
all of these are defined. -/
theorem contains_products (first : s.Contains x) (low : s.low.AtMost 0) (high : s.high.AtLeast 0)
    (second : t.Contains y)
    (defined : ∀ e ∈ [s.low.mul t.low, s.low.mul t.high, s.high.mul t.low, s.high.mul t.high],
      e ≠ .undefined) :
    Contains
      ⟨(least (s.low.mul t.low) [s.low.mul t.high, s.high.mul t.low, s.high.mul t.high]).down,
        (greatest (s.low.mul t.low) [s.low.mul t.high, s.high.mul t.low, s.high.mul t.high]).up⟩
      (x * y) := by
  obtain ⟨nonnegative, nonpositive⟩ := products_around first low high second
  -- The sign of the second factor tells which two of the products are the extremes.
  rcases le_total 0 y with sign | sign
  · obtain ⟨lower, upper⟩ := nonnegative sign
    have below := lower.resolve_left (defined _ (by simp))
    have above := upper.resolve_left (defined _ (by simp))
    exact ⟨(atMost_least defined ⟨_, by simp, below⟩).down,
      (atLeast_greatest defined ⟨_, by simp, above⟩).up⟩
  · obtain ⟨lower, upper⟩ := nonpositive sign
    have below := lower.resolve_left (defined _ (by simp))
    have above := upper.resolve_left (defined _ (by simp))
    exact ⟨(atMost_least defined ⟨_, by simp, below⟩).down,
      (atLeast_greatest defined ⟨_, by simp, above⟩).up⟩

/-- A product with a first factor that is not negative is in the product of the intervals. -/
theorem contains_mul_of_nonneg (first : s.Contains x) (second : t.Contains y)
    (apart : s.isZero = false) (apart' : t.isZero = false) (left : s.isNonnegative = true) :
    (s.mul t).Contains (x * y) := by
  have low := first.low_nonneg left
  have nonnegative : 0 ≤ x := low.le first.low
  have high := first.high.mono nonnegative
  rw [mul, if_neg (by simp [apart]), if_neg (by simp [apart']), if_pos left]
  split
  · -- Both lower ends bound the product from below, and both higher ends from above.
    rename_i right
    have low' := second.low_nonneg right
    have nonnegative' : 0 ≤ y := low'.le second.low
    exact contains_outward (lower_mul_inside first.low low second.low low')
      (mul_nonneg nonnegative nonnegative')
        (upper_mul first.high high second.high nonnegative') trivial
  split
  · -- The larger the first factor, the lower the product.
    rename_i right
    have high' := second.high_nonpos right
    have nonpositive' : y ≤ 0 := second.high.le high'
    exact contains_outward (lower_mul_right first.high high second.low nonpositive') trivial
      (upper_mul_inside_right first.low low second.high high')
      (mul_nonpos_of_nonneg_of_nonpos nonnegative nonpositive')
  · -- The factors change places, since it is the second one that is around zero.
    rename_i below above
    obtain ⟨around, _⟩ := products_around second (second.low_nonpos (by simpa using below))
      (second.high_nonneg (by simpa using above)) first
    obtain ⟨lower, upper⟩ := around nonnegative
    rw [Rat.mul_comm y, Endpoint.mul_comm] at lower upper
    exact contains_outward lower trivial upper trivial

/-- A product with a first factor that is not positive is in the product of the intervals. -/
theorem contains_mul_of_nonpos (first : s.Contains x) (second : t.Contains y)
    (apart : s.isZero = false) (apart' : t.isZero = false) (below : s.isNonnegative = false)
    (left : s.isNonpositive = true) : (s.mul t).Contains (x * y) := by
  have high := first.high_nonpos left
  have nonpositive : x ≤ 0 := first.high.le high
  have low := first.low.mono nonpositive
  rw [mul, if_neg (by simp [apart]), if_neg (by simp [apart']),
    if_neg (by simp [below]), if_pos left]
  split
  · -- The larger the second factor, the lower the product.
    rename_i right
    have low' := second.low_nonneg right
    have nonnegative' : 0 ≤ y := low'.le second.low
    exact contains_outward (lower_mul_left first.low low second.high nonnegative') trivial
      (upper_mul_inside_left first.high high second.low low')
      (mul_nonpos_of_nonpos_of_nonneg nonpositive nonnegative')
  split
  · -- Both higher ends bound the product from below, and both lower ends from above.
    rename_i right
    have high' := second.high_nonpos right
    have nonpositive' : y ≤ 0 := second.high.le high'
    exact contains_outward (lower_mul_inside_neg first.high high second.high high')
      (mul_nonneg_of_nonpos_of_nonpos nonpositive nonpositive')
      (upper_mul_neg first.low low second.low nonpositive') trivial
  · rename_i below above
    obtain ⟨_, around⟩ := products_around second (second.low_nonpos (by simpa using below))
      (second.high_nonneg (by simpa using above)) first
    obtain ⟨lower, upper⟩ := around nonpositive
    rw [Rat.mul_comm y, Endpoint.mul_comm] at lower upper
    exact contains_outward lower trivial upper trivial

/-- A product of numbers in two intervals is in the product of the intervals. -/
theorem contains_mul (first : s.Contains x) (second : t.Contains y) :
    (s.mul t).Contains (x * y) := by
  by_cases zero : s.isZero = true
  · -- The interval of zero is kept exact unless zero meets an infinity.
    rw [first.eq_zero zero, Rat.zero_mul, mul, if_pos zero]
    split
    · exact contains_whole 0
    · exact contains_zero
  have apart : s.isZero = false := by simpa using zero
  by_cases zero' : t.isZero = true
  · rw [second.eq_zero zero', Rat.mul_zero, mul, if_neg zero, if_pos zero']
    split
    · exact contains_whole 0
    · exact contains_zero
  have apart' : t.isZero = false := by simpa using zero'
  by_cases left : s.isNonnegative = true
  · exact contains_mul_of_nonneg first second apart apart' left
  have below : s.isNonnegative = false := by simpa using left
  by_cases left' : s.isNonpositive = true
  · exact contains_mul_of_nonpos first second apart apart' below left'
  have above : s.isNonpositive = false := by simpa using left'
  -- Around zero no sign helps, and all four products of ends are compared.
  rw [mul, if_neg zero, if_neg zero', if_neg left, if_neg left']
  dsimp only
  split
  · exact contains_whole _
  · rename_i defined
    refine contains_products first (first.low_nonpos below) (first.high_nonneg above) second ?_
    rintro e member rfl
    exact defined (by simpa using member)

/-- A quotient by a positive number is in the quotient by its interval without numbers below
zero. -/
theorem contains_divNonnegative (first : s.Contains x) (second : t.Contains y)
    (nonnegative : 0 ≤ t.low.sign) (nonzero : y ≠ 0) : (divNonnegative s t).Contains (x / y) := by
  have positive : 0 < y :=
    lt_of_le_of_ne ((atLeast_zero second.low.defined nonnegative).le second.low) nonzero.symm
  unfold divNonnegative
  split
  · -- The divisor may be as small as it likes, and only the far end of its interval counts.
    split
    · exact contains_whole _
    rename_i oneSided
    split
    · rename_i left
      exact ⟨trivial,
        (atLeast_div_inside first.high (first.high_nonpos left) second.high positive).up⟩
    · rename_i above
      have left : s.isNonnegative = true := by
        simp [isMixed, isNonpositive, isNonnegative] at oneSided above ⊢
        omega
      exact
        ⟨(atMost_div_inside first.low (first.low_nonneg left) second.high positive).down, trivial⟩
  -- Away from zero the near end of the divisor makes the quotients large, and the far end small.
  rename_i away
  have divisor : 0 < t.low.sign := by omega
  split
  · rename_i left
    have low := first.low_nonneg left
    have nonnegative : 0 ≤ x := low.le first.low
    exact contains_outward (.inr (atMost_div_inside first.low low second.high positive))
      (div_nonneg nonnegative positive.le)
      (.inr (atLeast_div first.high (first.high.mono nonnegative) second.low divisor)) trivial
  rename_i below
  have low := first.low_nonpos (by simpa using below)
  split
  · rename_i left
    have high := first.high_nonpos left
    have nonpositive : x ≤ 0 := first.high.le high
    exact contains_outward (.inr (atMost_div first.low low second.low divisor)) trivial
      (.inr (atLeast_div_inside first.high high second.high positive))
      (div_nonpos_of_nonpos_of_nonneg nonpositive positive.le)
  · rename_i above
    have high := first.high_nonneg (by simpa using above)
    exact contains_outward (.inr (atMost_div first.low low second.low divisor)) trivial
      (.inr (atLeast_div first.high high second.low divisor)) trivial

/-- A quotient of numbers in two intervals is in the quotient of the intervals. -/
theorem contains_div (first : s.Contains x) (second : t.Contains y) (nonzero : y ≠ 0) :
    (s.div t).Contains (x / y) := by
  -- A divisor around zero leaves nothing but the whole line, and a negative one is turned around.
  unfold div
  split
  · rename_i zero
    rw [first.eq_zero zero, zero_div]
    split
    · exact contains_whole 0
    · exact contains_zero
  split
  · exact contains_whole _
  rename_i oneSided
  split
  · -- The signs of both numbers are turned around.
    rename_i below
    have nonpositive : t.high.sign ≤ 0 := by
      simp [isMixed, below] at oneSided
      exact oneSided
    have opposite := contains_divNonnegative first.neg second.neg
      (by change 0 ≤ t.high.neg.sign; rw [sign_neg]; omega) (neg_ne_zero.2 nonzero)
    rwa [neg_div_neg_eq] at opposite
  · exact contains_divNonnegative first second (by omega) nonzero

end Operations

end PlusMinus.Interval
