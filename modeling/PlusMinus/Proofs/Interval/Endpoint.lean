import Mathlib.Algebra.Order.Field.Basic
import Mathlib.Algebra.Order.Field.Rat
import PlusMinus.Interval.Basic

/-! Ends that lie below or above two numbers have sums, products and quotients that lie below or
above those of the numbers, also when an end is infinite. -/

namespace PlusMinus.Endpoint

/-- An end at or below a number; the undefined end is neither below nor above any. -/
def AtMost : Endpoint → Rat → Prop
  | .negInfinity, _ => True
  | .finite a, x => a ≤ x
  | _, _ => False

/-- An end at or above a number. -/
def AtLeast : Endpoint → Rat → Prop
  | .posInfinity, _ => True
  | .finite a, x => x ≤ a
  | _, _ => False

instance (e : Endpoint) (x : Rat) : Decidable (e.AtMost x) :=
  match e with
  | .negInfinity => .isTrue trivial
  | .finite a => inferInstanceAs (Decidable (a ≤ x))
  | .undefined | .posInfinity => .isFalse id

instance (e : Endpoint) (x : Rat) : Decidable (e.AtLeast x) :=
  match e with
  | .posInfinity => .isTrue trivial
  | .finite a => inferInstanceAs (Decidable (x ≤ a))
  | .undefined | .negInfinity => .isFalse id

/-- An end that lies at or below a number unless it is undefined. -/
def Lower (e : Endpoint) (x : Rat) : Prop := e = .undefined ∨ e.AtMost x

/-- An end that lies at or above a number unless it is undefined. -/
def Upper (e : Endpoint) (x : Rat) : Prop := e = .undefined ∨ e.AtLeast x

section Negation

variable {e : Endpoint} {x : Rat}

/-- The opposite of the opposite end is the end. -/
@[simp] theorem neg_neg (e : Endpoint) : e.neg.neg = e := by
  -- Only a finite end has a number to turn around twice.
  cases e <;> simp [neg]

/-- The opposite end has the opposite sign. -/
theorem sign_neg (e : Endpoint) : e.neg.sign = -e.sign := by
  cases e with
  | undefined => rfl
  | negInfinity => rfl
  | posInfinity => rfl
  | finite a =>
    -- A number is on one side of zero, and its opposite on the other one.
    rcases lt_trichotomy a 0 with negative | rfl | positive
    · simp [neg, sign, negative, not_lt_of_gt negative]
    · simp [neg, sign]
    · simp [neg, sign, positive, not_lt_of_gt positive]

/-- Only the undefined end has the undefined one as its opposite. -/
theorem eq_undefined_of_neg (undefined : e.neg = .undefined) : e = .undefined := by
  cases e <;> first | rfl | cases undefined

/-- High ends are the opposites of low ends of the opposite number. -/
theorem atMost_neg : e.neg.AtMost (-x) ↔ e.AtLeast x := by
  cases e with
  | finite a => exact neg_le_neg_iff
  | _ => exact Iff.rfl

/-- Low ends are the opposites of high ends of the opposite number. -/
theorem atLeast_neg : e.neg.AtLeast (-x) ↔ e.AtMost x := by
  cases e with
  | finite a => exact neg_le_neg_iff
  | _ => exact Iff.rfl

/-- The opposite of a low end is a high end of the opposite number. -/
theorem AtMost.neg (low : e.AtMost x) : e.neg.AtLeast (-x) := atLeast_neg.2 low

/-- The opposite of a high end is a low end of the opposite number. -/
theorem AtLeast.neg (high : e.AtLeast x) : e.neg.AtMost (-x) := atMost_neg.2 high

/-- An end at or below zero has an opposite at or above zero. -/
theorem AtMost.neg_zero (low : e.AtMost 0) : e.neg.AtLeast 0 := by
  -- Zero is its own opposite.
  simpa using low.neg

/-- A low end of a number may be found as the opposite of a high end of the opposite number. -/
theorem Upper.of_neg (upper : e.neg.Upper (-x)) : e.Lower x := by
  rcases upper with undefined | high
  · exact .inl (eq_undefined_of_neg undefined)
  · exact .inr (atLeast_neg.1 high)

/-- A high end of a number may be found as the opposite of a low end of the opposite number. -/
theorem Lower.of_neg (lower : e.neg.Lower (-x)) : e.Upper x := by
  rcases lower with undefined | low
  · exact .inl (eq_undefined_of_neg undefined)
  · exact .inr (atMost_neg.1 low)

end Negation

section Order

variable {e : Endpoint} {x y : Rat}

/-- An end below a number is defined. -/
theorem AtMost.defined (low : e.AtMost x) : e ≠ .undefined := by
  rintro rfl
  exact low

/-- An end above a number is defined. -/
theorem AtLeast.defined (high : e.AtLeast x) : e ≠ .undefined := by
  rintro rfl
  exact high

/-- A number below an end is at most a number above the end. -/
theorem AtLeast.le (high : e.AtLeast x) (low : e.AtMost y) : x ≤ y := by
  cases e with
  | undefined => exact low.elim
  | negInfinity => exact high.elim
  | finite a => exact le_trans high low
  | posInfinity => exact low.elim

/-- An end below a number is below all larger ones. -/
theorem AtMost.mono (low : e.AtMost x) (larger : x ≤ y) : e.AtMost y := by
  cases e with
  | finite a => exact le_trans low larger
  | _ => exact low

/-- An end above a number is above all smaller ones. -/
theorem AtLeast.mono (high : e.AtLeast y) (smaller : x ≤ y) : e.AtLeast x := by
  cases e with
  | finite a => exact le_trans smaller high
  | _ => exact high

/-- A defined end without a minus is not below zero. -/
theorem atLeast_zero (defined : e ≠ .undefined) (sign : 0 ≤ e.sign) : e.AtLeast 0 := by
  cases e with
  | undefined => exact defined rfl
  | negInfinity => exact absurd sign (by decide)
  | posInfinity => trivial
  | finite a =>
    -- A number below zero would have a minus.
    by_contra below
    have negative : a < 0 := lt_of_not_ge below
    simp [Endpoint.sign, negative] at sign

/-- A defined end with no sign but a minus is not above zero. -/
theorem atMost_zero (defined : e ≠ .undefined) (sign : e.sign ≤ 0) : e.AtMost 0 := by
  cases e with
  | undefined => exact defined rfl
  | negInfinity => trivial
  | posInfinity => exact absurd sign (by decide)
  | finite a =>
    -- A number above zero would have a plus.
    by_contra above
    have positive : 0 < a := lt_of_not_ge above
    simp [Endpoint.sign, positive, not_lt_of_gt positive] at sign

/-- The lower one of two ends, chosen by order, lies below a number above the other one. -/
theorem AtMost.of_le {f : Endpoint} (low : f.AtMost x) (below : e.le f = true) : e.AtMost x := by
  -- Only two finite ends are compared by their numbers.
  cases f with
  | undefined => exact low.elim
  | posInfinity => exact low.elim
  | negInfinity => cases e <;> trivial
  | finite b =>
    cases e with
    | undefined => cases below
    | posInfinity => cases below
    | negInfinity => trivial
    | finite a => exact le_trans (of_decide_eq_true below) low

/-- An end that is not above another one that lies below a number does so too. -/
theorem AtMost.of_not_le {f : Endpoint} (low : e.AtMost x) (defined : f ≠ .undefined)
    (above : e.le f = false) : f.AtMost x := by
  -- An end that the other one is not at or below is lower than it.
  cases f with
  | undefined => exact absurd rfl defined
  | posInfinity => cases e <;> cases above
  | negInfinity => trivial
  | finite b =>
    cases e with
    | undefined => exact low.elim
    | posInfinity => exact low.elim
    | negInfinity => cases above
    | finite a =>
      have larger : ¬a ≤ b := of_decide_eq_false above
      exact le_trans (le_of_not_ge larger) low

/-- Opposite ends are in the opposite order. -/
theorem le_neg (e f : Endpoint) : f.neg.le e.neg = e.le f := by
  cases e <;> cases f <;> simp [neg, le]

/-- The higher one of two ends, chosen by order, lies above a number below the other one. -/
theorem AtLeast.of_le {f : Endpoint} (high : f.AtLeast x)
    (above : f.le e = true) : e.AtLeast x := by
  -- The opposites of high ends are low ends in the opposite order.
  have below : e.neg.le f.neg = true := (le_neg f e).trans above
  exact atMost_neg.1 (high.neg.of_le below)

/-- An end that is not below another one that lies above a number does so too. -/
theorem AtLeast.of_not_le {f : Endpoint} (high : e.AtLeast x) (defined : f ≠ .undefined)
    (below : f.le e = false) : f.AtLeast x := by
  have opposite : f.neg ≠ .undefined := fun undefined => defined (eq_undefined_of_neg undefined)
  -- Between the opposites the order is the other way round.
  exact atMost_neg.1 (high.neg.of_not_le opposite ((le_neg f e).trans below))

end Order

section Rounding

variable {e : Endpoint} {x : Rat}

/-- The value of a bit is positive. -/
theorem bit_pos (exponent : Int) : 0 < bit exponent := by
  unfold bit
  split
  · rw [Rat.mkRat_eq_div]
    exact div_pos (by decide) (by exact_mod_cast twoTo_pos _)
  · exact_mod_cast twoTo_pos _

/-- Rounding down leads to no larger number. -/
theorem roundDown_le (x : Rat) : roundDown x ≤ x := by
  -- Whole bits are counted downwards, whatever the value of a bit is.
  unfold roundDown
  split
  · rename_i zero
    exact zero.ge
  · rw [← le_div_iff₀ (bit_pos _)]
    exact Rat.floor_le _

/-- Rounding up leads to no smaller number. -/
theorem le_roundUp (x : Rat) : x ≤ roundUp x :=
  -- Rounding up turns around, rounds down and turns back.
  le_neg_of_le_neg (roundDown_le (-x))

/-- A low end that is rounded down is a low end. -/
theorem AtMost.down (low : e.AtMost x) : e.down.AtMost x := by
  cases e with
  | finite a => exact le_trans (roundDown_le a) low
  | _ => exact low

/-- A high end that is rounded up is a high end. -/
theorem AtLeast.up (high : e.AtLeast x) : e.up.AtLeast x := by
  cases e with
  | finite a => exact le_trans high (le_roundUp a)
  | _ => exact high

/-- A low end that may be undefined stays one when it is rounded down. -/
theorem Lower.down (lower : e.Lower x) : e.down.Lower x := by
  rcases lower with rfl | low
  · exact .inl rfl
  · exact .inr low.down

/-- A high end that may be undefined stays one when it is rounded up. -/
theorem Upper.up (upper : e.Upper x) : e.up.Upper x := by
  rcases upper with rfl | high
  · exact .inl rfl
  · exact .inr high.up

/-- A low end with a low end in its place when it is undefined. -/
theorem Lower.orElse (lower : e.Lower x) {replacement : Endpoint} (low : replacement.AtMost x) :
    (e.orElse replacement).AtMost x := by
  rcases lower with rfl | own
  · exact low
  · -- A defined end stays where it is.
    cases e with
    | undefined => exact low
    | _ => exact own

/-- A high end with a high end in its place when it is undefined. -/
theorem Upper.orElse (upper : e.Upper x) {replacement : Endpoint} (high : replacement.AtLeast x) :
    (e.orElse replacement).AtLeast x := by
  rcases upper with rfl | own
  · exact high
  · cases e with
    | undefined => exact high
    | _ => exact own

end Rounding

section Sums

variable {e f : Endpoint} {x y : Rat}

/-- The sum of two low ends is a low end of the sum. -/
theorem AtMost.add (first : e.AtMost x) (second : f.AtMost y) : (e.add f).AtMost (x + y) := by
  -- No low end is the positive infinity, so that no sum of infinities is undefined.
  cases e with
  | undefined => exact first.elim
  | posInfinity => exact first.elim
  | negInfinity =>
    cases f with
    | undefined => exact second.elim
    | posInfinity => exact second.elim
    | _ => trivial
  | finite a =>
    cases f with
    | undefined => exact second.elim
    | posInfinity => exact second.elim
    | negInfinity => trivial
    | finite b => exact add_le_add first second

/-- The sum of opposite ends is the opposite of their sum. -/
theorem add_neg (e f : Endpoint) : e.neg.add f.neg = (e.add f).neg := by
  cases e with
  | finite a =>
    cases f with
    | finite b => exact congrArg Endpoint.finite Rat.neg_add.symm
    | _ => rfl
  | _ => cases f <;> rfl

/-- The sum of two high ends is a high end of the sum. -/
theorem AtLeast.add (first : e.AtLeast x) (second : f.AtLeast y) : (e.add f).AtLeast (x + y) := by
  -- The opposites are low ends, and so is their sum.
  have opposite := first.neg.add second.neg
  rw [add_neg, ← Rat.neg_add] at opposite
  exact atMost_neg.1 opposite

end Sums

section Products

variable {e f : Endpoint} {x y : Rat}

/-- The order of two factors does not matter. -/
theorem mul_comm (e f : Endpoint) : e.mul f = f.mul e := by
  -- Products of numbers do not depend on the order, and neither do those of signs.
  have sign : ∀ e f : Endpoint, e.sign * f.sign = f.sign * e.sign := fun e f => Int.mul_comm _ _
  cases e <;> cases f <;> first | rfl | simp only [mul, sign, Rat.mul_comm]

/-- The opposite of a nonzero sign belongs to the opposite infinity. -/
theorem infinity_neg {sign : Int} (nonzero : sign ≠ 0) :
    infinity (-sign) = (infinity sign).neg := by
  unfold infinity
  -- The case of no sign, which would pass for a positive one, is left out.
  rcases Int.lt_or_gt_of_ne nonzero with negative | positive
  · rw [if_neg (by omega), if_pos negative]
    rfl
  · rw [if_pos (by omega), if_neg (by omega)]
    rfl

/-- The opposite factor leads to the opposite product. -/
theorem neg_mul (e f : Endpoint) : e.neg.mul f = (e.mul f).neg := by
  -- Beside an infinity only the product of the signs counts.
  have infinite : ∀ e f : Endpoint,
      (if e.neg.sign * f.sign = 0 then undefined else infinity (e.neg.sign * f.sign))
        = (if e.sign * f.sign = 0 then undefined else infinity (e.sign * f.sign)).neg := by
    intro e f
    rw [sign_neg, Int.neg_mul]
    by_cases zero : e.sign * f.sign = 0
    · rw [if_pos (by omega), if_pos zero]
      rfl
    · rw [if_neg (by omega), if_neg zero, infinity_neg zero]
  -- Of finite numbers it is a rule of multiplication.
  cases e with
  | undefined => rfl
  | finite a =>
    cases f with
    | undefined => rfl
    | finite b => exact congrArg Endpoint.finite (Rat.neg_mul a b)
    | negInfinity => exact infinite (.finite a) .negInfinity
    | posInfinity => exact infinite (.finite a) .posInfinity
  | negInfinity =>
    cases f with
    | undefined => rfl
    | finite b => exact infinite .negInfinity (.finite b)
    | _ => rfl
  | posInfinity =>
    cases f with
    | undefined => rfl
    | finite b => exact infinite .posInfinity (.finite b)
    | _ => rfl

/-- The opposite second factor leads to the opposite product. -/
theorem mul_neg (e f : Endpoint) : e.mul f.neg = (e.mul f).neg := by
  rw [mul_comm, neg_mul, mul_comm]

/-- A high end that is not below zero has no minus. -/
theorem sign_nonneg (high : e.AtLeast 0) : 0 ≤ e.sign := by
  cases e with
  | undefined => exact high.elim
  | negInfinity => exact high.elim
  | posInfinity => decide
  | finite a =>
    -- The sign of a number at or above zero is that of zero or a plus.
    have nonnegative : ¬a < 0 := not_lt_of_ge high
    simp only [sign, if_neg nonnegative]
    split <;> decide

/-- An infinite product of ends without a minus is a high end of everything. -/
theorem upper_infinity {sign : Int} (nonnegative : 0 ≤ sign) :
    (if sign = 0 then undefined else infinity sign).Upper x := by
  split
  · exact .inl rfl
  · right
    rw [infinity, if_neg (by omega)]
    trivial

/-- Ends at or above a number and zero, and at or above a number that is not negative, have a
product at or above the one of the numbers. -/
theorem upper_mul (first : e.AtLeast x) (positive : e.AtLeast 0) (second : f.AtLeast y)
    (nonnegative : 0 ≤ y) : (e.mul f).Upper (x * y) := by
  -- Neither end has a minus, so that an infinite product is the positive infinity.
  have signs : 0 ≤ e.sign * f.sign := by
    refine Int.mul_nonneg (sign_nonneg positive) (sign_nonneg ?_)
    cases f with
    | finite b => exact le_trans nonnegative second
    | _ => exact second
  cases e with
  | undefined => exact first.elim
  | negInfinity => exact first.elim
  | posInfinity =>
    cases f with
    | undefined => exact second.elim
    | negInfinity => exact second.elim
    | finite b => exact upper_infinity signs
    | posInfinity => exact upper_infinity signs
  | finite a =>
    cases f with
    | undefined => exact second.elim
    | negInfinity => exact second.elim
    | posInfinity => exact upper_infinity signs
    | finite b =>
      -- The number that is not negative carries the bound of the other one.
      right
      calc x * y ≤ a * y := mul_le_mul_of_nonneg_right first nonnegative
        _ ≤ a * b := mul_le_mul_of_nonneg_left second positive

/-- The same for a first end at or below its number and zero. -/
theorem lower_mul_left (first : e.AtMost x) (negative : e.AtMost 0) (second : f.AtLeast y)
    (nonnegative : 0 ≤ y) : (e.mul f).Lower (x * y) := by
  apply Upper.of_neg
  rw [← neg_mul, ← Rat.neg_mul]
  exact upper_mul first.neg negative.neg_zero second nonnegative

/-- The same for a second end at or below its number, which is not positive. -/
theorem lower_mul_right (first : e.AtLeast x) (positive : e.AtLeast 0) (second : f.AtMost y)
    (nonpositive : y ≤ 0) : (e.mul f).Lower (x * y) := by
  apply Upper.of_neg
  rw [← mul_neg, ← Rat.mul_neg]
  exact upper_mul first positive second.neg (neg_nonneg.2 nonpositive)

/-- The same for two ends at or below their numbers. -/
theorem upper_mul_neg (first : e.AtMost x) (negative : e.AtMost 0) (second : f.AtMost y)
    (nonpositive : y ≤ 0) : (e.mul f).Upper (x * y) := by
  apply Lower.of_neg
  rw [← mul_neg, ← Rat.mul_neg]
  exact lower_mul_left first negative second.neg (neg_nonneg.2 nonpositive)

/-- An end between two numbers is finite. -/
theorem exists_finite (high : e.AtLeast x) (low : e.AtMost y) :
    ∃ a, e = .finite a ∧ x ≤ a ∧ a ≤ y := by
  cases e with
  | undefined => exact low.elim
  | negInfinity => exact high.elim
  | finite a => exact ⟨a, rfl, high, low⟩
  | posInfinity => exact low.elim

/-- Ends between zero and two numbers have a product between zero and that of the numbers. -/
theorem lower_mul_inside (first : e.AtMost x) (left : e.AtLeast 0) (second : f.AtMost y)
    (right : f.AtLeast 0) : (e.mul f).Lower (x * y) := by
  -- Ends between two numbers are finite, so that nothing is indeterminate here.
  obtain ⟨a, rfl, zero, below⟩ := exists_finite left first
  obtain ⟨b, rfl, zero', below'⟩ := exists_finite right second
  exact .inr (mul_le_mul below below' zero' (le_trans zero below))

/-- The same for a second end between its number and zero. -/
theorem upper_mul_inside_right (first : e.AtMost x) (left : e.AtLeast 0) (second : f.AtLeast y)
    (right : f.AtMost 0) : (e.mul f).Upper (x * y) := by
  apply Lower.of_neg
  rw [← mul_neg, ← Rat.mul_neg]
  exact lower_mul_inside first left second.neg right.neg_zero

/-- The same for a first end between its number and zero. -/
theorem upper_mul_inside_left (first : e.AtLeast x) (left : e.AtMost 0) (second : f.AtMost y)
    (right : f.AtLeast 0) : (e.mul f).Upper (x * y) := by
  apply Lower.of_neg
  rw [← neg_mul, ← Rat.neg_mul]
  exact lower_mul_inside first.neg left.neg_zero second right

/-- The same for two ends between their numbers and zero. -/
theorem lower_mul_inside_neg (first : e.AtLeast x) (left : e.AtMost 0) (second : f.AtLeast y)
    (right : f.AtMost 0) : (e.mul f).Lower (x * y) := by
  apply Upper.of_neg
  rw [← neg_mul, ← Rat.neg_mul]
  exact upper_mul_inside_right first.neg left.neg_zero second right

end Products

section Quotients

variable {e f : Endpoint} {x y : Rat}

/-- The opposite dividend leads to the opposite quotient. -/
theorem neg_div (e f : Endpoint) : e.neg.div f = (e.div f).neg := by
  -- An infinite dividend only lends its sign to the quotient.
  have infinite : ∀ sign : Int, sign ≠ 0 → ∀ b : Rat,
      (if b = 0 then undefined else infinity (-sign * (Endpoint.finite b).sign))
        = (if b = 0 then undefined else infinity (sign * (Endpoint.finite b).sign)).neg := by
    intro sign own b
    split
    · rfl
    · rename_i nonzero
      have other : (Endpoint.finite b).sign ≠ 0 := by
        rcases lt_or_gt_of_ne nonzero with negative | positive
        · simp [Endpoint.sign, negative]
        · simp [Endpoint.sign, positive, not_lt_of_gt positive]
      rw [Int.neg_mul, infinity_neg (Int.mul_ne_zero own other)]
  -- Of finite numbers it is a rule of division.
  cases e with
  | undefined => rfl
  | finite a =>
    cases f with
    | undefined => rfl
    | finite b =>
      simp only [neg, div]
      split
      · rfl
      · rw [Rat.div_def, Rat.div_def, Rat.neg_mul]
    | negInfinity => rfl
    | posInfinity => rfl
  | negInfinity =>
    cases f with
    | finite b => exact infinite (-1) (by decide) b
    | _ => rfl
  | posInfinity =>
    cases f with
    | finite b => exact infinite 1 (by decide) b
    | _ => rfl

/-- A finite end with a positive sign is positive. -/
theorem pos_of_sign {b : Rat} (sign : 0 < (Endpoint.finite b).sign) : 0 < b := by
  by_contra other
  simp only [Endpoint.sign, other, if_false] at sign
  split at sign <;> omega

/-- An end at or above a number and zero, divided by a positive end at or below the divisor, is at
or above the quotient. -/
theorem atLeast_div (first : e.AtLeast x) (positive : e.AtLeast 0) (second : f.AtMost y)
    (divisor : 0 < f.sign) : (e.div f).AtLeast (x / y) := by
  cases f with
  | undefined => exact second.elim
  | negInfinity => exact absurd divisor (by decide)
  | posInfinity => exact second.elim
  | finite b =>
    have above : 0 < b := pos_of_sign divisor
    have nonzero : b ≠ 0 := ne_of_gt above
    cases e with
    | undefined => exact first.elim
    | negInfinity => exact first.elim
    | posInfinity =>
      simp [div, nonzero, Endpoint.sign, above, not_lt_of_gt above, infinity, AtLeast]
    | finite a =>
      -- A smaller divisor of a number that is not negative makes a larger quotient.
      rw [div, if_neg nonzero]
      calc x / y ≤ a / y := div_le_div_of_nonneg_right first (le_trans above.le second)
        _ ≤ a / b := div_le_div_of_nonneg_left positive above second

/-- The same for an end at or below its number and zero. -/
theorem atMost_div (first : e.AtMost x) (negative : e.AtMost 0) (second : f.AtMost y)
    (divisor : 0 < f.sign) : (e.div f).AtMost (x / y) := by
  have opposite := (atLeast_div first.neg negative.neg_zero second divisor).neg
  rwa [neg_div, neg_neg, Rat.div_def, Rat.neg_mul, Rat.neg_neg, ← Rat.div_def] at opposite

/-- An end between zero and a number, divided by an end at or above the positive divisor, is at or
below the quotient. -/
theorem atMost_div_inside (first : e.AtMost x) (left : e.AtLeast 0) (second : f.AtLeast y)
    (divisor : 0 < y) : (e.div f).AtMost (x / y) := by
  obtain ⟨a, rfl, zero, below⟩ := exists_finite left first
  have quotient : 0 ≤ x / y := div_nonneg (le_trans zero below) divisor.le
  cases f with
  | undefined => exact second.elim
  | negInfinity => exact second.elim
  -- Divided by an infinity the end is zero.
  | posInfinity => exact quotient
  | finite b =>
    have above : 0 < b := lt_of_lt_of_le divisor second
    rw [div, if_neg (ne_of_gt above)]
    calc a / b ≤ a / y := div_le_div_of_nonneg_left zero divisor second
      _ ≤ x / y := div_le_div_of_nonneg_right below divisor.le

/-- The same for an end between its number and zero. -/
theorem atLeast_div_inside (first : e.AtLeast x) (left : e.AtMost 0) (second : f.AtLeast y)
    (divisor : 0 < y) : (e.div f).AtLeast (x / y) := by
  have opposite := (atMost_div_inside first.neg left.neg_zero second divisor).neg
  rwa [neg_div, neg_neg, Rat.div_def, Rat.neg_mul, Rat.neg_neg, ← Rat.div_def] at opposite

end Quotients

end PlusMinus.Endpoint
