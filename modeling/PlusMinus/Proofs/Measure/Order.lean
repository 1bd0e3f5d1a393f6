import PlusMinus.Measure.Entered
import PlusMinus.Proofs.Decimal.Layout
import PlusMinus.Proofs.Double.LogarithmOrder
import PlusMinus.Proofs.Measure.Place

/-! The order of a number by its logarithm and by its digits: they agree for numbers that are not
next to a power of ten, and for these the significant figures of a value end at the decimal place
that its uncertainty decides. -/

namespace PlusMinus

namespace Double

/-- A number that is not next to a power of ten: it is not below that of its leading digit by more
than rounding can make up for, and some steps below the next one. -/
structure OrderClear (x : Double) : Prop where
  reached : (1 - 1 / 2 ^ 53) * 10 ^ (x.shortest.leading - 1) ≤ |x.toRat|
  below :
    |x.toRat| ≤ (1 - 5 / 2 * (|x.shortest.leading| + 1 : Int) / 2 ^ 53) * 10 ^ x.shortest.leading

instance (x : Double) : Decidable x.OrderClear :=
  decidable_of_iff (_ ∧ _) ⟨fun both => ⟨both.1, both.2⟩, fun clear => ⟨clear.reached, clear.below⟩⟩

variable {x : Double}

/-- From one tenth to a hundred the power of ten of the leading digit is a bound itself. -/
theorem power_le_of_leading (isFinite : x.isFinite = true) (nonzero : x.isZero = false)
    (low : -1 ≤ x.shortest.leading - 1) (high : x.shortest.leading - 1 ≤ 2) :
    10 ^ (x.shortest.leading - 1) ≤ |x.toRat| := by
  have least := reach_power_le_magnitude isFinite nonzero (sub_one_lt x.shortest.leading)
  generalize x.shortest.leading - 1 = e at least low high
  -- These powers are not above the doubles nearest to them.
  have power : (10 : Rat) ^ e ≤ (Decimal.power e).reach / one := by
    rcases (by omega : e = -1 ∨ e = 0 ∨ e = 1 ∨ e = 2) with rfl | rfl | rfl | rfl <;> decide +kernel
  rw [abs_toRat isFinite]
  exact power.trans (div_le_div_of_nonneg_right (Nat.cast_le.2 least) (Nat.cast_nonneg _))

/-- The order of a number that is not next to a power of ten is that of its leading digit. -/
theorem order_of_clear (isFinite : x.isFinite = true) (nonzero : x.isZero = false)
    (clear : x.OrderClear) :
    x.order = x.shortest.leading - 1 := by
  obtain ⟨_, least, most⟩ := shortest_inside isFinite nonzero
  -- The logarithm reaches the exponent of the leading digit and stays below the next one.
  refine order_eq nonzero
    (le_log10 isFinite nonzero ?_ clear.reached (power_le_of_leading isFinite nonzero)) ?_
  · have few : 331 ≤ twoTo 53 := by decide
    omega
  · rw [Int.sub_add_cancel]
    exact log10_lt isFinite nonzero clear.below

section Digits

/-- In the normal range a number is near its shortest decimal, which has its leading digit at a
power of ten. -/
theorem abs_sub_shortest_le_of_normal (isFinite : x.isFinite = true) (nonzero : x.isZero = false)
    (normal : -299 ≤ x.shortest.leading) :
    10 ^ (x.shortest.leading - 1) ≤ x.shortest.toRat
      ∧ |(|x.toRat| - x.shortest.toRat)| ≤ x.shortest.toRat / 2 ^ 53 := by
  obtain ⟨least, _⟩ := Decimal.toRat_bounds (shortest_inside isFinite nonzero).1
  have tiny : (10 : Rat) ^ (-300 : Int) ≤ 10 ^ (x.shortest.leading - 1) :=
    zpow_le_zpow_right₀ (by norm_num) (by omega)
  have near := Decimal.abs_sub_shortest_le isFinite (tiny.trans least)
  rw [toRat_abs, ← abs_toRat isFinite] at near
  exact ⟨least, near⟩

/-- In the normal range only the power of ten above a number can be next to it. -/
theorem OrderClear.of_normal (isFinite : x.isFinite = true) (nonzero : x.isZero = false)
    (normal : -299 ≤ x.shortest.leading)
    (below : |x.toRat| ≤ (1 - 5 / 2 * (|x.shortest.leading| + 1 : Int) / 2 ^ 53)
      * 10 ^ x.shortest.leading) :
    x.OrderClear := by
  obtain ⟨least, near⟩ := abs_sub_shortest_le_of_normal isFinite nonzero normal
  obtain ⟨lower, _⟩ := abs_le.1 near
  exact ⟨by linarith, below⟩

/-- A decimal of some digits is below the next power of ten by one unit of its last digit. -/
theorem toRat_le_of_few_digits {d : Decimal} {count : Nat} (some : 0 < d.coefficient)
    (few : digitCount d.coefficient ≤ count) : d.toRat ≤ (1 - 1 / 10 ^ count) * 10 ^ d.leading := by
  have next : d.coefficient + 1 ≤ tenTo (digitCount d.coefficient) := (digitCount_bounds some).2
  have next : (d.coefficient + 1 : Rat) ≤ tenTo (digitCount d.coefficient) := by exact_mod_cast next
  -- The unit of the last digit is no finer than that of so many digits.
  have last : (10 : Rat) ^ (d.leading - count) ≤ 10 ^ d.exponent :=
    zpow_le_zpow_right₀ (by norm_num) (by unfold Decimal.leading; omega)
  have scaled :=
    mul_le_mul_of_nonneg_right next (zpow_nonneg (by norm_num : (0 : Rat) ≤ 10) d.exponent)
  rw [cast_tenTo, ← zpow_add₀ (by norm_num), Int.add_comm] at scaled
  change _ ≤ (10 : Rat) ^ d.leading at scaled
  rw [zpow_sub₀ (by norm_num), zpow_natCast] at last
  rw [Decimal.toRat_eq, one_sub_mul, one_div, inv_mul_eq_div]
  linarith

/-- A number in the normal range that has thirteen digits at most is not next to a power of ten. -/
theorem OrderClear.of_few_digits (isFinite : x.isFinite = true) (nonzero : x.isZero = false)
    (normal : -299 ≤ x.shortest.leading) (few : digitCount x.shortest.coefficient ≤ 13) :
    x.OrderClear := by
  obtain ⟨some, _, most⟩ := shortest_inside isFinite nonzero
  have unit : (0 : Rat) < 10 ^ x.shortest.leading := zpow_pos (by norm_num) _
  have digits := toRat_le_of_few_digits (Nat.pos_of_ne_zero some) few
  obtain ⟨_, near⟩ := abs_sub_shortest_le_of_normal isFinite nonzero normal
  obtain ⟨_, upper⟩ := abs_le.1 near
  refine .of_normal isFinite nonzero normal ?_
  -- The digits that are not there leave room for more steps than any exponent asks for.
  have exponent : (|x.shortest.leading| : Rat) ≤ 310 := by
    exact_mod_cast abs_le.2 ⟨by omega, most⟩
  have scaled := mul_le_mul_of_nonneg_right exponent unit.le
  push_cast
  norm_num at digits upper ⊢
  linarith

end Digits

end Double

/-- With a positive uncertainty the significant figures are counted between the two orders. -/
theorem significantFigures_of_orders (value : Figure) {u : Figure}
    (isFinite : (Double.ofText value.digits).isFinite = true)
    (nonzero : (Double.ofText value.digits).isZero = false) (decides : u.Decides)
    (bound : u.magnitude.isFinite = true) :
    significantFigures value (some u)
      = max 1 ((Double.ofText value.digits).order - u.magnitude.order + 1) := by
  obtain ⟨written, positive⟩ := decides
  have known : ¬((Double.ofText value.digits).isZero = true
      ∨ (!(Double.ofText value.digits).isFinite) = true) := by
    simp [isFinite, nonzero]
  -- The uncertainty is given, positive and finite, and so is the value.
  unfold significantFigures
  rw [Option.filter_some, if_pos (decide_eq_true written)]
  dsimp only
  rw [if_neg (by simp [Double.isZero_of_lt positive]), if_pos ⟨positive, bound⟩, if_neg known]

namespace Entry

/-- The significant figures of a value with an uncertainty end at the decimal place that the
uncertainty decides. -/
theorem significantFigures_eq {v u : Double} (value : v.isFinite = true)
    (nonzero : v.isZero = false)
    (bound : u.isFinite = true) (positive : Double.zero.lt u = true) (clear : v.OrderClear)
    (clear' : u.OrderClear) :
    ∃ place : Int, decimalPlace (.number v) (.number u) = .ok place
      ∧ significantFigures (.number v) (.number u)
        = .ok (max 1 (v.shortest.leading - 1 + place + 1)) := by
  have nonzero' := Double.isZero_of_lt positive
  have decides : (Figure.ofDouble u).Decides := ⟨u.text_ne_empty, positive⟩
  have read : Double.ofText v.text = v := by
    rw [Double.ofText_text, Double.withoutZeroSign, if_neg (by simp [nonzero])]
  -- The place is the negated order of the uncertainty, which is that of its leading digit; away
  -- from powers of ten so are both orders that the figures are counted between.
  refine ⟨-u.roundedOrder, ?_, ?_⟩
  · have entered : (Entry.number u).toFigure? = .ok (some (Figure.ofDouble u)) := rfl
    unfold decimalPlace
    rw [entered, Fault.ok_bind, Option.bind_some, Figure.place?_of_decides decides bound]
    rfl
  · have figures := significantFigures_of_orders (Figure.ofDouble v) (u := Figure.ofDouble u)
      ((congrArg Double.isFinite read).trans value)
        ((congrArg Double.isZero read).trans nonzero) decides bound
    change Except.ok (PlusMinus.significantFigures (Figure.ofDouble v) (some (Figure.ofDouble u)))
      = _
    rw [figures, Double.roundedOrder_eq bound nonzero']
    change Except.ok (max 1 ((Double.ofText v.text).order - u.order + 1)) = _
    rw [read, Double.order_of_clear value nonzero clear,
      Double.order_of_clear bound nonzero' clear']
    rfl

/-- Ten to the 23rd, which is rounded down to a double, has as many figures as it has digits down to
the tenths. -/
theorem significantFigures_eq_power :
    (Double.ofText "1e23").toRat < 10 ^ 23
      ∧ ∃ place : Int, decimalPlace (.number (.ofText "1e23")) (.number (.ofText "0.1")) = .ok place
        ∧ significantFigures (.number (.ofText "1e23")) (.number (.ofText "0.1"))
          = .ok (max 1 ((Double.ofText "1e23").shortest.leading - 1 + place + 1)) :=
  ⟨by decide +kernel,
    -- One digit each, which leaves room below the next power of ten.
    significantFigures_eq (by decide +kernel) (by decide +kernel) (by decide +kernel)
      (by decide +kernel)
      (.of_few_digits (by decide +kernel) (by decide +kernel) (by decide +kernel)
        (by decide +kernel))
      (.of_few_digits (by decide +kernel) (by decide +kernel) (by decide +kernel)
        (by decide +kernel))⟩

/-- The logarithm of the last number below a thousand is rounded up to three, and that of two quanta
is the one of a number that is shown as more than it is; so a figure is counted in front of the
digits, and one behind the place. -/
theorem significantFigures_next_to_power :
    (decimalPlace (.number (.ofText "999.9999999999999")) (.number (.ofText "0.1")) = .ok 1
        ∧ (Double.ofText "999.9999999999999").shortest.leading - 1 = 2
        ∧ significantFigures (.number (.ofText "999.9999999999999")) (.number (.ofText "0.1"))
          = .ok 5)
      ∧ decimalPlace (.number (.ofText "1")) (.number (.ofText "1e-323")) = .ok 323
        ∧ (Double.ofText "1").shortest.leading - 1 = 0
        ∧ significantFigures (.number (.ofText "1")) (.number (.ofText "1e-323")) = .ok 325 := by
  decide +kernel

end Entry

end PlusMinus
