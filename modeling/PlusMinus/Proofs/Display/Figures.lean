import PlusMinus.Proofs.Decimal.Precise
import PlusMinus.Proofs.Display.Place

/-! Results in significant figures, beside an uncertainty without a place behind the point: both
texts are read as numbers that are shown with the same texts again, as far as rounding keeps the
number in its place. -/

namespace PlusMinus

open Double Numeral Text

/-- A decimal without an exponent is a plain number that denotes the same doubles. -/
theorem Decimal.exists_plain (d : Decimal) :
    ∃ p : Plain, p.text = d.plain ∧ ∀ negative, p.decimal.toDouble negative
      = d.toDouble negative := by
  obtain ⟨coefficient, exponent⟩ := d
  unfold plain
  dsimp only
  split
  · -- The point stands among the digits.
    obtain ⟨p, text, value⟩ := exists_plain_pointed coefficient (-exponent).toNat none
    refine ⟨p, ?_, fun negative => ?_⟩
    · rw [text, Option.elim_none, List.append_nil]
    · rw [value, Option.getD_none, show (0 : Int) - ((-exponent).toNat : Nat) = exponent by omega]
  · -- Zeros stand for the exponent.
    refine ⟨.extended coefficient exponent.toNat, Plain.text_extended _ _, fun negative => ?_⟩
    rw [← toDouble_shift negative coefficient exponent.toNat exponent, Plain.decimal_extended]
    congr 2
    omega

/-- There is no exponent in a decimal that is written without one. -/
theorem Decimal.unmarked_plain (d : Decimal) : 'e' ∉ d.plain := by
  unfold plain
  split
  · exact unmarked_pointed _ _
  · intro member
    have digit : ('e').isDigit = true :=
      (List.mem_append.1 member).elim Plain.isDigit_toDigits Layout.isDigit_zeros
    exact absurd digit (by decide)

namespace Double

variable {x : Double}

/-- A value in significant figures without an exponent below a thousand, beside an uncertainty that
is zero or else has no place behind the point. -/
def inWhole (x : Double) (certain : Bool) (figures : Int) : String :=
  let text := if exactFigures ≤ figures then (if certain then x.text else x.roundHalfUp.text)
    else x.precise figures
  let rounded := if exactFigures ≤ figures then x else x.roundDigits figures
  if text.toList.contains 'e' ∧ rounded.isFinite ∧ !(ofInt 1000).le rounded.abs then
    if certain then
      String.ofList (x.signText ++ (if exactFigures ≤ figures then x.shortest
        else x.toDigits (clampDigits figures)).plain)
    else rounded.roundHalfUp.text
  else text

end Double

/-- Beside an uncertainty without a place behind the point the place does not matter. -/
theorem roundToFigures_of_whole (v : Double) (u : Figure) (figures : Int)
    (above : decimalPlace u (some u) < 0) :
    roundToFigures v u figures
      = ⟨v.inWhole u.magnitude.isZero figures, u.magnitude.roundHalfUp.text⟩ := by
  rw [roundToFigures_eq]
  generalize decimalPlace u (some u) = place at above
  have whole (x : Double) : x.atPlace place = x.roundHalfUp.text := if_pos above
  have aligned (text : String) : v.aligned place text = text :=
    if_neg fun both => absurd both.1 (Int.not_le.2 above)
  -- Nothing is aligned, and every number at the place is made whole.
  unfold inFigures unscaled inWhole
  simp only [whole, aligned]
  by_cases exact : exactFigures ≤ figures
  · simp only [exact, if_true]
  · simp only [exact, if_false]

namespace Double

variable {x y : Double} {certain : Bool} {figures : Int}

/-- The sign of a text is taken over with the magnitude, but for a zero. -/
theorem signed_abs (isFinite : x.isFinite = true) {d : Decimal}
    (denotes : d.toDouble false = x.abs) :
    d.toDouble (x.isNegative && decide (x.magnitude ≠ 0)) = x.withoutZeroSign := by
  -- A zero loses its sign, and every other number is its magnitude with the sign put back.
  obtain ⟨negative, quanta, fits, rfl⟩ := exists_of_isFinite isFinite
  by_cases none : quanta = 0
  · subst none
    simpa [withoutZeroSign, isZero, magnitude, zero, Double.abs] using denotes
  · cases negative with
    | false => simpa [withoutZeroSign, isZero, isNegative, none, Double.abs] using denotes
    | true =>
      have opposite : d.toDouble true = .finite true quanta fits := by
        rw [Decimal.toDouble_true, denotes]
        rfl
      simpa [withoutZeroSign, isZero, isNegative, magnitude, none] using opposite

/-- A whole number has no sign of a zero. -/
theorem withoutZeroSign_roundHalfUp (x : Double) :
    x.roundHalfUp.withoutZeroSign = x.roundHalfUp := by
  have kept : ∀ {y : Double}, y.isZero = false → y.withoutZeroSign = y := by
    intro y nonzero
    unfold withoutZeroSign
    rw [nonzero, if_neg Bool.false_ne_true]
  -- A whole number is made from an integer, or it is the number itself and not a zero.
  cases isFinite : x.isFinite with
  | true =>
    rcases roundHalfUp_cases isFinite with ⟨n, _, same⟩ | ⟨same, large⟩
    · rw [same]
      by_cases none : n = 0
      · rw [none, ofInt_zero]
        rfl
      · exact kept (isZero_ofInt none)
    · rw [same]
      refine kept (eq_false_of_ne_true fun zero => ?_)
      rw [magnitude_of_isZero zero] at large
      exact absurd large (Nat.not_le.2 (Nat.mul_pos (twoTo_pos 53) unit_pos))
  | false =>
    rw [roundHalfUp_of_not_finite isFinite]
    cases x with
    | finite negative quanta fits => cases isFinite
    | nan => exact kept rfl
    | infinite negative => exact kept rfl

/-- Beside no uncertainty an exact value is written as a plain number of its magnitude behind its
sign, and below a thousand without an exponent. -/
theorem exists_plain_inWhole (isFinite : x.isFinite = true) (exact : exactFigures ≤ figures) :
    ∃ p : Plain, (x.inWhole true figures).toList = x.signText ++ p.text
      ∧ p.decimal.toDouble false = x.abs ∧ (x.magnitude < 1000 * one → p.scale = none) := by
  unfold inWhole
  simp only [exact, if_true]
  split
  · -- The shortest digits lose the exponent that they were written with.
    obtain ⟨p, text, value⟩ := x.shortest.exists_plain
    refine ⟨p, by rw [String.toList_ofList, text], ?_, fun _ => ?_⟩
    · rw [value, toDouble_shortest isFinite]
    · exact Plain.scale_eq_none (text ▸ x.shortest.unmarked_plain)
  · -- Below a thousand the shortest form is kept only if there is no exponent in it.
    rename_i kept
    obtain ⟨negative, quanta, fits, rfl⟩ := exists_of_isFinite isFinite
    obtain ⟨p, shown, written⟩ := exists_shown_text negative fits
    refine ⟨p, written, toDouble_shown rfl shown,
      fun small => Plain.scale_eq_none fun mark => kept ⟨?_, rfl, ?_⟩⟩
    · rw [List.contains_eq_mem, decide_eq_true_eq, written]
      exact List.mem_append_right _ mark
    · rw [Bool.not_eq_true', ← Bool.not_eq_true, thousand_le_abs_iff rfl, Nat.not_le]
      exact small

/-- Beside an uncertainty an exact value is made whole. -/
theorem inWhole_of_uncertain (exact : exactFigures ≤ figures) :
    x.inWhole false figures = x.roundHalfUp.text := by
  unfold inWhole
  simp only [exact, if_true, Bool.false_eq_true, if_false, ite_self]

/-- An exact value is read again as it was written. -/
theorem inWhole_again_of_exact (isFinite : x.isFinite = true) (exact : exactFigures ≤ figures) :
    (Figure.ofText (x.inWhole certain figures)).magnitude.inWhole certain figures
      = x.inWhole certain figures := by
  cases certain with
  | false =>
    rw [inWhole_of_uncertain exact, inWhole_of_uncertain exact, Figure.ofText_text,
      withoutZeroSign_roundHalfUp, roundHalfUp_again]
  | true =>
    -- Otherwise the shortest digits are written, with an exponent or without one.
    have read : (Figure.ofText (x.inWhole true figures)).magnitude = x.withoutZeroSign := by
      obtain ⟨p, written, value, _⟩ := exists_plain_inWhole isFinite exact
      rw [Figure.ofText_plain p (written.trans (congrArg (· ++ p.text) x.signText_eq))]
      exact signed_abs isFinite value
    rw [read]
    unfold withoutZeroSign
    split
    · -- Both zeros are written alike.
      rename_i none
      obtain ⟨negative, rfl⟩ := exists_of_isZero none
      have digit : ∀ sign, (finite sign 0 fits_zero).inWhole true figures = "0" := by
        intro sign
        have text : (finite sign 0 fits_zero).text = "0" := by cases sign <;> rfl
        unfold inWhole
        simp only [exact, if_true, text]
        exact if_neg fun exponent => absurd exponent.1 (by decide)
      rw [digit, ← digit false]
      rfl
    · rfl

/-- A value that stays as it is in significant figures: its rounding is a finite number; where that
is a power of ten, it reads back at most one twentieth of the last place below that; and beside an
uncertainty it is not shown as nothing, which has other zeros. -/
structure SettledDigits (x : Double) (certain : Bool) (figures : Int) : Prop where
  finite : (x.roundDigits figures).isFinite = true
  power : (x.toDigits (clampDigits figures)).coefficient = tenTo (clampDigits figures - 1) →
    (x.toDigits (clampDigits figures)).toRat - (x.roundDigits figures).abs.toRat
      ≤ 10 ^ (x.toDigits (clampDigits figures)).exponent / 20
  visible : certain = false → clampDigits figures ≠ 1 →
    10 ^ (-6 : Int) ≤ (x.toDigits (clampDigits figures)).toRat

/-- Rounding to digits looks at the magnitude alone. -/
theorem toDigits_of_magnitude (same : x.magnitude = y.magnitude) (count : Nat) :
    x.toDigits count = y.toDigits count := by
  unfold toDigits leadingExponent
  rw [same]

/-- Up to fifteen significant figures every value in a wide range stays as it is, if it is not shown
as nothing. -/
theorem SettledDigits.of_few (isFinite : x.isFinite = true) (few : clampDigits figures ≤ 15)
    (low : 10 ^ (-299 : Int) ≤ x.abs.toRat) (high : x.abs.toRat ≤ 10 ^ (299 : Int))
    (visible : certain = false → clampDigits figures ≠ 1 →
      10 ^ (-6 : Int) ≤ (x.toDigits (clampDigits figures)).toRat) :
        SettledDigits x certain figures := by
  have ten : (1 : Rat) < 10 := by norm_num
  have nonzero : x.magnitude ≠ 0 := by
    intro zero
    rw [toRat_abs, zero, Nat.cast_zero, zero_div] at low
    exact absurd low (not_le.2 (zpow_pos (by norm_num) _))
  have some := clampDigits_pos figures
  -- The digits are near the value, and so in the range in which doubles are.
  obtain ⟨below, above⟩ := abs_bounds nonzero
  have least := (zpow_lt_zpow_iff_right₀ ten).1 (low.trans_lt above)
  have most := (zpow_le_zpow_iff_right₀ ten).1 (below.trans high)
  obtain ⟨lower, upper⟩ := roundedQuotient_bounds (Nat.pos_of_ne_zero nonzero) unit_pos some
  rw [← toRat_toDigits x some] at lower upper
  obtain ⟨range, near⟩ := Decimal.abs_toDouble_sub_le
    ((zpow_le_zpow_right₀ ten.le (show -300 ≤ x.leadingExponent by omega)).trans lower)
    (upper.trans (zpow_le_zpow_right₀ ten.le (show x.leadingExponent + 1 ≤ 300 by omega)))
  obtain ⟨finite, magnitude⟩ := (x.toDigits (clampDigits figures)).toDouble_signed x.isNegative
  have rounded := roundDigits_of_nonzero isFinite nonzero figures
  refine ⟨by rw [rounded, finite, range], fun power => ?_, visible⟩
  -- A power of ten with so few digits is off by far less than a twentieth of the last one.
  have value : (x.roundDigits figures).abs.toRat
      = ((x.toDigits (clampDigits figures)).toDouble false).toRat := by
    rw [rounded, toRat_abs, magnitude, ← toRat_abs, abs_toDouble]
  have unit : (0 : Rat) < 10 ^ (x.toDigits (clampDigits figures)).exponent :=
    zpow_pos (by norm_num) _
  have digits : (x.toDigits (clampDigits figures)).toRat
      ≤ 10 ^ 14 * 10 ^ (x.toDigits (clampDigits figures)).exponent := by
    rw [Decimal.toRat_eq, power]
    refine mul_le_mul_of_nonneg_right ?_ unit.le
    have grows : tenTo (clampDigits figures - 1) ≤ 10 ^ 14 := tenTo_le (by omega)
    exact_mod_cast grows
  rw [value]
  linarith [neg_le_of_abs_le near]

/-- A value that was rounded to significant figures is rounded to the same ones again. -/
theorem SettledDigits.toDigits (settled : SettledDigits x certain figures)
    (isFinite : x.isFinite = true) (nonzero : x.magnitude ≠ 0) :
    (x.roundDigits figures).magnitude ≠ 0 ∧ (x.roundDigits figures).isNegative = x.isNegative
      ∧ (x.roundDigits figures).toDigits (clampDigits figures)
        = x.toDigits (clampDigits figures) := by
  -- The sign is left aside, since only the magnitude is rounded.
  have range := settled.finite
  have power := settled.power
  rw [toRat_abs] at power
  rw [roundDigits_of_nonzero isFinite nonzero] at range power ⊢
  obtain ⟨finite, magnitude⟩ := (x.toDigits (clampDigits figures)).toDouble_signed x.isNegative
  have value := toRat_abs ((x.toDigits (clampDigits figures)).toDouble false)
  rw [abs_toDouble] at value
  rw [magnitude, ← value] at power
  obtain ⟨some, again⟩ :=
    toDigits_toDouble isFinite nonzero (clampDigits_pos figures) (finite.symm.trans range) power
  exact ⟨magnitude.trans_ne some, Decimal.isNegative_toDouble _ _,
    (toDigits_of_magnitude magnitude _).trans again⟩

/-- Numbers of one sign that are rounded to the same digits are shown alike. -/
theorem inWhole_congr (left : x.isFinite = true) (right : y.isFinite = true)
    (some : x.magnitude ≠ 0)
    (others : y.magnitude ≠ 0) (sign : x.isNegative = y.isNegative)
    (digits : x.toDigits (clampDigits figures) = y.toDigits (clampDigits figures))
    (inexact : ¬exactFigures ≤ figures) :
    x.inWhole certain figures = y.inWhole certain figures := by
  have signs : x.signText = y.signText := by
    rw [signText_eq, signText_eq, sign, decide_eq_true some, decide_eq_true others]
  -- Everything that is shown is made from the digits and the sign.
  have rounded : x.roundDigits figures = y.roundDigits figures := by
    rw [roundDigits_of_nonzero left some, roundDigits_of_nonzero right others, digits, sign]
  have text : x.precise figures = y.precise figures := by
    unfold precise
    rw [left, right]
    dsimp only
    rw [if_neg some, if_neg others, digits, signs, Bool.not_true, if_neg Bool.false_ne_true,
      if_neg Bool.false_ne_true]
  unfold inWhole
  simp only [inexact, if_false, signs, rounded, text, digits]

/-- A value in significant figures loses its exponent below a thousand, and beside an uncertainty it
is made whole then. -/
theorem inWhole_of_inexact (x : Double) (certain : Bool) (inexact : ¬exactFigures ≤ figures) :
    x.inWhole certain figures
      = if 'e' ∈ (x.precise figures).toList ∧ (x.roundDigits figures).isFinite
          ∧ !(ofInt 1000).le (x.roundDigits figures).abs then
        if certain then String.ofList (x.signText ++ (x.toDigits (clampDigits figures)).plain)
        else (x.roundDigits figures).roundHalfUp.text
      else x.precise figures := by
  unfold inWhole
  simp only [inexact, if_false, List.contains_eq_mem, decide_eq_true_eq]

/-- A zero is shown as in significant figures, since there is no exponent to be taken away. -/
theorem inWhole_of_zero (isFinite : x.isFinite = true) (none : x.magnitude = 0)
    (inexact : ¬exactFigures ≤ figures) :
    x.inWhole certain figures = String.ofList (pointed 0 (clampDigits figures - 1)) := by
  rw [← precise_of_zero isFinite none, inWhole_of_inexact x certain inexact]
  exact if_neg fun exponent => ((mem_precise_iff isFinite).1 exponent.1).1 none

/-- A zero is read again as a zero. -/
theorem inWhole_again_of_zero (isFinite : x.isFinite = true) (none : x.magnitude = 0)
    (inexact : ¬exactFigures ≤ figures) :
    (Figure.ofText (x.inWhole certain figures)).magnitude.inWhole certain figures
      = x.inWhole certain figures := by
  obtain ⟨p, text, value⟩ := exists_plain_pointed 0 (clampDigits figures - 1) .none
  rw [Option.elim_none, List.append_nil] at text
  have written : (x.inWhole certain figures).toList = Numeral.signText false ++ p.text := by
    rw [inWhole_of_zero isFinite none inexact, String.toList_ofList, text]
    rfl
  -- Whatever the sign of the zero, its text is read as the zero without one.
  rw [Figure.ofText_plain p written, value, Decimal.toDouble_of_zero false rfl,
    inWhole_of_zero isFinite none inexact]
  exact inWhole_of_zero rfl rfl inexact

/-- A whole decimal below a thousand denotes a whole number. -/
theorem roundHalfUp_toDouble {d : Decimal} (negative : Bool) (positive : 0 < d.coefficient)
    (whole : 0 ≤ d.exponent) (small : (d.toDouble negative).magnitude < 1000 * one)
    (range : (d.toDouble negative).isFinite = true) :
    (d.toDouble negative).roundHalfUp = d.toDouble negative := by
  obtain ⟨finite, magnitude⟩ := d.toDouble_signed negative
  rw [magnitude, ← reach_eq_magnitude (finite.symm.trans range) (abs_toDouble _).symm] at small
  -- A decimal from a thousand on would reach that far.
  have few : d.coefficient * tenTo d.exponent.toNat < 1000 := by
    by_contra many
    have thousand : (Decimal.power 3).reach = 1000 * one :=
      Decimal.reach_power (n := 3) rfl (by decide)
    have value : (d.coefficient * tenTo d.exponent.toNat : Rat) = d.toRat := by
      rw [Decimal.toRat_eq, cast_tenTo, Int.toNat_of_nonneg whole]
    rw [← thousand] at small
    refine absurd (Decimal.reach_mono ?_) (Nat.not_le.2 small)
    rw [Decimal.toRat_power, ← value]
    calc (10 : Rat) ^ (3 : Int) = (1000 : Nat) := by norm_num
      _ ≤ d.coefficient * tenTo d.exponent.toNat := by exact_mod_cast Nat.not_lt.1 many
  -- Without a fraction it is a small whole number, which is a double.
  have same : d.toDouble negative
      = ofInt (if negative then -(d.coefficient * tenTo d.exponent.toNat : Nat)
        else (d.coefficient * tenTo d.exponent.toNat : Nat)) := by
    have some : 0 < d.coefficient * tenTo d.exponent.toNat := Nat.mul_pos positive (tenTo_pos _)
    rw [Decimal.toDouble_eq_ofQuotient]
    unfold Decimal.quanta ofInt
    dsimp only
    rw [show (-d.exponent).toNat = 0 by omega, show tenTo 0 = 1 from rfl]
    generalize d.coefficient * tenTo d.exponent.toNat = n at some
    cases negative with
    | false => simp [Int.not_lt.2 (Int.natCast_nonneg n)]
    | true => simp [some]
  have bits : 1000 ≤ twoTo 53 := by decide
  rw [same, roundHalfUp_ofInt]
  cases negative <;> simp only [if_true, Bool.false_eq_true, if_false] <;> omega

/-- A number is less than a millionth when it is rounded to digits exactly if its leading digit
stands below that. -/
theorem toRat_toDigits_lt_iff (nonzero : x.magnitude ≠ 0) {count : Nat} (some : 0 < count) :
    (x.toDigits count).toRat < 10 ^ (-6 : Int) ↔ (x.toDigits count).exponent + count - 1 < -6 := by
  have ten : (1 : Rat) < 10 := by norm_num
  have below := toRat_toDigits_lt nonzero some
  constructor
  · -- The first digit is at least one.
    intro tiny
    have least := le_toRat_toDigits nonzero some
    exact (zpow_lt_zpow_iff_right₀ ten).1 (least.trans_lt tiny)
  · intro low
    exact below.trans_le (zpow_le_zpow_right₀ ten.le (by omega))

/-- A number that is rounded to digits below a millionth is finite, and less than one half. -/
theorem roundDigits_of_tiny (isFinite : x.isFinite = true) (nonzero : x.magnitude ≠ 0)
    (tiny : (x.toDigits (clampDigits figures)).toRat < 10 ^ (-6 : Int)) :
    (x.roundDigits figures).isFinite = true ∧ 2 * (x.roundDigits figures).magnitude < one := by
  obtain ⟨finite, magnitude⟩ := (x.toDigits (clampDigits figures)).toDouble_signed x.isNegative
  have le := tiny.le.trans_eq (Decimal.toRat_power (-6)).symm
  have range := Decimal.isFinite_toDouble_mono le (by decide +kernel)
  -- Twice a millionth is below one, and rounding keeps the order.
  have least : 2 * (Decimal.power (-6)).reach < one := by decide +kernel
  have order := Decimal.reach_mono le
  rw [roundDigits_of_nonzero isFinite nonzero, magnitude,
    ← reach_eq_magnitude range (abs_toDouble _).symm]
  exact ⟨finite.trans range, by omega⟩

/-- A number below a millionth is nearest to zero when it is rounded to digits. -/
theorem roundHalfUp_roundDigits_of_tiny (isFinite : x.isFinite = true) (nonzero : x.magnitude ≠ 0)
    (tiny : (x.toDigits (clampDigits figures)).toRat < 10 ^ (-6 : Int)) :
    (x.roundDigits figures).roundHalfUp = zero := by
  have unit : (0 : Rat) < one := Nat.cast_pos.2 unit_pos
  obtain ⟨range, bound⟩ := roundDigits_of_tiny isFinite nonzero tiny
  -- What is rounded is still less than one half from zero.
  have near : |(x.roundDigits figures).toRat| < 1 / 2 := by
    have small : (2 * (x.roundDigits figures).magnitude : Rat) < one := by exact_mod_cast bound
    rw [abs_toRat range, div_lt_iff₀ unit]
    linarith
  obtain ⟨low, high⟩ := abs_lt.1 near
  rw [roundHalfUp_of_near (n := 0) range (by push_cast; linarith) (by push_cast; linarith),
    ofInt_zero]

/-- A number below a thousand that is rounded to digits without any behind the point is whole. -/
theorem roundHalfUp_roundDigits_of_large (isFinite : x.isFinite = true) (nonzero : x.magnitude ≠ 0)
    (large : clampDigits figures ≤ (x.toDigits (clampDigits figures)).exponent
      + clampDigits figures - 1)
    (range : (x.roundDigits figures).isFinite = true)
    (small : (!(ofInt 1000).le (x.roundDigits figures).abs) = true) :
    (x.roundDigits figures).roundHalfUp = x.roundDigits figures := by
  rw [Bool.not_eq_true', ← Bool.not_eq_true, thousand_le_abs_iff range, Nat.not_le] at small
  rw [roundDigits_of_nonzero isFinite nonzero] at small range ⊢
  have positive := (toDigits_bounds nonzero (clampDigits_pos figures)).1
  exact roundHalfUp_toDouble _ (Nat.lt_of_lt_of_le (tenTo_pos _) positive) (by omega) small range

/-- A value below a thousand that would have an exponent is a single digit of nothing beside an
uncertainty, or whole. -/
theorem SettledDigits.roundHalfUp (settled : SettledDigits x false figures)
    (isFinite : x.isFinite = true) (mark : 'e' ∈ (x.precise figures).toList)
    (small : (!(ofInt 1000).le (x.roundDigits figures).abs) = true) :
    ((x.roundDigits figures).roundHalfUp = zero ∧ clampDigits figures = 1)
      ∨ (x.roundDigits figures).roundHalfUp = x.roundDigits figures := by
  obtain ⟨nonzero, low | high⟩ := (mem_precise_iff isFinite).1 mark
  · -- Only a single digit below a millionth is settled, and it is shown as nothing.
    have tiny := (toRat_toDigits_lt_iff nonzero (clampDigits_pos figures)).2 low
    refine .inl ⟨roundHalfUp_roundDigits_of_tiny isFinite nonzero tiny, ?_⟩
    by_contra more
    exact absurd tiny (not_lt.2 (settled.visible rfl more))
  · -- Otherwise there are zeros before the point, and the number is whole.
    exact .inr (roundHalfUp_roundDigits_of_large isFinite nonzero high settled.finite small)

/-- Without an exponent the digits of a value denote, behind its sign, the number that it is rounded
to. -/
theorem exists_plain_unscaled (isFinite : x.isFinite = true)
    (nonzero : x.magnitude ≠ 0) (figures : Int) :
    ∃ p : Plain, x.signText ++ (x.toDigits (clampDigits figures)).plain
      = Numeral.signText x.isNegative ++ p.text
      ∧ p.decimal.toDouble x.isNegative = x.roundDigits figures := by
  obtain ⟨p, text, value⟩ := (x.toDigits (clampDigits figures)).exists_plain
  refine ⟨p, ?_, ?_⟩
  · rw [signText_eq, decide_eq_true nonzero, Bool.and_true, text]
  · rw [value, roundDigits_of_nonzero isFinite nonzero]

/-- A value is read again from its significant figures as the number that they are rounded to,
unless it is shown as nothing. -/
theorem inWhole_again_of_digits (isFinite : x.isFinite = true) (nonzero : x.magnitude ≠ 0)
    (inexact : ¬exactFigures ≤ figures) (settled : SettledDigits x certain figures) :
    (Figure.ofText (x.inWhole certain figures)).magnitude.inWhole certain figures
      = x.inWhole certain figures := by
  obtain ⟨some, sign, digits⟩ := settled.toDigits isFinite nonzero
  have rounded := roundDigits_of_nonzero isFinite nonzero figures
  have same : (x.roundDigits figures).inWhole certain figures = x.inWhole certain figures :=
    inWhole_congr settled.finite isFinite some nonzero sign digits inexact
  have minus : (x.isNegative && decide (x.magnitude ≠ 0)) = x.isNegative := by
    rw [decide_eq_true nonzero, Bool.and_true]
  have shown := x.inWhole_of_inexact certain inexact
  split at shown
  · rename_i exponent
    obtain ⟨mark, _, small⟩ := exponent
    cases certain with
    | true =>
      -- Without the exponent the text has the same digits.
      obtain ⟨p, text, value⟩ := exists_plain_unscaled isFinite nonzero figures
      rw [if_pos rfl] at shown
      rw [Figure.ofText_plain p (by rw [shown, String.toList_ofList, text]), value, same]
    | false =>
      rw [if_neg Bool.false_ne_true] at shown
      -- Beside an uncertainty a number below one may be shown as zero, which is shown as zero
      -- again.
      rcases settled.roundHalfUp isFinite mark small with ⟨nothing, single⟩ | whole
      · have digit : x.inWhole false figures = "0" := by
          rw [shown, nothing]
          rfl
        have read : (Figure.ofText "0").magnitude = zero := rfl
        rw [digit, read, inWhole_of_zero rfl rfl inexact, single]
        decide
      · have read : (Figure.ofText (x.inWhole false figures)).magnitude
            = x.roundDigits figures := by
          rw [shown, Figure.ofText_text, withoutZeroSign_roundHalfUp, whole]
        rw [read, same]
  · obtain ⟨p, written, value⟩ := exists_plain_precise isFinite nonzero figures
    rw [← shown, signText_eq, minus] at written
    rw [Figure.ofText_plain p written, value, ← rounded, same]

end Double

/-- The leading digit of a positive number stands before the ones place from ten on. -/
theorem Double.roundedOrder_pos_iff {x : Double} (isFinite : x.isFinite = true)
    (positive : zero.lt x = true) : 0 < x.roundedOrder ↔ 10 ≤ x.toRat := by
  have nonzero := isZero_of_lt positive
  have ten : (Decimal.power 1).toDouble false = ofInt 10 := Decimal.toDouble_power 1
  have quanta : (ofInt 10).magnitude = 10 * one := (ofInt_natCast (n := 10) (by decide)).1
  -- Ten is a double, so that the leading digit tells on which side of it the number is.
  have reached := lt_leading_iff isFinite nonzero 1 (by rw [ten, isFinite_ofInt (by decide)])
    (by rw [ten]; decide +kernel)
  rw [ten, quanta] at reached
  have value : x.toRat = x.magnitude / one := by
    rw [← abs_toRat isFinite, abs_of_pos ((zero_lt_iff isFinite).1.1 positive)]
  rw [roundedOrder_eq isFinite nonzero, Int.sub_pos, reached, value,
    le_div_iff₀ (Nat.cast_pos.2 unit_pos)]
  exact_mod_cast Iff.rfl

/-- From ten on the nearest whole number is not below ten either. -/
theorem Double.ten_le_roundHalfUp {x : Double} (isFinite : x.isFinite = true)
    (least : 10 ≤ x.toRat) :
    10 ≤ x.roundHalfUp.toRat := by
  have ten : ((10 : Int) : Rat) ≤ x.toRat + 1 / 2 := by push_cast; linarith
  rw [toRat_roundHalfUp isFinite]
  exact_mod_cast Int.le_floor.2 ten

/-- An uncertainty without a place behind the point, made whole, has none when it is read again, and
is none only if it was none. -/
theorem decimalPlace_whole_again {u : Figure} (isFinite : u.magnitude.isFinite = true)
    (nonnegative : u.magnitude.lt zero = false) (above : decimalPlace u (some u) < 0) :
    decimalPlace (.ofText u.magnitude.roundHalfUp.text) (Figure.ofText u.magnitude.roundHalfUp.text)
      < 0
      ∧ u.magnitude.roundHalfUp.isZero = u.magnitude.isZero := by
  cases none : u.magnitude.isZero with
  | true =>
    obtain ⟨negative, same⟩ := exists_of_isZero none
    rw [same]
    cases negative <;> decide +kernel
  | false =>
    have positive := zero_lt_of_nonzero isFinite nonnegative none
    -- The leading digit stands at ten or above, and so it does in the nearest whole number.
    have written : u.digits ≠ "" := by
      intro empty
      have undecided : u.place? = .none := if_neg fun both => both.1 empty
      rw [decimalPlace, Option.bind_some, undecided, Option.getD_none, empty] at above
      exact absurd above (by decide)
    rw [decimalPlace_of_decides ⟨written, positive⟩ isFinite, Int.neg_neg_iff_pos,
      roundedOrder_pos_iff isFinite positive] at above
    have range := isFinite_roundHalfUp isFinite
    have least := ten_le_roundHalfUp isFinite above
    have positive' : zero.lt u.magnitude.roundHalfUp = true := (zero_lt_iff range).1.2 (by linarith)
    refine ⟨?_, isZero_of_lt positive'⟩
    rw [Figure.ofText_text, withoutZeroSign_roundHalfUp,
      decimalPlace_of_decides ⟨text_ne_empty _, positive'⟩ range, Int.neg_neg_iff_pos,
      roundedOrder_pos_iff range positive']
    exact least

/-- A result without a place behind the point is rounded to the same texts when it is read again. -/
theorem roundToFigures_again_of_whole {v : Double} (isFinite : v.isFinite = true) {u : Figure}
    (range : u.magnitude.isFinite = true)
    (nonnegative : u.magnitude.lt zero = false) {figures : Int}
    (above : decimalPlace u (some u) < 0)
    (settled : figures < exactFigures → v.magnitude ≠ 0 →
      SettledDigits v u.magnitude.isZero figures) :
    roundToFigures (Figure.ofText (roundToFigures v u figures).value).magnitude
      (.ofText (roundToFigures v u figures).uncertainty) figures = roundToFigures v u figures := by
  obtain ⟨place, zero⟩ := decimalPlace_whole_again range nonnegative above
  -- The value is shown again as it was, whether it is exact, zero or rounded.
  have value : (Figure.ofText (v.inWhole u.magnitude.isZero figures)).magnitude.inWhole
      u.magnitude.isZero figures = v.inWhole u.magnitude.isZero figures := by
    rcases Int.lt_or_le figures exactFigures with inexact | exact
    · by_cases none : v.magnitude = 0
      · exact inWhole_again_of_zero isFinite none (Int.not_le.2 inexact)
      · exact inWhole_again_of_digits isFinite none (Int.not_le.2 inexact) (settled inexact none)
    · exact inWhole_again_of_exact isFinite exact
  -- The uncertainty is whole already.
  have same : (Figure.ofText u.magnitude.roundHalfUp.text).magnitude = u.magnitude.roundHalfUp := by
    rw [Figure.ofText_text, withoutZeroSign_roundHalfUp]
  rw [roundToFigures_of_whole v u figures above, roundToFigures_of_whole _ _ _ place]
  dsimp only
  rw [same, zero, value, roundHalfUp_again]

end PlusMinus
