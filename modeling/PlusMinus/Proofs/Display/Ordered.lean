import PlusMinus.Proofs.Display.InRange
import PlusMinus.Proofs.Double.Middle

/-! Displayed values keep the order of the numbers that they stand for: beside one uncertainty a
larger value is never shown by a text that reads back as a smaller number, whichever way the two
texts are written. -/

namespace PlusMinus

open Double Numeral

/-- A decimal without a coefficient does not reach beyond zero. -/
theorem Decimal.reach_of_zero {d : Decimal} (none : d.coefficient = 0) : d.reach = 0 := by
  have place := d.position?_toDouble false
  rw [toDouble_of_zero false none] at place
  simpa [position?, signedQuanta] using place.symm

namespace Double

variable {x y : Double}

/-- How far from zero a number is read from its text with fixed places: as far as its units at the
last place, and from 10^21 on as far as the number itself. -/
def fixedReach (x : Double) (places : Int) : Nat :=
  if x.magnitude < fixedLimit then (x.toPlaces (clampPlaces places)).reach else x.magnitude

/-- A number with fixed places is read on the side of its sign. -/
theorem position?_ofText_fixed (isFinite : x.isFinite = true) (places : Int) :
    (ofText (x.fixed places)).position?
      = some (if x.isNegative then -(x.fixedReach places : Int) else x.fixedReach places) := by
  unfold fixedReach
  rcases Nat.lt_or_ge x.magnitude fixedLimit with small | large
  · obtain ⟨p, written, value⟩ := exists_plain_fixed isFinite small places
    rw [signText_eq] at written
    rw [ofText_plain p written, value, Decimal.position?_toDouble, if_pos small]
    -- Only a zero loses its sign, and it has no side.
    by_cases none : x.magnitude = 0
    · rw [Decimal.reach_of_zero (toPlaces_coefficient_of_zero none _)]
      simp
    · rw [decide_eq_true none, Bool.and_true]
  · rw [fixed_of_large large, ofText_text, x.withoutZeroSign_alike.position?,
      if_neg (Nat.not_lt.2 large)]
    obtain ⟨negative, quanta, fits, rfl⟩ := exists_of_isFinite isFinite
    exact congrArg some (signedQuanta_finite negative quanta fits)

/-- A larger magnitude is not read closer to zero from its text with fixed places. -/
theorem fixedReach_mono (left : x.isFinite = true) (le : x.magnitude ≤ y.magnitude) (places : Int) :
    x.fixedReach places ≤ y.fixedReach places := by
  unfold fixedReach
  rcases Nat.lt_or_ge y.magnitude fixedLimit with small | large
  · -- Below 10^21 both are rounded to units of the same place.
    rw [if_pos small, if_pos (Nat.lt_of_le_of_lt le small)]
    refine Decimal.reach_mono ?_
    have units : (x.toPlaces (clampPlaces places)).coefficient
        ≤ (y.toPlaces (clampPlaces places)).coefficient := by
      unfold toPlaces
      dsimp only
      exact roundDiv_le_roundDiv .upward _ (Nat.mul_le_mul_right _ le)
    rw [Decimal.toRat_eq, Decimal.toRat_eq]
    exact mul_le_mul_of_nonneg_right (by exact_mod_cast units) (zpow_pos (by norm_num) _).le
  · rw [if_neg (Nat.not_lt.2 large)]
    split
    · -- A number below 10^21 is not rounded beyond that.
      rename_i small
      obtain ⟨range, bound⟩ := toDouble_toPlaces left small (clampPlaces places)
      rw [reach_eq_magnitude range (abs_toDouble _).symm]
      omega
    · exact le

namespace NotAbove

/-- Numbers with fixed places are read in their order. -/
theorem ofText_fixed (notAbove : x.NotAbove y) (places : Int) :
    (ofText (x.fixed places)).NotAbove (ofText (y.fixed places)) := by
  -- What is not finite is written as a word, and read as itself.
  refine of_finite (fun z => ofText (z.fixed places)) (ofText_text nan)
    (fun negative => ofText_text _) notAbove
    fun left right => ?_
  refine of_sides (fun z => ofText (z.fixed places)) (·.fixedReach places)
    (fun z isFinite => position?_ofText_fixed isFinite places)
    (fun z w isFinite _ le => fixedReach_mono isFinite le places)
      (fun z none => ?_) notAbove left right
  have below : z.magnitude < fixedLimit := none ▸ Nat.mul_pos (tenTo_pos 21) unit_pos
  rw [fixedReach, if_pos below, Decimal.reach_of_zero (toPlaces_coefficient_of_zero none _)]

/-- Numbers at a decimal place are read in their order. -/
theorem ofText_atPlace (notAbove : x.NotAbove y) (place : Int) :
    (ofText (x.atPlace place)).NotAbove (ofText (y.atPlace place)) := by
  unfold atPlace
  split
  · rw [ofText_text, ofText_text, withoutZeroSign_roundHalfUp, withoutZeroSign_roundHalfUp]
    exact notAbove.roundHalfUp
  · exact notAbove.ofText_fixed place

/-- Scaling by a power of ten, and scaling back, keeps the order. -/
theorem scaled (notAbove : x.NotAbove y) {place : Int} (low : -300 ≤ place) (high : place ≤ 100) :
    (x * powerOfTen place).NotAbove (y * powerOfTen place)
      ∧ (x / powerOfTen place).NotAbove (y / powerOfTen place) := by
  obtain ⟨range, nonzero⟩ := powerOfTen_scale place low high
  have unit : (0 : Rat) < 10 ^ place := zpow_pos (by norm_num) _
  have scale : 0 < (powerOfTen place).toRat := by linarith [(powerOfTen_bounds low high).1]
  constructor
  · refine of_finite (· * powerOfTen place) rfl
      (fun negative => (infinite_scaled negative low high).1) notAbove
      fun left right => ?_
    -- Exact products with a positive number are in order, and so they are when they are rounded.
    have order := mul_le_mul_of_nonneg_right (notAbove.toRat_le left right) scale.le
    exact (nearest_notAbove order).congr
      (Operator.mul.compute_alike_nearest left range (by simp)).symm
      (Operator.mul.compute_alike_nearest right range (by simp)).symm
  · refine of_finite (· / powerOfTen place) (nan_div _)
      (fun negative => (infinite_scaled negative low high).2) notAbove
      fun left right => ?_
    have order := div_le_div_of_nonneg_right (notAbove.toRat_le left right) scale.le
    exact (nearest_notAbove order).congr
      (Operator.div.compute_alike_nearest left range fun _ => nonzero).symm
      (Operator.div.compute_alike_nearest right range fun _ => nonzero).symm

/-- Numbers are put on a grid in their order. -/
theorem onGrid (notAbove : x.NotAbove y) {place : Int} (low : -300 ≤ place) (high : place ≤ 100) :
    (x.onGrid place).NotAbove (y.onGrid place) :=
  ((notAbove.scaled low high).1.roundHalfUp.scaled low high).2

end NotAbove

section Figures

variable {certain : Bool} {figures : Int}

/-- The number that is read from a value in significant figures without a place behind the point. An
exact value is only made whole beside an uncertainty, and every other one is rounded to its digits;
but beside an uncertainty what is below a millionth then is read as nothing. -/
def readInWhole (x : Double) (certain : Bool) (figures : Int) : Double :=
  if exactFigures ≤ figures then (if certain then x else x.roundHalfUp)
  else if certain = false ∧ (x.toDigits (clampDigits figures)).toRat < 10 ^ (-6 : Int) then zero
  else x.roundDigits figures

/-- An exact value without a place behind the point is read as itself beside no uncertainty, and
otherwise as the whole number nearest to it. -/
theorem ofText_inWhole_of_exact (isFinite : x.isFinite = true) (exact : exactFigures ≤ figures) :
    (ofText (x.inWhole certain figures)).Alike (x.readInWhole certain figures) := by
  rw [readInWhole, if_pos exact]
  -- Beside no uncertainty all digits stay, and otherwise the value is rounded to a whole number.
  cases certain with
  | true =>
    obtain ⟨p, written, value, _⟩ := exists_plain_inWhole isFinite exact
    rw [signText_eq] at written
    rw [ofText_plain p written, signed_abs isFinite value]
    exact x.withoutZeroSign_alike
  | false =>
    rw [inWhole_of_uncertain exact, ofText_text, withoutZeroSign_roundHalfUp]
    exact .refl _

/-- A value in significant figures without a place behind the point is read as the number that its
digits denote, unless it is shown as nothing. -/
theorem ofText_inWhole_of_inexact (isFinite : x.isFinite = true)
    (inexact : ¬exactFigures ≤ figures) :
    (ofText (x.inWhole certain figures)).Alike (x.readInWhole certain figures) := by
  rw [readInWhole, if_neg inexact, inWhole_of_inexact x certain inexact]
  split
  · -- Without its exponent the number keeps its digits, or it is made whole beside an uncertainty.
    rename_i unscaled
    obtain ⟨mark, range, small⟩ := unscaled
    obtain ⟨nonzero, far⟩ := (mem_precise_iff isFinite).1 mark
    cases certain with
    | true =>
      obtain ⟨p, text, value⟩ := exists_plain_unscaled isFinite nonzero figures
      rw [if_pos rfl, ofText_plain p (by rw [String.toList_ofList, text]), value]
      exact .refl _
    | false =>
      have digits := toRat_toDigits_lt_iff nonzero (clampDigits_pos figures)
      rw [if_neg Bool.false_ne_true, ofText_text, withoutZeroSign_roundHalfUp]
      -- An exponent below zero means that the number is shown as zero, and any other one that it is
      -- whole already.
      rcases far with low | high
      · rw [if_pos ⟨rfl, digits.2 low⟩,
          roundHalfUp_roundDigits_of_tiny isFinite nonzero (digits.2 low)]
        exact .refl _
      · have above : ¬(x.toDigits (clampDigits figures)).toRat < 10 ^ (-6 : Int) := fun tiny => by
          have low := digits.1 tiny
          omega
        rw [if_neg fun both => above both.2,
          roundHalfUp_roundDigits_of_large isFinite nonzero high range small]
        exact .refl _
  · -- The exponent is kept only from a thousand on, so that nothing but a zero is below a
    -- millionth.
    rename_i kept
    rw [ofText, double?_precise isFinite, Option.getD_some]
    split
    · rename_i nothing
      by_cases none : x.magnitude = 0
      · simp [roundDigits, isFinite, none, Alike]
      · obtain ⟨range, small⟩ := roundDigits_of_tiny isFinite none nothing.2
        refine absurd ⟨(mem_precise_iff isFinite).2 ⟨none, .inl ?_⟩, range, ?_⟩ kept
        · exact (toRat_toDigits_lt_iff none (clampDigits_pos figures)).1 nothing.2
        · rw [Bool.not_eq_true', ← Bool.not_eq_true, thousand_le_abs_iff range]
          omega
    · exact .refl _

/-- A value without a place behind the point is read as the number that it is shown as. -/
theorem ofText_inWhole (isFinite : x.isFinite = true) :
    (ofText (x.inWhole certain figures)).Alike (x.readInWhole certain figures) := by
  by_cases exact : exactFigures ≤ figures
  · exact ofText_inWhole_of_exact isFinite exact
  · exact ofText_inWhole_of_inexact isFinite exact

/-- How far from zero a number lies when it is rounded to digits and what is below a millionth then
is nothing. -/
def visibleReach (x : Double) (figures : Int) : Nat :=
  if (x.toDigits (clampDigits figures)).toRat < 10 ^ (-6 : Int) then 0 else x.digitReach figures

/-- A larger magnitude is not read closer to zero, also where only one of the two is shown as
nothing. -/
theorem visibleReach_mono (le : x.magnitude ≤ y.magnitude) (figures : Int) :
    x.visibleReach figures ≤ y.visibleReach figures := by
  unfold visibleReach
  split
  · exact Nat.zero_le _
  · rename_i visible
    by_cases none : x.magnitude = 0
    · rw [digitReach, if_pos none]
      exact Nat.zero_le _
    · -- The digits of the larger number are not below a millionth either.
      have digits : (x.toDigits (clampDigits figures)).toRat
          ≤ (y.toDigits (clampDigits figures)).toRat := by
        rw [toRat_toDigits _ (clampDigits_pos figures), toRat_toDigits _ (clampDigits_pos figures)]
        exact roundedQuotient_mono (Nat.pos_of_ne_zero none) unit_pos (clampDigits_pos figures) le
      rw [if_neg fun tiny => visible (digits.trans_lt tiny)]
      exact digitReach_mono le figures

/-- Values in significant figures without a place behind the point are read in their order. -/
theorem NotAbove.readInWhole (notAbove : x.NotAbove y) (left : x.isFinite = true)
    (right : y.isFinite = true) :
    (x.readInWhole certain figures).NotAbove (y.readInWhole certain figures) := by
  -- Rounding keeps the order in each case; only below 10^-6 are the digits read as zero, and there
  -- it is how far they reach that is compared.
  by_cases exact : exactFigures ≤ figures
  · cases certain with
    | true => simpa [Double.readInWhole, exact] using notAbove
    | false => simpa [Double.readInWhole, exact] using notAbove.roundHalfUp
  · cases certain with
    | true => simpa [Double.readInWhole, exact] using notAbove.roundDigits figures
    | false =>
      refine of_sides (·.readInWhole false figures) (·.visibleReach figures)
        (fun z isFinite => ?_) (fun z w _ _ le => visibleReach_mono le figures)
          (fun z none => ?_) notAbove left right
      · unfold Double.readInWhole visibleReach
        rw [if_neg exact]
        by_cases tiny : (z.toDigits (clampDigits figures)).toRat < 10 ^ (-6 : Int)
        · rw [if_pos ⟨rfl, tiny⟩, if_pos tiny]
          simp [zero, position?, signedQuanta]
        · rw [if_neg fun both => tiny both.2, if_neg tiny]
          exact position?_roundDigits isFinite figures
      · unfold visibleReach
        rw [digitReach, if_pos none, ite_self]

/-- A value in significant figures without a place behind the point is read as a number. -/
theorem isNaN_readInWhole (isFinite : x.isFinite = true) :
    (x.readInWhole certain figures).isNaN = false := by
  unfold readInWhole
  split
  · split
    · exact isNaN_of_isFinite isFinite
    · exact isNaN_of_isFinite (isFinite_roundHalfUp isFinite)
  split
  · rfl
  · exact isNaN_of_position? (position?_roundDigits isFinite figures)

end Figures

end Double

section Result

variable {v w : Double} (u : Figure) (precision : Int) (useDecimalPlace : Bool)

/-- A finite value is shown by a text that is read as a number. -/
theorem isNaN_ofText_roundResult (isFinite : v.isFinite = true) :
    (ofText (roundResult v u precision useDecimalPlace).value).isNaN = false := by
  -- Each way of rounding shows a number that can be read: at a place, in whole figures, and in
  -- figures behind the point.
  cases useDecimalPlace with
  | true =>
    rw [roundResult, if_pos rfl, roundToPlace_eq]
    exact (ofText_onGrid isFinite (by omega) (by omega)).1
  | false =>
    rw [roundResult, if_neg Bool.false_ne_true]
    rcases Int.lt_or_le (decimalPlace u (some u)) 0 with before | behind
    · rw [roundToFigures_of_whole v u precision before, (ofText_inWhole isFinite).isNaN]
      exact isNaN_readInWhole isFinite
    · rw [roundToFigures_of_place isFinite u precision behind]
      exact isNaN_of_position? (position?_ofText_fixed isFinite _)

/-- Values beside one uncertainty are read in their order. -/
theorem notAbove_ofText_roundResult (notAbove : v.NotAbove w) (left : v.isFinite = true)
    (right : w.isFinite = true) :
    (ofText (roundResult v u precision useDecimalPlace).value).NotAbove
      (ofText (roundResult w u precision useDecimalPlace).value) := by
  cases useDecimalPlace with
  | true =>
    -- Both are put on one grid, and then shown at its place.
    simp only [roundResult, if_true, roundToPlace_eq]
    exact (notAbove.onGrid (by omega) (by omega)).ofText_atPlace _
  | false =>
    simp only [roundResult, Bool.false_eq_true, if_false]
    -- The place is that of the uncertainty, so that both are shown in the same way.
    rcases Int.lt_or_le (decimalPlace u (some u)) 0 with before | behind
    · rw [roundToFigures_of_whole v u precision before,
        roundToFigures_of_whole w u precision before]
      exact (notAbove.readInWhole left right).congr (ofText_inWhole left).symm
        (ofText_inWhole right).symm
    · rw [roundToFigures_of_place left u precision behind,
        roundToFigures_of_place right u precision behind]
      exact notAbove.ofText_fixed _

/-- Of two finite values beside one uncertainty the smaller one is not read as a larger number than
the other. -/
theorem ofText_roundResult_le (notAbove : v.NotAbove w) (left : v.isFinite = true)
    (right : w.isFinite = true) :
    (ofText (roundResult v u precision useDecimalPlace).value).le
      (ofText (roundResult w u precision useDecimalPlace).value) = true :=
  (notAbove_ofText_roundResult u precision useDecimalPlace notAbove left right).le
    (isNaN_ofText_roundResult u precision useDecimalPlace left)
    (isNaN_ofText_roundResult u precision useDecimalPlace right)

/-- The text of a finite value is legible as the number that it is read as. -/
theorem double?_roundResult (isFinite : v.isFinite = true) :
    double? (roundResult v u precision useDecimalPlace).value.toList
      = some (ofText (roundResult v u precision useDecimalPlace).value) := by
  have number := isNaN_ofText_roundResult u precision useDecimalPlace isFinite
  generalize (roundResult v u precision useDecimalPlace).value = text at number
  unfold ofText at number ⊢
  -- A text that is not legible would be read as what is no number.
  cases read : double? text.toList with
  | none =>
    rw [read] at number
    cases number
  | some y => rfl

end Result

/-- A range whose ends have a sum in range is always shown, by texts that are read as numbers; and
the smaller end is not read as a larger number than the middle, nor the middle as a larger one than
the other end, whatever the precision and the rule are. -/
theorem checkedRoundRange_ordered {low high : Double} (order : low.le high = true)
    (range : (low + high).isFinite = true) (precision : Int) (useDecimalPlace : Bool) :
    ∃ shown, checkedRoundRange low high precision useDecimalPlace = .ok shown
      ∧ ∃ least middle most, double? shown.min.value.toList = some least
        ∧ double? shown.mid.value.toList = some middle ∧ double? shown.max.value.toList = some most
        ∧ least.le middle = true ∧ middle.le most = true := by
  obtain ⟨left, right⟩ := isFinite_of_add range
  obtain ⟨inside, lower, upper⟩ := (NotAbove.of_le order).halve_add range
  -- All three are rounded beside half the range, and the middle is between the ends.
  exact ⟨_, checkedRoundRange_eq_ok low high precision useDecimalPlace, _, _, _,
    double?_roundResult _ precision useDecimalPlace left,
      double?_roundResult _ precision useDecimalPlace inside,
    double?_roundResult _ precision useDecimalPlace right,
    ofText_roundResult_le _ precision useDecimalPlace lower left inside,
    ofText_roundResult_le _ precision useDecimalPlace upper inside right⟩

/-- From 9.5 to 1234567 three significant figures are shown with an exponent only behind the middle
and the larger end. -/
theorem checkedRoundRange_ordered_exponent :
    ∃ shown, checkedRoundRange (ofText "9.5") (ofText "1234567") 3 false = .ok shown
      ∧ shown.min.value = "9.50" ∧ shown.mid.value = "6.17e+5" ∧ shown.max.value = "1.23e+6"
      ∧ ∃ least middle most, double? shown.min.value.toList = some least
        ∧ double? shown.mid.value.toList = some middle ∧ double? shown.max.value.toList = some most
        ∧ least.le middle = true ∧ middle.le most = true := by
  obtain ⟨shown, rounded, reads⟩ := checkedRoundRange_ordered
    (by decide +kernel : (ofText "9.5").le (ofText "1234567") = true) (by decide +kernel) 3 false
  obtain rfl : roundRange (ofText "9.5") (ofText "1234567") 3 false = shown := by
    rw [checkedRoundRange_eq_ok] at rounded
    exact Except.ok.inj rounded
  exact ⟨_, rounded, by decide +kernel, by decide +kernel, by decide +kernel, reads⟩

end PlusMinus
