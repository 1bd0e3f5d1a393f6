import Mathlib.Data.List.TakeWhile
import PlusMinus.Proofs.Checked.Display
import PlusMinus.Proofs.Decimal.Digit
import PlusMinus.Proofs.Decimal.Fixed
import PlusMinus.Proofs.Measure.Canonical
import PlusMinus.Proofs.Measure.Place
import PlusMinus.Proofs.Numeral.Written

/-! Results at a decimal place behind the point: when the leading digit of the uncertainty stays
where it is, both texts are read as numbers that are shown with the same texts again. -/

namespace PlusMinus

open Double Numeral Text

/-- A plain number behind its sign is read as the double that it denotes. -/
theorem Double.ofText_plain {text : String} {negative : Bool} (p : Plain)
    (written : text.toList = Numeral.signText negative ++ p.text) :
    ofText text = p.decimal.toDouble negative := by
  rw [ofText, written, p.double?_text, Option.getD_some]

namespace Figure

/-- A plain number behind its sign is read with its digits as the double that it denotes. -/
theorem ofText_plain {text : String} {negative : Bool} (p : Plain)
    (written : text.toList = Numeral.signText negative ++ p.text) :
    ofText text = ⟨text, p.decimal.toDouble negative⟩ := by
  have solid : ∀ c ∈ text.toList, isBlank c = false := by
    rw [written]
    exact forall_signText (by decide) fun c member => (p.ordinary_text c member).2.2
  rw [ofText_of_solid solid, Double.ofText_plain p written]

/-- A double is read with the digits that it is written with, but for the sign of a zero. -/
theorem ofText_text (x : Double) : ofText x.text = ⟨x.text, x.withoutZeroSign⟩ := by
  rw [ofText_of_solid x.isSigned_text.solid, Double.ofText_text]

end Figure

/-- Nothing with its places fixed is a zero with so many zeros behind the point. -/
theorem pointed_zero {places : Nat} (some : 0 < places) :
    pointed 0 places = '0' :: '.' :: zeros places := by
  have padded : zeros places ++ ['0'] = '0' :: zeros places := by
    unfold zeros
    rw [← List.replicate_succ', List.replicate_succ]
  -- The only digit is moved behind the point by as many zeros as there are places.
  unfold pointed
  rw [Nat.toDigits_zero]
  dsimp only
  rw [if_neg (by omega), List.length_singleton, Nat.add_sub_cancel, padded]
  simp [zeros]

/-- The last place of a zero is that of the last zero behind its point. -/
theorem Written.lastPlace_zero {text : String} {places : Nat} (some : 0 < places)
    (written : text.toList = pointed 0 places) : lastPlace text = places := by
  have behind : ∀ c ∈ zeros places, c.isDigit = true := by
    intro c member
    obtain ⟨_, rfl⟩ := List.mem_replicate.1 member
    rfl
  -- There is one digit before the point and no exponent.
  have shape : text = String.ofList ([] ++ ((['0'] ++ '.' :: zeros places) ++ [])) := by
    rw [List.nil_append, List.append_nil, List.singleton_append, ← pointed_zero some, ← written,
      String.ofList_toList]
  rw [shape, lastPlace_pointed .absent (by simp) behind .absent (by simp)]
  simp [zeros, show Numeral.int? [] = none from rfl]

namespace Decimal

variable {d : Decimal}

/-- The sign of a decimal does not matter for whether its double is finite, nor for how large that
is. -/
theorem toDouble_signed (negative : Bool) (d : Decimal) :
    (d.toDouble negative).isFinite = (d.toDouble false).isFinite
      ∧ (d.toDouble negative).magnitude = (d.toDouble false).magnitude := by
  cases negative with
  | false => exact ⟨rfl, rfl⟩
  | true =>
    rw [toDouble_true]
    cases d.toDouble false <;> exact ⟨rfl, rfl⟩

end Decimal

namespace Double

variable {x : Double}

/-- Rounding to places looks at the magnitude alone. -/
theorem toPlaces_of_magnitude {y : Double} (same : x.magnitude = y.magnitude) (places : Nat) :
    x.toPlaces places = y.toPlaces places := by
  unfold toPlaces
  rw [same]

/-- Zero is no unit at any decimal place. -/
theorem toPlaces_coefficient_of_zero (zero : x.magnitude = 0) (places : Nat) :
    (x.toPlaces places).coefficient = 0 := by
  unfold toPlaces
  dsimp only
  rw [zero, Nat.zero_mul]
  simpa using roundDiv_of_mul .upward 0 unit_pos

/-- What is below zero is a number other than zero with a minus. -/
theorem lt_zero_iff (isFinite : x.isFinite = true) :
    x.lt zero = true ↔ x.isNegative = true ∧ x.magnitude ≠ 0 := by
  obtain ⟨negative, quanta, fits, rfl⟩ := exists_of_isFinite isFinite
  cases negative <;>
    simp [Double.lt, position?, signedQuanta, zero, isNegative, magnitude, Nat.pos_iff_ne_zero]

/-- What is not below zero is written without a sign. -/
theorem signText_of_nonneg (isFinite : x.isFinite = true) (nonnegative : x.lt zero = false) :
    x.signText = Numeral.signText false := by
  have unsigned : (x.isNegative && decide (x.magnitude ≠ 0)) = false := by
    refine eq_false_of_ne_true fun negative => ?_
    rw [Bool.and_eq_true, decide_eq_true_eq] at negative
    rw [(lt_zero_iff isFinite).2 negative] at nonnegative
    cases nonnegative
  rw [signText_eq, unsigned]

/-- A number with fixed decimal places is read as a number that has the same text with these places,
unless it is below zero and rounded to nothing, whose sign is then not written again. -/
theorem exists_fixed_again (isFinite : x.isFinite = true) (places : Int)
    (sign : x.lt zero = true → (x.toPlaces (clampPlaces places)).coefficient ≠ 0) :
    ∃ y, Figure.ofText (x.fixed places) = ⟨x.fixed places, y⟩ ∧ y.isFinite = true
      ∧ ∀ others, clampPlaces others = clampPlaces places → y.fixed others = x.fixed places := by
  rcases Nat.lt_or_ge x.magnitude fixedLimit with small | large
  · -- The text denotes the units at the place, which are the same when they are counted again.
    obtain ⟨p, written, value⟩ := exists_plain_fixed isFinite small places
    have figure := Figure.ofText_plain p (written.trans (congrArg (· ++ p.text) x.signText_eq))
    rw [value] at figure
    obtain ⟨range, bound⟩ := toDouble_toPlaces isFinite small (clampPlaces places)
    have again := toPlaces_toDouble isFinite small (clampPlaces places)
    rw [lt_zero_iff isFinite] at sign
    generalize minus : (x.isNegative && decide (x.magnitude ≠ 0)) = negative at figure
    have signed := (x.toPlaces (clampPlaces places)).isNegative_toDouble negative
    obtain ⟨range', bound'⟩ := (x.toPlaces (clampPlaces places)).toDouble_signed negative
    generalize (x.toPlaces (clampPlaces places)).toDouble negative = y
      at figure signed range' bound'
    have again' := (toPlaces_of_magnitude bound' (clampPlaces places)).trans again
    -- A sign is only written before a number that is not rounded to nothing.
    have signs : y.signText = x.signText := by
      rw [signText_eq, signText_eq, signed, minus]
      cases negative with
      | false => rfl
      | true =>
        rw [Bool.and_eq_true, decide_eq_true_eq] at minus
        have some : y.magnitude ≠ 0 := fun none =>
          sign minus (again' ▸ toPlaces_coefficient_of_zero none (clampPlaces places))
        rw [decide_eq_true some, Bool.and_self]
    refine ⟨y, figure, range'.trans range, fun others same => ?_⟩
    rw [fixed_of_small (range'.trans range) (bound'.trans_lt bound), fixed_of_small isFinite small,
      same, again', signs]
  · -- The shortest form reads back as the number itself.
    have nonzero : x.isZero = false := by
      refine eq_false_of_ne_true fun zero => ?_
      rw [magnitude_of_isZero zero] at large
      exact absurd large (Nat.not_le.2 (Nat.mul_pos (tenTo_pos 21) unit_pos))
    have same : x.withoutZeroSign = x := by
      unfold withoutZeroSign
      rw [nonzero, if_neg Bool.false_ne_true]
    refine ⟨x, ?_, isFinite, fun others _ => ?_⟩
    · rw [fixed_of_large large, Figure.ofText_text, same]
    · rw [fixed_of_large large, fixed_of_large large]

/-- A number from 10^21 on is not rounded below that when it is rounded to digits. -/
theorem fixedLimit_le_roundDigits (isFinite : x.isFinite = true) (large : fixedLimit ≤ x.magnitude)
    {figures : Int} (range : (x.roundDigits figures).isFinite = true) :
    fixedLimit ≤ (x.roundDigits figures).magnitude := by
  have ten : (1 : Rat) < 10 := by norm_num
  have nonzero : x.magnitude ≠ 0 := by
    have positive := Nat.mul_pos (tenTo_pos 21) unit_pos
    unfold fixedLimit at large
    omega
  obtain ⟨range', magnitude⟩ := (x.toDigits (clampDigits figures)).toDouble_signed x.isNegative
  rw [roundDigits_of_nonzero isFinite nonzero] at range ⊢
  rw [magnitude, ← reach_eq_magnitude (range'.symm.trans range) (abs_toDouble _).symm]
  have power : (Decimal.power 21).reach = fixedLimit := by decide +kernel
  rw [← power]
  -- The leading digit stands at 10^21 or above, and rounding keeps it there.
  have lead : 21 ≤ x.leadingExponent := by
    have unit : (0 : Rat) < one := Nat.cast_pos.2 unit_pos
    have least : (10 : Rat) ^ (21 : Int) ≤ x.abs.toRat := by
      rw [toRat_abs, le_div_iff₀ unit, ← show ((21 : Nat) : Int) = 21 from rfl, ← cast_tenTo]
      exact_mod_cast large
    have below := (zpow_lt_zpow_iff_right₀ ten).1 (least.trans_lt (abs_bounds nonzero).2)
    omega
  refine Decimal.reach_mono ?_
  rw [Decimal.toRat_power, toRat_toDigits _ (clampDigits_pos figures)]
  exact (zpow_le_zpow_right₀ ten.le lead).trans
    (roundedQuotient_bounds (Nat.pos_of_ne_zero nonzero) unit_pos (clampDigits_pos figures)).1

/-- A number is not below a thousand exactly when it has so many quanta. -/
theorem thousand_le_abs_iff (isFinite : x.isFinite = true) :
    (ofInt 1000).le x.abs = true ↔ 1000 * one ≤ x.magnitude := by
  obtain ⟨thousand, sign⟩ : (ofInt 1000).magnitude = 1000 * one ∧ (ofInt 1000).isNegative = false :=
    ofInt_natCast (n := 1000) (by decide)
  rw [← thousand, ← magnitude_abs x]
  exact (order_of_magnitude (isFinite_ofInt (by decide)) ((isFinite_abs x).trans isFinite) sign
    (isNegative_abs x)).2

/-- A number from 10^21 on is not below a thousand. -/
theorem thousand_le_abs (isFinite : x.isFinite = true) (large : fixedLimit ≤ x.magnitude) :
    (ofInt 1000).le x.abs = true :=
  (thousand_le_abs_iff isFinite).2
    ((Nat.mul_le_mul_right one (by decide : 1000 ≤ tenTo 21)).trans large)

end Double

/-- Entries that stand for figures are rounded as those. -/
theorem roundEntries_eq_ok {value uncertainty : Entry} {v u : Figure}
    (first : value.toFigure = .ok v)
    (second : uncertainty.toFigure = .ok u) (precision : Int) (useDecimalPlace : Bool) :
    roundEntries value uncertainty precision useDecimalPlace
      = .ok (roundResult v.magnitude u precision useDecimalPlace) := by
  rw [roundEntries, first, second]
  rfl

/-- Aligned to a place behind the point, both texts have their places fixed. -/
theorem roundToFigures_of_place {v : Double} (isFinite : v.isFinite = true)
    (u : Figure) (figures : Int) (behind : 0 ≤ decimalPlace u (some u)) :
    roundToFigures v u figures = ⟨v.fixed (decimalPlace u (some u)),
      u.magnitude.fixed (decimalPlace u (some u))⟩ := by
  rw [roundToFigures_eq]
  generalize decimalPlace u (some u) = place at behind
  have aligned (text : String) : v.aligned place text = v.fixed place := if_pos ⟨behind, isFinite⟩
  have uncertainty : u.magnitude.atPlace place = u.magnitude.fixed place :=
    if_neg (Int.not_lt.2 behind)
  dsimp only
  rw [aligned, uncertainty]
  -- An exponent would be taken away only below a thousand, where none is written.
  refine congrArg (Rounded.mk · _) (if_neg ?_)
  rintro ⟨exponent, finite, small⟩
  rw [List.contains_eq_mem, decide_eq_true_eq] at exponent
  rcases Nat.lt_or_ge v.magnitude fixedLimit with below | large
  · -- Below 10^21 there is no exponent.
    rw [fixed_of_small isFinite below, String.toList_ofList] at exponent
    exact unmarked_signed _ _ _ exponent
  · -- From there on the exponent is kept, since the number is not below a thousand.
    unfold inFigures at finite small
    split at finite
    · rename_i exact
      rw [if_pos exact, thousand_le_abs isFinite large] at small
      cases small
    · rename_i inexact
      rw [if_neg inexact, thousand_le_abs finite (fixedLimit_le_roundDigits isFinite large finite)]
        at small
      cases small

/-- A number with at most a single digit at a place behind the point is below 10^21. -/
theorem Double.lt_fixedLimit_of_digit {u : Double} {count : Nat}
    (digit : (u.toPlaces count).coefficient ≤ 9) :
    u.magnitude < fixedLimit := by
  by_contra large
  -- From 10^21 on there are ten units or more at every place behind the point.
  have ten : 10 * one ≤ u.magnitude * tenTo count :=
    calc 10 * one ≤ tenTo 21 * one := Nat.mul_le_mul_right _ (by decide)
      _ ≤ u.magnitude := Nat.not_lt.1 large
      _ ≤ _ := Nat.le_mul_of_pos_right _ (tenTo_pos _)
  have digits := (Nat.le_div_iff_mul_le unit_pos).2 ten
  have rounded := le_roundDiv .upward (u.magnitude * tenTo count) one
  unfold toPlaces at digit
  dsimp only at digit
  exact absurd (digits.trans (rounded.trans digit)) (by decide)

/-- An uncertainty that is a single digit has the place of that digit. -/
theorem decimalPlace_of_digit {text : String} {c count : Nat} (value : Figure) (written : text ≠ "")
    (positive : 0 < c) (digit : c ≤ 9) (few : count ≤ 100) :
    decimalPlace value (Figure.mk text (Decimal.toDouble false ⟨c, -count⟩)) = count := by
  obtain ⟨range, above, leading⟩ :=
    Decimal.leading_shortest_of_digit (m := -count) positive (by omega) (by omega) (by omega)
  rw [decimalPlace_of_decides ⟨written, above⟩ range,
    roundedOrder_eq range (isZero_of_lt above), leading]
  omega

/-- A zero decides no place, so that the written digits do. -/
theorem decimalPlace_of_isZero (value : Figure) {u : Figure} (none : u.magnitude.isZero = true) :
    decimalPlace value (some u) = Written.lastPlace value.digits := by
  have undecided : u.place? = .none := if_neg fun both => by
    rw [isZero_of_lt both.2] at none
    cases none
  rw [decimalPlace, Option.bind_some, undecided, Option.getD_none]

/-- An uncertainty that is nothing has the place of its last zero. -/
theorem decimalPlace_of_zeros {text : String} {count : Nat} (some : 0 < count)
    (written : text.toList = pointed 0 count) :
    decimalPlace ⟨text, Decimal.toDouble false ⟨0, -count⟩⟩
      (Figure.mk text (Decimal.toDouble false ⟨0, -count⟩)) = count := by
  rw [decimalPlace_of_isZero _ (by rw [Decimal.toDouble_of_zero false rfl]; rfl)]
  exact Written.lastPlace_zero some written

/-- The place of an uncertainty behind the point is read again from its text, if it has a single
digit there or is nothing with zeros behind the point. -/
theorem decimalPlace_fixed_again {u : Double} (isFinite : u.isFinite = true)
    (nonnegative : u.lt zero = false) {place : Int} (behind : 0 ≤ place)
    (digit : (u.toPlaces (clampPlaces place)).coefficient ≤ 9)
    (some : place = 0 → (u.toPlaces (clampPlaces place)).coefficient ≠ 0) :
    decimalPlace (.ofText (u.fixed place)) (Figure.ofText (u.fixed place)) = clampPlaces place := by
  have small := lt_fixedLimit_of_digit digit
  obtain ⟨p, written, value⟩ := exists_plain_fixed isFinite small place
  have digits := fixed_of_small isFinite small place
  rw [signText_of_nonneg isFinite nonnegative] at written digits
  have shape : u.toPlaces (clampPlaces place)
      = ⟨(u.toPlaces (clampPlaces place)).coefficient, -(clampPlaces place : Int)⟩ := by
        rw [toPlaces]
  rw [Figure.ofText_plain p written, value, shape]
  generalize (u.toPlaces (clampPlaces place)).coefficient = c at digit some digits
  -- Nothing is shown as zeros, whose number is the place; a single digit stands at the place
  -- itself.
  rcases Nat.eq_zero_or_pos c with rfl | positive
  · have more : 0 < clampPlaces place := by
      have other : place ≠ 0 := fun zero => some zero rfl
      unfold clampPlaces
      omega
    refine decimalPlace_of_zeros more ?_
    rw [digits, String.toList_ofList]
    rfl
  · have nonempty : u.fixed place ≠ "" := by
      obtain ⟨first, rest, same, _⟩ := p.exists_head
      intro empty
      rw [empty, same] at written
      cases written
    exact decimalPlace_of_digit _ nonempty positive digit (clampPlaces_le place)

/-- A value and an uncertainty whose texts at a place behind the point stay as they are: the
uncertainty has a single digit there, which is not nothing at the ones place, and a value below zero
is not rounded to nothing, since the sign of a zero is not written again. -/
structure SettledAtPlace (v u : Double) (place : Int) : Prop where
  digit : (u.toPlaces (clampPlaces place)).coefficient ≤ 9
  whole : place = 0 → (u.toPlaces (clampPlaces place)).coefficient ≠ 0
  sign : v.lt zero = true → (v.toPlaces (clampPlaces place)).coefficient ≠ 0

/-- A result at a settled place behind the point is rounded to the same texts when it is read
again. -/
theorem roundToFigures_again_of_place {v : Double} (isFinite : v.isFinite = true) {u : Figure}
    (range : u.magnitude.isFinite = true)
    (nonnegative : u.magnitude.lt zero = false) (figures : Int)
    (behind : 0 ≤ decimalPlace u (some u))
    (settled : SettledAtPlace v u.magnitude (decimalPlace u (some u))) :
    roundToFigures (Figure.ofText (roundToFigures v u figures).value).magnitude
      (.ofText (roundToFigures v u figures).uncertainty) figures = roundToFigures v u figures := by
  rw [roundToFigures_of_place isFinite u figures behind]
  generalize decimalPlace u (some u) = place at behind settled
  -- The place is read again from the uncertainty, and both texts from their values at that place.
  have again := decimalPlace_fixed_again range nonnegative behind settled.digit settled.whole
  obtain ⟨y, value, finite, same⟩ := exists_fixed_again isFinite place settled.sign
  obtain ⟨w, uncertainty, _, same'⟩ := exists_fixed_again range place fun below => by
    rw [nonnegative] at below
    cases below
  -- The place is cut off in the same way when it is read again.
  have clamped : clampPlaces (clampPlaces place : Nat) = clampPlaces place := by
    unfold clampPlaces
    omega
  dsimp only
  rw [roundToFigures_of_place (by rw [value]; exact finite) _ _
    (by rw [again]; exact Int.natCast_nonneg _), again, value, uncertainty,
      same _ clamped, same' _ clamped]

end PlusMinus
