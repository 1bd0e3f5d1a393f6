import PlusMinus.Proofs.Decimal.Exponent
import PlusMinus.Proofs.Decimal.Nearest

/-! Numbers with a fixed number of decimal places: the text has exactly so many digits behind the
point and no exponent, and it denotes the multiple of the last place that is nearest to the
number. -/

namespace PlusMinus

open Double Numeral

/-- A pointed coefficient consists of digits and a point. -/
theorem mem_pointed {coefficient places : Nat} {c : Char}
    (member : c ∈ pointed coefficient places) :
    c.isDigit = true ∨ c = '.' := by
  have padded : ∀ c ∈ zeros (places + 1 - (Nat.toDigits 10 coefficient).length)
      ++ Nat.toDigits 10 coefficient, c.isDigit = true := fun c member =>
    (List.mem_append.1 member).elim Layout.isDigit_zeros Plain.isDigit_toDigits
  -- The point is put between digits, if there is one.
  unfold pointed at member
  dsimp only at member
  split at member
  · exact .inl (padded c member)
  · rcases List.mem_append.1 member with front | back
    · exact .inl (padded c (List.mem_of_mem_take front))
    · rcases List.mem_cons.1 back with point | fraction
      · exact .inr point
      · exact .inl (padded c (List.mem_of_mem_drop fraction))

/-- There is no exponent in a pointed coefficient. -/
theorem unmarked_pointed (coefficient places : Nat) : 'e' ∉ pointed coefficient places := by
  intro member
  rcases mem_pointed member with digit | point
  · exact absurd digit (by decide)
  · exact absurd point (by decide)

/-- Nor is there one when it stands behind a sign. -/
theorem unmarked_signed (x : Double) (coefficient places : Nat) :
    'e' ∉ x.signText ++ pointed coefficient places := by
  intro member
  rcases List.mem_append.1 member with sign | digits
  · unfold Double.signText at sign
    split at sign <;> simp at sign
  · exact unmarked_pointed _ _ digits

namespace Numeral.Plain

variable {p : Plain} {coefficient : Nat}

/-- Without an exponent a plain number has no scale. -/
theorem scale_eq_none (unmarked : 'e' ∉ p.text) : p.scale = none := by
  rw [mem_text_iff, not_not, exponent] at unmarked
  cases scale : p.scale with
  | none => rfl
  | some n =>
    rw [scale, Option.elim_some, exponentText_one] at unmarked
    cases unmarked

/-- A pointed coefficient has the padded digits of the coefficient before and behind its point. -/
theorem whole_eq_take (scale : p.scale = none)
    (text : p.text = pointed coefficient p.fraction.length) :
    p.whole = (zeros (p.fraction.length + 1 - (Nat.toDigits 10 coefficient).length)
      ++ Nat.toDigits 10 coefficient).take
        ((zeros (p.fraction.length + 1 - (Nat.toDigits 10 coefficient).length)
          ++ Nat.toDigits 10 coefficient).length - p.fraction.length) := by
  unfold Plain.text point exponent pointed at text
  dsimp only at text
  rw [scale, Option.elim_none, List.append_nil] at text
  generalize padding : zeros (p.fraction.length + 1 - (Nat.toDigits 10 coefficient).length)
      ++ Nat.toDigits 10 coefficient = padded at text ⊢
  -- There is a point where there are places, and as many digits behind it on both sides.
  by_cases none : p.fraction = []
  · rw [none, if_pos rfl, List.length_nil, if_pos rfl, List.append_nil] at text
    rw [none, List.length_nil, Nat.sub_zero, List.take_length, text]
  · have places : p.fraction.length ≠ 0 := fun zero => none (List.length_eq_zero_iff.1 zero)
    have long : p.fraction.length ≤ padded.length := by
      rw [← padding, List.length_append, zeros, List.length_replicate]
      omega
    rw [if_neg none, if_neg places] at text
    refine (List.append_inj' text ?_).1
    rw [List.length_cons, List.length_cons, List.length_drop]
    omega

/-- A pointed coefficient starts with a zero only where that is the one digit before the point. -/
theorem whole_of_pointed (scale : p.scale = none)
    (text : p.text = pointed coefficient p.fraction.length)
    (leading : p.whole.head? = some '0') : p.whole = ['0'] := by
  have digits : 0 < (Nat.toDigits 10 coefficient).length := Nat.length_toDigits_pos
  have front := whole_eq_take scale text
  rcases Nat.lt_or_ge p.fraction.length (Nat.toDigits 10 coefficient).length with long | short
  · -- There are digits of the coefficient before the point, and only that of zero starts with a
    -- zero.
    have none : zeros (p.fraction.length + 1 - (Nat.toDigits 10 coefficient).length) = [] := by
      rw [zeros, List.replicate_eq_nil_iff]
      omega
    rw [none, List.nil_append] at front
    rcases Nat.eq_zero_or_pos coefficient with rfl | positive
    · rw [Nat.toDigits_zero, List.length_singleton] at long
      rw [front, Nat.toDigits_zero, List.length_singleton, List.take_of_length_le]
      rw [List.length_singleton]
      omega
    · rw [front, List.head?_take, if_neg (by omega)] at leading
      exact absurd leading (toDigits_head positive)
  · -- Otherwise the digit before the point is a zero of the padding.
    have single : p.whole.length = 1 := by
      rw [front, List.length_take, List.length_append, zeros, List.length_replicate]
      omega
    obtain ⟨c, same⟩ := List.length_eq_one_iff.1 single
    rw [same] at leading ⊢
    rw [List.head?_cons, Option.some.injEq] at leading
    rw [leading]

/-- A plain number that is a number at so many decimal places: without an exponent and without
needless zeros in front, with so many digits behind the point, and the multiple of the last place
nearest to the magnitude, a half going away from zero. -/
structure Fixes (p : Plain) (x : Double) (places : Nat) : Prop where
  scale : p.scale = none
  fraction : p.fraction.length = places
  whole : p.whole.head? = some '0' → p.whole = ['0']
  value : p.decimal.toRat = ⌊|x.toRat| * 10 ^ places + 1 / 2⌋ / 10 ^ places

end Numeral.Plain

namespace Double

variable {x : Double} {places : Nat} {text : String}

/-- A text that is a finite number rounded to so many decimal places, behind the sign of the
number. -/
def IsFixed (x : Double) (places : Nat) (text : String) : Prop :=
  ∃ p : Plain, p.Fixes x places ∧ text.toList = x.signText ++ p.text

/-- A number below 10^21 has all of its digits before the point written when its places are
fixed. -/
theorem lt_fixedLimit_of_toRat (isFinite : x.isFinite = true) (small : |x.toRat| < 10 ^ 21) :
    x.magnitude < fixedLimit := by
  rw [abs_toRat isFinite, div_lt_iff₀ (Nat.cast_pos.2 unit_pos)] at small
  unfold fixedLimit
  rw [show tenTo 21 = 10 ^ 21 from rfl]
  generalize one = unit at small ⊢
  exact_mod_cast small

/-- The value of a number at a number of decimal places. -/
theorem toRat_toPlaces (isFinite : x.isFinite = true) (places : Nat) :
    (x.toPlaces places).toRat = ⌊|x.toRat| * 10 ^ places + 1 / 2⌋ / 10 ^ places := by
  have count := toPlaces_eq x places
  rw [Decimal.units, toRat_abs, ← abs_toRat isFinite, zpow_neg, zpow_natCast, div_inv_eq_mul]
    at count
  rw [Decimal.toRat_eq, show (x.toPlaces places).exponent = -(places : Int) from rfl, ← count,
    Int.cast_natCast, zpow_neg, zpow_natCast, ← div_eq_mul_inv]

/-- A number below 10^21 with its decimal places fixed is the number rounded to them. -/
theorem isFixed_fixed (isFinite : x.isFinite = true)
    (small : x.magnitude < fixedLimit) (places : Int) :
    x.IsFixed (clampPlaces places) (x.fixed places) := by
  obtain ⟨p, written, value⟩ := exists_plain_fixed isFinite small places
  have text :
      p.text = pointed (x.toPlaces (clampPlaces places)).coefficient (clampPlaces places) := by
    rw [fixed_of_small isFinite small, String.toList_ofList] at written
    exact (List.append_cancel_left written).symm
  have scale : p.scale = none := Plain.scale_eq_none (text ▸ unmarked_pointed _ _)
  -- The places are those of the decimal, which has no exponent.
  have fraction : p.fraction.length = clampPlaces places := by
    have exponents := congrArg Decimal.exponent value
    rw [Plain.decimal, scale, toPlaces, Option.getD_none] at exponents
    dsimp only at exponents
    omega
  refine ⟨p, ⟨scale, fraction, ?_, ?_⟩, written⟩
  · rw [← fraction] at text
    exact Plain.whole_of_pointed scale text
  · rw [value, toRat_toPlaces isFinite]

/-- What a number below 10^21 is written as with its places fixed denotes the nearest number of
units of the last place. -/
theorem exists_denoted?_fixed (isFinite : x.isFinite = true)
    (small : |x.toRat| < 10 ^ 21) (places : Int) :
    ∃ r, denoted? (x.fixed places).toList = some r
      ∧ NearestAway (IsUnits (-(clampPlaces places : Int))) x.toRat r := by
  obtain ⟨p, written, value⟩ :=
    exists_plain_fixed isFinite (lt_fixedLimit_of_toRat isFinite small) places
  -- The coefficient of the decimal counts the units of the magnitude.
  have units : p.decimal.toRat = Decimal.units |x.toRat| (-(clampPlaces places : Int))
      * 10 ^ (-(clampPlaces places : Int)) := by
    rw [value, Decimal.toRat_eq, abs_toRat isFinite, ← toRat_abs, ← toPlaces_eq, Int.cast_natCast]
    rfl
  obtain ⟨r, read, _, near⟩ :=
    exists_denoted? isFinite p (units ▸ Decimal.nearestAway_units (abs_nonneg _) _)
    fun _ => IsUnits.neg_iff
  exact ⟨r, written ▸ read, near⟩

/-- A number below 10^21 with fixed decimal places has no exponent and exactly so many digits behind
the point, and denotes the multiple of the last place that is nearest to the number, of two the one
away from zero; so numbers that are in order have texts that denote numbers in that order. -/
theorem fixed_nearest (isFinite : x.isFinite = true) (small : |x.toRat| < 10 ^ 21) (places : Int) :
    ∃ count : Nat, (count : Int) = min (max places 0) 100 ∧ x.IsFixed count (x.fixed places)
      ∧ ∃ r, denoted? (x.fixed places).toList = some r
      ∧ NearestAway (IsUnits (-(count : Int))) x.toRat r
        ∧ ∀ y : Double, y.isFinite = true → |y.toRat| < 10 ^ 21 → x.le y = true →
          ∃ s, denoted? (y.fixed places).toList = some s ∧ r ≤ s := by
  have count : (clampPlaces places : Int) = min (max places 0) 100 := by
    unfold clampPlaces
    omega
  obtain ⟨r, read, near⟩ := exists_denoted?_fixed isFinite small places
  refine ⟨clampPlaces places, count,
    isFixed_fixed isFinite (lt_fixedLimit_of_toRat isFinite small) places,
    r, read, near, fun y isFinite' small' le => ?_⟩
  obtain ⟨s, read', near'⟩ := exists_denoted?_fixed isFinite' small' places
  -- Zero has no units at all, so that the nearest numbers of units keep the order.
  exact ⟨s, read', near.mono near' ((NotAbove.of_le le).toRat_le isFinite isFinite') (.zero _)⟩

/-- The tie of -1.25 at one decimal place goes away from zero, and a larger number is not written as
a smaller one. -/
theorem fixed_nearest_of_tie :
    (ofText "-1.25").IsFixed 1 ((ofText "-1.25").fixed 1)
      ∧ NearestAway (IsUnits (-1)) (ofText "-1.25").toRat (-13 / 10)
      ∧ ∃ s, denoted? ((ofText "-1.249").fixed 1).toList = some s ∧ -13 / 10 ≤ s := by
  obtain ⟨count, same, fixed, r, read, near, order⟩ :=
    fixed_nearest (x := ofText "-1.25") (by decide +kernel)
    (abs_lt.2 ⟨by decide +kernel, by decide +kernel⟩) 1
  obtain rfl : count = 1 := Int.natCast_inj.1 same
  obtain rfl : -13 / 10 = r := Option.some_inj.1 (Eq.trans (by decide +kernel) read)
  exact ⟨fixed, near, order (ofText "-1.249") (by decide +kernel)
    (abs_lt.2 ⟨by decide +kernel, by decide +kernel⟩) (by decide +kernel)⟩

end Double

end PlusMinus
