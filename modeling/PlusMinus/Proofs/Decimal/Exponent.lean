import PlusMinus.Proofs.Decimal.Layout
import PlusMinus.Proofs.Decimal.Leading

/-! Every double is written in a result as one number literal that reads back, with an exponent
exactly below a millionth and from 10^21 on. -/

namespace PlusMinus

open Numeral Literal Text

namespace Numeral.Plain

/-- The mark of an exponent stands in a number exactly when there is an exponent. -/
theorem mem_text_iff (p : Plain) : 'e' ∈ p.text ↔ p.exponent ≠ [] := by
  -- Neither the digits nor the point are that mark.
  have digits : ∀ {run : List Char}, (∀ c ∈ run, c.isDigit = true) → 'e' ∉ run :=
    fun all member => absurd (all 'e' member) (by decide)
  have point : 'e' ∉ p.point := by
    unfold point
    split
    · simp
    · simpa using digits p.fractionDigits
  unfold text
  rcases p.exponent_cases with absent | ⟨rest, marked⟩
  · simp [absent, digits p.wholeDigits, point]
  · simp [marked]

end Numeral.Plain

/-- A decimal is shown with an exponent exactly when its leading digit is far from the point. -/
theorem Layout.mem_magnitudeText_iff (d : Decimal) :
    'e' ∈ display.magnitudeText d ↔ d.leading < -5 ∨ 21 < d.leading := by
  have digits : ∀ c ∈ Nat.toDigits 10 d.coefficient, c ≠ 'e' :=
    fun c member => ne_of_kind (Plain.isDigit_toDigits member) (by decide)
  have none : 'e' ∉ Nat.toDigits 10 d.coefficient := fun member => digits _ member rfl
  have zero : ∀ count, 'e' ∉ zeros count := by simp [zeros]
  have front : ∀ count, 'e' ∉ (Nat.toDigits 10 d.coefficient).take count :=
    fun _ member => none (List.mem_of_mem_take member)
  have back : ∀ count, 'e' ∉ (Nat.toDigits 10 d.coefficient).drop count :=
    fun _ member => none (List.mem_of_mem_drop member)
  -- Only the first of the four layouts writes the mark.
  change _ ↔ d.exponent + (Nat.toDigits 10 d.coefficient).length < display.leastPoint
    ∨ display.greatestPoint < d.exponent + (Nat.toDigits 10 d.coefficient).length
  unfold magnitudeText
  dsimp only
  split
  · rename_i far
    simp [far, exponentText]
  · rename_i near
    simp only [near, iff_false]
    split
    · simp [none, zero, display]
    split
    · simp [front, back]
    · simp [none, zero]

/-- The number as which a decimal is shown has an exponent exactly when the leading digit is far
from the point. -/
theorem Decimal.Shown.exponent_ne_nil_iff {d : Decimal} {p : Plain} (shown : d.Shown p) :
    p.exponent ≠ [] ↔ d.leading < -5 ∨ 21 < d.leading := by
  rw [← p.mem_text_iff, ← shown.text, Layout.mem_magnitudeText_iff]

namespace Double

/-- Finite numbers without a minus are in the order of their magnitudes. -/
theorem order_of_magnitude {x y : Double} (left : x.isFinite = true) (right : y.isFinite = true)
    (first : x.isNegative = false) (second : y.isNegative = false) :
    (x.lt y = true ↔ x.magnitude < y.magnitude) ∧ (x.le y = true ↔ x.magnitude ≤ y.magnitude) := by
  cases x with
  | nan => cases left
  | infinite negative => cases left
  | finite negative quanta fits =>
    cases y with
    | nan => cases right
    | infinite negative => cases right
    | finite sign others fits' =>
      cases first
      cases second
      -- Without a sign a place on the line is the magnitude itself.
      simp [lt, Double.le, position?, signedQuanta, magnitude]

/-- The double nearest to one millionth. -/
def millionth : Double := (Decimal.power (-6)).toDouble false

/-- The double nearest to 10^21, which is that number itself. -/
def sextillion : Double := (Decimal.power 21).toDouble false

/-- A magnitude is shown with its leading digit far from the point exactly when it is below a
millionth or not below 10^21. -/
theorem leading_far_iff {x : Double} (finite : x.isFinite = true) :
    x.shortest.leading < -5 ∨ 21 < x.shortest.leading
      ↔ (zero.lt x.abs = true ∧ x.abs.lt millionth = true) ∨ sextillion.le x.abs = true := by
  have bounded : x.abs.isFinite = true := by cases x <;> first | rfl | cases finite
  have same : x.abs.magnitude = x.magnitude := by cases x <;> rfl
  have sign := isNegative_abs x
  rw [(order_of_magnitude (y := x.abs) rfl bounded rfl sign).1,
    (order_of_magnitude (y := millionth) bounded (by decide +kernel) sign (by decide +kernel)).1,
    (order_of_magnitude (x := sextillion) (by decide +kernel) bounded (by decide +kernel) sign).2,
    same, show zero.magnitude = 0 from rfl]
  cases nonzero : x.isZero with
  | true =>
    -- Zero is shown as a single digit before the point.
    have none := magnitude_of_isZero nonzero
    have digit : x.shortest.leading = 1 := by
      unfold shortest
      rw [if_pos none]
      rfl
    have above : 0 < sextillion.magnitude := by decide +kernel
    omega
  | false =>
    have some : x.magnitude ≠ 0 := by
      obtain ⟨negative, quanta, fits, rfl⟩ := exists_of_isFinite finite
      exact beq_eq_false_iff_ne.1 nonzero
    -- The two powers of ten are shown as a one with its zeros.
    have small := lt_leading_iff finite nonzero (-6) (by decide +kernel) (by decide +kernel)
    have large := lt_leading_iff finite nonzero 21 (by decide +kernel) (by decide +kernel)
    unfold millionth sextillion
    omega

/-- What is written for a finite double is a number behind its sign, which only what is below zero
has. -/
theorem exists_plain_text {x : Double} (finite : x.isFinite = true) :
    ∃ p : Plain, x.shortest.Shown p
      ∧ x.text.toList = (if x.lt zero = true then ['-'] else []) ++ p.text := by
  cases x with
  | nan => cases finite
  | infinite negative => cases finite
  | finite negative quanta fits =>
    obtain ⟨p, shown, written⟩ := exists_shown_text negative fits
    refine ⟨p, shown, ?_⟩
    -- A minus is written for what is below zero, so not for a zero that has one.
    have below : (Double.finite negative quanta fits).lt zero = (negative && quanta ≠ 0) := by
      cases negative <;> simp [Double.lt, position?, signedQuanta, zero, Nat.pos_iff_ne_zero]
    rw [written, below]
    rfl

/-- What is written for a double in a result reads back, but for the sign of a zero; and for a
finite one it is, behind the sign, one number literal that has an exponent exactly below a millionth
and from 10^21 on. -/
theorem text_reads_back_as_literal (x : Double) :
    ofText x.text = x.withoutZeroSign
      ∧ (x.isFinite = true → ∃ mantissa exponent : List Char,
          x.text.toList = (if x.lt zero = true then ['-'] else []) ++ (mantissa ++ exponent)
          ∧ splitUnsigned? (mantissa ++ exponent) = some (mantissa ++ exponent, [])
          ∧ splitMantissa? (mantissa ++ exponent) = some (mantissa, exponent)
          ∧ (exponent ≠ []
            ↔ (zero.lt x.abs = true ∧ x.abs.lt millionth = true)
              ∨ sextillion.le x.abs = true)) := by
  refine ⟨ofText_text x, fun finite => ?_⟩
  obtain ⟨p, shown, written⟩ := exists_plain_text finite
  have whole : p.text = p.whole ++ p.point ++ p.exponent := (List.append_assoc _ _ _).symm
  refine ⟨p.whole ++ p.point, p.exponent, whole ▸ written, ?literal, ?mantissa, ?scale⟩
  case literal =>
    have taken := splitUnsigned?_of_isUnsigned p.isUnsigned_text stops_nil
    rwa [List.append_nil, whole] at taken
  case mantissa =>
    -- Neither a digit nor a point starts an exponent.
    refine splitMantissa?_of_isMantissa p.isMantissa ?_ ?_
    all_goals rcases p.exponent_cases with absent | ⟨rest, marked⟩
    · exact fun c first => by simp [absent] at first
    · exact marked ▸ noDigit_cons (by decide) rest
    · simp [absent]
    · simp [marked]
  case scale =>
    rw [shown.exponent_ne_nil_iff, leading_far_iff finite]

/-- The double nearest to -1.5e-7 is written with its sign, a mantissa and an exponent. -/
theorem text_reads_back_below_millionth :
    ∃ mantissa exponent : List Char,
      (ofText "-1.5e-7").text.toList = ['-'] ++ (mantissa ++ exponent) ∧ exponent ≠ [] := by
  obtain ⟨_, literal⟩ := text_reads_back_as_literal (ofText "-1.5e-7")
  obtain ⟨mantissa, exponent, written, _, _, scale⟩ := literal (by decide +kernel)
  refine ⟨mantissa, exponent, ?_, scale.2 (.inl ⟨by decide +kernel, by decide +kernel⟩)⟩
  rw [written, if_pos (by decide +kernel)]

end Double

end PlusMinus
