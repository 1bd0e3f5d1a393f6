import PlusMinus.Measure.Basic
import PlusMinus.Proofs.Decimal.Shortest
import PlusMinus.Proofs.Double.Sign
import PlusMinus.Proofs.Numeral.Plain

/-! A double that is written in a result reads back, but for the sign of a zero. -/

namespace PlusMinus

open Numeral

/-- A plain number as which results show a decimal. -/
structure Decimal.Shown (d : Decimal) (p : Plain) : Prop where
  text : Layout.display.magnitudeText d = p.text
  value : ∃ count : Nat, p.decimal = ⟨d.coefficient * tenTo count, d.exponent - count⟩
  /-- Only zero is a whole number that starts with a zero. -/
  leadingZero : p.fraction = [] → p.scale = none → p.whole.head? = some '0' → d.coefficient = 0

/-- The first digit of a positive number is not a zero. -/
theorem toDigits_head {n : Nat} (positive : 0 < n) : (Nat.toDigits 10 n).head? ≠ some '0' := by
  -- The first digit stays the same when the last one is dropped, until only one is left.
  induction n using Nat.strongRecOn with
  | ind n ih =>
    rw [Nat.toDigits_eq_if (by decide)]
    split
    · rename_i small
      have digit : ∀ m < 10, 0 < m → m.digitChar ≠ '0' := by decide
      simpa using digit n small positive
    · rename_i large
      have ⟨c, rest, same⟩ :=
        List.exists_cons_of_ne_nil (Nat.toDigits_ne_nil (n := n / 10) (b := 10))
      have shorter := ih (n / 10) (by omega) (by omega)
      rw [same] at shorter ⊢
      simpa using shorter

/-- Zeros are digits. -/
theorem Layout.isDigit_zeros {count : Nat} {c : Char} (member : c ∈ zeros count) :
    c.isDigit = true := by
  rw [(List.mem_replicate.1 member).2]
  rfl

namespace Numeral.Plain

/-- Digits with the point behind the first ones. -/
def pointedAt (digits : List Char) (count : Nat) (scale : Option Int)
    (some : digits.take count ≠ [])
    (digit : ∀ c ∈ digits, c.isDigit = true) : Plain where
  whole := digits.take count
  fraction := digits.drop count
  scale
  nonempty := some
  wholeDigits c member := digit c (List.mem_of_mem_take member)
  fractionDigits c member := digit c (List.mem_of_mem_drop member)

/-- The point leaves the digits as they are, and each of them behind it takes one from the
exponent. -/
theorem decimal_pointedAt {digits : List Char} {count : Nat} {scale : Option Int}
    (some : digits.take count ≠ []) (digit : ∀ c ∈ digits, c.isDigit = true) :
    (pointedAt digits count scale some digit).decimal
      = ⟨Nat.ofDigitChars 10 digits 0, scale.getD 0 - (digits.length - count : Nat)⟩ := by
  unfold decimal pointedAt
  dsimp only
  rw [List.take_append_drop, List.length_drop]

/-- The digits of a number with zeros behind them. -/
def extended (coefficient count : Nat) : Plain where
  whole := Nat.toDigits 10 coefficient ++ zeros count
  nonempty := by simp [Nat.toDigits_ne_nil]
  wholeDigits _ member := (List.mem_append.1 member).elim isDigit_toDigits Layout.isDigit_zeros
  fractionDigits := by simp

/-- They are written without a point or an exponent. -/
theorem text_extended (coefficient count : Nat) :
    (extended coefficient count).text = Nat.toDigits 10 coefficient ++ zeros count := by
  simp [text, point, exponent, extended]

/-- Each zero multiplies the number by ten. -/
theorem decimal_extended (coefficient count : Nat) :
    (extended coefficient count).decimal = ⟨coefficient * tenTo count, 0⟩ := by
  unfold decimal extended zeros
  dsimp only
  rw [List.append_nil, Nat.ofDigitChars_append, Nat.ofDigitChars_ten_toDigits,
    Nat.ofDigitChars_replicate_zero, Nat.mul_comm]
  rfl

end Numeral.Plain

namespace Layout

section Shown

variable (coefficient : Nat) (exponent : Int)

/-- The first digits of a number, at least one of them, are not nothing. -/
theorem take_toDigits_ne_nil {count : Nat} (some : 0 < count) :
    (Nat.toDigits 10 coefficient).take count ≠ [] := by
  intro empty
  -- Every number is written with at least one digit.
  have digits : 0 < (Nat.toDigits 10 coefficient).length := Nat.length_toDigits_pos
  have := congrArg List.length empty
  simp only [List.length_take, List.length_nil] at this
  omega

/-- A decimal far from one is shown with an exponent. -/
theorem exists_shown_scaled
    (far : exponent + (Nat.toDigits 10 coefficient).length < display.leastPoint
      ∨ display.greatestPoint < exponent + (Nat.toDigits 10 coefficient).length) :
    ∃ p, Decimal.Shown ⟨coefficient, exponent⟩ p := by
  -- One digit stands before the point, and the exponent says where the point belongs.
  have some : 0 < (Nat.toDigits 10 coefficient).length := Nat.length_toDigits_pos
  refine ⟨.pointedAt (Nat.toDigits 10 coefficient) 1
      (.some (exponent + (Nat.toDigits 10 coefficient).length - 1))
      (take_toDigits_ne_nil coefficient (by decide)) fun c => Plain.isDigit_toDigits,
    ?text, ⟨0, ?value⟩, fun _ absent => nomatch absent⟩
  case text =>
    unfold magnitudeText Plain.text Plain.point Plain.exponent
    dsimp only
    rw [if_pos far]
    simp [display, Plain.pointedAt]
  case value =>
    rw [Plain.decimal_pointedAt, Nat.ofDigitChars_ten_toDigits, show tenTo 0
      = 1 from rfl, Nat.mul_one]
    congr 1
    simp only [Option.getD_some]
    omega

/-- A whole decimal is shown with its zeros. -/
theorem exists_shown_whole
    (near : ¬(exponent + (Nat.toDigits 10 coefficient).length < display.leastPoint
      ∨ display.greatestPoint < exponent + (Nat.toDigits 10 coefficient).length))
    (whole : 0 ≤ exponent) : ∃ p, Decimal.Shown ⟨coefficient, exponent⟩ p := by
  -- The zeros that the exponent stands for are written behind the digits.
  refine ⟨.extended coefficient exponent.toNat, ?text, ⟨exponent.toNat, ?value⟩, ?leadingZero⟩
  case text =>
    rw [Plain.text_extended]
    unfold magnitudeText
    dsimp only
    rw [if_neg near, if_pos (by omega)]
    simp [display, show ∀ n : Nat, exponent + n - n = exponent by omega]
  case value =>
    rw [Plain.decimal_extended]
    dsimp only
    congr 1
    omega
  case leadingZero =>
    intro _ _ leading
    -- Only the digits of zero start with a zero.
    rcases Nat.eq_zero_or_pos coefficient with none | positive
    · exact none
    · refine absurd ?_ (toDigits_head positive)
      obtain ⟨c, rest, front⟩ :=
        List.exists_cons_of_ne_nil (Nat.toDigits_ne_nil (n := coefficient) (b := 10))
      simpa [Plain.extended, front] using leading

/-- A decimal with its point among the digits is shown with the point there. -/
theorem exists_shown_inside
    (near : ¬(exponent + (Nat.toDigits 10 coefficient).length < display.leastPoint
      ∨ display.greatestPoint < exponent + (Nat.toDigits 10 coefficient).length))
    (broken : exponent < 0) (inside : 0 < exponent + (Nat.toDigits 10 coefficient).length) :
    ∃ p, Decimal.Shown ⟨coefficient, exponent⟩ p := by
  -- Some digits are left behind the point.
  have back : (Nat.toDigits 10 coefficient).drop
      (exponent + (Nat.toDigits 10 coefficient).length).toNat ≠ [] := by
    intro empty
    have := congrArg List.length empty
    simp only [List.length_drop, List.length_nil] at this
    omega
  refine ⟨.pointedAt (Nat.toDigits 10 coefficient)
    (exponent + (Nat.toDigits 10 coefficient).length).toNat
      none (take_toDigits_ne_nil coefficient (by omega)) fun c => Plain.isDigit_toDigits,
    ?text, ⟨0, ?value⟩, fun empty => absurd empty back⟩
  case text =>
    unfold magnitudeText Plain.text Plain.point Plain.exponent Plain.pointedAt
    dsimp only
    rw [if_neg near, if_neg (by omega), if_pos inside, if_neg back]
    simp
  case value =>
    rw [Plain.decimal_pointedAt, Nat.ofDigitChars_ten_toDigits, show tenTo 0
      = 1 from rfl, Nat.mul_one]
    congr 1
    simp only [Option.getD_none]
    omega

/-- A decimal with its point before the digits is shown with zeros between them. -/
theorem exists_shown_below
    (near : ¬(exponent + (Nat.toDigits 10 coefficient).length < display.leastPoint
      ∨ display.greatestPoint < exponent + (Nat.toDigits 10 coefficient).length))
    (below : exponent + (Nat.toDigits 10 coefficient).length ≤ 0) :
    ∃ p, Decimal.Shown ⟨coefficient, exponent⟩ p := by
  have some : 0 < (Nat.toDigits 10 coefficient).length := Nat.length_toDigits_pos
  -- The digits stand behind the zeros, so that there is a fraction.
  have back : zeros (-(exponent + (Nat.toDigits 10 coefficient).length)).toNat
      ++ Nat.toDigits 10 coefficient ≠ [] := by simp [Nat.toDigits_ne_nil]
  refine ⟨{ whole := ['0']
            fraction := zeros (-(exponent + (Nat.toDigits 10 coefficient).length)).toNat
              ++ Nat.toDigits 10 coefficient
            nonempty := by simp
            wholeDigits := by simp
            fractionDigits := fun c member =>
              (List.mem_append.1 member).elim isDigit_zeros Plain.isDigit_toDigits },
    ?text, ⟨0, ?value⟩, fun empty => absurd empty back⟩
  case text =>
    unfold magnitudeText Plain.text Plain.point Plain.exponent
    dsimp only
    rw [if_neg near, if_neg (by omega), if_neg (by omega), if_neg back]
    simp
  case value =>
    unfold Plain.decimal zeros
    dsimp only
    rw [← List.append_assoc, Nat.ofDigitChars_append, Nat.ofDigitChars_append,
      Nat.ofDigitChars_replicate_zero, show Nat.ofDigitChars 10 ['0'] 0 = 0 from rfl, Nat.mul_zero,
      Nat.ofDigitChars_ten_toDigits, show tenTo 0 = 1 from rfl, Nat.mul_one]
    congr 1
    simp only [Option.getD_none, List.length_append, List.length_replicate]
    omega

end Shown

/-- Every decimal is shown as a plain number. -/
theorem exists_shown (d : Decimal) : ∃ p, d.Shown p := by
  obtain ⟨coefficient, exponent⟩ := d
  -- The layout depends on where the point falls among the digits.
  by_cases far : exponent + (Nat.toDigits 10 coefficient).length < display.leastPoint
      ∨ display.greatestPoint < exponent + (Nat.toDigits 10 coefficient).length
  · exact exists_shown_scaled coefficient exponent far
  by_cases whole : 0 ≤ exponent
  · exact exists_shown_whole coefficient exponent far whole
  by_cases inside : 0 < exponent + (Nat.toDigits 10 coefficient).length
  · exact exists_shown_inside coefficient exponent far (by omega) inside
  · exact exists_shown_below coefficient exponent far (by omega)

end Layout

namespace Double

open Literal

/-- The same double, without the sign of a zero. -/
def withoutZeroSign (x : Double) : Double := if x.isZero then zero else x

/-- Losing the sign of a zero leaves the same number. -/
theorem withoutZeroSign_alike (x : Double) : x.withoutZeroSign.Alike x := by
  unfold withoutZeroSign
  split
  · rename_i zero
    exact .inr ⟨rfl, zero⟩
  · exact .refl x

/-- A finite double is written as a plain number behind its sign. -/
theorem exists_shown_text (negative : Bool) {quanta : Nat} (fits : Fits quanta) :
    ∃ p : Plain, (shortest (.finite negative quanta fits)).Shown p
      ∧ (finite negative quanta fits).text.toList
        = Numeral.signText (negative && quanta ≠ 0) ++ p.text := by
  obtain ⟨p, shown⟩ := Layout.exists_shown (shortest (.finite negative quanta fits))
  refine ⟨p, shown, ?_⟩
  -- A zero is written without its sign.
  rw [← shown.text]
  simp [text, Layout.text, Numeral.signText, Layout.display]

/-- What is shown for the shortest decimal of a finite double denotes its magnitude. -/
theorem toDouble_shown {x : Double} {p : Plain} (finite : x.isFinite = true)
    (shown : x.shortest.Shown p) : p.decimal.toDouble false = x.abs := by
  -- Zeros behind the digits do not change the value.
  obtain ⟨count, value⟩ := shown.value
  rw [value, Decimal.toDouble_shift]
  exact toDouble_shortest finite

/-- What is written for a double in a result is read as that double, but for the sign of a zero. -/
theorem double?_text (x : Double) : double? x.text.toList = some x.withoutZeroSign := by
  cases x with
  | nan => decide +kernel
  | infinite negative => cases negative <;> decide +kernel
  | finite negative quanta fits =>
    obtain ⟨p, shown, same⟩ := exists_shown_text negative fits
    have magnitude : p.decimal.toDouble false = .finite false quanta fits :=
      toDouble_shown rfl shown
    rw [same, p.double?_text]
    -- A zero has lost its sign, and any other number has kept it.
    refine congrArg some ?_
    by_cases none : quanta = 0
    · subst none
      simpa [withoutZeroSign, isZero, zero] using magnitude
    · cases negative with
      | false => simpa [withoutZeroSign, isZero, none] using magnitude
      | true =>
        have opposite : p.decimal.toDouble true = .finite true quanta fits := by
          rw [Decimal.toDouble_true, magnitude]
          rfl
        simpa [withoutZeroSign, isZero, none] using opposite

/-- A double that is written in a result reads back, but for the sign of a zero. -/
theorem ofText_text (x : Double) : ofText x.text = x.withoutZeroSign := by
  rw [ofText, double?_text, Option.getD_some]

/-- A double is written as a number with or without a sign. -/
theorem isSigned_text (x : Double) : IsSigned x.text.toList := by
  -- Words for what is no finite number, and a plain number behind its sign for all others.
  cases x with
  | nan => exact .unsigned .nan
  | infinite negative =>
    cases negative with
    | false => exact .unsigned .infinity
    | true => exact .minus .infinity
  | finite negative quanta fits =>
    obtain ⟨p, _, same⟩ := exists_shown_text negative fits
    rw [same]
    unfold Numeral.signText
    split
    · exact .minus p.isUnsigned_text
    · exact .unsigned p.isUnsigned_text

/-- A double without a minus is written without one. -/
theorem isUnsigned_text {x : Double} (nonnegative : x.isNegative = false) :
    IsUnsigned x.text.toList := by
  -- Without a minus nothing is written before the number.
  cases x with
  | nan => exact .nan
  | infinite negative =>
    cases nonnegative
    exact .infinity
  | finite negative quanta fits =>
    cases nonnegative
    obtain ⟨p, _, same⟩ := exists_shown_text false fits
    rw [same]
    exact p.isUnsigned_text

end Double

end PlusMinus
