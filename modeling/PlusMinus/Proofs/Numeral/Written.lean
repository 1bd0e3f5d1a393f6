import Mathlib.Data.List.DropRight
import PlusMinus.Numeral.Written
import PlusMinus.Proofs.Decimal.Precise
import PlusMinus.Proofs.Numeral.Denoted
import PlusMinus.Proofs.Text.LowerCase

/-! The digits of a written number: how many of them are significant and where the last one stands
fit together with the number that is denoted. -/

namespace PlusMinus

open Numeral Literal Text

namespace Written

/-- ASCII digits with points. -/
def IsPlain (body : List Char) : Prop := ∀ c ∈ body, c.isDigit = true ∨ c = '.'

variable {sign body exponent : List Char} {negative : Bool}

/-- A digit or a point comes before the letters in ASCII, and is neither a blank nor a sign. -/
theorem IsPlain.ordinary (plain : IsPlain body) {c : Char} (member : c ∈ body) :
    c.toNat < 65 ∧ isBlank c = false ∧ c ≠ '+' ∧ c ≠ '-' := by
  rcases plain c member with digit | rfl
  · have range := toNat_of_isDigit digit
    exact
      ⟨by omega, isBlank_of_isDecimal (isDecimal_of_isDigit digit), ne_of_kind digit (by decide),
      ne_of_kind digit (by decide)⟩
  · decide

/-- In a plain text exactly the digits in ASCII count as digits. -/
theorem IsPlain.filter_isDigit (plain : IsPlain body) :
    body.filter isDigit = body.filter Char.isDigit := by
  refine List.filter_congr fun c member => ?_
  rcases plain c member with digit | rfl
  · rw [digit, isDigit, isDecimal_of_isDigit digit, Bool.true_or]
  · decide

/-- Decimal digits in ASCII are the ASCII digits. -/
theorem isDigit_of_ascii {run : List Char} (digits : ∀ c ∈ run, isDecimal c = true)
    (ascii : ∀ c ∈ run, c.toNat < 0x80) : ∀ c ∈ run, c.isDigit = true := by
  have all := isDigit_asciiDigits digits
  rwa [asciiDigits_of_ascii ascii] at all

/-- A mantissa in ASCII is plain. -/
theorem IsPlain.of_isMantissa (digits : IsMantissa body)
    (ascii : ∀ c ∈ body, c.toNat < 0x80) : IsPlain body := by
  intro c member
  -- Both runs of digits are digits in ASCII, and the point is the only other character.
  cases digits with
  | whole run => exact .inl (isDigit_of_ascii run.2 ascii c member)
  | pointed before after =>
    rcases List.mem_append.1 member with front | behind
    · exact .inl
        (isDigit_of_ascii before (fun d listed => ascii d (List.mem_append_left _ listed)) c front)
    · rcases List.mem_cons.1 behind with rfl | behind
      · exact .inr rfl
      · exact .inl (isDigit_of_ascii after.2
          (fun d listed => ascii d (List.mem_append_right _ (List.mem_cons_of_mem _ listed))) c
            behind)

/-- In small letters an exponent has a small mark, and its digits stay. -/
theorem map_toLower_exponent (scale : IsExponent exponent)
    (ascii : ∀ c ∈ exponent, c.toNat < 0x80) :
    (∀ c, (exponent.map Char.toLower).head? = some c → c = 'e')
      ∧ (exponent.map Char.toLower).drop 1 = exponent.drop 1 := by
  -- The mark is the only letter: signs and digits have no other form.
  cases scale with
  | absent => exact ⟨nofun, rfl⟩
  | @marked mark sign digits isMark isSign run =>
    have small : mark.toLower = 'e' := by rcases isMark with rfl | rfl <;> decide
    have digit := isDigit_of_ascii run.2 fun c member =>
      ascii c (List.mem_cons_of_mem _ (List.mem_append_right _ member))
    have same : (sign ++ digits).map Char.toLower = sign ++ digits := by
      refine map_toLower_eq_self fun c member => ?_
      rcases List.mem_append.1 member with member | member
      · rcases isSign with rfl | rfl | rfl
        · cases member
        · exact List.mem_singleton.1 member ▸ by decide
        · exact List.mem_singleton.1 member ▸ by decide
      · have range := toNat_of_isDigit (digit c member)
        omega
    rw [List.map_cons, small, same]
    exact ⟨fun c first => (Option.some.inj first).symm, rfl⟩

/-- A number is split into its digits and the text of its exponent, without signs before the
digits. -/
theorem split_written (isSign : IsSign sign negative) (plain : IsPlain body)
    (scale : IsExponent exponent)
    (ascii : ∀ c ∈ exponent, c.toNat < 0x80) : split (sign ++ (body ++ exponent)) =
    (body, exponent.drop 1) := by
  obtain ⟨mark, behind⟩ := map_toLower_exponent scale ascii
  have solid : ∀ c ∈ sign ++ (body ++ exponent), c.toNat < 0x80 ∧ isBlank c = false := by
    intro c member
    simp only [List.mem_append] at member
    rcases member with member | member | member
    · rcases isSign.mem c member with rfl | rfl <;> decide
    · obtain ⟨small, solid, _⟩ := plain.ordinary member
      exact ⟨by omega, solid⟩
    · exact ⟨ascii c member, solid_of_mem (scale.mem c member)⟩
  have lowered : (sign ++ (body ++ exponent)).map Char.toLower
      = sign ++ (body ++ exponent.map Char.toLower) := by
    have signs : sign.map Char.toLower = sign := by cases isSign <;> rfl
    rw [List.map_append, List.map_append, signs,
      map_toLower_eq_self fun c member => (plain.ordinary member).1]
  -- The signs are dropped, and neither a digit nor the mark of the exponent is one.
  have signs : ∀ c ∈ sign, (c = '+' || c = '-') = true := by
    intro c member
    rcases isSign.mem c member with rfl | rfl <;> decide
  have ends : ∀ c, (body ++ exponent.map Char.toLower).head? = some c →
      (c = '+' || c = '-') = false := by
    intro c first
    cases body with
    | nil => rw [mark c first]; decide
    | cons d rest =>
      cases first
      have other := (plain.ordinary List.mem_cons_self).2.2
      simp [other]
  -- The mark comes behind the digits, among which there are no letters.
  have digits : ∀ c ∈ body, decide (c ≠ 'e') = true := by
    intro c member
    rcases plain c member with digit | rfl
    · exact decide_eq_true (ne_of_kind digit (by decide))
    · decide
  have marked : ∀ c, (exponent.map Char.toLower).head? = some c → decide (c ≠ 'e') = false := by
    intro c first
    rw [mark c first]
    decide
  unfold split
  dsimp only
  rw [lower_of_ascii solid, lowered, dropWhile_run signs ends, takeWhile_run digits marked,
    dropWhile_run digits marked, behind]

/-- The significant digits are those of the mantissa from the first one on that is not zero. -/
theorem significantDigits_written (isSign : IsSign sign negative) (plain : IsPlain body)
    (scale : IsExponent exponent)
    (ascii : ∀ c ∈ exponent, c.toNat < 0x80) (some : ∃ c ∈ body, c.isDigit = true ∧ c ≠ '0') :
    significantDigits (String.ofList (sign ++ (body ++ exponent)))
      = ((body.filter Char.isDigit).dropWhile (· = '0')).length := by
  -- A digit other than zero is left when the leading zeros are taken off.
  have nonempty : ((body.filter Char.isDigit).dropWhile (· = '0')).isEmpty = false := by
    simpa [List.isEmpty_eq_false_iff] using some
  unfold significantDigits
  rw [String.toList_ofList, split_written isSign plain scale ascii]
  dsimp only
  rw [plain.filter_isDigit, nonempty]
  rfl

/-- The digits behind the mark of an exponent are read as the exponent, unless there are too many of
them. -/
theorem exponent?_eq_int? (scale : IsExponent exponent) (ascii : ∀ c ∈ exponent, c.toNat < 0x80)
    (short : (exponent.filter Char.isDigit).length ≤ Numeral.digitLimit) :
    exponent? exponent = some ((int? (exponent.drop 1)).getD 0) := by
  -- Without a mark both readers give zero; with one they read the same sign and the same digits.
  cases scale with
  | absent => rfl
  | @marked mark sign digits isMark isSign run =>
    have all := isDigit_of_ascii run.2 fun c member =>
      ascii c (List.mem_cons_of_mem _ (List.mem_append_right _ member))
    obtain ⟨negative, split⟩ := exists_splitSign isSign run.1 all
    have read := digits?_of_isDigit run.1 all
    have joined := joinDigits?_of_unjoined fun c member =>
      ne_of_kind (all c member) (by decide : '_'.isDigit = false)
    have few : ¬Numeral.digitLimit < digits.length := by
      have counted :=
        (((List.sublist_append_right sign digits).cons mark).filter Char.isDigit).length_le
      rw [List.filter_eq_self.2 all] at counted
      omega
    -- Neither the sign nor the digits are blank.
    have solid : ∀ c ∈ sign ++ digits, isMargin c = false := by
      intro c member
      have solid :=
        solid_of_mem ((IsExponent.marked isMark isSign run).mem c (List.mem_cons_of_mem _ member))
      rw [isMargin, solid, Bool.false_and]
    have kept {text : List Char} (solid : ∀ c ∈ text, isMargin c = false) : text.dropWhile isMargin
        = text := by
      cases text with
      | nil => rfl
      | cons c rest => exact List.dropWhile_cons_of_neg (by simp [solid c List.mem_cons_self])
    have trimmed : (((sign ++ digits).dropWhile isMargin).reverse.dropWhile isMargin).reverse
        = sign ++ digits := by
      rw [kept solid, kept fun c member => solid c (List.mem_reverse.1 member),
        List.reverse_reverse]
    unfold int?
    simp only [List.drop_one, List.tail_cons, trimmed]
    rw [asciiDigits_of_ascii fun c member => ascii c (List.mem_cons_of_mem _ member), split]
    simp only [exponent?, if_pos isMark, split, read, joined, Option.bind_eq_bind,
      Option.bind_some, if_neg few]
    rfl

/-- The last place of a whole number is that of its last digit but zeros, moved by the exponent. -/
theorem lastPlace_whole (isSign : IsSign sign negative) (digits : ∀ c ∈ body, c.isDigit = true)
    (scale : IsExponent exponent) (ascii : ∀ c ∈ exponent, c.toNat < 0x80) :
    lastPlace (String.ofList (sign ++ (body ++ exponent)))
      = -((body.rtakeWhile (· = '0')).length : Int) - (int? (exponent.drop 1)).getD 0 := by
  have plain : IsPlain body := fun c member => .inl (digits c member)
  -- Without a point there is no fraction, and the zeros at the end are not significant.
  have pointless : '.' ∉ body := fun member => absurd (digits '.' member) (by decide)
  have zeros : trailingZeros body = (body.rtakeWhile (· = '0')).length := by
    rw [trailingZeros, List.rtakeWhile, List.length_reverse]
  unfold lastPlace
  rw [String.toList_ofList, split_written isSign plain scale ascii]
  dsimp only
  rw [plain.filter_isDigit, List.filter_eq_self.2 digits, zeros]
  simp [fraction?, pointless]

/-- The last place of a number with a point is that of its last digit, moved by the exponent. -/
theorem lastPlace_pointed {whole fraction : List Char} (isSign : IsSign sign negative)
    (before : ∀ c ∈ whole, c.isDigit = true) (after : ∀ c ∈ fraction, c.isDigit = true)
    (scale : IsExponent exponent) (ascii : ∀ c ∈ exponent, c.toNat < 0x80) :
    lastPlace (String.ofList (sign ++ ((whole ++ '.' :: fraction) ++ exponent)))
      = fraction.length - (int? (exponent.drop 1)).getD 0 := by
  have plain : IsPlain (whole ++ '.' :: fraction) := by
    intro c member
    rcases List.mem_append.1 member with member | member
    · exact .inl (before c member)
    · exact (List.mem_cons.1 member).symm.imp (after c) id
  -- The first point is the one behind the digits of the whole part.
  have split : (whole ++ '.' :: fraction).dropWhile (· ≠ '.') = '.' :: fraction :=
    dropWhile_run (fun c member => decide_eq_true (ne_of_kind (before c member) (by decide)))
      fun c first => by cases first; decide
  have behind : fraction? (whole ++ '.' :: fraction) = some fraction := by
    rw [fraction?, if_pos (by simp), split, List.drop_one, List.tail_cons]
  unfold lastPlace
  rw [String.toList_ofList, split_written isSign plain scale ascii]
  dsimp only
  rw [behind]

/-- The leading digit of a decimal with these digits stands as far before the last one as there are
significant digits between them. -/
theorem leading_of_digits {digits : List Char} (all : ∀ c ∈ digits, c.isDigit = true)
    (some : ∃ c ∈ digits, c ≠ '0') (place : Int) :
    (10 : Rat) ^ (place + (digits.dropWhile (· = '0')).length - 1)
        ≤ Decimal.toRat ⟨Nat.ofDigitChars 10 digits 0, place⟩
      ∧ Decimal.toRat ⟨Nat.ofDigitChars 10 digits 0, place⟩
        < 10 ^ (place + (digits.dropWhile (· = '0')).length - 1 + 1) := by
  obtain ⟨positive, count⟩ := digitCount_ofDigitChars all some
  have bounds := Decimal.toRat_bounds (d := ⟨Nat.ofDigitChars 10 digits 0, place⟩) positive.ne'
  rwa [Decimal.leading, count, ← Int.sub_add_cancel (place + _) 1, Int.add_sub_cancel] at bounds

/-- A number in ASCII denotes the digits of its mantissa, at the last place of the number, or as far
behind it as zeros end the mantissa when it has no point. -/
theorem exists_place_of_mantissa (isSign : IsSign sign negative) (digits : IsMantissa body)
    (scale : IsExponent exponent)
    (front : ∀ c ∈ body, c.toNat < 0x80) (behind : ∀ c ∈ exponent, c.toNat < 0x80)
    (short : (exponent.filter Char.isDigit).length ≤ Numeral.digitLimit) :
    ∃ place : Int,
      decimal? (body ++ exponent) = some ⟨Nat.ofDigitChars 10 (body.filter Char.isDigit) 0, place⟩
        ∧ lastPlace (String.ofList (sign ++ (body ++ exponent)))
          = -place - (if '.' ∈ body then 0 else (body.rtakeWhile (· = '0')).length : Nat) := by
  have read := exponent?_eq_int? scale behind short
  have ends : ∀ c, exponent.head? = some c → c.isDigit = false ∧ c ≠ '.' := by
    intro c first
    rw [← asciiDigits_of_ascii behind] at first
    rcases head_asciiDigits_exponent scale first with rfl | rfl <;> decide
  -- The place is moved by the digits behind the point, if there is one.
  cases digits with
  | whole run =>
    have all := isDigit_of_ascii run.2 front
    have pointless : '.' ∉ body := fun member => absurd (all '.' member) (by decide)
    refine ⟨(int? (exponent.drop 1)).getD 0, ?_, ?_⟩
    · rw [List.filter_eq_self.2 all]
      exact decimal?_whole run.1 all ends read
    · rw [lastPlace_whole isSign all scale behind, if_neg pointless]
      omega
  | @pointed whole fraction before after =>
    have before := isDigit_of_ascii before fun c member => front c (List.mem_append_left _ member)
    have after' := isDigit_of_ascii after.2 fun c member =>
      front c (List.mem_append_right _ (List.mem_cons_of_mem _ member))
    -- The point is no digit, and without it the digits are those on both sides.
    have filtered : (whole ++ '.' :: fraction).filter Char.isDigit = whole ++ fraction := by
      rw [List.filter_append, List.filter_eq_self.2 before, List.filter_cons_of_neg (by decide),
        List.filter_eq_self.2 after']
    refine ⟨(int? (exponent.drop 1)).getD 0 - fraction.length, ?_, ?_⟩
    · rw [filtered, List.append_assoc, List.cons_append]
      exact decimal?_pointed (by simp [after.1]) before after'
        (fun c first => (ends c first).1) read
    · rw [lastPlace_pointed isSign before after' scale behind, if_pos (by simp)]
      omega

/-- The sign and the exponent of a number do not count as significant digits, and neither do zeros
in front of its digits. -/
theorem significantDigits_behind {zeros tail : List Char} (isSign : IsSign sign negative)
    (plain : IsPlain (zeros ++ tail))
    (scale : IsExponent exponent) (ascii : ∀ c ∈ exponent, c.toNat < 0x80)
    (nothing : ∀ c ∈ zeros, c = '0' ∨ c = '.')
    (some : ∃ c ∈ zeros ++ tail, c.isDigit = true ∧ c ≠ '0') :
    significantDigits (String.ofList (sign ++ (zeros ++ tail ++ exponent)))
      = significantDigits (String.ofList tail) := by
  have plain' : IsPlain tail := fun c member => plain c (List.mem_append_right _ member)
  -- The digit that is not zero is behind the zeros.
  have some' : ∃ c ∈ tail, c.isDigit = true ∧ c ≠ '0' := by
    obtain ⟨c, member, digit, other⟩ := some
    refine ⟨c, (List.mem_append.1 member).resolve_left fun member => ?_, digit, other⟩
    rcases nothing c member with rfl | rfl
    · exact other rfl
    · cases digit
  have dropped : ∀ c ∈ zeros.filter Char.isDigit, decide (c = '0') = true := by
    intro c member
    obtain ⟨member, digit⟩ := List.mem_filter.1 member
    refine decide_eq_true ((nothing c member).resolve_right ?_)
    rintro rfl
    cases digit
  have alone := significantDigits_written .absent plain' .absent (by simp) some'
  rw [List.nil_append, List.append_nil] at alone
  rw [significantDigits_written isSign plain scale ascii some, alone, List.filter_append,
    List.dropWhile_append_of_pos dropped]

/-- A number in ASCII has as many significant digits as there are places from its leading digit down
to the last place, and as many more as zeros end it when it has no point. Neither its sign and
exponent nor zeros in front of its digits count. -/
theorem significantDigits_eq {mantissa : List Char} (isSign : IsSign sign negative)
    (digits : IsMantissa mantissa)
    (scale : IsExponent exponent) (ascii : ∀ c ∈ mantissa ++ exponent, c.toNat < 0x80)
    (short : (exponent.filter Char.isDigit).length ≤ Numeral.digitLimit)
    (some : ∃ c ∈ mantissa, c.isDigit = true ∧ c ≠ '0') :
    (∃ (d : Decimal) (order : Int), decimal? (mantissa ++ exponent) = .some d
        ∧ (10 ^ order ≤ d.toRat ∧ d.toRat < 10 ^ (order + 1))
        ∧ (significantDigits (String.ofList (sign ++ (mantissa ++ exponent))) : Int)
          = order + lastPlace (String.ofList (sign ++ (mantissa ++ exponent))) + 1
            + if '.' ∈ mantissa then 0 else (mantissa.rtakeWhile (· = '0')).length)
      ∧ ∀ zeros tail, mantissa = zeros ++ tail → (∀ c ∈ zeros, c = '0' ∨ c = '.') →
        significantDigits (String.ofList (sign ++ (mantissa ++ exponent)))
          = significantDigits (String.ofList tail) := by
  have front : ∀ c ∈ mantissa, c.toNat < 0x80 := fun c member =>
    ascii c (List.mem_append_left _ member)
  have behind : ∀ c ∈ exponent, c.toNat < 0x80 := fun c member =>
    ascii c (List.mem_append_right _ member)
  have plain := IsPlain.of_isMantissa digits front
  obtain ⟨place, read, last⟩ := exists_place_of_mantissa isSign digits scale front behind short
  have nonzero : ∃ c ∈ mantissa.filter Char.isDigit, c ≠ '0' := by
    obtain ⟨c, member, digit, other⟩ := some
    exact ⟨c, List.mem_filter.2 ⟨member, digit⟩, other⟩
  -- The significant digits reach from the leading one to the place that the digits are denoted at.
  refine ⟨⟨_, _, read, leading_of_digits (fun c => List.of_mem_filter) nonzero place, ?_⟩, ?_⟩
  · rw [significantDigits_written isSign plain scale behind some, last]
    push_cast
    omega
  · rintro zeros tail rfl nothing
    exact significantDigits_behind isSign plain scale behind nothing some

/-- The two zeros that end 7300 are behind its last place and are counted all the same; those in
front are not. -/
theorem significantDigits_between_zeros :
    (∃ (d : Decimal) (order : Int), decimal? "007300e2".toList = some d
        ∧ (10 ^ order ≤ d.toRat ∧ d.toRat < 10 ^ (order + 1))
        ∧ (significantDigits "+007300e2" : Int) = order + lastPlace "+007300e2" + 1 + 2)
      ∧ significantDigits "+007300e2" = significantDigits "7300" := by
  have digits : IsMantissa "007300".toList := .whole ⟨by decide, List.all_eq_true.1 (by decide)⟩
  have scale : IsExponent "e2".toList :=
    show IsExponent ('e' :: ([] ++ ['2'])) from
      .marked (.inl rfl) (.inl rfl) ⟨by decide, List.all_eq_true.1 (by decide)⟩
  have text : String.ofList (['+'] ++ ("007300".toList ++ "e2".toList)) = "+007300e2" := by decide
  -- The text is a sign, the six digits and an exponent.
  obtain ⟨counted, same⟩ :=
    significantDigits_eq .plus digits scale (by simp) (by decide) ⟨'7', by decide, by decide⟩
  rw [text] at counted same
  exact ⟨counted, same "00".toList "7300".toList (by decide) (by simp)⟩

end Written

end PlusMinus
