import PlusMinus.Decimal.Layout
import PlusMinus.Numeral.Reader
import PlusMinus.Proofs.Numeral.Grammar

/-! Numbers as results show them, and the decimal that each of them is read as. -/

namespace PlusMinus.Numeral

open Text Literal

/-- A number in ASCII without a sign: digits, the digits behind the point, and the exponent. -/
structure Plain where
  whole : List Char
  fraction : List Char := []
  scale : Option Int := none
  nonempty : whole ≠ []
  wholeDigits : ∀ c ∈ whole, c.isDigit = true
  fractionDigits : ∀ c ∈ fraction, c.isDigit = true

namespace Plain

/-- The point with the digits behind it, if there are any. -/
def point (p : Plain) : List Char := if p.fraction = [] then [] else '.' :: p.fraction

/-- The exponent with its mark, if there is one. -/
def exponent (p : Plain) : List Char := p.scale.elim [] (exponentText 1)

/-- The number as it is written. -/
def text (p : Plain) : List Char := p.whole ++ (p.point ++ p.exponent)

/-- The decimal that the number denotes. -/
def decimal (p : Plain) : Decimal :=
  ⟨Nat.ofDigitChars 10 (p.whole ++ p.fraction) 0, p.scale.getD 0 - p.fraction.length⟩

/-- The digits of a whole number are ASCII digits. -/
theorem isDigit_toDigits {n : Nat} {c : Char} (member : c ∈ Nat.toDigits 10 n) : c.isDigit = true :=
  Nat.isDigit_of_mem_toDigits (by decide) (by decide) member

/-- An exponent without a least width is its mark, its sign and its digits. -/
theorem exponentText_one (n : Int) :
    exponentText 1 n = 'e' :: (if n < 0 then '-' else '+') :: Nat.toDigits 10 n.natAbs := by
  have some : 0 < (Nat.toDigits 10 n.natAbs).length := Nat.length_toDigits_pos
  unfold exponentText zeros
  dsimp only
  rw [show 1 - (Nat.toDigits 10 n.natAbs).length = 0 by omega]
  rfl

/-- An exponent that is there starts with its mark. -/
theorem exponent_cases (p : Plain) : p.exponent = [] ∨ ∃ rest, p.exponent = 'e' :: rest := by
  unfold exponent
  cases p.scale with
  | none => exact .inl rfl
  | some n => exact .inr ⟨_, exponentText_one n⟩

/-- No point or exponent starts with a digit. -/
theorem head_point {p : Plain} {c : Char} (first : (p.point ++ p.exponent).head? = some c) :
    c = '.' ∨ c = 'e' := by
  -- Without a point the exponent comes first.
  unfold point at first
  split at first
  · rcases p.exponent_cases with absent | ⟨rest, marked⟩
    · simp [absent] at first
    · simp [marked] at first
      exact .inr first.symm
  · simp at first
    exact .inl first.symm

/-- Every character of an exponent is an ASCII digit, its mark or its sign. -/
theorem mem_exponent {p : Plain} {c : Char} (member : c ∈ p.exponent) :
    c.isDigit = true ∨ c ∈ ['e', '+', '-'] := by
  -- Behind the mark and the sign there are only digits.
  unfold exponent at member
  cases scale : p.scale with
  | none => simp [scale] at member
  | some n =>
    simp only [scale, Option.elim_some, exponentText_one, List.mem_cons] at member
    rcases member with rfl | rfl | member
    · exact .inr (by simp)
    · split <;> simp
    · exact .inl (isDigit_toDigits member)

/-- Every character of a number is an ASCII digit, a point, or the mark or the sign of an
exponent. -/
theorem mem_text {p : Plain} {c : Char} (member : c ∈ p.text) :
    c.isDigit = true ∨ c ∈ ['.', 'e', '+', '-'] := by
  -- The character stands before the point, behind it or in the exponent.
  unfold text at member
  rcases List.mem_append.1 member with member | member
  · exact .inl (p.wholeDigits c member)
  rcases List.mem_append.1 member with member | member
  · unfold point at member
    split at member
    · cases member
    · rcases List.mem_cons.1 member with rfl | member
      · exact .inr (by simp)
      · exact .inl (p.fractionDigits c member)
  · exact (mem_exponent member).imp id fun listed => List.mem_cons_of_mem _ listed

/-- A number starts with an ASCII digit. -/
theorem exists_head (p : Plain) : ∃ c rest, p.text = c :: rest ∧ c.isDigit = true := by
  obtain ⟨c, rest, same⟩ := List.exists_cons_of_ne_nil p.nonempty
  exact ⟨c, rest ++ (p.point ++ p.exponent), by simp [text, same], p.wholeDigits c (by simp [same])⟩

/-- Digits and point of a number follow the grammar of a mantissa. -/
theorem isMantissa (p : Plain) : IsMantissa (p.whole ++ p.point) := by
  have whole : ∀ c ∈ p.whole, isDecimal c = true :=
    fun c member => isDecimal_of_isDigit (p.wholeDigits c member)
  -- There is a point where there is a fraction.
  unfold point
  split
  · rw [List.append_nil]
    exact .whole ⟨p.nonempty, whole⟩
  · rename_i some
    exact .pointed whole ⟨some, fun c member => isDecimal_of_isDigit (p.fractionDigits c member)⟩

/-- The exponent of a number follows the grammar of an exponent. -/
theorem isExponent (p : Plain) : IsExponent p.exponent := by
  unfold exponent
  cases p.scale with
  | none => exact .absent
  | some n =>
    simp only [Option.elim_some, exponentText_one]
    -- There is always a sign behind the mark, for positive exponents as well.
    have sign : [if n < 0 then '-' else '+'] = [] ∨ [if n < 0 then '-' else '+'] = ['+']
        ∨ [if n < 0 then '-' else '+'] = ['-'] := by split <;> simp
    exact .marked (.inl rfl) sign
      ⟨Nat.toDigits_ne_nil, fun c member => isDecimal_of_isDigit (isDigit_toDigits member)⟩

/-- A number follows the grammar of literals. -/
theorem isUnsigned_text (p : Plain) : IsUnsigned p.text := by
  rw [text, ← List.append_assoc]
  exact .number p.isMantissa p.isExponent

end Plain

/-- Digits are read as the number that they denote. -/
theorem digits?_of_isDigit {text : List Char} (nonempty : text ≠ [])
    (all : ∀ c ∈ text, c.isDigit = true) : digits? text = some (Nat.ofDigitChars 10 text 0) := by
  unfold digits?
  rw [if_pos ⟨nonempty, by simpa using all⟩]

section Decimal

variable {whole fraction tail : List Char} {n : Int}

/-- Digits without a point are read as a decimal with the exponent behind them. -/
theorem decimal?_whole (nonempty : whole ≠ []) (front : ∀ c ∈ whole, c.isDigit = true)
    (ends : ∀ c, tail.head? = some c → c.isDigit = false ∧ c ≠ '.')
    (scale : exponent? tail = some n) :
    decimal? (whole ++ tail) = some ⟨Nat.ofDigitChars 10 whole 0, n⟩ := by
  have digits := digits?_of_isDigit nonempty front
  have stop : ∀ c, tail.head? = some c → c.isDigit = false := fun c first => (ends c first).1
  unfold decimal?
  simp only [takeWhile_run front stop, dropWhile_run front stop]
  -- What follows is no point, so that there is no fraction.
  split
  · exact absurd rfl (ends '.' rfl).2
  · simp [digits, scale]

/-- With a point the digits behind it are read as well, and move the exponent. -/
theorem decimal?_pointed (nonempty : whole ++ fraction ≠ []) (front : ∀ c ∈ whole, c.isDigit = true)
    (behind : ∀ c ∈ fraction, c.isDigit = true)
    (ends : ∀ c, tail.head? = some c → c.isDigit = false)
    (scale : exponent? tail = some n) :
    decimal? (whole ++ '.' :: (fraction ++ tail))
      = some ⟨Nat.ofDigitChars 10 (whole ++ fraction) 0, n - fraction.length⟩ := by
  have digits := digits?_of_isDigit nonempty fun c member =>
    (List.mem_append.1 member).elim (front c) (behind c)
  -- The point ends the first run of digits, and what follows the number ends the second.
  have point : ∀ c, ('.' :: (fraction ++ tail)).head? = some c → c.isDigit = false := by
    intro c first
    cases first
    decide
  unfold decimal?
  simp [takeWhile_run front point, dropWhile_run front point, takeWhile_run behind ends,
    dropWhile_run behind ends, digits, scale]

end Decimal

namespace Plain

/-- The exponent of a number is read as its scale. -/
theorem exponent?_exponent (p : Plain) : exponent? p.exponent = some (p.scale.getD 0) := by
  unfold exponent
  cases p.scale with
  | none => rfl
  | some n =>
    have digits := digits?_of_isDigit (Nat.toDigits_ne_nil (n := n.natAbs) (b := 10))
      fun c member => isDigit_toDigits member
    rw [Nat.ofDigitChars_ten_toDigits] at digits
    simp only [Option.elim_some, exponentText_one, Option.getD_some]
    -- The sign decides between the number of the digits and its opposite.
    by_cases negative : n < 0
    · have value : -(n.natAbs : Int) = n := by omega
      rw [if_pos negative]
      simp only [exponent?, splitSign, true_or, if_true, digits]
      exact congrArg some value
    · have value : (n.natAbs : Int) = n := by omega
      rw [if_neg negative]
      simp only [exponent?, splitSign, true_or, if_true, digits]
      exact congrArg some value

/-- A number is read as the decimal that it denotes. -/
theorem decimal?_text (p : Plain) : decimal? p.text = some p.decimal := by
  have ends : ∀ c, p.exponent.head? = some c → c.isDigit = false ∧ c ≠ '.' := by
    intro c first
    rcases p.exponent_cases with absent | ⟨rest, marked⟩
    · simp [absent] at first
    · simp [marked] at first
      subst first
      decide
  have scale := p.exponent?_exponent
  -- Without a fraction there is no point either, and the exponent follows the digits at once.
  unfold text point decimal
  by_cases empty : p.fraction = []
  · rw [if_pos empty, List.nil_append, decimal?_whole p.nonempty p.wholeDigits ends scale, empty]
    simp
  · rw [if_neg empty, List.cons_append,
      decimal?_pointed (by simp [p.nonempty]) p.wholeDigits p.fractionDigits
      (fun c first => (ends c first).1) scale]

/-- No character of a number joins digits, is blank or lies outside ASCII. -/
theorem ordinary_text (p : Plain) :
    ∀ c ∈ p.text, c.toNat < 0x80 ∧ c ≠ '_' ∧ isBlank c = false := by
  intro c member
  rcases mem_text member with digit | listed
  · have range := toNat_of_isDigit digit
    exact
      ⟨by omega, ne_of_kind digit (by decide), isBlank_of_isDecimal (isDecimal_of_isDigit digit)⟩
  · -- The marks are looked at one by one.
    have all : ['.', 'e', '+', '-'].all (fun c => c.toNat < 0x80 ∧ c ≠ '_' ∧ isBlank c = false)
        = true := by decide
    simpa using List.all_eq_true.1 all c listed

end Plain

/-- Digits in ASCII stay as they are. -/
theorem asciiDigits_of_ascii {text : List Char} (ascii : ∀ c ∈ text, c.toNat < 0x80) :
    asciiDigits text = text := by
  -- Every digit in ASCII stands for itself.
  unfold asciiDigits
  rw [List.map_congr_left (g := id), List.map_id]
  intro c member
  have small := ascii c member
  unfold digitValue?
  dsimp only
  rw [if_pos small]
  split
  · rename_i range
    simp only [Option.map_some, Option.getD_some, asciiDigit, id]
    rw [show 0x30 + (c.toNat - 0x30) = c.toNat by omega, Char.ofNat_toNat]
  · rfl

/-- Nothing is left out of a text in which nothing joins digits. -/
theorem joinDigits?_of_unjoined {text : List Char} (unjoined : ∀ c ∈ text, c ≠ '_') :
    joinDigits? text = some text := by
  -- Whether a digit came before only matters for what joins digits.
  have step : ∀ afterDigit, joinDigits?.go afterDigit text = some text := by
    induction text with
    | nil =>
      intro afterDigit
      rfl
    | cons c rest ih =>
      intro afterDigit
      have other : c ≠ '_' := unjoined c (by simp)
      unfold joinDigits?.go
      split
      · rename_i same
        cases same
      · rename_i same
        exact absurd (List.cons.inj same).1 other
      · rename_i same
        cases same
        rw [ih (fun d member => unjoined d (by simp [member])) c.isDigit]
        rfl
  exact step false

/-- Joining digits keeps the first character. -/
theorem exists_of_joinDigits? {c : Char} {rest joined : List Char}
    (found : joinDigits? (c :: rest) = some joined) : ∃ later, joined = c :: later := by
  -- Nothing is joined at the front, where no digit stands before.
  unfold joinDigits? joinDigits?.go at found
  split at found
  · rename_i empty
    cases empty
  · simp at found
  · rename_i front
    obtain ⟨later, _, rfl⟩ := Option.map_eq_some_iff.1 found
    exact ⟨later, by rw [(List.cons.inj front).1]⟩

/-- Nothing is split off a text without a sign at its front. -/
theorem splitSign_cons {c : Char} (rest : List Char) (notPlus : c ≠ '+') (notMinus : c ≠ '-') :
    splitSign (c :: rest) = (false, c :: rest) := by
  unfold splitSign
  split
  · rename_i front
    exact absurd (List.cons.inj front).1 notMinus
  · rename_i front
    exact absurd (List.cons.inj front).1 notPlus
  · rfl

/-- The sign before a number. -/
def signText (negative : Bool) : List Char := if negative then ['-'] else []

/-- The characters of a signed number keep what holds of a minus and of those of the number. -/
theorem forall_signText {kept : Char → Prop} {negative : Bool} {text : List Char}
    (minus : kept '-') (rest : ∀ c ∈ text, kept c) : ∀ c ∈ signText negative ++ text, kept c := by
  intro c member
  -- Without a sign there is nothing but the number.
  cases negative with
  | false => exact rest c member
  | true =>
    rcases List.mem_cons.1 member with rfl | member
    · exact minus
    · exact rest c member

/-- What starts with a digit or a point is no word, in lower case either. -/
theorem map_toLower_ne {c d : Char} {rest word : List Char} (first : c.isDigit = true ∨ c = '.')
    (letter : d.isAlpha = true) : (c :: rest).map Char.toLower ≠ d :: word := by
  have small : c.toNat < 65 := by
    rcases first with digit | rfl
    · have := toNat_of_isDigit digit
      omega
    · decide
  -- Below the capital letters nothing changes, and no letter stands there.
  intro same
  rw [List.map_cons, toLower_eq_self (.inl small)] at same
  have equal := (List.cons.inj same).1
  subst equal
  -- A letter is a capital or a small one.
  change (decide (c.val ≥ 'A'.val ∧ c.val ≤ 'Z'.val)
    || (decide (c.val ≥ 'a'.val) && decide (c.val ≤ 'z'.val))) = true at letter
  simp only [Bool.or_eq_true, Bool.and_eq_true, decide_eq_true_eq, ge_iff_le,
    UInt32.le_iff_toNat_le] at letter
  change (65 ≤ c.toNat ∧ c.toNat ≤ 90) ∨ (97 ≤ c.toNat ∧ c.toNat ≤ 122) at letter
  omega

/-- A text whose body starts like a number and is read as a decimal denotes the double of that. -/
theorem double?_of_decimal? {text joined rest : List Char} {c : Char}
    {negative : Bool} {d : Decimal}
    (join : joinDigits? (asciiDigits (strip text)) = some joined)
    (split : splitSign joined = (negative, c :: rest)) (first : c.isDigit = true ∨ c = '.')
    (read : decimal? (c :: rest) = some d) : double? text = some (d.toDouble negative) := by
  -- Both words start with a letter.
  unfold double?
  rw [join]
  simp only [Option.bind_eq_bind, Option.bind_some, split]
  rw [show "inf".toList = 'i' :: "nf".toList from rfl,
    show "infinity".toList = 'i' :: "nfinity".toList from rfl,
    show "nan".toList = 'n' :: "an".toList from rfl,
    if_neg (not_or.2 ⟨map_toLower_ne first (by decide), map_toLower_ne first (by decide)⟩),
    if_neg (map_toLower_ne first (by decide)), read, Option.map_some]

/-- A number with or without a minus is read as the double that its decimal denotes. -/
theorem Plain.double?_text (p : Plain) (negative : Bool) :
    double? (signText negative ++ p.text) = some (p.decimal.toDouble negative) := by
  obtain ⟨c, rest, same, digit⟩ := p.exists_head
  have ordinary := p.ordinary_text
  -- None of the first three steps changes anything: there are no blanks, no other digits, no joins.
  have stripped : strip (signText negative ++ p.text) = signText negative ++ p.text :=
    strip_eq_self (forall_signText (by decide) fun c member => (ordinary c member).2.2)
  have ascii : asciiDigits (signText negative ++ p.text) = signText negative ++ p.text :=
    asciiDigits_of_ascii (forall_signText (by decide) fun c member => (ordinary c member).1)
  have joined : joinDigits? (signText negative ++ p.text) = some (signText negative ++ p.text) :=
    joinDigits?_of_unjoined (forall_signText (by decide) fun c member => (ordinary c member).2.1)
  have split : splitSign (signText negative ++ p.text) = (negative, c :: rest) := by
    rw [same]
    cases negative with
    | true => rfl
    | false =>
      exact splitSign_cons rest (ne_of_kind digit (by decide)) (ne_of_kind digit (by decide))
  exact double?_of_decimal? (by rw [stripped, ascii, joined]) split (.inl digit)
    (same ▸ p.decimal?_text)

end PlusMinus.Numeral
