import PlusMinus.Proofs.Decimal.Shortest
import PlusMinus.Proofs.Numeral.Literal
import PlusMinus.Proofs.Numeral.Plain

/-! Every literal denotes a number, whatever script its digits are in, and only the word for no
number denotes none. -/

namespace PlusMinus.Numeral

open Text Literal

/-- A decimal digit in ASCII is an ASCII digit. -/
theorem isDigit_asciiDigit {value : Nat} (small : value < 10) :
    (asciiDigit value).isDigit = true := by
  have digits : ∀ value < 10, (asciiDigit value).isDigit = true := by decide
  exact digits value small

/-- Digits of any script become ASCII digits. -/
theorem isDigit_asciiDigits {digits : List Char} (run : ∀ c ∈ digits, isDecimal c = true) :
    ∀ c ∈ asciiDigits digits, c.isDigit = true := by
  intro c member
  obtain ⟨d, listed, rfl⟩ := List.mem_map.1 member
  -- The digit has a value, and the value a digit in ASCII.
  obtain ⟨value, found⟩ := Option.isSome_iff_exists.1 (run d listed)
  simpa [found] using isDigit_asciiDigit (digitValue?_lt found)

/-- What is no digit stays as it is before the rest of a text. -/
theorem asciiDigits_cons {c : Char} (other : isDecimal c = false) (rest : List Char) :
    asciiDigits (c :: rest) = c :: asciiDigits rest := by
  have none : digitValue? c = none := by simpa [isDecimal] using other
  simp [asciiDigits, none]

/-- Two texts one after the other are put into ASCII one after the other. -/
theorem asciiDigits_append (first second : List Char) :
    asciiDigits (first ++ second) = asciiDigits first ++ asciiDigits second :=
  List.map_append

/-- A run of digits is no longer and no shorter in ASCII. -/
theorem asciiDigits_ne_nil {digits : List Char} (nonempty : digits ≠ []) :
    asciiDigits digits ≠ [] := by
  simpa [asciiDigits] using nonempty

/-- An exponent is absent or starts with its mark, in ASCII as well. -/
theorem head_asciiDigits_exponent {exponent : List Char} (grammar : IsExponent exponent) {c : Char}
    (first : (asciiDigits exponent).head? = some c) : c = 'e' ∨ c = 'E' := by
  cases grammar with
  | absent => cases first
  | marked isMark isSign run =>
    have other : ∀ {mark : Char}, mark = 'e' ∨ mark = 'E' → isDecimal mark = false := by
      rintro _ (rfl | rfl) <;> decide
    rw [asciiDigits_cons (other isMark)] at first
    cases first
    exact isMark

/-- A sign is split off before digits, and without one nothing is. -/
theorem exists_splitSign {sign digits : List Char}
    (isSign : sign = [] ∨ sign = ['+'] ∨ sign = ['-'])
    (nonempty : digits ≠ []) (all : ∀ c ∈ digits, c.isDigit = true) :
    ∃ negative, splitSign (sign ++ digits) = (negative, digits) := by
  rcases isSign with rfl | rfl | rfl
  · obtain ⟨c, rest, rfl⟩ := List.exists_cons_of_ne_nil nonempty
    have digit := all c List.mem_cons_self
    exact ⟨false, splitSign_cons rest (ne_of_kind digit (by decide)) (ne_of_kind digit (by decide))⟩
  · exact ⟨false, rfl⟩
  · exact ⟨true, rfl⟩

/-- An exponent is read as a whole number. -/
theorem exists_exponent? {exponent : List Char} (grammar : IsExponent exponent) :
    ∃ n, exponent? (asciiDigits exponent) = some n := by
  -- Without a mark the exponent is zero; with one there are digits behind it.
  cases grammar with
  | absent => exact ⟨0, rfl⟩
  | @marked mark sign digits isMark isSign run =>
    have read := digits?_of_isDigit (asciiDigits_ne_nil run.1) (isDigit_asciiDigits run.2)
    have other : isDecimal mark = false := by rcases isMark with rfl | rfl <;> decide
    have same : asciiDigits sign = sign := by rcases isSign with rfl | rfl | rfl <;> rfl
    obtain ⟨negative, split⟩ :=
      exists_splitSign isSign (asciiDigits_ne_nil run.1) (isDigit_asciiDigits run.2)
    rw [asciiDigits_cons other, asciiDigits_append, same]
    exact ⟨_, by simp only [exponent?, if_pos isMark, split, read]; rfl⟩

/-- Digits with a point and an exponent are read as a decimal. -/
theorem exists_decimal? {mantissa exponent : List Char} (digits : IsMantissa mantissa)
    (scale : IsExponent exponent) :
    ∃ d, decimal? (asciiDigits (mantissa ++ exponent)) = some d := by
  obtain ⟨n, read⟩ := exists_exponent? scale
  -- Neither the exponent nor the point goes on with a run of digits.
  have ends : ∀ c, (asciiDigits exponent).head? = some c → c.isDigit = false ∧ c ≠ '.' := by
    intro c first
    rcases head_asciiDigits_exponent scale first with rfl | rfl <;> decide
  rw [asciiDigits_append]
  cases digits with
  | whole run =>
    exact ⟨_, decimal?_whole (asciiDigits_ne_nil run.1) (isDigit_asciiDigits run.2) ends read⟩
  | @pointed whole fraction before after =>
    have spelled : asciiDigits (whole ++ '.' :: fraction) ++ asciiDigits exponent
        = asciiDigits whole ++ '.' :: (asciiDigits fraction ++ asciiDigits exponent) := by
      rw [asciiDigits_append, asciiDigits_cons (by decide)]
      simp
    rw [spelled]
    exact ⟨_, decimal?_pointed (by simp [asciiDigits_ne_nil after.1]) (isDigit_asciiDigits before)
      (isDigit_asciiDigits after.2) (fun c first => (ends c first).1) read⟩

/-- A digit or a mark of a number does not join digits, in ASCII either. -/
theorem unjoined_asciiDigits {text : List Char}
    (characters : ∀ c ∈ text, isDecimal c = true ∨ c ∈ marks) :
    ∀ c ∈ asciiDigits text, c ≠ '_' := by
  intro c member
  obtain ⟨d, listed, rfl⟩ := List.mem_map.1 member
  -- A digit of another script has become one in ASCII.
  cases value : digitValue? d with
  | some n =>
    have digit := isDigit_asciiDigit (digitValue?_lt value)
    simpa using ne_of_kind digit (show '_'.isDigit = false by decide)
  | none =>
    have mark : d ∈ marks :=
      (characters d listed).resolve_left fun digit => by simp [isDecimal, value] at digit
    have other : marks.all (· ≠ '_') = true := by decide
    simpa using List.all_eq_true.1 other d mark

/-- A number of digits starts with an ASCII digit or with a point when it is put into ASCII. -/
theorem exists_head_asciiDigits {mantissa : List Char} (digits : IsMantissa mantissa)
    (exponent : List Char) :
    ∃ c rest, asciiDigits (mantissa ++ exponent) = c :: rest ∧ (c.isDigit = true ∨ c = '.') := by
  have front : ∀ {run : List Char} {c : Char} {rest tail : List Char}, run = c :: rest →
      (∀ d ∈ run, isDecimal d = true) →
      ∃ d later, asciiDigits (run ++ tail) = d :: later ∧ (d.isDigit = true ∨ d = '.') := by
    rintro _ c rest tail rfl all
    refine ⟨_, _, rfl, .inl ?_⟩
    exact isDigit_asciiDigits all _ (by simp [asciiDigits])
  -- The first character is the first digit, unless the point comes first.
  cases digits with
  | whole run =>
    obtain ⟨c, rest, same⟩ := List.exists_cons_of_ne_nil run.1
    exact front same run.2
  | @pointed whole fraction before after =>
    cases whole with
    | nil => exact ⟨'.', _, asciiDigits_cons (by decide) _, .inr rfl⟩
    | cons c rest =>
      rw [List.append_assoc]
      exact front rfl before

/-- A sign before a number, true for minus, or no sign. -/
inductive IsSign : List Char → Bool → Prop
  | absent : IsSign [] false
  | plus : IsSign ['+'] false
  | minus : IsSign ['-'] true

/-- A sign is a plus or a minus. -/
theorem IsSign.mem {sign : List Char} {negative : Bool} (isSign : IsSign sign negative) :
    ∀ c ∈ sign, c = '+' ∨ c = '-' := by
  cases isSign <;> simp

/-- A number of digits behind a sign is read as the double of a decimal with that sign. -/
theorem exists_double?_number {sign mantissa exponent : List Char} {negative : Bool}
    (isSign : IsSign sign negative) (digits : IsMantissa mantissa) (scale : IsExponent exponent) :
    ∃ d : Decimal, double? (sign ++ (mantissa ++ exponent)) = some (d.toDouble negative) := by
  have grammar : IsUnsigned (mantissa ++ exponent) := .number digits scale
  obtain ⟨d, read⟩ := exists_decimal? digits scale
  obtain ⟨c, rest, same, first⟩ := exists_head_asciiDigits digits exponent
  rw [same] at read
  -- The sign is neither blank nor a digit nor a joint, and stays before the digits.
  have characters : ∀ c ∈ sign ++ (mantissa ++ exponent), isDecimal c = true ∨ c ∈ marks := by
    intro c member
    rcases List.mem_append.1 member with member | member
    · rcases isSign.mem c member with rfl | rfl <;> exact .inr (by decide)
    · exact grammar.mem c member
  have stripped := strip_eq_self fun c member => solid_of_mem (characters c member)
  have join := joinDigits?_of_unjoined (unjoined_asciiDigits characters)
  have split : splitSign (asciiDigits (sign ++ (mantissa ++ exponent)))
      = (negative, c :: rest) := by
    rw [asciiDigits_append, same]
    cases isSign with
    | absent =>
      have unlike : c ≠ '+' ∧ c ≠ '-' := by
        rcases first with digit | rfl
        · exact ⟨ne_of_kind digit (by decide), ne_of_kind digit (by decide)⟩
        · decide
      exact splitSign_cons rest unlike.1 unlike.2
    | plus => rfl
    | minus => rfl
  exact ⟨d, double?_of_decimal? (by rw [stripped, join]) split first read⟩

end PlusMinus.Numeral

namespace PlusMinus

open Numeral Literal

/-- A decimal denotes a number. -/
theorem Decimal.isNaN_toDouble (negative : Bool) (d : Decimal) :
    (d.toDouble negative).isNaN = false := by
  -- Rounding a quotient gives a finite double or an infinity.
  have rounded : ∀ n m, (Double.ofQuotient .toEven negative n m).isNaN = false := by
    intro n m
    unfold Double.ofQuotient
    dsimp only
    split <;> rfl
  unfold toDouble
  dsimp only
  split
  · rfl
  split
  · rfl
  split
  · rfl
  split
  · exact rounded _ _
  · exact rounded _ _

/-- A literal without a sign denotes a number, unless it is the word for none. -/
theorem Literal.isNaN_ofText_iff {number : List Char} (grammar : IsUnsigned number) :
    (Double.ofText (String.ofList number)).isNaN = true ↔ number = "NaN".toList := by
  cases grammar with
  | @number mantissa exponent digits scale =>
    -- Digits are read as a decimal, and do not start like the word.
    obtain ⟨d, read⟩ := exists_double?_number .absent digits scale
    have denoted : Double.ofText (String.ofList (mantissa ++ exponent)) = d.toDouble false := by
      rw [Double.ofText, String.toList_ofList]
      exact congrArg (·.getD .nan) read
    have other : mantissa ++ exponent ≠ "NaN".toList := by
      intro word
      obtain ⟨c, rest, same, first⟩ := exists_head_asciiDigits digits exponent
      rw [word, show asciiDigits "NaN".toList = "NaN".toList by decide] at same
      have front : 'N' = c := (List.cons.inj same).1
      subst front
      exact absurd first (by decide)
    rw [denoted, d.isNaN_toDouble]
    exact iff_of_false (by decide) other
  | infinity => decide
  | nan => decide

/-- Exactly the texts that follow the grammar are taken whole by the reader of unsigned literals. -/
theorem Literal.isUnsigned_iff {number : List Char} :
    IsUnsigned number ↔ splitUnsigned? number = some (number, []) := by
  refine ⟨fun grammar => ?_, isUnsigned_of_splitUnsigned?⟩
  simpa using splitUnsigned?_of_isUnsigned grammar stops_nil

instance (number : List Char) : Decidable (Literal.IsUnsigned number) :=
  decidable_of_iff _ Literal.isUnsigned_iff.symm

/-- Exactly the texts that follow the grammar are taken whole by the reader of signed literals. -/
theorem Literal.isSigned_iff {number : List Char} :
    IsSigned number ↔ splitSigned? number = some (number, []) := by
  refine ⟨fun grammar => ?_, isSigned_of_splitSigned?⟩
  simpa using splitSigned?_of_isSigned grammar stops_nil

instance (number : List Char) : Decidable (Literal.IsSigned number) :=
  decidable_of_iff _ Literal.isSigned_iff.symm

end PlusMinus
