import PlusMinus.Expression.Tree
import PlusMinus.Proofs.Decimal.Layout
import PlusMinus.Proofs.Double.Sign
import PlusMinus.Proofs.Expression.Read

/-! A finite double that is written in an expression is read from it again. -/

namespace PlusMinus

open Numeral Text

namespace Lexeme

/-- A digit announces no base. -/
theorem base?_of_isDigit {c : Char} (digit : c.isDigit = true) : base? c = none := by
  -- Every mark of a base is a letter.
  unfold base?
  split <;> first | rfl | exact absurd digit (by decide)

/-- Neither the character behind the first one of a number nor nothing at all announces a base. -/
theorem base?_second (p : Plain) {c d : Char} {rest : List Char} (same : p.text = c :: d :: rest) :
    base? d = none := by
  have tail : p.whole.drop 1 ++ (p.point ++ p.exponent) = d :: rest := by
    obtain ⟨first, more, whole⟩ := List.exists_cons_of_ne_nil p.nonempty
    have text : first :: (more ++ (p.point ++ p.exponent)) = c :: d :: rest := by
      rw [← same, Plain.text, whole, List.cons_append]
    simpa [whole] using (List.cons.inj text).2
  -- The second character is a digit, or the first one of the point or of the exponent.
  cases digits : p.whole.drop 1 with
  | nil =>
    rw [digits, List.nil_append] at tail
    have head : (p.point ++ p.exponent).head? = some d := by rw [tail]; rfl
    rcases Plain.head_point head with rfl | rfl <;> rfl
  | cons e more =>
    rw [digits, List.cons_append] at tail
    have first : d ∈ p.whole := by
      rw [← (List.cons.inj tail).1]
      exact List.mem_of_mem_drop (by rw [digits]; simp)
    exact base?_of_isDigit (p.wholeDigits d first)

/-- A whole number in range is read as the double that it denotes as a decimal. -/
theorem ofInt?_eq {n : Nat} (finite : (Decimal.toDouble false ⟨n, 0⟩).isFinite = true) :
    Double.ofInt? n = some (Decimal.toDouble false ⟨n, 0⟩) := by
  -- Both count the same quanta, one as a number and one as a decimal without an exponent.
  have same : Double.ofInt n = Decimal.toDouble false ⟨n, 0⟩ := by
    have sign : decide ((n : Int) < 0) = false := decide_eq_false (by omega)
    unfold Double.ofInt
    rw [sign, Int.natAbs_natCast]
    rcases Nat.eq_zero_or_pos n with rfl | positive
    · rw [Nat.zero_mul, Double.ofQuotient_zero _ _ Nat.zero_lt_one,
        Decimal.toDouble_of_zero false rfl]
    · have nonzero : (⟨n, 0⟩ : Decimal).coefficient ≠ 0 := Nat.ne_of_gt positive
      -- As a decimal the number is only computed within the range of the powers of ten.
      by_cases inside : -330 ≤ (⟨n, 0⟩ : Decimal).leading ∧ (⟨n, 0⟩ : Decimal).leading ≤ 310
      · have quanta : (⟨n, 0⟩ : Decimal).quanta = (n * Double.one, 1) := by
          unfold Decimal.quanta
          rw [show tenTo (0 : Int).toNat = 1 from rfl, show tenTo (-0 : Int).toNat = 1 from rfl,
            Nat.mul_one]
        rw [Decimal.toDouble_of_inside false nonzero inside.1 inside.2, quanta]
      · -- A number out of range would not be finite.
        have outside : 310 < (⟨n, 0⟩ : Decimal).leading := by
          have low : 0 ≤ (⟨n, 0⟩ : Decimal).leading := by
            unfold Decimal.leading
            dsimp only
            omega
          omega
        rw [Decimal.toDouble_of_outside false nonzero inside, if_pos outside] at finite
        cases finite
  rw [Double.ofInt?, same]
  generalize Decimal.toDouble false ⟨n, 0⟩ = x at finite ⊢
  cases x with
  | nan => cases finite
  | infinite negative => cases finite
  | finite negative quanta fits => rfl

/-- Digits with a point or an exponent are no whole number. -/
theorem digits?_eq_none {text : List Char} {c : Char} (member : c ∈ text)
    (other : c.isDigit = false) : digits? text = none := by
  unfold digits?
  rw [if_neg]
  rintro ⟨_, all⟩
  have digit := List.all_eq_true.1 all c member
  rw [other] at digit
  cases digit

/-- A number without a leading zero is read as the double that its decimal denotes. -/
theorem number?_text (p : Plain) (leadingZero : p.fraction = [] → p.scale = none →
      p.whole.head? = some '0' → p.decimal.coefficient = 0)
    (finite : (p.decimal.toDouble false).isFinite = true) :
    number? p.text = some (p.decimal.toDouble false) := by
  have joined : joinDigits? p.text = some p.text :=
    joinDigits?_of_unjoined fun c member => (p.ordinary_text c member).2.1
  unfold number?
  dsimp only
  split
  · -- A base would be announced by the second character.
    rename_i announced
    exfalso
    split at announced
    · rename_i mark digits same
      rw [base?_second p same] at announced
      cases announced
    · cases announced
  simp only [joined, Option.bind_eq_bind, Option.bind_some]
  by_cases whole : p.fraction = [] ∧ p.scale = none
  · obtain ⟨noFraction, noScale⟩ := whole
    have text : p.text = p.whole := by
      simp [Plain.text, Plain.point, Plain.exponent, noFraction, noScale]
    have decimal : p.decimal = ⟨Nat.ofDigitChars 10 p.whole 0, 0⟩ := by
      simp [Plain.decimal, noFraction, noScale]
    rw [text, digits?_of_isDigit p.nonempty p.wholeDigits]
    dsimp only
    rw [decimal] at finite ⊢
    -- Digits that start with a zero are all zeros.
    rw [if_neg, ofInt?_eq finite]
    rintro ⟨zero, nonzero⟩
    have none := leadingZero noFraction noScale zero
    rw [decimal] at none
    exact nonzero none
  · -- A point or an exponent keeps the text from being read as a whole number.
    have marked : ∃ c ∈ p.text, c.isDigit = false := by
      by_cases noFraction : p.fraction = []
      · obtain ⟨n, scale⟩ := Option.ne_none_iff_exists'.1 fun none => whole ⟨noFraction, none⟩
        exact ⟨'e', by simp [Plain.text, Plain.exponent, scale, Plain.exponentText_one], by decide⟩
      · exact ⟨'.', by simp [Plain.text, Plain.point, noFraction], by decide⟩
    obtain ⟨c, member, other⟩ := marked
    rw [digits?_eq_none member other]
    dsimp only
    rw [p.decimal?_text, Option.map_some]

/-- A number that ends in no exponent mark is split off where its characters end. -/
theorem splitNumber_unmarked {c : Char} {tail rest : List Char}
    (characters : ∀ d ∈ tail, isNumberCharacter d = true)
    (last : ∀ d, (c :: tail).getLast? = some d → d.isDigit = true) (ends : Ends rest) :
    splitNumber c (tail ++ rest) = (c :: tail, rest) := by
  -- The last character is a digit, and no digit is an exponent mark.
  have unmarked : (c :: tail).getLast?.any (fun d => d = 'e' || d = 'E') = false := by
    cases found : (c :: tail).getLast? with
    | none => rfl
    | some d =>
      have small : d ≠ 'e' := ne_of_kind (last d found) (by decide)
      have capital : d ≠ 'E' := ne_of_kind (last d found) (by decide)
      simp [small, capital]
  unfold splitNumber
  dsimp only
  rw [takeWhile_run characters ends, dropWhile_run characters ends, unmarked]
  cases rest <;> simp

/-- A number that goes on behind an exponent mark is split off where its exponent ends. -/
theorem splitNumber_marked {c sign : Char} {tail digits rest : List Char}
    (characters : ∀ d ∈ tail, isNumberCharacter d = true)
    (last : (c :: tail).getLast? = some 'e')
    (noBase : ∀ d, (tail ++ sign :: (digits ++ rest)).head? = some d → base? d = none)
    (signed : sign = '+' ∨ sign = '-') (nonempty : digits ≠ [])
    (all : ∀ d ∈ digits, d.isDigit = true) (ends : Ends rest) :
    splitNumber c (tail ++ sign :: (digits ++ rest)) = (c :: (tail ++ sign :: digits), rest) := by
  have stops : ∀ d, (sign :: (digits ++ rest)).head? = some d → isNumberCharacter d = false := by
    intro d found
    cases found
    rcases signed with rfl | rfl <;> decide
  have numeric : ∀ d ∈ digits, isNumberCharacter d = true :=
    fun d member => isNumberCharacter_of_isDigit (all d member)
  -- No base is announced, so that the letter before the sign is an exponent mark.
  have based : ((tail ++ sign :: (digits ++ rest)).head?.bind base?).isSome = false := by
    cases found : (tail ++ sign :: (digits ++ rest)).head? with
    | none => rfl
    | some d => rw [Option.bind_some, noBase d found, Option.isSome_none]
  have digit : (digits ++ rest).head?.any Char.isDigit = true := by
    obtain ⟨d, more, rfl⟩ := List.exists_cons_of_ne_nil nonempty
    simpa using all d (by simp)
  unfold splitNumber
  dsimp only
  rw [takeWhile_run characters stops, dropWhile_run characters stops, last, based]
  dsimp only
  rw [takeWhile_run numeric ends, dropWhile_run numeric ends, if_pos]
  · simp
  · rw [digit]
    simpa using signed

/-- The digits of a number, with the point, end in a digit. -/
theorem isDigit_getLast?_point (p : Plain) {c : Char}
    (last : (p.whole ++ p.point).getLast? = some c) :
    c.isDigit = true := by
  unfold Plain.point at last
  split at last
  · rw [List.append_nil] at last
    exact p.wholeDigits c (List.mem_of_getLast? last)
  · rename_i some
    -- With a fraction the last digit is the last one behind the point.
    obtain ⟨d, found⟩ := Option.isSome_iff_exists.1 (List.getLast?_isSome.2 some)
    rw [List.getLast?_append, List.getLast?_cons_of_ne_nil some, found] at last
    cases last
    exact p.fractionDigits c (List.mem_of_getLast? found)

/-- The digits of a number and the point belong to it. -/
theorem isNumberCharacter_point (p : Plain) {c : Char} (member : c ∈ p.whole ++ p.point) :
    isNumberCharacter c = true := by
  rcases List.mem_append.1 member with member | member
  · exact isNumberCharacter_of_isDigit (p.wholeDigits c member)
  · -- Besides digits there is only the point itself.
    unfold Plain.point at member
    split at member
    · cases member
    · rcases List.mem_cons.1 member with rfl | member
      · decide
      · exact isNumberCharacter_of_isDigit (p.fractionDigits c member)

/-- A number is split off whole. -/
theorem splitNumber_text (p : Plain) {c : Char} {tail rest : List Char} (same : p.text = c :: tail)
    (ends : Ends rest) : splitNumber c (tail ++ rest) = (c :: tail, rest) := by
  obtain ⟨first, more, whole⟩ := List.exists_cons_of_ne_nil p.nonempty
  have front : p.whole ++ p.point = first :: (more ++ p.point) := by rw [whole, List.cons_append]
  have characters : ∀ d ∈ more ++ p.point, isNumberCharacter d = true := fun d member =>
    isNumberCharacter_point p (by rw [front]; exact List.mem_cons_of_mem _ member)
  have text : p.text = first :: (more ++ p.point ++ p.exponent) := by
    rw [Plain.text, ← List.append_assoc, front, List.cons_append]
  obtain ⟨rfl, rfl⟩ := List.cons.inj (same.symm.trans text)
  -- Without an exponent the run of number characters is all there is.
  cases scale : p.scale with
  | none =>
    have absent : p.exponent = [] := by simp [Plain.exponent, scale]
    rw [absent, List.append_nil]
    exact splitNumber_unmarked characters
      (fun d last => isDigit_getLast?_point p (front ▸ last)) ends
  | some n =>
    -- The exponent mark is the last character before the sign.
    have marked : more ++ p.point ++ p.exponent
        = (more ++ p.point ++ ['e']) ++ (if n < 0 then '-' else '+')
          :: Nat.toDigits 10 n.natAbs := by
      simp [Plain.exponent, scale, Plain.exponentText_one]
    -- Of what the split asks for, only the base needs more than a look at the characters.
    rw [marked, List.append_assoc, List.cons_append]
    refine splitNumber_marked ?_ ?_ ?_ ?_ Nat.toDigits_ne_nil
      (fun d member => Plain.isDigit_toDigits member) ends
    · intro d member
      rcases List.mem_append.1 member with member | member
      · exact characters d member
      · rw [List.mem_singleton.1 member]
        decide
    · rw [← List.cons_append, List.getLast?_concat]
    · intro d found
      cases tail : more ++ p.point with
      | nil =>
        rw [tail] at found
        cases found
        decide
      | cons e others =>
        rw [tail] at found
        cases found
        exact base?_second p (text.trans (by rw [tail]; rfl))
    · split <;> simp

/-- A number is one lexeme. -/
theorem lexes_text (p : Plain) (leadingZero : p.fraction = [] → p.scale = none →
      p.whole.head? = some '0' → p.decimal.coefficient = 0)
    (finite : (p.decimal.toDouble false).isFinite = true) :
    Lexes p.text [.number (p.decimal.toDouble false)] := by
  intro depth rest ends
  obtain ⟨c, tail, same, digit⟩ := p.exists_head
  -- What is split off is the whole number, and it is read as its decimal.
  have read := number?_text p leadingZero finite
  rw [same] at read ⊢
  exact ofLine?_number depth digit (splitNumber_text p same ends) read

/-- A minus before a text is a lexeme of its own. -/
theorem lexes_minus {text : List Char} {lexemes : List Lexeme} (lexes : Lexes text lexemes) :
    Lexes ('-' :: text) (.operator .sub :: lexemes) := by
  intro depth rest ends
  -- The minus is the symbol of subtraction.
  have first := ofLine?_operator depth .sub (text ++ rest)
  rw [lexes depth rest ends, map_behind_behind] at first
  exact first

/-- The characters of a number are ordinary. -/
theorem ordinary_text (p : Plain) : ∀ c ∈ p.text, Ordinary c := by
  intro c member
  -- Digits are ordinary, and so is each of the four marks.
  rcases Plain.mem_text member with digit | listed
  · exact ordinary_of_isDigit digit
  · have all :
        ['.', 'e', '+', '-'].all (fun c => 0x20 < c.toNat ∧ c.toNat < 0x80 ∧ c ≠ '#' ∧ c ≠ '\\')
        = true := by decide
    obtain ⟨visible, ascii, noComment, noJoin⟩ :=
      of_decide_eq_true (List.all_eq_true.1 all c listed)
    exact ⟨visible, ascii, noComment, noJoin⟩

end Lexeme

namespace Expression

/-- An operand behind a minus is read as its opposite. -/
theorem reads_minus {lexeme : Lexeme} {tree : Expression}
    (operand : ∀ reader : Reader, reader.read lexeme = reader.operand tree) :
    Reads [.operator .sub, lexeme] (.negative tree) := by
  intro reader awaits
  -- The minus waits among the signs until the operand comes.
  have minus : reader.read (.operator .sub) = some { reader with level.signs := [.sub] } := by
    simp [Reader.read, awaits.term, awaits.signs, Operator.isProduct]
  refine ⟨{ reader with
    level.signs := [.sub]
    term := some (Level.join reader.level.product (.negative tree)) }, ?_, rfl, rfl, rfl, rfl⟩
  rw [List.foldlM_cons, minus]
  simp [operand, Reader.operand, awaits.term, Level.term, Level.signed]

end Expression

/-- An operand stays legible behind a minus. -/
theorem Legible.minus {text : List Char} {lexeme : Lexeme} {tree : Expression}
    (legible : Legible text [lexeme] tree)
    (operand : ∀ reader : Expression.Reader, reader.read lexeme = reader.operand tree) :
    Legible ('-' :: text) [.operator .sub, lexeme] (.negative tree) := by
  refine ⟨by simp, fun c member => ?_, Lexeme.lexes_minus legible.lexes,
    Expression.reads_minus operand⟩
  rcases List.mem_cons.1 member with rfl | member
  · exact ⟨by decide, by decide, by decide, by decide⟩
  · exact legible.ordinary c member

namespace Double

/-- Whether a double is written with a minus. -/
def hasMinus (x : Double) : Bool := x.isNegative && !x.isZero

/-- The lexemes as which a finite double is written. -/
def lexemes (x : Double) : List Lexeme :=
  if x.hasMinus then [.operator .sub, .number x.abs] else [.number x.abs]

/-- The expression as which a finite double is written. -/
def expression (x : Double) : Expression :=
  if x.hasMinus then .negative (.number x.abs) else .number x.abs

/-- What is written for a finite double has its value, but for the sign of a zero. -/
theorem value?_expression {x : Double} (finite : x.isFinite = true) :
    x.expression.value? = some x.withoutZeroSign := by
  cases x with
  | nan => cases finite
  | infinite negative => cases finite
  | finite negative quanta fits =>
    -- A zero is written without its sign, and any other number with it.
    by_cases none : quanta = 0
    · subst none
      simp [expression, hasMinus, isZero, abs, Expression.value?, withoutZeroSign, zero]
    · have some : (Double.finite negative quanta fits).isZero = false := by simp [isZero, none]
      unfold expression hasMinus withoutZeroSign
      rw [some]
      cases negative <;> rfl

/-- A finite double is legible as it is written. -/
theorem legible_text {x : Double} (finite : x.isFinite = true) :
    Legible x.text.toList x.lexemes x.expression := by
  cases x with
  | nan => cases finite
  | infinite negative => cases finite
  | finite negative quanta fits =>
    obtain ⟨p, shown, same⟩ := exists_shown_text negative fits
    obtain ⟨count, value⟩ := shown.value
    have magnitude : p.decimal.toDouble false = .finite false quanta fits :=
      toDouble_shown rfl shown
    -- The digits denote the magnitude, and the sign stands before them.
    have lexes := Lexeme.lexes_text p
      (fun noFraction noScale zero => by
        rw [value]
        simp [shown.leadingZero noFraction noScale zero])
      (by rw [magnitude]; rfl)
    rw [magnitude] at lexes
    have legible : Legible p.text [.number (.finite false quanta fits)]
        (.number (.finite false quanta fits)) := by
      obtain ⟨c, rest, front, _⟩ := p.exists_head
      exact ⟨by simp [front], Lexeme.ordinary_text p, lexes, Expression.reads_operand fun _ => rfl⟩
    have minus : (negative && decide (quanta ≠ 0))
        = (Double.finite negative quanta fits).hasMinus := by
      by_cases none : quanta = 0 <;> simp [hasMinus, isNegative, isZero, none]
    -- With a minus the number is the second lexeme, and without one the only one.
    rw [same, minus]
    unfold lexemes expression Numeral.signText
    split
    · exact legible.minus fun _ => rfl
    · exact legible

end Double

end PlusMinus
