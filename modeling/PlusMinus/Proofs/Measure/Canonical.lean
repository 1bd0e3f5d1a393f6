import PlusMinus.Proofs.Decimal.Layout
import PlusMinus.Proofs.Double.Sign
import PlusMinus.Proofs.Numeral.Literal
import PlusMinus.Propagation.Operation
import PlusMinus.Stream.Scan

/-! Measures that read back from their digits: those of literals do, and those that are computed do
but for the sign of a zero. -/

namespace PlusMinus

open Literal Text

/-- A measure that is written in the grammar of literals and has the magnitudes of its digits. -/
structure Measure.Canonical (m : Measure) : Prop where
  value : IsSigned m.value.digits.toList
  uncertainty : IsUnsigned m.uncertainty.digits.toList
  valueRead : Figure.ofText m.value.digits = m.value
  uncertaintyRead : Figure.ofText m.uncertainty.digits = m.uncertainty

/-- An operand whose measure is canonical and whose brackets can be written. -/
structure Operand.Canonical (o : Operand) : Prop where
  measure : o.toMeasure.Canonical
  openBrackets : 0 ≤ o.openBrackets
  closeBrackets : 0 ≤ o.closeBrackets

/-- A number without blanks is read with the digits it is written with. -/
theorem Figure.digits_ofText {digits : List Char} (solid : ∀ c ∈ digits, isBlank c = false) :
    (Figure.ofText (String.ofList digits)).digits = String.ofList digits := by
  simp [ofText, strip_eq_self solid]

/-- Reading a number again from its digits changes nothing. -/
theorem Figure.ofText_digits {digits : List Char} (solid : ∀ c ∈ digits, isBlank c = false) :
    Figure.ofText (Figure.ofText (String.ofList digits)).digits
      = Figure.ofText (String.ofList digits) := by
  rw [digits_ofText solid]

/-- The uncertainty of an exact value is the one that its digits denote. -/
theorem Figure.ofText_exact : Figure.ofText Figure.exact.digits = Figure.exact := by
  decide +kernel

/-- The operand of a literal is canonical. -/
theorem Literal.canonical_toOperand {text : List Char} {literal : Literal}
    (found : ofText? text = some literal) (openBrackets : Nat) :
    (literal.toOperand openBrackets).Canonical := by
  -- Without a bound the uncertainty is the digit zero, which is canonical itself.
  obtain ⟨signed, unsigned⟩ := grammar_of_ofText? found
  obtain ⟨value, bound, rest⟩ := literal
  refine ⟨⟨?_, ?_, Figure.ofText_digits signed.solid, ?_⟩, by simp [toOperand], by simp [toOperand]⟩
  · simpa [toOperand, Figure.digits_ofText signed.solid] using signed
  · cases bound with
    | none =>
      have zero : IsMantissa ['0'] :=
        .whole ⟨by decide, by simp [show isDecimal '0' = true from rfl]⟩
      simpa [toOperand, Figure.exact] using IsUnsigned.number zero .absent
    | some bound =>
      have grammar := unsigned bound rfl
      simpa [toOperand, Figure.digits_ofText grammar.solid] using grammar
  · cases bound with
    | none => exact Figure.ofText_exact
    | some bound => exact Figure.ofText_digits (unsigned bound rfl).solid

/-- A number without a sign is read without one. -/
theorem Literal.isNegative_ofText {number : List Char} (grammar : IsUnsigned number) :
    (Double.ofText (String.ofList number)).isNegative = false := by
  obtain ⟨c, rest, same⟩ := List.exists_cons_of_ne_nil grammar.ne_nil
  -- Neither the first character nor the digit that it stands for is a sign.
  have unsigned : ((digitValue? c).map asciiDigit).getD c ≠ '+'
      ∧ ((digitValue? c).map asciiDigit).getD c ≠ '-' := by
    cases value : digitValue? c with
    | none => exact grammar.head_ne same
    | some n =>
      have digit : ∀ n < 10, asciiDigit n ≠ '+' ∧ asciiDigit n ≠ '-' := by decide
      exact digit n (digitValue?_lt value)
  have spelled : Numeral.asciiDigits (strip (c :: rest))
      = ((digitValue? c).map asciiDigit).getD c :: Numeral.asciiDigits rest := by
    rw [strip_eq_self (same ▸ grammar.solid)]
    rfl
  unfold Double.ofText Numeral.double?
  rw [String.toList_ofList, same, spelled]
  generalize ((digitValue? c).map asciiDigit).getD c = first at unsigned ⊢
  cases joined : Numeral.joinDigits? (first :: Numeral.asciiDigits rest) with
  | none => rfl
  | some text =>
    -- The sign that is found decides, and there is none to find.
    obtain ⟨later, rfl⟩ := Numeral.exists_of_joinDigits? joined
    simp only [Option.bind_eq_bind, Option.bind_some,
      Numeral.splitSign_cons later unsigned.1 unsigned.2]
    split
    · rfl
    split
    · rfl
    cases Numeral.decimal? (first :: later) with
    | none => rfl
    | some d => exact d.isNegative_toDouble false

namespace Measure

/-- A measure whose texts follow the grammar and read back but for the sign of a zero. -/
structure Readable (m : Measure) : Prop where
  value : IsSigned m.value.digits.toList
  uncertainty : IsUnsigned m.uncertainty.digits.toList
  valueRead : (Double.ofText m.value.digits).Alike m.value.magnitude
  uncertaintyRead : (Double.ofText m.uncertainty.digits).Alike m.uncertainty.magnitude

/-- A measure whose texts follow the grammar and read back but for the sign of a zero, and whose
uncertainty has no minus. -/
structure Written (m : Measure) : Prop where
  value : IsSigned m.value.digits.toList
  uncertainty : IsUnsigned m.uncertainty.digits.toList
  valueRead : (Double.ofText m.value.digits).Alike m.value.magnitude
  uncertaintyRead : (Double.ofText m.uncertainty.digits).Alike m.uncertainty.magnitude
  nonnegative : m.uncertainty.magnitude.isNegative = false

/-- A measure read again from its digits. -/
def reread (m : Measure) : Measure := ⟨.ofText m.value.digits, .ofText m.uncertainty.digits⟩

/-- The same digits with numbers that are equal but for the sign of a zero. -/
structure Alike (m n : Measure) : Prop where
  valueDigits : m.value.digits = n.value.digits
  uncertaintyDigits : m.uncertainty.digits = n.uncertainty.digits
  value : m.value.magnitude.Alike n.value.magnitude
  uncertainty : m.uncertainty.magnitude.Alike n.uncertainty.magnitude

end Measure

/-- Digits without blanks are kept with the number that they denote. -/
theorem Figure.ofText_of_solid {digits : String} (solid : ∀ c ∈ digits.toList, isBlank c = false) :
    Figure.ofText digits = ⟨digits, Double.ofText digits⟩ := by
  simp [ofText, strip_eq_self solid]

/-- The digits of a double denote it, but for the sign of a zero. -/
theorem Double.alike_ofText_text (x : Double) : (Double.ofText x.text).Alike x := by
  rw [Double.ofText_text]
  unfold Double.withoutZeroSign
  split
  · rename_i zero
    exact .inr ⟨rfl, zero⟩
  · exact .inl rfl

namespace Measure

variable {m : Measure}

/-- A canonical measure is a written one. -/
theorem Canonical.written (canonical : m.Canonical) : m.Written := by
  -- Numbers without blanks are read with their digits, so that the magnitudes are those of the
  -- digits.
  have value := canonical.valueRead
  have uncertainty := canonical.uncertaintyRead
  rw [Figure.ofText_of_solid canonical.value.solid] at value
  rw [Figure.ofText_of_solid canonical.uncertainty.solid] at uncertainty
  have read : Double.ofText m.uncertainty.digits = m.uncertainty.magnitude :=
    congrArg Figure.magnitude uncertainty
  refine ⟨canonical.value, canonical.uncertainty,
    .inl (congrArg Figure.magnitude value), .inl read, ?_⟩
  rw [← read]
  simpa using isNegative_ofText canonical.uncertainty

/-- Reading a readable measure again keeps its digits and all but the sign of a zero. -/
theorem Readable.reread_alike (readable : m.Readable) : m.reread.Alike m := by
  unfold reread
  rw [Figure.ofText_of_solid readable.value.solid,
    Figure.ofText_of_solid readable.uncertainty.solid]
  exact ⟨rfl, rfl, readable.valueRead, readable.uncertaintyRead⟩

/-- A readable measure is canonical when it is read again. -/
theorem Readable.canonical_reread (readable : m.Readable) : m.reread.Canonical := by
  -- Reading the same digits once more changes nothing.
  have same := readable.reread_alike
  refine ⟨?_, ?_, congrArg Figure.ofText same.valueDigits,
    congrArg Figure.ofText same.uncertaintyDigits⟩
  · rw [same.valueDigits]
    exact readable.value
  · rw [same.uncertaintyDigits]
    exact readable.uncertainty

/-- A readable measure has the same text when it is read again. -/
theorem Readable.text_reread (readable : m.Readable) : m.reread.text = m.text := by
  have same := readable.reread_alike
  simp [text, same.valueDigits, same.uncertaintyDigits]

/-- A written measure is readable. -/
theorem Written.readable (written : m.Written) : m.Readable :=
  ⟨written.value, written.uncertainty, written.valueRead, written.uncertaintyRead⟩

/-- Reading a written measure again keeps its digits and all but the sign of a zero. -/
theorem Written.reread_alike (written : m.Written) :
    m.reread.Alike m := written.readable.reread_alike

/-- A written measure is canonical when it is read again. -/
theorem Written.canonical_reread (written : m.Written) : m.reread.Canonical :=
  written.readable.canonical_reread

/-- A written measure has the same text when it is read again. -/
theorem Written.text_reread (written : m.Written) : m.reread.text = m.text :=
  written.readable.text_reread

/-- No bracket stands in the text of a canonical measure. -/
theorem Canonical.bracketless (canonical : m.Canonical) :
    ∀ c ∈ m.text.toList, c ≠ '(' ∧ c ≠ ')' := by
  have parts : m.text.toList = m.value.digits.toList ++ '±' :: m.uncertainty.digits.toList := by
    simp [text]
  intro c member
  rw [parts] at member
  -- Literals are made of digits and of marks, and between the two there is a sign.
  rcases List.mem_append.1 member with member | member
  · exact ne_bracket_of_mem (canonical.value.mem c member)
  · rcases List.mem_cons.1 member with rfl | member
    · decide
    · exact ne_bracket_of_mem (canonical.uncertainty.mem c member)

/-- Numbers with their shortest digits make up a written measure when the second has no minus. -/
theorem written_ofDouble (x : Double) {u : Double} (nonnegative : u.isNegative = false) :
    Measure.Written ⟨.ofDouble x, .ofDouble u⟩ :=
  ⟨x.isSigned_text, Double.isUnsigned_text nonnegative, x.alike_ofText_text, u.alike_ofText_text,
    nonnegative⟩

end Measure

/-- An operation keeps its operator and the operands that it is applied to. -/
theorem Operator.apply_keeps (operator : Operator) (left right : Measure) :
    (operator.apply left right).operator = operator ∧ (operator.apply left right).left = left
      ∧ (operator.apply left right).right = right := by
  unfold apply
  split <;> exact ⟨rfl, rfl, rfl⟩

/-- The value of an outcome is computed from the values of the operands alone. -/
theorem Operator.value_outcome (operator : Operator) (left right : Measure) :
    (operator.apply left right).outcome.value
      = .ofDouble (operator.compute left.value.magnitude right.value.magnitude) := by
  -- Both rules of propagation compute the value first and the uncertainty next to it.
  unfold apply
  split <;> rfl

/-- An operation on measures without minus signs in their uncertainties leads to a written one. -/
theorem Operator.written_outcome (operator : Operator) {left right : Measure}
    (first : left.uncertainty.magnitude.isNegative = false)
    (second : right.uncertainty.magnitude.isNegative = false) :
    (operator.apply left right).outcome.Written := by
  unfold apply
  split
  · -- Relative uncertainties are quotients by magnitudes, and so is what they are multiplied with.
    refine Measure.written_ofDouble _ (Double.isNegative_mul (Double.isNegative_abs _) ?_)
    exact Double.isNegative_add (Double.isNegative_div first (Double.isNegative_abs _))
      (Double.isNegative_div second (Double.isNegative_abs _))
  · exact Measure.written_ofDouble _ (Double.isNegative_add first second)

end PlusMinus
