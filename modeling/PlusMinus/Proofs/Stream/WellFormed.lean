import PlusMinus.Proofs.Numeral.Denoted
import PlusMinus.Proofs.Stream.RoundTrip
import PlusMinus.Proofs.Tree.Basic

/-! Whatever text is read, its stream is well formed: operands and operators take turns, and every
operand is written in the grammar of literals. -/

namespace PlusMinus

open Literal

/-- An operand with brackets that can be written, a value in the grammar of signed literals, and an
uncertainty in that of unsigned ones, which is never negative and a number unless it is the word for
none. -/
structure Operand.WellFormed (o : Operand) : Prop where
  openBrackets : 0 ≤ o.openBrackets
  closeBrackets : 0 ≤ o.closeBrackets
  value : IsSigned o.value.digits.toList
  valueRead : o.nominal = Double.ofText o.value.digits
  uncertainty : o.uncertainty.digits = "0" ∨ IsUnsigned o.uncertainty.digits.toList
  uncertaintyRead : o.error = Double.ofText o.uncertainty.digits
  nonnegative : o.error.isNegative = false
  undefined : o.error.isNaN = true ↔ o.uncertainty.digits = "NaN"

/-- A canonical operand is well formed. -/
theorem Operand.Canonical.wellFormed {o : Operand} (canonical : o.Canonical) : o.WellFormed := by
  obtain ⟨⟨value, uncertainty, valueRead, uncertaintyRead⟩, opens, closes⟩ := canonical
  -- The magnitudes are those that the digits denote, since no digits are blank.
  rw [Figure.ofText_of_solid value.solid] at valueRead
  rw [Figure.ofText_of_solid uncertainty.solid] at uncertaintyRead
  have nominal : o.nominal = Double.ofText o.value.digits :=
    (congrArg Figure.magnitude valueRead).symm
  have error : o.error = Double.ofText o.uncertainty.digits :=
    (congrArg Figure.magnitude uncertaintyRead).symm
  have sign := isNegative_ofText uncertainty
  have number := isNaN_ofText_iff uncertainty
  rw [String.ofList_toList, ← error] at sign number
  exact ⟨opens, closes, value, nominal, .inr uncertainty, error, sign,
    number.trans String.toList_inj⟩

namespace Stream

/-- Every text is read as nothing or as operands with one operator between every two of them, each
operand written in the grammar of literals. -/
theorem scan_wellFormed (text : String) :
    scan text = [] ∨ (scan text).Alternates ∧ ∀ o ∈ (scan text).operands, o.WellFormed := by
  -- The scanner keeps its tokens in order at every step, and a trailing operator is dropped.
  rcases canonical_scan text with nothing | canonical
  · exact .inl nothing
  · refine .inr ⟨canonical.alternates, fun o member => ?_⟩
    exact (canonical.operands o (mem_operands.1 member)).wellFormed

/-- Stray words, operators and brackets leave a well-formed stream behind. -/
example : (scan ") * (2±0.1 abc + 3 4)-").render = "(2±0.1+3±0)" := by decide +kernel

end Stream

end PlusMinus
