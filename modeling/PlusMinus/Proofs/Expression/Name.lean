import PlusMinus.Interval.Enclosure
import PlusMinus.Proofs.Expression.Read

/-! The names of operands: each is read as itself, and no two operands share one. -/

namespace PlusMinus

open Text

namespace Stream

/-- The name of an operand is a letter with the digits of its index. -/
theorem toList_operandName (index : Nat) :
    (operandName index).toList = 'x' :: Nat.toDigits 10 index := by
  simp [operandName]

/-- Operands with the same name have the same index. -/
theorem operandName_injective {i j : Nat} (same : operandName i = operandName j) : i = j := by
  -- Behind the letter the same digits denote the same number.
  have digits : Nat.toDigits 10 i = Nat.toDigits 10 j := by
    have text := congrArg String.toList same
    rw [toList_operandName, toList_operandName] at text
    exact (List.cons.inj text).2
  rw [← Nat.ofDigitChars_ten_toDigits (n := i), digits, Nat.ofDigitChars_ten_toDigits]

/-- What is listed under the names of operands is found there. -/
theorem lookup_operandName {α : Type} {values : List α} {index : Nat} {value : α}
    (found : values[index]? = some value) :
    (values.zipIdx.map fun entry => (operandName entry.2, entry.1)).lookup (operandName index)
      = some value := by
  have general : ∀ (values : List α) (start place : Nat), values[place]? = some value →
      ((values.zipIdx start).map fun entry => (operandName entry.2, entry.1)).lookup
        (operandName (start + place)) = some value := by
    -- The indices count on while the list gets shorter.
    intro values
    induction values with
    | nil => simp
    | cons first rest ih =>
      intro start place found
      rw [List.zipIdx_cons, List.map_cons, List.lookup_cons]
      cases place with
      | zero => simpa using found
      | succ place =>
        -- A later operand has another name than the first one.
        have other : (operandName (start + (place + 1)) == operandName start) = false := by
          rw [beq_eq_false_iff_ne]
          intro same
          have := operandName_injective same
          omega
        have later := ih (start + 1) place (by simpa using found)
        rw [other, show start + (place + 1) = start + 1 + place by omega]
        exact later
  simpa using general values 0 index found

/-- Letters and digits in ASCII are ordinary characters. -/
theorem ordinary_of_isAlphanum {c : Char} (plain : c.isAlphanum = true) : Lexeme.Ordinary c := by
  -- The three ranges of code points lie between the control characters and the end of ASCII.
  have range : 0x20 < c.toNat ∧ c.toNat < 0x80 := by
    have codes : ((0x41 ≤ c.toNat ∧ c.toNat ≤ 0x5a) ∨ (0x61 ≤ c.toNat ∧ c.toNat ≤ 0x7a))
        ∨ (0x30 ≤ c.toNat ∧ c.toNat ≤ 0x39) := by
      delta Char.isAlphanum Char.isAlpha Char.isUpper Char.isLower Char.isDigit at plain
      simpa [UInt32.le_iff_toNat_le] using plain
    omega
  exact ⟨range.1, range.2, ne_of_kind plain (by decide), ne_of_kind plain (by decide)⟩

/-- A word of ASCII letters and digits that starts with a letter is legible as a name. -/
theorem legible_name {name : String} {c : Char} {rest : List Char} (front : name.toList = c :: rest)
    (first : c.isDigit = false) (letters : ∀ d ∈ name.toList, d.isAlphanum = true) :
    Legible name.toList [.name name] (.name name) := by
  have ordinary : ∀ d ∈ name.toList, Lexeme.Ordinary d := fun d member =>
    ordinary_of_isAlphanum (letters d member)
  -- Such characters stand for themselves in a name.
  have plain : ∀ d ∈ name.toList, plainForm d = d
    ∧ Lexeme.isNameCharacter d = true := fun d member =>
    Lexeme.isNameCharacter_of_plain (ordinary d member).ascii (letters d member)
  refine ⟨by simp [front], ordinary, ?lexes, Expression.reads_operand fun _ => rfl⟩
  case lexes =>
    intro depth behind ends
    rw [front] at plain
    -- The letter keeps the name from being read as a number.
    have whole := Lexeme.ofLine?_name depth first (fun d member => (plain d member).2) ends
    have same : (c :: rest).map plainForm = c :: rest := by
      rw [List.map_congr_left (g := id) fun d member => (plain d member).1, List.map_id]
    rw [same, ← front, String.ofList_toList] at whole
    rw [front]
    exact whole

/-- The name of an operand is legible. -/
theorem legible_operandName (index : Nat) :
    Legible (operandName index).toList [.name (operandName index)] (.name (operandName index)) := by
  refine legible_name (toList_operandName index) (by decide) fun c member => ?_
  rw [toList_operandName] at member
  rcases List.mem_cons.1 member with rfl | member
  · decide
  · have digit : c.isDigit = true := Nat.isDigit_of_mem_toDigits (by decide) (by decide) member
    simp [Char.isAlphanum, digit]

end Stream

end PlusMinus
