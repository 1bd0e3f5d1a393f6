import PlusMinus.Proofs.Expression.Read

/-! The expression of a stream is read exactly if its brackets are balanced and not nested too
deeply. -/

namespace PlusMinus

namespace Lexeme

variable {depth count : Nat} {rest : List Char} {line : List Lexeme × List Char}

/-- An opening bracket is only read where brackets may nest one deeper. -/
theorem lt_depthLimit_of_ofLine? (found : ofLine? depth ('(' :: rest) = some line) :
    depth < depthLimit := by
  refine Nat.lt_of_not_le fun deep => ?_
  have outside : ¬depth < depthLimit := Nat.not_lt.2 deep
  rw [ofLine?.eq_def] at found
  simp [outside] at found

/-- A closing bracket is only read where one is open. -/
theorem pos_of_ofLine? (found : ofLine? depth (')' :: rest) = some line) : 0 < depth := by
  refine Nat.pos_of_ne_zero fun flat => ?_
  rw [ofLine?.eq_def] at found
  simp [flat] at found

/-- A line only ends where no bracket is open. -/
theorem eq_zero_of_ofLine?_nil (found : ofLine? depth [] = some line) : depth = 0 := by
  rw [ofLine?.eq_def] at found
  dsimp only at found
  split at found
  · assumption
  · cases found

/-- Opening brackets are only read within the limit. -/
theorem openings_of_ofLine? (within : depth ≤ depthLimit)
    (found : ofLine? depth (List.replicate count '(' ++ rest) = some line) :
    depth + count ≤ depthLimit := by
  -- Each bracket makes the line one deeper for those behind it.
  induction count generalizing depth line with
  | zero => exact within
  | succ count ih =>
    rw [List.replicate_succ, List.cons_append] at found
    have room := lt_depthLimit_of_ofLine? found
    rw [ofLine?_opening room, Option.map_eq_some_iff] at found
    obtain ⟨later, read, _⟩ := found
    have := ih room read
    omega

/-- Closing brackets are only read as far as brackets are open. -/
theorem closings_of_ofLine? (found : ofLine? depth (List.replicate count ')' ++ rest) = some line) :
    count ≤ depth := by
  -- Each bracket leaves one open bracket less for those behind it.
  induction count generalizing depth line with
  | zero => exact Nat.zero_le _
  | succ count ih =>
    rw [List.replicate_succ, List.cons_append] at found
    have opened := pos_of_ofLine? found
    rw [ofLine?_closing opened, Option.map_eq_some_iff] at found
    obtain ⟨later, read, _⟩ := found
    have := ih read
    omega

/-- A text of ordinary characters that is read has one line. -/
theorem exists_line_of_ofText? {text : List Char} {lexemes : List Lexeme} (nonempty : text ≠ [])
    (ordinary : ∀ c ∈ text, Ordinary c) (found : ofText? text = some lexemes) :
    ∃ line, ofLine? 0 text = some line := by
  -- A text without line ends, comments or joins is one line from the start.
  rw [(framed_of_ordinary nonempty ordinary).ofText?, Option.bind_eq_some_iff] at found
  obtain ⟨line, read, _⟩ := found
  exact ⟨line, read⟩

end Lexeme

namespace Stream

open Lexeme

variable {text : Nat → Operand → List Char} {lexemes : Nat → Operand → List Lexeme}

/-- An operand between brackets is only read where its brackets fit. -/
theorem brackets_of_ofLine? {o : Operand} {index depth : Nat} {rest : List Char}
    {line : List Lexeme × List Char}
    (lexes : Lexes (text index o) (lexemes index o)) (ends : Ends rest)
    (within : depth ≤ depthLimit)
    (found : ofLine? depth ((Spelling.characters text).bracketed index o ++ rest) = some line) :
    depth + o.openBrackets.toNat ≤ depthLimit
      ∧ o.closeBrackets.toNat ≤ depth + o.openBrackets.toNat := by
  rw [Spelling.bracketed_characters, List.append_assoc, List.append_assoc] at found
  -- The opening brackets are read first, then the operand, and the closing ones last.
  have opened := openings_of_ofLine? within found
  rw [ofLine?_openings opened, Option.map_eq_some_iff] at found
  obtain ⟨inside, read, _⟩ := found
  rw [lexes _ _ (ends_closings _ ends), Option.map_eq_some_iff] at read
  obtain ⟨behind, read, _⟩ := read
  exact ⟨opened, closings_of_ofLine? read⟩

/-- The characters of a stream are only read as a line if its brackets are balanced and not nested
too deeply. -/
theorem balanced_of_ofLine? {stream : Stream} (alternates : stream.Alternates)
    (lexes : ∀ o ∈ stream.operands, ∀ index, Lexes (text index o) (lexemes index o))
    {depth index : Nat}
    (within : depth ≤ depthLimit) {line : List Lexeme × List Char}
    (found : ofLine? depth (stream.spell (.characters text) index) = some line) :
    depthFrom? depth stream.operands = some 0 ∧ nestingFrom depth stream.operands ≤ depthLimit := by
  -- Each round reads an operand with its brackets, and the operator behind it.
  induction alternates generalizing depth index line with
  | last o =>
    simp only [spell] at found
    have fits := brackets_of_ofLine? (lexes o (by simp) index) ends_nil within found
    rw [ofLine?_bracketed (lexes o (by simp) index) fits.1 fits.2 ends_nil,
      Option.map_eq_some_iff] at found
    obtain ⟨later, read, _⟩ := found
    have flat := eq_zero_of_ofLine?_nil read
    simp only [operands_operand, operands_nil, depthFrom?, nestingFrom]
    rw [if_pos fits.2, flat]
    exact ⟨rfl, by omega⟩
  | @more o operator rest _ ih =>
    simp only [spell, Spelling.sign_characters, List.singleton_append] at found
    have ends := ends_operator operator (rest.spell (.characters text) (index + 1))
    have fits := brackets_of_ofLine? (lexes o (by simp) index) ends within found
    rw [ofLine?_bracketed (lexes o (by simp) index) fits.1 fits.2 ends, Option.map_eq_some_iff]
      at found
    obtain ⟨later, read, _⟩ := found
    rw [ofLine?_operator, Option.map_eq_some_iff] at read
    obtain ⟨last, read, _⟩ := read
    obtain ⟨balanced, nested⟩ := ih (fun p member => lexes p (by simp [member])) (by omega) read
    simp only [operands_operand, operands_operator, depthFrom?, nestingFrom]
    rw [if_pos fits.2]
    exact ⟨balanced, by omega⟩

variable {operandTree : Nat → Operand → Expression}

/-- The text of a stream of legible operands is an expression exactly if its brackets are balanced
and not nested too deeply. -/
theorem isSome_ofText?_spell {stream : Stream} (alternates : stream.Alternates)
    (legible : ∀ o ∈ stream.operands, ∀ index,
      Legible (text index o) (lexemes index o) (operandTree index o)) :
    (Expression.ofText? (stream.spell (.characters text) 0)).isSome
      ↔ stream.Balanced ∧ stream.nesting ≤ depthLimit := by
  obtain ⟨nonempty, ordinary⟩ := ordinary_spell alternates legible 0
  -- What is read has one line, and balanced brackets make the stream a tree, which is read.
  constructor
  · intro some
    obtain ⟨tree, found⟩ := Option.isSome_iff_exists.1 some
    obtain ⟨lexemes, read, _⟩ := Option.bind_eq_some_iff.1 found
    obtain ⟨line, read⟩ := exists_line_of_ofText? nonempty ordinary read
    exact balanced_of_ofLine? alternates (fun o member index => (legible o member index).lexes)
      (Nat.zero_le _) read
  · rintro ⟨balanced, shallow⟩
    obtain ⟨tree, found⟩ := exists_tree? alternates balanced
    rw [ofText?_spell found alternates balanced shallow legible]
    rfl

end Stream

end PlusMinus
