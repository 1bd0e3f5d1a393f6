import PlusMinus.Proofs.Stream.Pieces

/-! What stands in front of a bracket, inside it and behind it is read by itself, so that a bracket
can be taken out of a text and an operand put in its place. -/

namespace PlusMinus

open Literal Text

/-- A character that is skipped behind an operand does not make a separator part of an exponent. -/
theorem Literal.Parts.cons_of_skips {front behind : List Char} {c sign : Char}
    (parts : Parts front sign)
    (stays : Stream.skips true c (front ++ sign :: behind) = true) : Parts (c :: front) sign := by
  refine ⟨parts.listed, fun isSign => ?_⟩
  -- Only without anything in between does the skipped character stand before the separator.
  cases front with
  | nil =>
    have first : (sign = '+' || sign = '-') = true := by simpa using isSign
    simp [Stream.skips, first] at stays
    simpa using stays
  | cons d front =>
    have last : (c :: d :: front).getLast? = (d :: front).getLast? := by simp [List.getLast?_cons]
    rw [last]
    exact parts.unmarked isSign

namespace Stream

/-- Behind an operand a literal is one that is found anywhere. -/
theorem ofText?_of_literalIn? {behind : Bool} {text : List Char} {literal : Literal}
    (found : literalIn? behind text = some literal) : Literal.ofText? text = some literal := by
  unfold literalIn? at found
  split at found
  · cases found
  · exact found

/-- A literal holds no bracket, so that it lies in front of one. -/
theorem exists_rest_of_taken {taken rest front behind : List Char} {c : Char} (absent : c ∉ taken)
    (whole : taken ++ rest = front ++ c :: behind) :
    ∃ left, front = taken ++ left ∧ rest = left ++ c :: behind := by
  -- If the literal went further, the bracket would be one of its characters.
  rcases List.append_eq_append_iff.1 whole with ⟨left, front, rest⟩ | ⟨left, taken, same⟩
  · exact ⟨left, front, rest⟩
  · cases left with
    | nil => exact ⟨[], by simpa using taken.symm, by simpa using same.symm⟩
    | cons d left =>
      cases same
      exact absurd (by rw [taken]; simp) absent

/-- A character that is not the one that a text is parted at is the head of what stands before
that. -/
theorem exists_tail {front behind text : List Char} {c d : Char}
    (same : front ++ c :: behind = d :: text) (other : d ≠ c) :
    ∃ tail, front = d :: tail ∧ tail ++ c :: behind = text := by
  cases front with
  | nil => exact absurd (List.cons.inj same).1.symm other
  | cons first tail =>
    obtain ⟨rfl, later⟩ := List.cons.inj same
    exact ⟨tail, rfl, later⟩

/-- Between an operand and the next opening bracket there is a separator. -/
theorem Reads.exists_separator {front rest : List Char} {pieces : List Piece}
    (reads : Reads true (front ++ '(' :: rest) pieces) :
    ∃ before sign after, front = before ++ sign :: after ∧ Parts before sign := by
  generalize same : front ++ '(' :: rest = text at reads
  generalize place : true = behind at reads
  induction reads generalizing front with
  | nothing behind => simp at same
  | operand found reads ih => cases place
  | opening reads ih => cases place
  | @dropped text literal pieces found reads ih =>
    -- The literal ends in front of the bracket, and the separator follows it.
    obtain ⟨taken, whole, _, plain, unmarked⟩ := exists_taken (ofText?_of_literalIn? found)
    obtain ⟨left, rfl, later⟩ := exists_rest_of_taken (fun member => (plain _ member).1 rfl)
      (whole.symm.trans same.symm)
    obtain ⟨before, sign, after, rfl, parts⟩ := ih later.symm rfl
    exact ⟨taken ++ before, sign, after, by simp, parts.behind unmarked⟩
  | @operator c rest operator pieces sign reads ih =>
    obtain ⟨listed, notOpening, _⟩ := listed_of_ofChar? sign
    obtain ⟨tail, rfl, _⟩ := exists_tail same notOpening
    exact ⟨[], c, tail, rfl, listed, by simp⟩
  | @closing rest pieces stops reads ih =>
    obtain ⟨tail, rfl, later⟩ := exists_tail same (by decide)
    obtain ⟨before, sign, after, rfl, parts⟩ := ih later rfl
    exact ⟨')' :: before, sign, after, rfl, @Parts.behind [')'] before sign parts (by simp)⟩
  | @skipped behind c rest pieces literal plain sign stays reads ih =>
    obtain ⟨tail, rfl, rfl⟩ := exists_tail same plain.1
    obtain ⟨before, separator, after, rfl, parts⟩ := ih rfl place
    subst place
    rw [List.append_assoc, List.cons_append] at stays
    exact ⟨c :: before, separator, after, rfl, parts.cons_of_skips stays⟩

/-- A literal somewhere in front of an opening bracket is read in the same way whatever takes the
place of the bracket and of all that follows it. -/
theorem exists_left_of_literal {front rest : List Char} {literal : Literal} {pieces : List Piece}
    (found : Literal.ofText? (front ++ '(' :: rest) = some literal)
    (reads : Reads true literal.rest pieces) :
    ∃ left, literal.rest = left ++ '(' :: rest ∧ front ≠ []
      ∧ ∀ other, Literal.ofText? (front ++ other)
        = some { literal with rest := left ++ other } := by
  obtain ⟨taken, whole, nonempty, plain, unmarked⟩ := exists_taken found
  obtain ⟨left, rfl, later⟩ :=
    exists_rest_of_taken (fun member => (plain _ member).1 rfl) whole.symm
  refine ⟨left, later, by simp [nonempty], fun other => ?_⟩
  -- The separator behind the literal keeps it as it is.
  rw [later] at reads
  obtain ⟨gap, sign, tail, rfl, parts⟩ := reads.exists_separator
  have shape : ∀ text,
      taken ++ (gap ++ sign :: tail) ++ text = taken ++ gap ++ sign :: (tail ++ text) := by simp
  rw [shape] at found
  rw [shape, ofText?_replaced (tail ++ '(' :: rest) (parts.behind unmarked)
    (by simp [nonempty]) found
    (by rw [later, List.append_assoc, List.cons_append]) (tail ++ other), List.append_assoc,
    List.cons_append]

/-- Whether a sign is looked at depends on the head of a text only. -/
theorem literalIn?_append {behind : Bool} {front rest : List Char} (nonempty : front ≠ [])
    {literal : Literal} (found : literalIn? behind (front ++ rest) = some literal)
    (other : List Char) :
    literalIn? behind (front ++ other) = Literal.ofText? (front ++ other) := by
  obtain ⟨c, tail, rfl⟩ := List.exists_cons_of_ne_nil nonempty
  unfold literalIn? at found ⊢
  rw [List.cons_append, List.head?_cons] at found ⊢
  -- A sign in front of a literal behind an operand would have been none.
  split at found
  · cases found
  · rename_i unsigned
    rw [if_neg unsigned]

/-- What is skipped somewhere in front of an opening bracket is skipped whatever takes the place of
the bracket and of all that follows it. -/
theorem skipped_replaced {behind : Bool} {c : Char} {front rest : List Char} {pieces : List Piece}
    (literal : literalIn? behind (c :: (front ++ '(' :: rest)) = none)
    (stays : skips behind c (front ++ '(' :: rest) = true)
    (reads : Reads behind (front ++ '(' :: rest) pieces) (other : List Char) :
    literalIn? behind (c :: (front ++ other)) = none ∧ skips behind c (front ++ other) = true := by
  cases behind with
  | true =>
    -- Behind an operand there is a separator, which ends what could be a literal.
    obtain ⟨before, sign, after, rfl, parts⟩ := reads.exists_separator
    have shape : ∀ text : List Char,
        before ++ sign :: after ++ text = before ++ sign :: (after ++ text) := by simp
    rw [shape] at literal stays ⊢
    have parts := parts.cons_of_skips stays
    constructor
    · unfold literalIn? at literal ⊢
      rw [List.head?_cons] at literal ⊢
      split
      · rfl
      · rename_i unsigned
        rw [if_neg unsigned, ← List.cons_append, ofText?_apart _ parts (by simp)] at literal
        rw [← List.cons_append, ofText?_apart _ parts (by simp), Option.map_eq_none_iff.1 literal]
        rfl
    · cases before <;> exact stays
  | false =>
    have start : isDecimal c = false := by
      cases digit : isDecimal c with
      | false => rfl
      | true => exact absurd literal (ofText?_ne_none digit _)
    by_cases unlike : c ∈ ['.', '+', '-', 'I', 'N']
    · -- The next character is neither the bracket nor one that goes on with a number.
      cases front with
      | nil => simp [skips, unlike] at stays
      | cons d front =>
        have second : goesOn d = false := by
          cases on : goesOn d with
          | false => rfl
          | true => simp [skips, unlike, on] at stays
        exact ⟨ofText?_eq_none_of_second (front ++ other) start second, stays⟩
    · exact ⟨Literal.ofText?_eq_none _ start unlike, by simp [skips, unlike]⟩

/-- A text is read by itself up to an opening bracket: what is put in the place of the bracket and
of all that follows it is read as if it stood alone. -/
theorem Reads.split_opening {behind : Bool} {front rest : List Char} {pieces : List Piece}
    (reads : Reads behind (front ++ '(' :: rest) pieces) :
    ∃ before after, pieces = before ++ .opening :: after ∧ Reads false rest after
      ∧ ∀ other later, Reads false other later →
        Reads behind (front ++ other) (before ++ later) := by
  generalize same : front ++ '(' :: rest = text at reads
  -- The induction follows the reading up to the bracket; each piece before it is read again in
  -- front of the other text.
  induction reads generalizing front with
  | nothing behind => simp at same
  | @operand text literal pieces found reads ih =>
    rw [← same] at found
    -- A literal ends before the bracket, and what stands in its place ends it as well.
    obtain ⟨left, remains, _, kept⟩ := exists_left_of_literal found reads
    obtain ⟨before, after, rfl, opened, replaced⟩ := ih remains.symm
    exact ⟨.operand (literal.toOperand 0).toMeasure :: before, after, rfl, opened,
      fun other later read => @Reads.operand _ { literal with rest := left ++ other } _ (kept other)
        (replaced other later read)⟩
  | @dropped text literal pieces found reads ih =>
    rw [← same] at found
    obtain ⟨left, remains, nonempty, kept⟩ :=
      exists_left_of_literal (ofText?_of_literalIn? found) reads
    obtain ⟨before, after, rfl, opened, replaced⟩ := ih remains.symm
    exact ⟨before, after, rfl, opened, fun other later read =>
      .dropped ((literalIn?_append nonempty found other).trans (kept other))
        (replaced other later read)⟩
  | @operator c rest operator pieces sign reads ih =>
    obtain ⟨tail, rfl, later⟩ := exists_tail same (listed_of_ofChar? sign).2.1
    obtain ⟨before, after, rfl, opened, replaced⟩ := ih later
    exact ⟨.operator operator :: before, after, rfl, opened,
      fun other later read => .operator sign (replaced other later read)⟩
  | @opening rest pieces reads ih =>
    cases front with
    | nil =>
      cases same
      -- This is the bracket that the text is split at.
      exact ⟨[], pieces, rfl, reads, fun other later read => read⟩
    | cons d front =>
      rw [List.cons_append] at same
      obtain ⟨rfl, later⟩ := List.cons.inj same
      obtain ⟨before, after, rfl, opened, replaced⟩ := ih later
      exact ⟨.opening :: before, after, rfl, opened,
        fun other later read => .opening (replaced other later read)⟩
  | @closing rest pieces stops reads ih =>
    obtain ⟨tail, rfl, later⟩ := exists_tail same (by decide)
    obtain ⟨before, after, rfl, opened, replaced⟩ := ih later
    rw [← later] at stops reads
    -- What follows the closing bracket goes on at least up to a separator.
    obtain ⟨gap, sign, tail, rfl, _⟩ := reads.exists_separator
    refine ⟨.closing :: before, after, rfl, opened,
      fun other later read => .closing (fun c first => stops c ?_) (replaced other later read)⟩
    cases gap <;> exact first
  | @skipped behind c rest pieces literal plain sign stays reads ih =>
    obtain ⟨tail, rfl, later⟩ := exists_tail same plain.1
    obtain ⟨before, after, rfl, opened, replaced⟩ := ih later
    rw [← later] at literal stays reads
    refine ⟨before, after, rfl, opened, fun other later read => ?_⟩
    obtain ⟨none, kept⟩ := skipped_replaced literal stays reads other
    exact .skipped none plain sign kept (replaced other later read)

/-- A closing bracket parts what stands before it from the rest. -/
theorem parts_closing (front : List Char) : Parts front ')' :=
  ⟨by decide, fun isSign => absurd isSign (by decide)⟩

/-- A literal somewhere in front of a closing bracket is read without it. -/
theorem exists_inner_of_literal {front rest : List Char} {literal : Literal}
    (found : Literal.ofText? (front ++ ')' :: rest) = some literal) :
    ∃ inner, Literal.ofText? front = some inner ∧ front ≠ []
      ∧ literal = { inner with rest := inner.rest ++ ')' :: rest } := by
  -- No literal starts with the bracket, so that there is something in front of it.
  have nonempty : front ≠ [] := by
    rintro rfl
    rw [List.nil_append, Literal.ofText?_eq_none rest (by decide) (by decide)] at found
    cases found
  rw [ofText?_apart rest (parts_closing front) nonempty] at found
  obtain ⟨inner, read, same⟩ := Option.map_eq_some_iff.1 found
  exact ⟨inner, read, nonempty, same.symm⟩

/-- What is skipped in front of a closing bracket is skipped without it too. -/
theorem skipped_alone {behind : Bool} {c : Char} {front rest : List Char}
    (literal : literalIn? behind (c :: (front ++ ')' :: rest)) = none)
    (stays : skips behind c (front ++ ')' :: rest) = true) :
    literalIn? behind (c :: front) = none ∧ skips behind c front = true := by
  -- A closing bracket ends a literal, so there is none without it either; and what is skipped
  -- depends on the next character only.
  constructor
  · unfold literalIn? at literal ⊢
    rw [List.head?_cons] at literal ⊢
    split
    · rfl
    · rename_i unsigned
      rw [if_neg unsigned, ← List.cons_append, ofText?_apart _ (parts_closing _) (by simp)]
        at literal
      exact Option.map_eq_none_iff.1 literal
  · cases front with
    | nil => cases behind <;> simp [skips]
    | cons d front => exact stays

/-- A text is read by itself up to a closing bracket, and an operand stands in front of it. -/
theorem Reads.split_closing {behind : Bool} {front rest : List Char} {pieces : List Piece}
    (reads : Reads behind (front ++ ')' :: rest) pieces) :
    ∃ before after, pieces = before ++ .closing :: after ∧ Reads behind front before
      ∧ Reads true rest after ∧ Stops rest ∧ Piece.trim before = before
      ∧ (behind = false → before ≠ []) := by
  generalize same : front ++ ')' :: rest = text at reads
  -- The induction follows the reading up to the bracket; each piece before it is read without it.
  induction reads generalizing front with
  | nothing behind => simp at same
  | @operand text literal pieces found reads ih =>
    rw [← same] at found
    obtain ⟨inner, alone, _, rfl⟩ := exists_inner_of_literal found
    obtain ⟨before, after, rfl, inside, outside, stops, kept, _⟩ := ih rfl
    exact ⟨.operand (inner.toOperand 0).toMeasure :: before, after, rfl,
      .operand alone inside, outside,
      stops, Piece.trim_cons kept (.inl rfl), by simp⟩
  | @dropped text literal pieces found reads ih =>
    rw [← same] at found
    obtain ⟨inner, alone, nonempty, rfl⟩ := exists_inner_of_literal (ofText?_of_literalIn? found)
    obtain ⟨before, after, rfl, inside, outside, stops, kept, _⟩ := ih rfl
    have dropped := literalIn?_append nonempty found []
    rw [List.append_nil, alone] at dropped
    exact ⟨before, after, rfl, .dropped dropped inside, outside, stops, kept, by simp⟩
  | @operator c rest operator pieces sign reads ih =>
    obtain ⟨tail, rfl, later⟩ := exists_tail same (listed_of_ofChar? sign).2.2
    obtain ⟨before, after, rfl, inside, outside, stops, kept, nonempty⟩ := ih later
    -- An operand follows the operator before the bracket closes.
    exact ⟨.operator operator :: before, after, rfl, .operator sign inside, outside, stops,
      Piece.trim_cons kept (.inr (nonempty rfl)), by simp⟩
  | @opening rest pieces reads ih =>
    obtain ⟨tail, rfl, later⟩ := exists_tail same (by decide)
    obtain ⟨before, after, rfl, inside, outside, stops, kept, _⟩ := ih later
    exact ⟨.opening :: before, after, rfl, .opening inside, outside, stops,
      Piece.trim_cons kept (.inl rfl), by simp⟩
  | @closing rest pieces ends reads ih =>
    cases front with
    | nil =>
      -- This is the bracket that the text is split at.
      cases same
      exact ⟨[], pieces, rfl, .nothing true, reads, ends, rfl, by simp⟩
    | cons d front =>
      rw [List.cons_append] at same
      obtain ⟨rfl, later⟩ := List.cons.inj same
      obtain ⟨before, after, rfl, inside, outside, stops, kept, _⟩ := ih later
      -- What follows this bracket inside does not start a number either.
      have alone : Stops front := by
        intro c first
        obtain ⟨tail, rfl⟩ := List.head?_eq_some_iff.1 first
        exact ends c (by rw [← later]; rfl)
      exact ⟨.closing :: before, after, rfl, .closing alone inside, outside, stops,
        Piece.trim_cons kept (.inl rfl), by simp⟩
  | @skipped behind c rest pieces literal plain sign stays reads ih =>
    obtain ⟨tail, rfl, later⟩ := exists_tail same plain.2
    obtain ⟨before, after, rfl, inside, outside, stops, kept, nonempty⟩ := ih later
    rw [← later] at literal stays
    obtain ⟨none, alone⟩ := skipped_alone literal stays
    exact ⟨before, after, rfl, .skipped none plain sign alone inside, outside,
      stops, kept, nonempty⟩

end Stream

end PlusMinus
