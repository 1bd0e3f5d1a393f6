import PlusMinus.Expression.Lexeme
import PlusMinus.Proofs.Text.Digit
import PlusMinus.Proofs.Tree.Basic

/-! The lexemes of a line of operands between operators and brackets. -/

namespace PlusMinus.Lexeme

open Text

/-- A line with lexemes before its own. -/
def behind (lexemes : List Lexeme) (line : List Lexeme × List Char) : List Lexeme × List Char :=
  (lexemes ++ line.1, line.2)

/-- Lexemes before lexemes come before the line too. -/
theorem map_behind_behind (first second : List Lexeme) (line : Option (List Lexeme × List Char)) :
    (line.map (behind second)).map (behind first) = line.map (behind (first ++ second)) := by
  cases line with
  | none => rfl
  | some line => simp [behind]

/-- Without lexemes before it a line stays as it is. -/
theorem map_behind_nil (line : Option (List Lexeme × List Char)) : line.map (behind []) = line := by
  cases line <;> rfl

/-- A text that neither a name nor a number goes on in. -/
def Ends (rest : List Char) : Prop := ∀ c, rest.head? = some c → isNumberCharacter c = false

/-- Nothing goes on at the end of a text. -/
theorem ends_nil : Ends [] := by
  intro c found
  cases found

/-- A character of another kind ends a name or a number. -/
theorem ends_cons {c : Char} (other : isNumberCharacter c = false) (rest : List Char) :
    Ends (c :: rest) := by
  intro d first
  cases first
  exact other

/-- An operator ends a name or a number. -/
theorem ends_operator (operator : Operator) (rest : List Char) :
    Ends (operator.symbol :: rest) := by
  refine ends_cons ?_ rest
  cases operator <;> decide

/-- A closing bracket ends a name or a number, and so does what ends it when there is none. -/
theorem ends_closings (count : Nat) {rest : List Char} (ends : Ends rest) :
    Ends (List.replicate count ')' ++ rest) := by
  cases count with
  | zero => exact ends
  | succ count => exact ends_cons (by decide) _

/-- A letter or a digit in ASCII is its own plain form, and belongs to names. -/
theorem isNameCharacter_of_plain {c : Char} (ascii : c.toNat < 0x80) (plain : c.isAlphanum = true) :
    plainForm c = c ∧ isNameCharacter c = true := by
  have same : plainForm c = c := by
    unfold plainForm
    dsimp only
    rw [if_pos ascii]
  exact ⟨same, by simp [isNameCharacter, same, plain]⟩

/-- A digit belongs to a number. -/
theorem isNumberCharacter_of_isDigit {c : Char} (digit : c.isDigit = true) :
    isNumberCharacter c = true := by
  have range := toNat_of_isDigit digit
  have plain := isNameCharacter_of_plain (c := c) (by omega) (by simp [Char.isAlphanum, digit])
  simp [isNumberCharacter, plain.2]

/-- A text that is read as given lexemes wherever nothing goes on with it. -/
def Lexes (text : List Char) (lexemes : List Lexeme) : Prop :=
  ∀ depth rest, Ends rest → ofLine? depth (text ++ rest) = (ofLine? depth rest).map (behind lexemes)

/-- An opening bracket makes the rest of the line one deeper. -/
theorem ofLine?_opening {depth : Nat} (within : depth < depthLimit) (rest : List Char) :
    ofLine? depth ('(' :: rest) = (ofLine? (depth + 1) rest).map (behind [.opening]) := by
  rw [ofLine?.eq_def]
  simp only [within, if_true, Char.reduceEq, or_self, if_false]
  rfl

/-- A closing bracket makes the rest of the line one less deep. -/
theorem ofLine?_closing {depth : Nat} (opened : 0 < depth) (rest : List Char) :
    ofLine? depth (')' :: rest) = (ofLine? (depth - 1) rest).map (behind [.closing]) := by
  rw [ofLine?.eq_def]
  simp only [opened, if_true, Char.reduceEq, or_self, if_false]
  rfl

/-- An operator is a lexeme by itself. -/
theorem ofLine?_operator (depth : Nat) (operator : Operator) (rest : List Char) :
    ofLine? depth (operator.symbol :: rest)
      = (ofLine? depth rest).map (behind [.operator operator]) := by
  -- The symbol starts neither a number nor a name.
  have digit : operator.symbol.isDigit = false := by cases operator <;> rfl
  have name : isNameCharacter operator.symbol = false := by cases operator <;> decide
  rw [ofLine?.eq_def]
  cases operator <;> simp only [Operator.symbol] at digit name ⊢ <;> simp [digit, name] <;> rfl

/-- A character of names or numbers starts one of them. -/
theorem ofLine?_word (depth : Nat) {c : Char} (own : isNumberCharacter c = true)
    (rest : List Char) :
    ofLine? depth (c :: rest) = if c.isDigit || c = '.' then
        (number? (splitNumber c rest).1).bind fun x =>
          (ofLine? depth (splitNumber c rest).2).map (behind [.number x])
      else (ofLine? depth (rest.dropWhile isNameCharacter)).map
        (behind [.name (String.ofList ((c :: rest.takeWhile isNameCharacter).map plainForm))]) := by
  have unlike : ∀ {d : Char}, isNumberCharacter d = false → c ≠ d := fun other =>
    ne_of_kind own other
  -- It is none of the characters with a meaning of their own.
  rw [ofLine?.eq_def]
  dsimp only
  rw [if_neg (not_or.2 ⟨unlike (by decide), not_or.2 ⟨unlike (by decide), unlike (by decide)⟩⟩),
    if_neg (unlike (by decide)), if_neg (unlike (by decide)), if_neg (unlike (by decide)),
    if_neg (unlike (by decide)), if_neg (unlike (by decide))]
  split
  · cases number? (splitNumber c rest).1 <;> rfl
  · rename_i unnumbered
    have name : isNameCharacter c = true := by
      simp only [isNumberCharacter, Bool.or_eq_true, not_or] at own unnumbered
      exact own.resolve_right unnumbered.2
    rw [if_pos name]
    rfl

/-- A name is taken whole. -/
theorem ofLine?_name (depth : Nat) {c : Char} {name rest : List Char} (first : c.isDigit = false)
    (characters : ∀ d ∈ c :: name, isNameCharacter d = true) (ends : Ends rest) :
    ofLine? depth (c :: (name ++ rest)) = (ofLine? depth rest).map
      (behind [.name (String.ofList ((c :: name).map plainForm))]) := by
  -- What ends a number ends a name too.
  have stops : ∀ d, rest.head? = some d → isNameCharacter d = false := by
    intro d found
    have other := ends d found
    simp only [isNumberCharacter, Bool.or_eq_false_iff] at other
    exact other.1
  have run : ∀ d ∈ name, isNameCharacter d = true := fun d member => characters d (by simp [member])
  have own := characters c (by simp)
  have point : c ≠ '.' := ne_of_kind own (by decide)
  rw [ofLine?_word depth (by simp [isNumberCharacter, own]), if_neg (by simp [first, point]),
    takeWhile_run run stops, dropWhile_run run stops]

/-- A number is taken whole. -/
theorem ofLine?_number (depth : Nat) {c : Char} {number rest : List Char} {x : Double}
    (first : c.isDigit = true) (split : splitNumber c (number ++ rest) = (c :: number, rest))
    (read : number? (c :: number) = some x) :
    ofLine? depth (c :: (number ++ rest)) = (ofLine? depth rest).map (behind [.number x]) := by
  rw [ofLine?_word depth (isNumberCharacter_of_isDigit first), if_pos (by simp [first]), split]
  dsimp only
  rw [read]
  rfl

/-- Opening brackets are read one by one. -/
theorem ofLine?_openings {depth count : Nat} (within : depth + count ≤ depthLimit)
    (rest : List Char) :
    ofLine? depth (List.replicate count '(' ++ rest)
      = (ofLine? (depth + count) rest).map (behind (List.replicate count .opening)) := by
  -- Each bracket makes the line one deeper for those behind it.
  induction count generalizing depth with
  | zero => exact (map_behind_nil _).symm
  | succ count ih =>
    have next : depth + 1 + count = depth + (count + 1) := by omega
    rw [List.replicate_succ, List.cons_append, ofLine?_opening (by omega), ih (by omega),
      map_behind_behind, next]
    rfl

/-- Closing brackets are read one by one. -/
theorem ofLine?_closings {depth count : Nat} (opened : count ≤ depth) (rest : List Char) :
    ofLine? depth (List.replicate count ')' ++ rest)
      = (ofLine? (depth - count) rest).map (behind (List.replicate count .closing)) := by
  induction count generalizing depth with
  | zero => exact (map_behind_nil _).symm
  | succ count ih =>
    -- What was opened last is closed first.
    have next : depth - 1 - count = depth - (count + 1) := by omega
    rw [List.replicate_succ, List.cons_append, ofLine?_closing (by omega), ih (by omega),
      map_behind_behind, next]
    rfl

/-- A character in ASCII that is no blank and starts neither a comment nor a joined line. -/
structure Ordinary (c : Char) : Prop where
  visible : 0x20 < c.toNat
  ascii : c.toNat < 0x80
  noComment : c ≠ '#'
  noJoin : c ≠ '\\'

/-- No ordinary character is one of the control characters or a space. -/
theorem Ordinary.ne {c d : Char} (ordinary : Ordinary c) (hidden : d.toNat ≤ 0x20) : c ≠ d := by
  rintro rfl
  exact absurd ordinary.visible (by omega)

/-- An ordinary character is not blank. -/
theorem Ordinary.solid {c : Char} (ordinary : Ordinary c) : isBlank c = false := by
  -- The only blanks in ASCII are the space and control characters.
  have visible := ordinary.visible
  unfold isBlank
  rw [if_pos ordinary.ascii]
  simp only [Bool.or_eq_false_iff, Bool.and_eq_false_iff, decide_eq_false_iff_not]
  omega

/-- A digit is an ordinary character. -/
theorem ordinary_of_isDigit {c : Char} (digit : c.isDigit = true) : Ordinary c := by
  have range := toNat_of_isDigit digit
  refine ⟨by omega, by omega, ?_, ?_⟩ <;> rintro rfl <;> exact absurd digit (by decide)

/-- A text without carriage returns has no line ends to unify. -/
theorem unifyLines_eq_self {text : List Char} (unbroken : '\r' ∉ text) :
    unifyLines text = text := by
  induction text with
  | nil => rfl
  | cons c rest ih =>
    have other : c ≠ '\r' := by
      rintro rfl
      exact unbroken (by simp)
    -- Only a carriage return would be replaced.
    have step : unifyLines (c :: rest) = c :: unifyLines rest := by
      rw [unifyLines.eq_def]
      split
      · rename_i same
        exact absurd (List.cons.inj same).1 other
      · rename_i same
        exact absurd (List.cons.inj same).1 other
      · rename_i same
        cases same
        rfl
      · rename_i same
        cases same
    rw [step, ih fun member => unbroken (by simp [member])]

/-- A text in ASCII without carriage returns and null characters, with ordinary ones at its ends. -/
structure Framed (text : List Char) : Prop where
  first : ∃ c, text.head? = some c ∧ Ordinary c
  last : ∃ c, text.getLast? = some c ∧ Ordinary c
  plain : ∀ c ∈ text, c.toNat < 0x80 ∧ c ≠ '\r' ∧ c ≠ '\x00'

/-- An ordinary character is in ASCII, and neither a carriage return nor a null character. -/
theorem Ordinary.plain {c : Char} (ordinary : Ordinary c) :
    c.toNat < 0x80 ∧ c ≠ '\r' ∧ c ≠ '\x00' :=
  ⟨ordinary.ascii, ordinary.ne (by decide), ordinary.ne (by decide)⟩

/-- A text of ordinary characters has them at its ends too. -/
theorem framed_of_ordinary {text : List Char} (nonempty : text ≠ [])
    (ordinary : ∀ c ∈ text, Ordinary c) : Framed text where
  first := ⟨_, List.head?_eq_some_head nonempty, ordinary _ (List.head_mem nonempty)⟩
  last := ⟨_, List.getLast?_eq_some_getLast nonempty, ordinary _ (List.getLast_mem nonempty)⟩
  plain c member := (ordinary c member).plain

namespace Framed

variable {text : List Char}

/-- A text that ordinary characters start and end is not blank there. -/
theorem strip_margins {before after : List Char} (framed : Framed text)
    (blankBefore : ∀ c ∈ before, isBlank c = true) (blankAfter : ∀ c ∈ after, isBlank c = true) :
    strip (before ++ (text ++ after)) = text := by
  obtain ⟨c, front, first⟩ := framed.first
  obtain ⟨d, back, last⟩ := framed.last
  -- Ordinary characters are no blanks, so both ends stop the stripping.
  refine Text.strip_margins blankBefore ?_ ?_ blankAfter
  · intro e found
    rw [front] at found
    cases found
    exact first.solid
  · intro e found
    rw [back] at found
    cases found
    exact last.solid

/-- A text that an ordinary character starts is a line at once and without an indentation. -/
theorem ofText? (framed : Framed text) :
    Lexeme.ofText? text = (ofLine? 0 text).bind fun line =>
      (skipBlankLines? 0 0 false line.2).bind fun
        | (0, []) => some line.1
        | _ => none := by
  have noNull : text.contains '\x00' = false := by
    simp only [List.contains_eq_mem, decide_eq_false_iff_not]
    exact fun member => (framed.plain _ member).2.2 rfl
  have unbroken : '\r' ∉ text := fun member => (framed.plain _ member).2.1 rfl
  obtain ⟨c, front, first⟩ := framed.first
  obtain ⟨rest, rfl⟩ := List.head?_eq_some_iff.1 front
  -- There is nothing to skip before the line.
  have start : skipBlankLines? 0 0 false (c :: rest) = some (0, c :: rest) := by
    rw [skipBlankLines?.eq_def]
    simp [first.ne (d := ' ') (by decide), first.ne (d := '\t') (by decide),
      first.ne (d := '\x0c') (by decide), first.ne (d := '\n') (by decide), first.noComment,
      first.noJoin]
  unfold Lexeme.ofText?
  rw [noNull, unifyLines_eq_self unbroken, start]
  rfl

/-- A text that is one line is read as the lexemes of the line. -/
theorem ofText?_of_line {lexemes : List Lexeme} (framed : Framed text)
    (line : ofLine? 0 text = some (lexemes, [])) : Lexeme.ofText? text = some lexemes := by
  -- Behind the line there is nothing left to skip.
  rw [framed.ofText?, line]
  rfl

end Framed

end PlusMinus.Lexeme

namespace PlusMinus

/-- The lexemes of an expression, given those of each operand. -/
def Spelling.lexemes (operandLexemes : Nat → Operand → List Lexeme) : Spelling Lexeme where
  opening := [.opening]
  closing := [.closing]
  operand := operandLexemes
  sign operator := [.operator operator]

namespace Stream

open Lexeme

/-- How deep the brackets of operands are nested behind a depth. -/
def nestingFrom (depth : Nat) : List Operand → Nat
  | [] => depth
  | o :: rest =>
    max (depth + o.openBrackets.toNat)
      (nestingFrom (depth + o.openBrackets.toNat - o.closeBrackets.toNat) rest)

/-- How deep the brackets of a stream are nested. -/
def nesting (stream : Stream) : Nat := nestingFrom 0 stream.operands

variable {text : Nat → Operand → List Char} {lexemes : Nat → Operand → List Lexeme}

/-- An operand between brackets is read as its lexemes between theirs. -/
theorem ofLine?_bracketed {o : Operand} {index : Nat}
    (lexes : Lexes (text index o) (lexemes index o))
    {depth : Nat} (within : depth + o.openBrackets.toNat ≤ depthLimit)
    (opened : o.closeBrackets.toNat ≤ depth + o.openBrackets.toNat) {rest : List Char}
    (ends : Ends rest) :
    ofLine? depth ((Spelling.characters text).bracketed index o ++ rest)
      = (ofLine? (depth + o.openBrackets.toNat - o.closeBrackets.toNat) rest).map
        (behind ((Spelling.lexemes lexemes).bracketed index o)) := by
  -- The lexemes are put in front in three lots: what opens, the operand, and what closes.
  have spelled : (Spelling.lexemes lexemes).bracketed index o
      = List.replicate o.openBrackets.toNat .opening
        ++ lexemes index o ++ List.replicate o.closeBrackets.toNat .closing := by
    simp [Spelling.bracketed, Spelling.lexemes]
  rw [Spelling.bracketed_characters, List.append_assoc, List.append_assoc, ofLine?_openings within,
    lexes _ _ (ends_closings _ ends), ofLine?_closings opened, map_behind_behind,
      map_behind_behind, spelled]

/-- The characters of a balanced stream are read as its lexemes. -/
theorem ofLine?_spell {stream : Stream} (alternates : stream.Alternates)
    (lexes : ∀ o ∈ stream.operands, ∀ index, Lexes (text index o) (lexemes index o)) {depth : Nat}
    (index : Nat) (balanced : depthFrom? depth stream.operands = some 0)
    (within : nestingFrom depth stream.operands ≤ depthLimit) :
    ofLine? depth (stream.spell (.characters text) index)
      = some (stream.spell (.lexemes lexemes) index, []) := by
  -- Each round reads an operand with its brackets, and the operator behind it.
  induction alternates generalizing depth index with
  | last o =>
    simp only [operands_operand, operands_nil, depthFrom?] at balanced
    simp only [operands_operand, operands_nil, nestingFrom] at within
    split at balanced
    · rename_i opened
      -- Behind the last operand the line is back at its own depth, and ends.
      have flat := Option.some.inj balanced
      have read := ofLine?_bracketed (lexes o (by simp) index) (by omega) opened ends_nil
      rw [List.append_nil, flat] at read
      have nothing : ofLine? 0 [] = some ([], []) := by simp [ofLine?]
      simp only [spell, List.append_nil, read, nothing, Option.map_some, behind]
    · cases balanced
  | @more o operator rest _ ih =>
    simp only [operands_operand, operands_operator, depthFrom?] at balanced
    simp only [operands_operand, operands_operator, nestingFrom] at within
    split at balanced
    · rename_i opened
      have read := ofLine?_bracketed (lexes o (by simp) index) (by omega) opened
        (ends_operator operator (rest.spell (.characters text) (index + 1)))
      have later := ih (fun p member => lexes p (by simp [member])) (index + 1) balanced (by omega)
      simp only [spell, Spelling.sign_characters, List.singleton_append]
      rw [read, ofLine?_operator, later, map_behind_behind]
      simp [behind, Spelling.lexemes]
    · cases balanced

end Stream

end PlusMinus
