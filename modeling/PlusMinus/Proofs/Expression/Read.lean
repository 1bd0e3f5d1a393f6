import PlusMinus.Proofs.Expression.Depth
import PlusMinus.Proofs.Expression.Line
import PlusMinus.Proofs.Tree.Arithmetic

/-! Reading the lexemes of a chain from left to right joins the same operands as folding its
products and then its sums. -/

namespace PlusMinus.Expression

/-- Joining trees by operators; brackets leave no trace. -/
def trees (operandTree : Nat → Operand → Expression) : Arithmetic Expression Expression where
  operand := operandTree
  step := .binary
  outcome := id
  bracket := id

namespace Reader

/-- A reader that awaits an operand, with no sign before it. -/
structure Awaits (reader : Reader) : Prop where
  term : reader.term = none
  signs : reader.level.signs = []

/-- A reader that has read an operand with a given tree. -/
structure Took (before : Reader) (tree : Expression) (after : Reader) : Prop where
  outer : after.outer = before.outer
  sum : after.level.sum = before.level.sum
  product : after.level.product = before.level.product
  term : after.term = some (Level.join before.level.product tree)

end Reader

/-- Lexemes that are read as one operand with a given tree. -/
def Reads (lexemes : List Lexeme) (tree : Expression) : Prop :=
  ∀ reader : Reader, reader.Awaits →
    ∃ after, lexemes.foldlM Reader.read reader = some after ∧ reader.Took tree after

/-- What a line of trees comes to behind what stands before it on its level. -/
def Level.total (level : Level) (operandTree : Nat → Operand → Expression)
    (line : Line Expression) : Expression :=
  let terms := ((trees operandTree).products (join level.product line.first) line.rest).2
  ((trees operandTree).sums (join level.sum terms.first) terms.rest).2

/-- A lexeme that is an operand is read as one. -/
theorem reads_operand {lexeme : Lexeme} {tree : Expression}
    (operand : ∀ reader : Reader, reader.read lexeme = reader.operand tree) :
    Reads [lexeme] tree := by
  intro reader awaits
  -- Without signs before it the operand is the next factor as it stands.
  refine ⟨{ reader with term := some (reader.level.term tree) }, ?_, rfl, rfl, rfl, ?_⟩
  · simp [operand, Reader.operand, awaits.term]
  · simp [Level.term, awaits.signs]

/-- Reading lexemes behind others goes on from where those led. -/
theorem foldlM_read_append {first second : List Lexeme} {reader middle : Reader}
    (read : first.foldlM Reader.read reader = some middle) :
    (first ++ second).foldlM Reader.read reader = second.foldlM Reader.read middle := by
  rw [List.foldlM_append, read]
  rfl

/-- Behind a product sign the term so far waits for its next factor. -/
theorem read_product {reader : Reader} {term : Expression} (some : reader.term = some term)
    {operator : Operator} (product : operator.isProduct = true) :
    reader.read (.operator operator) = .some { reader with
      level.product := .some (term, operator), level.signs := [], term := none } := by
  simp [Reader.read, some, product]

/-- Behind a sum sign the sum so far waits for its next term. -/
theorem read_sum {reader : Reader} {term : Expression} (some : reader.term = some term)
    {operator : Operator} (sum : operator.isProduct = false) :
    reader.read (.operator operator) = .some { reader with
      level := { sum := .some (reader.level.close term, operator) }, term := none } := by
  simp [Reader.read, some, sum]

end PlusMinus.Expression

namespace PlusMinus

open Expression

variable {lexemes : Nat → Operand → List Lexeme} {operandTree : Nat → Operand → Expression}

mutual

/-- The lexemes of a part are read as its tree. -/
theorem Part.reads : ∀ part : Part,
    (∀ leaf ∈ part.spell .leaves, Reads (lexemes leaf.1 leaf.2) (operandTree leaf.1 leaf.2)) →
    Reads (part.spell (.lexemes lexemes)) (part.value (trees operandTree))
  | .operand index o, operands => operands (index, o) (by simp [Part.spell, Spelling.leaves])
  | .bracket inside, operands => by
    intro reader awaits
    have opened : reader.read .opening = some { outer := reader.level :: reader.outer } := by
      simp [Reader.read, awaits.term]
    obtain ⟨after, read, outer, term, closing, total⟩ := inside.reads (fun leaf member =>
      operands leaf (by simpa [Part.spell, Spelling.leaves] using member))
      { outer := reader.level :: reader.outer } ⟨rfl, rfl⟩
    -- The closing bracket hands the tree of the level inside to the level around it.
    have closed : after.read .closing = some
        { outer := reader.outer, level := reader.level
          term := some (reader.level.term (after.level.close term)) } := by
      simp [Reader.read, closing, outer]
    refine ⟨{ outer := reader.outer, level := reader.level
              term := some (reader.level.term (after.level.close term)) },
      ?_, ⟨rfl, rfl, rfl, ?_⟩⟩
    · have spelled : (Part.bracket inside).spell (.lexemes lexemes)
          = .opening :: (inside.spell (.lexemes lexemes) ++ [.closing]) := by
        simp [Part.spell, Spelling.lexemes]
      rw [spelled, List.foldlM_cons, opened]
      change (inside.spell (.lexemes lexemes) ++ [Lexeme.closing]).foldlM Reader.read _ = _
      rw [foldlM_read_append read, List.foldlM_cons, closed]
      rfl
    · rw [total]
      simp only [Level.term, awaits.signs, List.foldl_nil]
      rfl

/-- The lexemes of a chain are read as the line of its trees. -/
theorem Chain.reads : ∀ chain : Chain,
    (∀ leaf ∈ chain.spell .leaves, Reads (lexemes leaf.1 leaf.2) (operandTree leaf.1 leaf.2)) →
    ∀ reader : Reader, reader.Awaits →
      ∃ after, (chain.spell (.lexemes lexemes)).foldlM Reader.read reader = some after
        ∧ after.outer = reader.outer
        ∧ ∃ term, after.term = some term
          ∧ after.level.close term = reader.level.total operandTree (chain.line (trees operandTree))
  | .last part, operands, reader, awaits => by
    obtain ⟨after, read, took⟩ := part.reads operands reader awaits
    refine ⟨after, read, took.outer, _, took.term, ?_⟩
    rw [Level.close, took.sum]
    rfl
  | .more part operator rest, operands, reader, awaits => by
    obtain ⟨middle, first, took⟩ := part.reads (fun leaf member =>
      operands leaf (by simp [Chain.spell, member])) reader awaits
    have later := rest.reads fun leaf member => operands leaf (by simp [Chain.spell, member])
    -- The first part is read before the operator, and the rest behind it.
    have spelled : (Chain.more part operator rest).spell (.lexemes lexemes)
        = part.spell (.lexemes lexemes) ++ .operator operator :: rest.spell (.lexemes lexemes) := by
      simp [Chain.spell, Spelling.lexemes]
    rw [spelled, foldlM_read_append first, List.foldlM_cons]
    -- A product sign goes on with the term, and a sum sign completes it.
    by_cases product : operator.isProduct = true
    · rw [read_product took.term product]
      obtain ⟨after, read, outer, term, closing, total⟩ := later
        { middle with
          level.product := some (_, operator), level.signs := [], term := none } ⟨rfl, rfl⟩
      refine ⟨after, read, outer.trans took.outer, term, closing, total.trans ?_⟩
      simp only [Level.total, Chain.line, Arithmetic.products, product, if_true, took.sum]
      rfl
    · have sum : operator.isProduct = false := by simpa using product
      rw [read_sum took.term sum]
      obtain ⟨after, read, outer, term, closing, total⟩ := later
        { middle with level := { sum := some (_, operator) }, term := none } ⟨rfl, rfl⟩
      refine ⟨after, read, outer.trans took.outer, term, closing, total.trans ?_⟩
      simp only [Level.total, Chain.line, Arithmetic.products, sum, Level.close, took.sum]
      rfl

end

/-- The lexemes of a chain are read as its tree. -/
theorem Chain.ofLexemes? (chain : Chain)
    (operands : ∀ leaf ∈ chain.leaves, Reads (lexemes leaf.1 leaf.2) (operandTree leaf.1 leaf.2)) :
    Expression.ofLexemes? (chain.spell (.lexemes lexemes))
      = some (chain.value (trees operandTree)) := by
  -- At the end of the text no bracket is open, and the sum is complete.
  obtain ⟨after, read, outer, term, closing, total⟩ := chain.reads operands {} ⟨rfl, rfl⟩
  unfold Expression.ofLexemes?
  rw [read]
  simp only [Option.bind_some, Reader.finish, closing, outer, total]
  rfl

/-- Between blanks a text in ASCII is read as it stands. -/
theorem Lexeme.Framed.ofWritten? {before text after : List Char} (framed : Framed text)
    (blankBefore : ∀ c ∈ before, Text.isBlank c = true)
    (blankAfter : ∀ c ∈ after, Text.isBlank c = true) :
    Expression.ofWritten? (String.ofList (before ++ (text ++ after)))
      = Expression.ofText? text := by
  -- The typographic signs that are replaced are neither blank nor in ASCII.
  have signs : ∀ {text : List Char}, (∀ c ∈ text, c ≠ '×' ∧ c ≠ '÷') → plainSigns text = text := by
    intro text other
    unfold plainSigns
    rw [List.map_congr_left (g := id), List.map_id]
    intro c member
    simp [other c member]
  have blank : ∀ {c : Char}, Text.isBlank c = true → c ≠ '×' ∧ c ≠ '÷' := fun kind =>
    ⟨Text.ne_of_kind kind (by decide), Text.ne_of_kind kind (by decide)⟩
  have ascii : ∀ c ∈ text, c ≠ '×' ∧ c ≠ '÷' := by
    intro c member
    have small := (framed.plain c member).1
    constructor <;> rintro rfl <;> exact absurd small (by decide)
  unfold Expression.ofWritten?
  rw [String.toList_ofList, signs, framed.strip_margins blankBefore blankAfter]
  intro c member
  rcases List.mem_append.1 member with member | member
  · exact blank (blankBefore c member)
  · exact (List.mem_append.1 member).elim (ascii c) fun member => blank (blankAfter c member)

/-- Without blanks around it a text in ASCII is read as it stands. -/
theorem Lexeme.Framed.ofWritten?_alone {text : List Char} (framed : Framed text) :
    Expression.ofWritten? (String.ofList text) = Expression.ofText? text := by
  have none : ∀ c ∈ ([] : List Char), Text.isBlank c = true := by simp
  simpa using framed.ofWritten? none none

/-- The text of an operand that is read as given lexemes and these as a given tree. -/
structure Legible (text : List Char) (lexemes : List Lexeme) (tree : Expression) : Prop where
  nonempty : text ≠ []
  ordinary : ∀ c ∈ text, Lexeme.Ordinary c
  lexes : Lexeme.Lexes text lexemes
  reads : Reads lexemes tree

namespace Stream

variable {text : Nat → Operand → List Char}

/-- A stream of ordinary operands is spelled in ordinary characters, at least one of them. -/
theorem ordinary_spell {stream : Stream} (alternates : stream.Alternates)
    (legible : ∀ o ∈ stream.operands, ∀ index,
      Legible (text index o) (lexemes index o) (operandTree index o)) (index : Nat) :
    stream.spell (.characters text) index ≠ []
      ∧ ∀ c ∈ stream.spell (.characters text) index, Lexeme.Ordinary c := by
  -- Brackets are ordinary characters, and an operand is not empty without them either.
  have bracketed : ∀ {o : Operand} {index : Nat}, Legible (text index o) (lexemes index o)
      (operandTree index o) → (Spelling.characters text).bracketed index o ≠ []
        ∧ ∀ c ∈ (Spelling.characters text).bracketed index o, Lexeme.Ordinary c := by
    intro o index own
    rw [Spelling.bracketed_characters]
    refine ⟨by simp [own.nonempty], fun c member => ?_⟩
    rcases List.mem_append.1 member with member | member
    · rcases List.mem_append.1 member with member | member
      · rw [(List.mem_replicate.1 member).2]
        exact ⟨by decide, by decide, by decide, by decide⟩
      · exact own.ordinary c member
    · rw [(List.mem_replicate.1 member).2]
      exact ⟨by decide, by decide, by decide, by decide⟩
  have symbol : ∀ operator : Operator, Lexeme.Ordinary operator.symbol := by
    intro operator
    cases operator <;> exact ⟨by decide, by decide, by decide, by decide⟩
  -- Operands and operators take turns, and both are ordinary.
  induction alternates generalizing index with
  | last o =>
    rw [spell, spell, List.append_nil]
    exact bracketed (legible o (by simp) index)
  | @more o operator rest _ ih =>
    obtain ⟨nonempty, first⟩ := bracketed (legible o (by simp) index)
    obtain ⟨_, later⟩ := ih (fun p member => legible p (by simp [member])) (index + 1)
    simp only [spell, Spelling.sign_characters]
    refine ⟨by simp [nonempty], fun c member => ?_⟩
    rcases List.mem_append.1 member with member | member
    · exact first c member
    · rcases List.mem_cons.1 member with rfl | member
      · exact symbol operator
      · exact later c member

/-- The text of a balanced stream is read as the tree of the stream. -/
theorem ofText?_spell {stream : Stream} {tree : Chain} (found : stream.tree? = some tree)
    (alternates : stream.Alternates) (balanced : stream.Balanced)
    (within : stream.nesting ≤ Lexeme.depthLimit)
    (legible : ∀ o ∈ stream.operands, ∀ index,
      Legible (text index o) (lexemes index o) (operandTree index o)) :
    Expression.ofText? (stream.spell (.characters text) 0)
      = some (tree.value (trees operandTree)) := by
  -- The characters make up one line of lexemes, and these the tree.
  obtain ⟨nonempty, ordinary⟩ := ordinary_spell alternates legible 0
  have line := ofLine?_spell alternates (fun o member index => (legible o member index).lexes) 0
    balanced within
  have read := tree.ofLexemes? fun leaf member => by
    rw [Chain.leaves, spell_tree? .leaves found] at member
    exact (legible leaf.2 (mem_spell_leaves member) leaf.1).reads
  rw [spell_tree? (.lexemes lexemes) found] at read
  unfold Expression.ofText?
  rw [(Lexeme.framed_of_ordinary nonempty ordinary).ofText?_of_line line, Option.bind_some, read]

end Stream

end PlusMinus
