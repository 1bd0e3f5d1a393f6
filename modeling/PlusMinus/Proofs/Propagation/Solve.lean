import PlusMinus.Proofs.Propagation.Bracket
import PlusMinus.Proofs.Propagation.Fold
import PlusMinus.Propagation.Solve

/-! Resolving brackets one by one in the text of an expression computes its tree. -/

namespace PlusMinus

open PlusMinus.Stream

/-- Operations keep measures that read back but for the sign of a zero. -/
theorem measures_keeps_written : measures.Keeps Measure.Written :=
  fun operator _ _ left right => operator.written_outcome left.nonnegative right.nonnegative

mutual

/-- The chains in the brackets of a part. -/
def Part.brackets : Part → List Chain
  | .operand _ _ => []
  | .bracket inside => inside :: inside.brackets

/-- The chains in the brackets of a chain, at every depth. -/
def Chain.brackets : Chain → List Chain
  | .last part => part.brackets
  | .more part _ rest => part.brackets ++ rest.brackets

end

/-- What solving a chain leads to: its value, with the operations of its own level or, when that is
a single bracket, with those of the level inside. -/
def Chain.propagated : Chain → Propagated
  | .last (.bracket inside) =>
    { (inside.folded measures).propagated with
      measure := (Chain.last (.bracket inside)).value measures
      operations := 0 }
  | chain => (chain.folded measures).propagated

/-- What the bracket of a part folds to, if the part is one. -/
def Part.lastBracket? : Part → Option Propagated
  | .operand _ _ => none
  | .bracket inside => some (inside.folded measures).propagated

/-- What the last bracket on the level of a chain folds to, if there is one. -/
def Chain.lastBracket? : Chain → Option Propagated
  | .last part => part.lastBracket?
  | .more part _ rest => rest.lastBracket?.or part.lastBracket?

/-- Every operand of a list is canonical. -/
def AllCanonical (leaves : List (Nat × Operand)) : Prop :=
  ∀ leaf ∈ leaves, leaf.2.toMeasure.Canonical

mutual

/-- The value of a part of canonical operands is canonical. -/
theorem Part.canonical_value : ∀ part : Part, AllCanonical (part.spell .leaves) →
    (part.value measures).Canonical
  | .operand index o, canonical => canonical (index, o) (by simp [Part.spell, Spelling.leaves])
  | .bracket inside, canonical => by
    have line := inside.canonical_line fun leaf member =>
      canonical leaf (by simpa [Part.spell, Spelling.leaves] using member)
    -- A bracket reads the outcome of its level again, which settles the sign of a zero.
    exact
      (measures_keeps_written.fold (line.mono fun _ => Measure.Canonical.written)).canonical_reread

/-- The values on the level of a chain of canonical operands are canonical. -/
theorem Chain.canonical_line : ∀ chain : Chain, AllCanonical (chain.spell .leaves) →
    (chain.line measures).All Measure.Canonical
  | .last part, canonical => ⟨part.canonical_value canonical, by simp [Chain.line]⟩
  | .more part operator rest, canonical => by
    have first := part.canonical_value fun leaf member =>
      canonical leaf (by simp [Chain.spell, member])
    have later := rest.canonical_line fun leaf member =>
      canonical leaf (by simp [Chain.spell, member])
    -- The first value of the rest stands behind the operator now.
    refine ⟨first, fun pair member => ?_⟩
    rcases List.mem_cons.1 member with rfl | member
    · exact later.first
    · exact later.rest pair member

end

/-- The value of a chain of canonical operands reads back but for the sign of a zero. -/
theorem Chain.written_value (chain : Chain) (canonical : AllCanonical chain.leaves) :
    (chain.value measures).Written :=
  measures_keeps_written.fold
    ((chain.canonical_line canonical).mono fun _ => Measure.Canonical.written)

mutual

/-- The operands in the brackets of a part are operands of the part. -/
theorem Part.leaves_brackets : ∀ part : Part, ∀ inside ∈ part.brackets,
    ∀ leaf ∈ inside.leaves, leaf ∈ part.spell .leaves
  | .operand _ _, inside, member => by simp [Part.brackets] at member
  | .bracket outer, inside, member => by
    intro leaf listed
    -- The bracket adds nothing to the operands inside it.
    have spelled : (Part.bracket outer).spell .leaves = outer.spell .leaves := by
      simp [Part.spell, Spelling.leaves]
    rw [spelled]
    rcases List.mem_cons.1 member with rfl | member
    · exact listed
    · exact outer.leaves_brackets inside member leaf listed

/-- The operands in the brackets of a chain are operands of the chain. -/
theorem Chain.leaves_brackets : ∀ chain : Chain, ∀ inside ∈ chain.brackets,
    ∀ leaf ∈ inside.leaves, leaf ∈ chain.spell .leaves
  | .last part, inside, member => part.leaves_brackets inside member
  | .more part operator rest, inside, member => by
    intro leaf listed
    -- The bracket is in the first part or in the rest, and so are its operands.
    simp only [Chain.spell, List.mem_append]
    rcases List.mem_append.1 member with member | member
    · exact .inl (.inl (part.leaves_brackets inside member leaf listed))
    · exact .inr (rest.leaves_brackets inside member leaf listed)

end

namespace Line

/-- No bracket stands in the text of a line of canonical measures. -/
theorem bracketless {line : Line Measure} (all : line.All Measure.Canonical) :
    ∀ c ∈ line.text, c ≠ '(' ∧ c ≠ ')' := by
  -- Neither the measures nor the operators between them are written with brackets.
  have symbol : ∀ operator : Operator, operator.symbol ≠ '(' ∧ operator.symbol ≠ ')' := by
    intro operator
    cases operator <;> decide
  have rest : ∀ {rest : List (Operator × Measure)}, (∀ pair ∈ rest, pair.2.Canonical) →
      ∀ c ∈ restText rest, c ≠ '(' ∧ c ≠ ')' := by
    intro rest all
    induction rest with
    | nil => simp [restText]
    | cons pair rest ih =>
      intro c member
      rcases List.mem_cons.1 member with rfl | member
      · exact symbol pair.1
      · rcases List.mem_append.1 member with member | member
        · exact (all pair (by simp)).bracketless c member
        · exact ih (fun pair member => all pair (by simp [member])) c member
  intro c member
  rcases List.mem_append.1 member with member | member
  · exact all.first.bracketless c member
  · exact rest all.rest c member

end Line

namespace Resolution

/-- A resolution that goes on as another one, behind brackets of which the last led to a result. -/
structure Follows (later : Resolution) (inner : Option Propagated) (r : Resolution) : Prop where
  expression : r.expression = later.expression
  last : r.last = later.last.or inner

/-- Where no bracket is found an expression is left as it is. -/
theorem ofExpression_none {expression : String} (found : Bracket.innermost? expression = none)
    (budget : Nat) : ofExpression budget expression = { expression } := by
  rw [ofExpression.eq_def, found]

/-- The first closed bracket is resolved, and then what is left with the text of what it folds to in
its place. -/
theorem ofExpression_bracket {before inside : List Char} (after : List Char)
    (unclosed : ')' ∉ before)
    (bracketless : ∀ c ∈ inside, c ≠ '(' ∧ c ≠ ')') (budget : Nat) {next : Resolution}
    (rest : ofExpression budget (String.ofList (before
      ++ ((scan (String.ofList inside)).fold.result.measure.text.toList ++ after))) = next) :
    ofExpression (budget + 1) (String.ofList (before ++ '(' :: (inside ++ ')' :: after)))
      = { next with
          last := next.last.or (some (scan (String.ofList inside)).fold.result)
          steps := .bracket (String.ofList inside)
            :: (scan (String.ofList inside)).fold.steps.map .operation ++ next.steps } := by
  subst rest
  -- The bracket that ends first is the one that is found.
  have unopened : '(' ∉ ([] : List Char) := List.not_mem_nil
  obtain ⟨depth, found⟩ :=
    Bracket.innermost?_eq_some after unopened unclosed bracketless (Nat.zero_le _)
  rw [List.nil_append] at found
  rw [ofExpression.eq_def, found]
  simp only [Bracket.inside_eq, Bracket.replace_eq]

/-- Resolving the first closed bracket puts what it folds to in its place. -/
theorem follows_bracket {before inside : List Char} (after : List Char) (unclosed : ')' ∉ before)
    (bracketless : ∀ c ∈ inside, c ≠ '(' ∧ c ≠ ')') (budget : Nat) :
    (ofExpression budget (String.ofList (before
        ++ ((scan (String.ofList inside)).fold.result.measure.text.toList ++ after)))).Follows
      (some (scan (String.ofList inside)).fold.result)
      (ofExpression (budget + 1) (String.ofList (before ++ '(' :: (inside ++ ')' :: after)))) := by
  rw [ofExpression_bracket after unclosed bracketless budget rfl]
  exact ⟨rfl, rfl⟩

/-- An expression without brackets is left as it is. -/
theorem ofExpression_bracketless {text : List Char} (bracketless : ∀ c ∈ text, c ≠ '(' ∧ c ≠ ')')
    (budget : Nat) :
    ofExpression budget (String.ofList text) = { expression := String.ofList text } :=
  ofExpression_none (Bracket.innermost?_eq_none bracketless) budget

end Resolution

open Resolution in
mutual

/-- Resolving the brackets of a part puts the text of its value in its place. -/
theorem Part.follows : ∀ part : Part, AllCanonical (part.spell .leaves) →
    ∀ before after : List Char, ')' ∉ before → ∀ budget : Nat,
      (ofExpression budget
          (String.ofList (before ++ ((part.value measures).text.toList ++ after)))).Follows
        part.lastBracket?
        (ofExpression (budget + (part.spell .brackets).length)
          (String.ofList (before ++ (part.spell .written ++ after))))
  | .operand index o, canonical, before, after, unclosed, budget => ⟨rfl, Option.or_none.symm⟩
  | .bracket inside, canonical, before, after, unclosed, budget => by
    have leaves : AllCanonical (inside.spell .leaves) := fun leaf member =>
      canonical leaf (by simpa [Part.spell, Spelling.leaves] using member)
    have line := inside.canonical_line leaves
    have written := inside.written_value leaves
    have opened : ')' ∉ before ++ ['('] := by simpa using unclosed
    -- The brackets inside are resolved first, and then the bracket around what is left of them.
    have inner := inside.follows leaves (before ++ ['(']) (')' :: after) opened (budget + 1)
    have outer := follows_bracket after unclosed (Line.bracketless line) budget
    rw [scan_text line, result_fold_stream] at outer
    -- The text around the bracket is the same before and after its inside is resolved.
    have flat : (before ++ ['(']) ++ ((inside.line measures).text ++ ')' :: after)
        = before ++ '(' :: ((inside.line measures).text ++ ')' :: after) := by simp
    have spelled : before ++ ((Part.bracket inside).spell .written ++ after)
        = (before ++ ['(']) ++ (inside.spell .written ++ ')' :: after) := by
      simp [Part.spell, Spelling.written, Spelling.characters]
    have count : budget + ((Part.bracket inside).spell .brackets).length
        = budget + 1 + (inside.spell .brackets).length := by
      simp [Part.spell, Spelling.brackets]
      omega
    have text : ((Part.bracket inside).value measures).text = (inside.value measures).text :=
      written.text_reread
    rw [flat] at inner
    rw [spelled, count, text]
    refine ⟨inner.expression.trans outer.expression, ?_⟩
    rw [inner.last, outer.last, Option.or_assoc, Option.some_or]
    rfl

/-- Resolving the brackets of a chain leaves the text of the values on its level. -/
theorem Chain.follows : ∀ chain : Chain, AllCanonical (chain.spell .leaves) →
    ∀ before after : List Char, ')' ∉ before → ∀ budget : Nat,
      (ofExpression budget
          (String.ofList (before ++ ((chain.line measures).text ++ after)))).Follows
        chain.lastBracket?
        (ofExpression (budget + (chain.spell .brackets).length)
          (String.ofList (before ++ (chain.spell .written ++ after))))
  | .last part, canonical, before, after, unclosed, budget => by
    have whole : (Chain.line measures (.last part)).text = (part.value measures).text.toList := by
      simp [Chain.line, Line.text, Line.restText]
    rw [whole]
    exact part.follows canonical before after unclosed budget
  | .more part operator rest, canonical, before, after, unclosed, budget => by
    have leaves : AllCanonical (part.spell .leaves) := fun leaf member =>
      canonical leaf (by simp [Chain.spell, member])
    have laterLeaves : AllCanonical (rest.spell .leaves) := fun leaf member =>
      canonical leaf (by simp [Chain.spell, member])
    -- What is put in the place of the first part brings no closing bracket with it.
    have passed : ')' ∉ before ++ ((part.value measures).text.toList ++ [operator.symbol]) := by
      have symbol : ')' ≠ operator.symbol := by cases operator <;> decide
      have value : ')' ∉ (part.value measures).text.toList :=
        fun member => ((part.canonical_value leaves).bracketless ')' member).2 rfl
      simp [unclosed, value, symbol]
    -- The brackets of the first part are closed before those of the rest.
    have first := part.follows leaves before (operator.symbol :: (rest.spell .written ++ after))
      unclosed (budget + (rest.spell .brackets).length)
    have later := rest.follows laterLeaves _ after passed budget
    -- Spelled out, the text of the chain is that of the first part, the operator and that of the
    -- rest.
    have middle : before ++ ((part.value measures).text.toList ++ [operator.symbol])
          ++ (rest.spell .written ++ after)
        = before ++ ((part.value measures).text.toList
          ++ operator.symbol :: (rest.spell .written ++ after)) := by simp
    have flat : before ++ ((Chain.line measures (.more part operator rest)).text ++ after)
        = before ++ ((part.value measures).text.toList ++ [operator.symbol])
          ++ ((rest.line measures).text ++ after) := by
      simp [Chain.line, Line.text, Line.restText]
    have spelled : before ++ ((Chain.more part operator rest).spell .written ++ after)
        = before ++ (part.spell .written
          ++ operator.symbol :: (rest.spell .written ++ after)) := by
      simp [Chain.spell, Spelling.written]
    have count : budget + ((Chain.more part operator rest).spell .brackets).length
        = budget + (rest.spell .brackets).length + (part.spell .brackets).length := by
      simp [Chain.spell, Spelling.brackets]
      omega
    rw [middle] at later
    rw [flat, spelled, count]
    refine ⟨first.expression.trans later.expression, ?_⟩
    rw [first.last, later.last, Option.or_assoc]
    rfl

end

/-- Solving the text of a chain of canonical operands computes the chain, if it has no more brackets
than may be resolved. -/
theorem Chain.solve_spell (chain : Chain) (canonical : AllCanonical chain.leaves) {config : Config}
    (within : chain.bracketCount ≤ config.maxBracketIterations.toNat) :
    (solve config (String.ofList (chain.spell .written))).result = chain.propagated := by
  have line := chain.canonical_line canonical
  -- The brackets of the chain leave part of the budget unspent.
  obtain ⟨spare, limit⟩ : ∃ spare, config.maxBracketIterations.toNat = spare + chain.bracketCount :=
    ⟨_, (Nat.sub_add_cancel within).symm⟩
  have follows := chain.follows canonical [] [] (by simp) spare
  simp only [List.nil_append, List.append_nil] at follows
  rw [Resolution.ofExpression_bracketless (Line.bracketless line)] at follows
  have expression := follows.expression
  have last := follows.last
  rw [show spare + (chain.spell .brackets).length = config.maxBracketIterations.toNat
    from limit.symm] at expression last
  unfold solve
  dsimp only
  rw [expression, last, scan_text line, result_fold_stream, Option.none_or]
  -- A lone bracket is the only chain on whose level nothing is done behind a last bracket.
  cases chain with
  | last part =>
    cases part with
    | operand index o => rfl
    | bracket inside => rfl
  | more part operator rest =>
    have long : (Chain.line measures (.more part operator rest)).stream.length ≠ 1 := by
      simp [Chain.line, Line.stream, Line.restStream]
    have propagated : (Chain.more part operator rest).propagated
        = ((Chain.more part operator rest).folded measures).propagated := by
      simp [Chain.propagated]
    rw [propagated]
    cases (Chain.more part operator rest).lastBracket? with
    | none => rfl
    | some inner => simp only [long, false_and, if_false, Chain.folded]

/-- Solving a chain leads to its value. -/
theorem Chain.measure_propagated (chain : Chain) :
    chain.propagated.measure = chain.value measures := by
  unfold Chain.propagated
  split <;> rfl

namespace Stream

/-- Solving the expression of a stream of canonical operands computes its tree. -/
theorem Canonical.solve_render {stream : Stream} (canonical : stream.Canonical)
    (balanced : stream.Balanced) {config : Config}
    (within : (stream.openings : Int) ≤ config.maxBracketIterations) :
    ∃ tree, stream.tree? = some tree ∧ AllCanonical tree.leaves
      ∧ (solve config stream.render).result = tree.propagated := by
  obtain ⟨tree, found⟩ := exists_tree? canonical.alternates balanced
  have leaves : AllCanonical tree.leaves := by
    intro leaf member
    rw [Chain.leaves, spell_tree? .leaves found] at member
    exact (canonical.operands leaf.2 (mem_operands.1 (mem_spell_leaves member))).measure
  -- The tree has the operands, the brackets and the text of the stream.
  have count : tree.bracketCount = stream.openings := by
    rw [Chain.bracketCount, spell_tree? .brackets found, length_spell_brackets]
  have written : stream.render = String.ofList (tree.spell .written) := by
    rw [spell_tree? .written found, ← toList_render canonical.alternates, String.ofList_toList]
  refine ⟨tree, found, leaves, ?_⟩
  rw [written]
  exact tree.solve_spell leaves (by omega)

/-- Solving the expression of a stream that was read from a text computes its tree: on each level
the products and quotients, from the left, and then the sums and differences. A bracket passes on
the digits of what its level folds to, and so all of it but for the sign of a zero. -/
theorem solve_render_scan (config : Config) (text : String) (nonempty : scan text ≠ [])
    (balanced : (scan text).Balanced)
    (within : ((scan text).openings : Int) ≤ config.maxBracketIterations) :
    ∃ tree, (scan text).tree? = some tree
      ∧ (solve config (scan text).render).result = tree.propagated
      ∧ ∀ inside ∈ tree.brackets,
        (inside.value measures).reread.Alike (inside.value measures) := by
  have canonical := (canonical_scan text).resolve_left nonempty
  obtain ⟨tree, found, leaves, solved⟩ := canonical.solve_render balanced within
  refine ⟨tree, found, solved, fun inside member => ?_⟩
  -- Each bracket holds canonical operands, so that its value is written in full.
  have inner : AllCanonical inside.leaves := fun leaf listed =>
    leaves leaf (tree.leaves_brackets inside member leaf listed)
  exact (inside.written_value inner).reread_alike

/-- A bracket in a bracket, with signs and exponents in what is put back for them. -/
theorem solve_render_scan_nested :
    scan "2±0.1*(1e-7-(3±0.2))" ≠ [] ∧ (scan "2±0.1*(1e-7-(3±0.2))").Balanced
      ∧ ((scan "2±0.1*(1e-7-(3±0.2))").openings : Int) ≤ (default : Config).maxBracketIterations
      ∧ ∃ tree, (scan "2±0.1*(1e-7-(3±0.2))").tree? = some tree
        ∧ (solve default (scan "2±0.1*(1e-7-(3±0.2))").render).result = tree.propagated
        ∧ ∀ inside ∈ tree.brackets,
          (inside.value measures).reread.Alike (inside.value measures) :=
  ⟨by decide +kernel, by decide +kernel, by decide +kernel,
    solve_render_scan _ _ (by decide +kernel) (by decide +kernel) (by decide +kernel)⟩

end Stream

end PlusMinus
