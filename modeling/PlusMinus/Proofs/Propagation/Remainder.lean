import PlusMinus.Proofs.Propagation.Solve

/-! Solving with a limit on brackets: the first ones are resolved, and those that are left count for
nothing when the rest is folded. -/

namespace PlusMinus

open PlusMinus.Stream Literal

namespace Token

/-- A token without brackets. -/
def bare : Token → Token
  | .operand o => .operand { toMeasure := o.toMeasure }
  | token => token

end Token

namespace Stream

/-- Two operands with an operator between them show without their brackets too. -/
theorem exists_of_map_bare {stream : Stream} {left right : Operand} {operator : Operator}
    {rest : Stream}
    (same : stream.map Token.bare = .operand left :: .operator operator :: .operand right :: rest) :
    ∃ left' right' rest', stream = .operand left' :: .operator operator
      :: .operand right' :: rest' := by
  -- Taking brackets off keeps the kind of every token, so the first three show what they were.
  match stream with
  | .operand o :: .operator op :: .operand p :: tokens =>
    simp only [List.map_cons, Token.bare, List.cons.injEq, Token.operator.injEq] at same
    exact ⟨o, p, tokens, by rw [same.2.1]⟩
  | [] => cases same
  | [_] => simp at same
  | [_, _] => simp at same
  | .word _ :: _ :: _ :: _ | .operator _ :: _ :: _ :: _ => simp [Token.bare] at same
  | .operand _ :: .word _ :: _ :: _ | .operand _ :: .operand _ :: _ :: _ =>
    simp [Token.bare] at same
  | .operand _ :: .operator _ :: .word _ :: _
  | .operand _ :: .operator _ :: .operator _ :: _ => simp [Token.bare] at same

/-- Folding products does not look at brackets. -/
theorem foldProducts_bare (stream : Stream) :
    foldProducts (stream.map Token.bare)
      = ((foldProducts stream).1, (foldProducts stream).2.map Token.bare) := by
  -- Both scans find the same operators between the same measures.
  induction stream using foldProducts.induct with
  | case1 left operator right rest product step steps tokens later ih =>
    simp only [List.map_cons, Token.bare] at ih ⊢
    rw [foldProducts, foldProducts, if_pos product, if_pos product]
    dsimp only
    rw [ih]
  | case2 left operator right rest product steps tokens later ih =>
    simp only [List.map_cons, Token.bare] at ih ⊢
    rw [foldProducts, foldProducts, if_neg product, if_neg product, ih]
    rfl
  | case3 token rest apart steps tokens later ih =>
    rw [List.map_cons, foldProducts, ih, foldProducts]
    · rfl
    · exact apart
    · -- Where no operator stands between two operands, there is none without brackets either.
      intro left operator right tokens first second
      have bare : (token :: rest).map Token.bare
          = .operand left :: .operator operator :: .operand right :: tokens := by
        rw [List.map_cons, first, second]
      obtain ⟨o, p, tokens, same⟩ := exists_of_map_bare bare
      cases same
      exact apart _ _ _ _ rfl rfl
  | case4 => simp [foldProducts]

/-- Folding sums does not look at brackets. -/
theorem foldSums_bare (stream : Stream) :
    foldSums (stream.map Token.bare)
      = ((foldSums stream).1, (foldSums stream).2.map Token.bare) := by
  induction stream using foldSums.induct with
  | case1 left operator right rest product =>
    simp only [List.map_cons, Token.bare]
    rw [foldSums, foldSums, if_pos product, if_pos product]
    rfl
  | case2 left operator right rest product step steps tokens later ih =>
    simp only [List.map_cons, Token.bare] at ih ⊢
    rw [foldSums, foldSums, if_neg product, if_neg product]
    dsimp only
    rw [ih]
  | case3 tokens apart =>
    -- Without two operands in front nothing is left to sum.
    rw [foldSums, foldSums]
    · exact apart
    · intro left operator right rest same
      obtain ⟨o, p, rest, rfl⟩ := exists_of_map_bare same
      exact apart _ _ _ _ rfl

/-- The measure that a stream folds to does not depend on its brackets. -/
theorem measure_fold_bare (stream : Stream) :
    stream.fold.result.measure = (fold (stream.map Token.bare)).result.measure := by
  -- The result is the measure of the first token that is left.
  have front : ∀ (products sums : List Operation) (tokens : Stream),
      (Folding.mk products sums tokens).result.measure
        = (Folding.mk products sums (tokens.map Token.bare)).result.measure := by
    intro products sums tokens
    match tokens with
    | [] | .operand _ :: _ | .operator _ :: _ | .word _ :: _ => rfl
  unfold fold
  rw [foldProducts_bare]
  dsimp only
  rw [foldSums_bare]
  exact front _ _ _
end Stream

namespace Line

variable {α : Type}

/-- Two lines with an operator between them. -/
def join (left : Line α) (operator : Operator) (right : Line α) : Line α :=
  ⟨left.first, left.rest ++ (operator, right.first) :: right.rest⟩

/-- A condition that holds on both sides of an operator holds of the joined line. -/
theorem All.join {kept : α → Prop} {left right : Line α} (operator : Operator)
    (first : left.All kept) (second : right.All kept) : (left.join operator right).All kept := by
  refine ⟨first.first, fun pair member => ?_⟩
  rcases List.mem_append.1 member with member | member
  · exact first.rest pair member
  · rcases List.mem_cons.1 member with rfl | member
    · exact second.first
    · exact second.rest pair member

/-- The tokens of a joined line are those of its two sides. -/
theorem stream_join (left right : Line Measure) (operator : Operator) :
    (left.join operator right).stream = left.stream ++ .operator operator :: right.stream := by
  have rest : ∀ pairs : List (Operator × Measure),
      restStream (pairs ++ (operator, right.first) :: right.rest)
        = restStream pairs ++ .operator operator :: right.stream := by
    intro pairs
    induction pairs with
    | nil => rfl
    | cons pair pairs ih => simp [restStream, ih]
  simp [join, stream, rest]

/-- The text of a joined line is that of its two sides. -/
theorem text_join (left right : Line Measure) (operator : Operator) :
    (left.join operator right).text = left.text ++ operator.symbol :: right.text := by
  have rest : ∀ pairs : List (Operator × Measure),
      restText (pairs ++ (operator, right.first) :: right.rest)
        = restText pairs ++ operator.symbol :: right.text := by
    intro pairs
    induction pairs with
    | nil => rfl
    | cons pair pairs ih => simp [restText, ih]
  simp [join, text, rest]

end Line

/-- An expression in which a limited number of brackets was resolved: its text, the measures in it
with the brackets left out, and how many more brackets could have been resolved. -/
structure Remainder where
  text : List Char
  line : Line Measure
  budget : Nat

mutual

/-- What is left of a part whose operands stand for measures. -/
def Part.remainder (measure : Nat → Operand → Measure) : Part → Nat → Remainder
  | .operand index o, budget => ⟨(measure index o).text.toList, ⟨measure index o, []⟩, budget⟩
  | .bracket inside, budget =>
    let left := inside.remainder measure budget
    match left.budget with
    | 0 => { left with text := '(' :: (left.text ++ [')']) }
    | budget + 1 =>
      let value := (measures.fold left.line).value.reread
      ⟨value.text.toList, ⟨value, []⟩, budget⟩

/-- What is left of a chain whose operands stand for measures. -/
def Chain.remainder (measure : Nat → Operand → Measure) : Chain → Nat → Remainder
  | .last part, budget => part.remainder measure budget
  | .more part operator rest, budget =>
    let left := part.remainder measure budget
    let right := rest.remainder measure left.budget
    ⟨left.text ++ operator.symbol :: right.text, left.line.join operator right.line, right.budget⟩

end

mutual

/-- No more brackets of a part are resolved than may be. -/
theorem Part.budget_remainder (measure : Nat → Operand → Measure) : ∀ (part : Part) (budget : Nat),
    (part.remainder measure budget).budget ≤ budget
  | .operand index o, budget => Nat.le_refl budget
  | .bracket inside, budget => by
    have least := inside.budget_remainder measure budget
    simp only [Part.remainder]
    split
    · exact least
    · rename_i spare left
      dsimp only
      omega

/-- No more brackets of a chain are resolved than may be. -/
theorem Chain.budget_remainder (measure : Nat → Operand → Measure) :
    ∀ (chain : Chain) (budget : Nat),
    (chain.remainder measure budget).budget ≤ budget
  | .last part, budget => part.budget_remainder measure budget
  | .more part _ rest, budget =>
    Nat.le_trans (rest.budget_remainder measure _) (part.budget_remainder measure budget)

end

/-- The characters of an expression whose operands stand for measures. -/
def Spelling.ofMeasures (measure : Nat → Operand → Measure) : Spelling Char :=
  .characters fun index o => (measure index o).text.toList

namespace Remainder

/-- What a remainder keeps: canonical measures, a text that is read as them, and brackets only when
the limit is reached. -/
structure Sound (r : Remainder) : Prop where
  canonical : r.line.All Measure.Canonical
  read : ∀ tokens : List Token, endsInOperand tokens = false → ∀ (pending : Nat) (rest : List Char),
    Stops rest → ∃ (o : Operand) (older : List Token),
      scanFrom tokens pending (r.text ++ rest) = scanFrom (.operand o :: older ++ tokens) 0 rest
        ∧ (Token.operand o :: older).map Token.bare = r.line.stream.reverse
  flat : 0 < r.budget → r.text = r.line.text

/-- A single canonical measure is what is left of itself. -/
theorem Sound.single {m : Measure} (canonical : m.Canonical) (budget : Nat) :
    Sound ⟨m.text.toList, ⟨m, []⟩, budget⟩ := by
  refine ⟨⟨canonical, by simp⟩, fun tokens expected pending rest stops => ?_, fun _ => ?_⟩
  · exact ⟨_, [], scanFrom_measure expected canonical pending stops, rfl⟩
  · simp [Line.text, Line.restText]

/-- Brackets that are left are counted with the operands next to them. -/
theorem Sound.enclosed {r : Remainder} (sound : r.Sound) (spent : r.budget = 0) :
    Sound { r with text := '(' :: (r.text ++ [')']) } := by
  refine ⟨sound.canonical, fun tokens expected pending rest stops => ?_, fun positive => ?_⟩
  · have closing : Stops (')' :: rest) := by
      intro c first
      cases first
      decide
    obtain ⟨o, older, read, bare⟩ := sound.read tokens expected (pending + 1) (')' :: rest) closing
    refine ⟨{ o with closeBrackets := o.closeBrackets + 1 }, older, ?_, bare⟩
    -- The opening bracket waits for the first operand, and the closing one joins the last.
    have opened := scanFrom_opening expected 1 pending (r.text ++ ')' :: rest)
    have closed := scanFrom_closing o (older ++ tokens) 1 0 rest
    simp only [List.replicate_one, List.singleton_append] at opened closed
    calc scanFrom tokens pending ('(' :: (r.text ++ [')']) ++ rest)
        = scanFrom tokens pending ('(' :: (r.text ++ ')' :: rest)) := by simp
      _ = scanFrom (.operand o :: older ++ tokens) 0 (')' :: rest) := opened.trans read
      _ = _ := closed
  · exact absurd spent (Nat.ne_of_gt positive)

/-- Sound remainders may be joined by an operator. -/
theorem Sound.join {l r : Remainder} (left : l.Sound) (right : r.Sound) (operator : Operator)
    (spent : r.budget ≤ l.budget) :
    Sound ⟨l.text ++ operator.symbol :: r.text, l.line.join operator r.line, r.budget⟩ := by
  refine ⟨left.canonical.join operator right.canonical,
    fun tokens expected pending rest stops => ?_, fun positive => ?_⟩
  · -- The left text is read up to the operator, and the right one from there.
    obtain ⟨o, older, first, before⟩ := left.read tokens expected pending
      (operator.symbol :: (r.text ++ rest)) (stops_operator operator _)
    obtain ⟨p, newer, second, behind⟩ := right.read
      (.operator operator :: .operand o :: older ++ tokens) rfl 0 rest stops
    refine ⟨p, newer ++ .operator operator :: .operand o :: older, ?_, ?_⟩
    · calc scanFrom tokens pending (l.text ++ operator.symbol :: r.text ++ rest)
          = scanFrom tokens pending (l.text ++ operator.symbol :: (r.text ++ rest)) := by simp
        _ = scanFrom (.operand o :: (older ++ tokens)) 0 (operator.symbol :: (r.text ++ rest)) :=
          first
        _ = scanFrom (.operator operator :: .operand o :: (older ++ tokens)) 0 (r.text ++ rest) :=
          scanFrom_operator operator.ofChar?_symbol o (older ++ tokens) 0 _
        _ = _ := second
        _ = _ := by simp
    · rw [Line.stream_join, List.reverse_append, List.reverse_cons, ← before, ← behind]
      simp [Token.bare]
  · -- What is not spent behind the operator was not spent before it either.
    have earlier : 0 < l.budget := Nat.lt_of_lt_of_le positive spent
    rw [Line.text_join, left.flat earlier, right.flat positive]

end Remainder

section Remainder

variable {measure : Nat → Operand → Measure}

/-- Every operand of a list stands for a canonical measure. -/
def AllStandFor (measure : Nat → Operand → Measure) (leaves : List (Nat × Operand)) : Prop :=
  ∀ leaf ∈ leaves, (measure leaf.1 leaf.2).Canonical

mutual

/-- What is left of a part of canonical measures is sound. -/
theorem Part.sound_remainder : ∀ part : Part, AllStandFor measure (part.spell .leaves) →
    ∀ budget : Nat, (part.remainder measure budget).Sound
  | .operand index o, canonical, budget =>
    .single (canonical (index, o) (by simp [Part.spell, Spelling.leaves])) budget
  | .bracket inside, canonical, budget => by
    have sound := inside.sound_remainder (fun leaf member =>
      canonical leaf (by simpa [Part.spell, Spelling.leaves] using member)) budget
    simp only [Part.remainder]
    split
    · exact sound.enclosed ‹_›
    · -- A resolved bracket leaves the measure that its inside folds to.
      have written :=
        measures_keeps_written.fold (sound.canonical.mono fun _ => Measure.Canonical.written)
      exact .single written.canonical_reread _

/-- What is left of a chain of canonical measures is sound. -/
theorem Chain.sound_remainder : ∀ chain : Chain, AllStandFor measure (chain.spell .leaves) →
    ∀ budget : Nat, (chain.remainder measure budget).Sound
  | .last part, canonical, budget => part.sound_remainder canonical budget
  | .more part operator rest, canonical, budget => by
    have left := part.sound_remainder (fun leaf member =>
      canonical leaf (by simp [Chain.spell, member])) budget
    have right := rest.sound_remainder (fun leaf member =>
      canonical leaf (by simp [Chain.spell, member])) (part.remainder measure budget).budget
    exact left.join right operator (rest.budget_remainder measure _)

end

mutual

/-- Without a limit to spend a part is left as it is written. -/
theorem Part.text_remainder_zero : ∀ part : Part,
    (part.remainder measure 0).text = part.spell (.ofMeasures measure)
  | .operand index o => rfl
  | .bracket inside => by
    -- There is nothing to spend on this bracket when its inside is done.
    have spent := Nat.le_zero.1 (inside.budget_remainder measure 0)
    simp only [Part.remainder, spent, inside.text_remainder_zero, Part.spell]
    simp [Spelling.ofMeasures, Spelling.characters]

/-- Without a limit to spend a chain is left as it is written. -/
theorem Chain.text_remainder_zero : ∀ chain : Chain,
    (chain.remainder measure 0).text = chain.spell (.ofMeasures measure)
  | .last part => part.text_remainder_zero
  | .more part operator rest => by
    have spent := Nat.le_zero.1 (part.budget_remainder measure 0)
    simp only [Chain.remainder, spent, part.text_remainder_zero, rest.text_remainder_zero,
      Chain.spell]
    simp [Spelling.ofMeasures]

end

/-- With nothing to spend an expression is left as it is. -/
theorem Resolution.expression_ofExpression_zero (expression : String) :
    (ofExpression 0 expression).expression = expression := by
  rw [ofExpression.eq_def]
  split
  · rfl
  · rfl
  · rename_i absurd
    cases absurd

open Resolution in
mutual

/-- Resolving brackets leads from a part to what is left of it, and goes on behind that. -/
theorem Part.expression_remainder : ∀ part : Part, AllStandFor measure (part.spell .leaves) →
    ∀ before after : List Char, ')' ∉ before → ∀ budget : Nat,
      (ofExpression budget (String.ofList
          (before ++ (part.spell (.ofMeasures measure) ++ after)))).expression
        = (ofExpression (part.remainder measure budget).budget (String.ofList
          (before ++ ((part.remainder measure budget).text ++ after)))).expression
  | .operand index o, canonical, before, after, unclosed, budget => rfl
  | .bracket inside, canonical, before, after, unclosed, budget => by
    have leaves : AllStandFor measure (inside.spell .leaves) := fun leaf member =>
      canonical leaf (by simpa [Part.spell, Spelling.leaves] using member)
    have sound := inside.sound_remainder leaves budget
    -- The inside is resolved first, with the opening bracket among what comes before it.
    have opened : ')' ∉ before ++ ['('] := by simpa using unclosed
    have inner := inside.expression_remainder leaves (before ++ ['(']) (')' :: after) opened budget
    have spelled : before ++ ((Part.bracket inside).spell (.ofMeasures measure) ++ after)
        = (before ++ ['(']) ++ (inside.spell (.ofMeasures measure) ++ ')' :: after) := by
      simp [Part.spell, Spelling.ofMeasures, Spelling.characters]
    rw [spelled, inner]
    simp only [Part.remainder]
    split
    · -- The limit was reached inside, and the bracket stays.
      rename_i spent
      rw [spent]
      simp
    · -- Nothing but measures is left inside, and the bracket around them is resolved next.
      rename_i spare left
      have flat := sound.flat (by omega)
      have resolved :=
        (follows_bracket after unclosed (Line.bracketless sound.canonical) spare).expression
      rw [scan_text sound.canonical, result_fold_stream] at resolved
      have written := measures_keeps_written.fold
        (sound.canonical.mono fun _ => Measure.Canonical.written)
      have text : (before ++ ['(']) ++ ((inside.remainder measure budget).text ++ ')' :: after)
          = before ++ '(' :: ((inside.remainder measure budget).line.text ++ ')' :: after) := by
        simp [flat]
      rw [left, text, resolved, written.text_reread]
      rfl

/-- Resolving brackets leads from a chain to what is left of it, and goes on behind that. -/
theorem Chain.expression_remainder : ∀ chain : Chain, AllStandFor measure (chain.spell .leaves) →
    ∀ before after : List Char, ')' ∉ before → ∀ budget : Nat,
      (ofExpression budget (String.ofList
          (before ++ (chain.spell (.ofMeasures measure) ++ after)))).expression
        = (ofExpression (chain.remainder measure budget).budget (String.ofList
          (before ++ ((chain.remainder measure budget).text ++ after)))).expression
  | .last part, canonical, before, after, unclosed, budget =>
    part.expression_remainder canonical before after unclosed budget
  | .more part operator rest, canonical, before, after, unclosed, budget => by
    have leaves : AllStandFor measure (part.spell .leaves) := fun leaf member =>
      canonical leaf (by simp [Chain.spell, member])
    have laterLeaves : AllStandFor measure (rest.spell .leaves) := fun leaf member =>
      canonical leaf (by simp [Chain.spell, member])
    have sound := part.sound_remainder leaves budget
    -- The first part is resolved with everything else behind it.
    have first := part.expression_remainder leaves before
      (operator.symbol :: (rest.spell (.ofMeasures measure) ++ after)) unclosed budget
    have spelled : before ++ ((Chain.more part operator rest).spell (.ofMeasures measure) ++ after)
        = before ++ (part.spell (.ofMeasures measure)
          ++ operator.symbol :: (rest.spell (.ofMeasures measure) ++ after)) := by
      simp [Chain.spell, Spelling.ofMeasures]
    rw [spelled, first]
    simp only [Chain.remainder]
    rcases Nat.eq_zero_or_pos (part.remainder measure budget).budget with spent | positive
    · -- The first part used up the limit, and the rest stays as it is written.
      rw [spent, Nat.le_zero.1 (rest.budget_remainder measure 0),
        rest.text_remainder_zero]
      simp
    · -- What is left of the first part has no brackets that could be resolved again.
      have bracketless := Line.bracketless sound.canonical
      rw [← sound.flat positive] at bracketless
      have passed :
          ')' ∉ before ++ ((part.remainder measure budget).text ++ [operator.symbol]) := by
        have symbol : ')' ≠ operator.symbol := by cases operator <;> decide
        have value : ')' ∉ (part.remainder measure budget).text :=
          fun member => (bracketless ')' member).2 rfl
        simp [unclosed, value, symbol]
      have later := rest.expression_remainder laterLeaves _ after passed
        (part.remainder measure budget).budget
      simp only [List.append_assoc, List.cons_append, List.nil_append] at later ⊢
      exact later

end

end Remainder

namespace Remainder

/-- Resolving goes no further than to a sound remainder. -/
theorem Sound.expression {r : Remainder} (sound : r.Sound) :
    (Resolution.ofExpression r.budget (String.ofList r.text)).expression
      = String.ofList r.text := by
  rcases Nat.eq_zero_or_pos r.budget with spent | positive
  · rw [spent]
    exact Resolution.expression_ofExpression_zero _
  · -- As long as more could be resolved there are no brackets left.
    have bracketless := Line.bracketless sound.canonical
    rw [← sound.flat positive] at bracketless
    rw [Resolution.ofExpression_bracketless bracketless]

/-- A sound remainder folds like the line of its measures. -/
theorem Sound.measure_fold_scan {r : Remainder} (sound : r.Sound) :
    (scan (String.ofList r.text)).fold.result.measure = (measures.fold r.line).value := by
  obtain ⟨o, older, read, bare⟩ := sound.read [] rfl 0 [] stops_nil
  rw [List.append_nil, List.append_nil] at read
  -- The scan ends in an operand, so that no operator is dropped behind it.
  have scanned : scan (String.ofList r.text) = (Token.operand o :: older).reverse := by
    rw [scan, String.toList_ofList, read, scanFrom]
    rfl
  have stripped : (scan (String.ofList r.text)).map Token.bare = r.line.stream := by
    rw [scanned, List.map_reverse, bare, List.reverse_reverse]
  rw [measure_fold_bare, stripped, result_fold_stream]
  rfl

end Remainder

/-- Solving an expression leads to the measure that what is left of it folds to. -/
theorem measure_solve (config : Config) (expression : String) :
    (solve config expression).result.measure
      = (scan (Resolution.ofExpression config.maxBracketIterations.toNat
          expression).expression).fold.result.measure := by
  unfold solve
  dsimp only
  split
  · split <;> rfl
  · rfl

/-- Solving a chain whose operands stand for canonical measures folds what is left of it. -/
theorem Chain.measure_solve_spell (chain : Chain) {measure : Nat → Operand → Measure}
    (canonical : AllStandFor measure chain.leaves) (config : Config) :
    (solve config (String.ofList (chain.spell (.ofMeasures measure)))).result.measure
      = (measures.fold (chain.remainder measure config.maxBracketIterations.toNat).line).value := by
  have sound := chain.sound_remainder canonical config.maxBracketIterations.toNat
  have resolved := chain.expression_remainder canonical [] [] (by simp)
    config.maxBracketIterations.toNat
  simp only [List.nil_append, List.append_nil] at resolved
  rw [measure_solve, resolved, sound.expression, sound.measure_fold_scan]

/-- Lines with the same operators between related values stay so when they are joined. -/
theorem RestRelated.append {α β : Type} {R : α → β → Prop} {as as' : List (Operator × α)}
    {bs bs' : List (Operator × β)} (first : RestRelated R as bs) (second : RestRelated R as' bs') :
    RestRelated R (as ++ as') (bs ++ bs') := by
  induction first with
  | nil => exact second
  | cons operator head _ ih => exact .cons operator head ih

/-- Two remainders of the same shape, with related measures. -/
structure Remainder.Related (R : Measure → Measure → Prop) (r s : Remainder) : Prop where
  first : R r.line.first s.line.first
  rest : RestRelated R r.line.rest s.line.rest
  budget : r.budget = s.budget

section Related

variable {R : Measure → Measure → Prop} (first second : Nat → Operand → Measure)

mutual

/-- Operands that stand for related measures leave related measures of a part. -/
theorem Part.remainder_related (related : measures.Related measures R) :
    ∀ part : Part, (∀ leaf ∈ part.spell .leaves, R (first leaf.1 leaf.2) (second leaf.1 leaf.2)) →
      ∀ budget : Nat, (part.remainder first budget).Related R (part.remainder second budget)
  | .operand index o, agree, budget =>
    ⟨agree (index, o) (by simp [Part.spell, Spelling.leaves]), .nil, rfl⟩
  | .bracket inside, agree, budget => by
    have inner := inside.remainder_related related (fun leaf member =>
      agree leaf (by simpa [Part.spell, Spelling.leaves] using member)) budget
    have count := inner.budget
    simp only [Part.remainder]
    -- Both brackets are resolved, or none of them is.
    cases left : (inside.remainder second budget).budget with
    | zero =>
      rw [left] at count
      simp only [count]
      exact ⟨inner.first, inner.rest, rfl⟩
    | succ spare =>
      rw [left] at count
      simp only [count]
      exact ⟨related.bracket (related.step.fold inner.first inner.rest), .nil, rfl⟩

/-- Operands that stand for related measures leave related measures of a chain. -/
theorem Chain.remainder_related (related : measures.Related measures R) :
    ∀ chain : Chain,
      (∀ leaf ∈ chain.spell .leaves, R (first leaf.1 leaf.2) (second leaf.1 leaf.2)) →
      ∀ budget : Nat, (chain.remainder first budget).Related R (chain.remainder second budget)
  | .last part, agree, budget => part.remainder_related related agree budget
  | .more part operator rest, agree, budget => by
    have left := part.remainder_related related (fun leaf member =>
      agree leaf (by simp [Chain.spell, member])) budget
    have right := rest.remainder_related related (fun leaf member =>
      agree leaf (by simp [Chain.spell, member])) (part.remainder second budget).budget
    simp only [Chain.remainder, left.budget]
    exact ⟨left.first, left.rest.append (.cons operator right.first right.rest), right.budget⟩

end

end Related

end PlusMinus
