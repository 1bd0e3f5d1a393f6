import PlusMinus.Proofs.Propagation.FreeText
import PlusMinus.Proofs.Propagation.Terms

/-! The account of a solution and its result: which steps decide how the result is rounded, and that
every operator of a solved stream is one step. -/

namespace PlusMinus

open PlusMinus.Stream Literal Text

namespace Step

/-- The operation that a step is, if it is one. -/
def operation? : Step → Option Operation
  | .operation done => some done
  | _ => none

/-- The expression that a step shows, if it does. -/
def expression? : Step → Option String
  | .expression text _ => some text
  | _ => none

/-- The operations at the front of a trace. -/
def leading : List Step → List Operation
  | .operation done :: rest => done :: leading rest
  | _ => []

/-- The operations at the end of a trace. -/
def trailing (trace : List Step) : List Operation := (leading trace.reverse).reverse

/-- The operations right behind the last bracket of a trace, if it has one. -/
def lastBracket? : List Step → Option (List Operation)
  | [] => none
  | .bracket _ :: rest => (lastBracket? rest).or (some (leading rest))
  | _ :: rest => lastBracket? rest

/-- The last expression that a trace shows. -/
def remaining? (trace : List Step) : Option String := trace.reverse.findSome? expression?

/-- The operations that decide how a result is rounded: those at the end of the trace, or those of
the last bracket when there are none at the end and a lone operand remains. -/
def deciding (trace : List Step) : List Operation :=
  match lastBracket? trace, remaining? trace with
  | some inner, some text =>
    if trailing trace = [] ∧ (scan text).length = 1 then inner else trailing trace
  | _, _ => trailing trace

/-- The operations in front of other steps are at the front of all of them. -/
theorem leading_append (operations : List Operation) (rest : List Step) :
    leading (operations.map .operation ++ rest) = operations ++ leading rest := by
  induction operations with
  | nil => rfl
  | cons operation operations ih => exact congrArg (operation :: ·) ih

/-- The operations behind a step of another kind are those at the end. -/
theorem trailing_append {front : List Step} (apart : leading front.reverse = [])
    (operations : List Operation) : trailing (front ++ operations.map .operation) = operations := by
  unfold trailing
  rw [List.reverse_append, ← List.map_reverse, leading_append, apart, List.append_nil,
    List.reverse_reverse]

/-- Operations are no brackets. -/
theorem lastBracket?_operations (operations : List Operation) (rest : List Step) :
    lastBracket? (operations.map .operation ++ rest) = lastBracket? rest := by
  induction operations with
  | nil => rfl
  | cons operation operations ih => exact ih

/-- Steps that do not start with an operation add none to those at the front. -/
theorem leading_front (front : List Step) {rest : List Step} (apart : leading rest = []) :
    leading (front ++ rest) = leading front := by
  -- The first step that is no operation ends them, in the front or behind it.
  induction front with
  | nil => exact apart
  | cons step front ih =>
    cases step with
    | operation operation => exact congrArg (operation :: ·) ih
    | expression text afterBrackets => rfl
    | bracket inside => rfl
    | note message => rfl

/-- Steps without a bracket that do not start with an operation leave the last bracket as it is. -/
theorem lastBracket?_append {front rest : List Step} (none : lastBracket? rest = none)
    (apart : leading rest = []) : lastBracket? (front ++ rest) = lastBracket? front := by
  induction front with
  | nil => exact none
  | cons step front ih =>
    cases step with
    | bracket inside =>
      -- The operations behind the bracket end where the other steps start.
      simp only [List.cons_append, lastBracket?, ih, leading_front front apart]
    | expression text afterBrackets => exact ih
    | note message => exact ih
    | operation operation => exact ih

end Step

open Step

/-- A result says of its operations what a list of them says: whether there are products and sums,
the significant figures of the last product and the decimal place of the last sum. -/
structure Accounts (result : Propagated) (operations : List Operation) : Prop where
  usedProduct : result.usedProduct = true ↔ ∃ step ∈ operations, step.operator.isProduct = true
  usedSum : result.usedSum = true ↔ ∃ step ∈ operations, step.operator.isProduct = false
  significantFigures : result.significantFigures
    = (operations.filter (·.operator.isProduct)).getLast?.bind (·.significantFigures)
  decimalPlace : result.decimalPlace
    = (operations.filter (!·.operator.isProduct)).getLast?.bind (·.decimalPlace)

namespace Stream

/-- Folding what a text is read as does one operation for each operator, products before sums. -/
theorem operators_fold_scan (text : String) :
    (scan text).fold.products.map (·.operator) = (scan text).operators.filter (·.isProduct)
      ∧ (scan text).fold.sums.map (·.operator) = (scan text).operators.filter (!·.isProduct) := by
  rcases canonical_scan text with nothing | canonical
  · rw [nothing]
    simp [fold, foldProducts, foldSums, operators]
  · exact canonical.alternates.operators_fold

/-- All operators of a text are among the operations of its fold. -/
theorem perm_fold_scan (text : String) :
    ((scan text).fold.steps.map (·.operator)).Perm (scan text).operators := by
  obtain ⟨products, sums⟩ := operators_fold_scan text
  rw [Folding.steps, List.map_append, products, sums]
  exact List.filter_append_perm _ _

/-- The products are told from the sums among the operations of a fold by their operators. -/
theorem filter_steps_fold_scan (text : String) :
    (scan text).fold.steps.filter (·.operator.isProduct) = (scan text).fold.products
      ∧ (scan text).fold.steps.filter (!·.operator.isProduct) = (scan text).fold.sums := by
  obtain ⟨products, sums⟩ := operators_fold_scan text
  generalize (scan text).fold = folding at products sums ⊢
  have isProduct : ∀ step ∈ folding.products, step.operator.isProduct = true := by
    intro step member
    have listed := List.mem_map_of_mem (f := Operation.operator) member
    rw [products] at listed
    exact (List.mem_filter.1 listed).2
  have isSum : ∀ step ∈ folding.sums, step.operator.isProduct = false := by
    intro step member
    have listed := List.mem_map_of_mem (f := Operation.operator) member
    rw [sums] at listed
    simpa using (List.mem_filter.1 listed).2
  -- Either filter keeps the whole of one part and nothing of the other.
  constructor
  · rw [Folding.steps, List.filter_append, List.filter_eq_self.2 isProduct,
      List.filter_eq_nil_iff.2 fun step member => by simp [isSum step member], List.append_nil]
  · rw [Folding.steps, List.filter_append,
      List.filter_eq_nil_iff.2 fun step member => by simp [isProduct step member],
      List.filter_eq_self.2 fun step member => by simp [isSum step member], List.nil_append]

/-- What a text comes to says of its fold which kinds of operations there are, how many, and what
the last one of each kind decides. -/
theorem exists_result_fold_scan (text : String) :
    ∃ measure, (scan text).fold.result = {
      measure
      usedProduct := !(scan text).fold.products.isEmpty
      usedSum := !(scan text).fold.sums.isEmpty
      significantFigures := (scan text).fold.products.getLast?.bind (·.significantFigures)
      decimalPlace := (scan text).fold.sums.getLast?.bind (·.decimalPlace)
      operations := (scan text).fold.steps.length } := by
  rcases canonical_scan text with nothing | canonical
  · rw [nothing]
    exact ⟨.undefined, by simp [fold, foldProducts, foldSums, Folding.result]⟩
  · -- The fold of an alternating stream leaves an operand at the front.
    obtain ⟨line, _, bare, _, _⟩ := canonical.alternates.exists_line
    obtain ⟨first, second, _⟩ := fold_of_bare bare
    refine ⟨(measures.fold line).value, ?_⟩
    rw [result_of_bare bare, Folding.steps, first, second, List.length_append]
    rfl

/-- What a text comes to accounts for the operations of its fold. -/
theorem accounts_fold_scan (text : String) :
    Accounts (scan text).fold.result (scan text).fold.steps := by
  obtain ⟨measure, result⟩ := exists_result_fold_scan text
  obtain ⟨products, sums⟩ := filter_steps_fold_scan text
  generalize (scan text).fold = folding at products sums result ⊢
  -- There is an operation of a kind when the filter leaves some.
  have some : ∀ kind : Operation → Bool,
      (∃ step ∈ folding.steps, kind step = true) ↔ folding.steps.filter kind ≠ [] := by
    intro kind
    rw [Ne, List.filter_eq_nil_iff]
    simp
  rw [result]
  refine ⟨?_, ?_, by rw [products], by rw [sums]⟩
  · rw [some, products]
    simp
  · have sum := some fun step => !step.operator.isProduct
    rw [sums] at sum
    simp only [Bool.not_eq_true'] at sum
    rw [sum]
    simp

end Stream

namespace Resolution

/-- The last bracket in the steps of a resolution is the one whose result is kept, and without one
there are no steps but a note. -/
theorem lastBracket?_steps (budget : Nat) (expression : String) :
    leading (ofExpression budget expression).steps = []
      ∧ ((ofExpression budget expression).last = none
          ∧ ((ofExpression budget expression).steps = []
            ∨ (ofExpression budget expression).steps = [tooMany])
        ∨ ∃ text, (ofExpression budget expression).last = some (scan text).fold.result
          ∧ lastBracket? (ofExpression budget expression).steps = some (scan text).fold.steps) := by
  induction budget generalizing expression with
  | zero =>
    rw [ofExpression.eq_def]
    cases Bracket.innermost? expression with
    | none => exact ⟨rfl, .inl ⟨rfl, .inl rfl⟩⟩
    | some bracket => exact ⟨rfl, .inl ⟨rfl, .inr rfl⟩⟩
  | succ budget ih =>
    rw [ofExpression.eq_def]
    cases Bracket.innermost? expression with
    | none => exact ⟨rfl, .inl ⟨rfl, .inl rfl⟩⟩
    | some bracket =>
      refine ⟨rfl, .inr ?_⟩
      -- A later bracket takes the place of this one.
      obtain ⟨apart, later⟩ := ih (bracket.replace expression
        (scan (bracket.inside expression)).fold.result.measure.text)
      dsimp only
      rcases later with ⟨none, steps⟩ | ⟨text, last, inner⟩
      · have first : lastBracket? (ofExpression budget (bracket.replace expression
            (scan (bracket.inside expression)).fold.result.measure.text)).steps = Option.none := by
          rcases steps with steps | steps <;> rw [steps] <;> rfl
        refine ⟨bracket.inside expression, by rw [none]; rfl, ?_⟩
        simp only [List.cons_append, lastBracket?, lastBracket?_operations, leading_append, apart,
          first, List.append_nil, Option.none_or]
      · refine ⟨text, by rw [last]; rfl, ?_⟩
        simp only [List.cons_append, lastBracket?, lastBracket?_operations, inner, Option.some_or]

end Resolution

/-- The trace of a solution is that of resolving its brackets, the expression that is left if any
was resolved, and the operations of folding what that is read as. -/
theorem trace_solve (config : Config) (expression : String) {resolution : Resolution}
    (resolved : Resolution.ofExpression config.maxBracketIterations.toNat expression = resolution) :
    (solve config expression).trace
      = (.expression expression false :: (resolution.steps
          ++ if resolution.last.isSome then [.expression resolution.expression true] else []))
        ++ (scan resolution.expression).fold.steps.map .operation := by
  subst resolved
  simp [solve]

/-- The result of a solution is that of folding what is left, which for a lone operand has the
account of the last bracket. -/
theorem result_solve (config : Config) (expression : String) {resolution : Resolution}
    (resolved : Resolution.ofExpression config.maxBracketIterations.toNat expression = resolution) :
    (solve config expression).result = match resolution.last with
      | some inner =>
        if (scan resolution.expression).length = 1
            ∧ (scan resolution.expression).fold.result.operations = 0 then
          { inner with
            measure := (scan resolution.expression).fold.result.measure
            operations := 0 }
        else (scan resolution.expression).fold.result
      | none => (scan resolution.expression).fold.result := by
  subst resolved
  rfl

/-- A result counts all operations of its fold. -/
theorem Folding.operations_result (folding : Folding) :
    folding.result.operations = folding.steps.length := by
  unfold result
  split <;> rfl

/-- Without a bracket the operations at the end decide. -/
theorem Step.deciding_of_none (expression : String) {steps : List Step}
    (unresolved : steps = [] ∨ steps = [Resolution.tooMany]) (operations : List Operation) :
    deciding (.expression expression false :: steps ++ operations.map .operation) = operations := by
  have front : leading (Step.expression expression false :: steps).reverse = [] := by
    rcases unresolved with rfl | rfl <;> rfl
  -- Neither the expression nor the note is a bracket.
  have bracket : lastBracket? (.expression expression false :: steps ++ operations.map .operation)
      = none := by
    have later := lastBracket?_operations operations []
    rw [List.append_nil] at later
    rcases unresolved with rfl | rfl <;> exact later
  unfold deciding
  rw [bracket, trailing_append front]

/-- Behind brackets the operations of the last one decide if a lone operand is left. -/
theorem Step.deciding_of_bracket (expression remaining : String) {steps : List Step}
    {inner : List Operation} (last : lastBracket? steps = some inner)
    (operations : List Operation) :
    deciding (.expression expression false :: (steps ++ [.expression remaining true])
        ++ operations.map .operation)
      = if operations = [] ∧ (scan remaining).length = 1 then inner else operations := by
  have front : leading (Step.expression expression false
      :: (steps ++ [.expression remaining true])).reverse = [] := by simp [leading]
  have bracket :
      lastBracket? (.expression expression false :: (steps ++ [.expression remaining true])
      ++ operations.map .operation) = some inner := by
    -- What comes behind the brackets starts with the expression that is left.
    have later := lastBracket?_operations operations []
    rw [List.append_nil] at later
    have parted := @lastBracket?_append (.expression expression false :: steps)
      (.expression remaining true :: operations.map .operation) later rfl
    rw [← last]
    rw [List.cons_append, List.append_assoc]
    exact parted
  have left : remaining? (.expression expression false :: (steps ++ [.expression remaining true])
      ++ operations.map .operation) = some remaining := by
    have none : (operations.map Step.operation).reverse.findSome? expression? = Option.none := by
      simp [expression?]
    simp only [remaining?, List.reverse_append, List.reverse_cons, List.findSome?_append, none,
      Option.none_or]
    simp [expression?]
  unfold deciding
  rw [bracket, left, trailing_append front]

/-- The account of a solution agrees with its trace: the result says of the operations that led to
it what the operations that decide in the trace say. -/
theorem accounts_deciding (config : Config) (expression : String) :
    Accounts (solve config expression).result (deciding (solve config expression).trace) := by
  -- The last bracket of the steps is the one whose account the result may keep.
  obtain ⟨_, kept⟩ := Resolution.lastBracket?_steps config.maxBracketIterations.toNat expression
  rw [result_solve config expression rfl, trace_solve config expression rfl]
  generalize Resolution.ofExpression config.maxBracketIterations.toNat expression
    = resolution at kept ⊢
  have outer := accounts_fold_scan resolution.expression
  rcases kept with ⟨none, unresolved⟩ | ⟨text, last, bracket⟩
  · simp only [none, Option.isSome_none, Bool.false_eq_true, if_false, List.append_nil]
    rw [deciding_of_none expression unresolved]
    exact outer
  · simp only [last, Option.isSome_some, if_true]
    rw [deciding_of_bracket expression resolution.expression bracket]
    -- The condition on the result is the one on the trace.
    have same : ((scan resolution.expression).length = 1
          ∧ (scan resolution.expression).fold.result.operations = 0)
        ↔ (scan resolution.expression).fold.steps = []
          ∧ (scan resolution.expression).length = 1 := by
      rw [Folding.operations_result, List.length_eq_zero_iff, and_comm]
    by_cases alone : (scan resolution.expression).fold.steps = []
        ∧ (scan resolution.expression).length = 1
    · have inner := accounts_fold_scan text
      rw [if_pos (same.2 alone), if_pos alone]
      exact ⟨inner.usedProduct, inner.usedSum, inner.significantFigures, inner.decimalPlace⟩
    · rw [if_neg (mt same.1 alone), if_neg alone]
      exact outer

/-- The operations of a trace are those that it lists. -/
theorem Step.filterMap_operations (operations : List Operation) :
    (operations.map Step.operation).filterMap operation? = operations := by
  rw [List.filterMap_map]
  exact List.filterMap_some

/-- The operations of resolving brackets and of folding what is left. -/
def Resolution.operations (resolution : Resolution) : List Operation :=
  resolution.steps.filterMap Step.operation? ++ (scan resolution.expression).fold.steps

/-- The operations in the trace of a solution are those of resolving its brackets and those of
folding what is left. -/
theorem operations_solve (config : Config) (expression : String) :
    (solve config expression).trace.filterMap Step.operation?
      = (Resolution.ofExpression config.maxBracketIterations.toNat expression).operations := by
  rw [trace_solve config expression rfl, Resolution.operations]
  -- The expressions that the trace shows are no operations.
  split <;> simp only [List.filterMap_cons, List.filterMap_append,
    List.filterMap_nil, Step.operation?, Step.filterMap_operations, List.append_nil,
    List.cons_append]

/-- An operation is in the trace of a solution just when it is one of resolving and folding the
expression. -/
theorem mem_trace_solve {config : Config} {expression : String} {step : Operation} :
    .operation step ∈ (solve config expression).trace
      ↔ step ∈
        (Resolution.ofExpression config.maxBracketIterations.toNat expression).operations := by
  rw [← operations_solve, List.mem_filterMap]
  -- Other steps than operations are filtered out.
  constructor
  · exact fun member => ⟨.operation step, member, rfl⟩
  · rintro ⟨other, member, same⟩
    cases other with
    | operation done => exact Option.some.inj same ▸ member
    | expression text afterBrackets => cases same
    | bracket inside => cases same
    | note message => cases same

/-- Without a bracket, or with no limit to spend, all operations are those of folding a text. -/
theorem Resolution.operations_unresolved {budget : Nat} {text : List Char}
    (spent : budget = 0 ∨ ∀ c ∈ text, c ≠ '(' ∧ c ≠ ')') :
    (ofExpression budget (String.ofList text)).expression = String.ofList text
      ∧ (ofExpression budget (String.ofList text)).operations
        = (scan (String.ofList text)).fold.steps := by
  -- Either way nothing is resolved: the text stays and no step is made.
  have none : (ofExpression budget (String.ofList text)).expression = String.ofList text
      ∧ (ofExpression budget (String.ofList text)).steps.filterMap operation? = [] := by
    rcases spent with rfl | bracketless
    · refine ⟨expression_ofExpression_zero _, ?_⟩
      rw [ofExpression.eq_def]
      cases Bracket.innermost? (String.ofList text) <;> rfl
    · rw [ofExpression_bracketless bracketless]
      exact ⟨rfl, rfl⟩
  refine ⟨none.1, ?_⟩
  rw [operations, none.1, none.2, List.nil_append]

/-- The operations inside a bracket that is resolved come before all others. -/
theorem Resolves.operations {text inside next : List Char} (resolves : Resolves text inside next)
    (budget : Nat) :
    (Resolution.ofExpression (budget + 1) (String.ofList text)).operations
      = (scan (String.ofList inside)).fold.steps
        ++ (Resolution.ofExpression budget (String.ofList next)).operations := by
  unfold Resolution.operations
  rw [resolves.steps budget, (resolves.follows budget).expression]
  simp only [List.cons_append, List.filterMap_cons, operation?, List.filterMap_append,
    Step.filterMap_operations, List.append_assoc]

namespace Stream

/-- Resolving the brackets of a text that is read as pieces and folding what is left does one
operation for each operator of the text. -/
theorem Reads.perm_steps {text : List Char} {pieces : List Piece} (reads : Reads false text pieces)
    (balanced : Text.Balanced text) {budget : Nat} (within : text.count '(' ≤ budget) :
    ((Resolution.ofExpression budget (String.ofList text)).operations.map (·.operator)).Perm
      (operators (scan (String.ofList text))) := by
  refine Reads.resolve_induction ?_ ?_ reads balanced within
  · -- Without brackets all operations are those of one fold.
    intro text pieces _ _ bracketless budget
    rw [Resolution.ofExpression_bracketless bracketless]
    exact perm_fold_scan _
  · intro text inside next resolves budget rest
    -- The operations inside the bracket come first, and then those of what is left.
    refine List.Perm.trans ?_ resolves.operators.symm
    rw [resolves.operations budget, List.map_append]
    exact (perm_fold_scan _).append rest

end Stream

/-- The trace of a solution accounts for its result. For every expression the result says of the
operations that led to it what the operations that decide in the trace say: those of the fold at the
end, or those of the last bracket when that fold had nothing to do and a lone operand was left. And
for every balanced stream that a text is read as, with no more brackets than may be resolved, the
trace has exactly one operation for each operator of the stream. -/
theorem trace_accounts (config : Config) :
    (∀ expression, Accounts (solve config expression).result
        (deciding (solve config expression).trace))
      ∧ ∀ text, (scan text).Balanced → ((scan text).openings : Int) ≤ config.maxBracketIterations →
        (((solve config (scan text).render).trace.filterMap operation?).map (·.operator)).Perm
          (scan text).operators := by
  refine ⟨accounts_deciding config, fun text balanced within => ?_⟩
  have same : scan (String.ofList (scan text).render.toList) = scan text := by
    rw [String.ofList_toList, scan_render_scan]
  -- The canonical expression is read as pieces, with the brackets of the stream.
  obtain ⟨pieces, reads, written, count⟩ : ∃ pieces, Reads false (scan text).render.toList pieces
      ∧ Text.Balanced (scan text).render.toList
      ∧ (scan text).render.toList.count '(' = (scan text).openings := by
    rcases canonical_scan text with nothing | canonical
    · rw [nothing]
      exact ⟨[], .nothing false, rfl, rfl⟩
    · obtain ⟨pieces, reads⟩ := canonical.exists_reads
      exact ⟨pieces, reads, canonical.balanced_render balanced, canonical.count_render⟩
  have steps := @Reads.perm_steps _ _ reads written config.maxBracketIterations.toNat (by omega)
  rw [same, String.ofList_toList] at steps
  rw [operations_solve]
  exact steps

/-- A product of brackets, each of which has an operation of its own. -/
theorem trace_accounts_brackets :
    (scan "(2±0.1+3)*(8-(4±0.2)/5)").Balanced
      ∧ ((scan "(2±0.1+3)*(8-(4±0.2)/5)").openings : Int) ≤ (default : Config).maxBracketIterations
      ∧ Accounts (solve default "(2±0.1+3)*(8-(4±0.2)/5)").result
        (deciding (solve default "(2±0.1+3)*(8-(4±0.2)/5)").trace)
      ∧ (((solve default (scan "(2±0.1+3)*(8-(4±0.2)/5)").render).trace.filterMap operation?).map
        (·.operator)).Perm (scan "(2±0.1+3)*(8-(4±0.2)/5)").operators :=
  ⟨by decide +kernel, by decide +kernel, (trace_accounts default).1 _,
    (trace_accounts default).2 _ (by decide +kernel) (by decide +kernel)⟩

end PlusMinus
