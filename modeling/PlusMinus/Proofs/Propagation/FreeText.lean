import PlusMinus.Proofs.Propagation.Line
import PlusMinus.Proofs.Stream.Fitting

/-! Solving free text and solving its canonical expression: both resolve the same brackets in the
same order when all brackets of the text stand around operands, and may differ when they do not. -/

namespace PlusMinus

open PlusMinus.Stream Literal Text

namespace Piece

/-- A scan keeps in order what its pieces are that no bracket is. -/
theorem filterMap_place {β : Type} {kept : Token → Option β} {given : Piece → Option β}
    (operand : ∀ o, kept (.operand o) = given (.operand o.toMeasure))
    (operator : ∀ op, kept (.operator op) = given (.operator op)) (opening : given .opening = none)
    (closing : given .closing = none) (pieces : List Piece) (state : List Token × Nat) :
    (pieces.foldl place state).1.reverse.filterMap kept
      = state.1.reverse.filterMap kept ++ pieces.filterMap given := by
  have single : ∀ token, [token].filterMap kept = (kept token).toList := by
    intro token
    cases found : kept token <;> simp [found]
  induction pieces generalizing state with
  | nil => simp
  | cons piece rest ih =>
    -- A bracket changes no more than the brackets of an operand.
    have step : (place state piece).1.reverse.filterMap kept
        = state.1.reverse.filterMap kept ++ (given piece).toList := by
      obtain ⟨tokens, pending⟩ := state
      cases piece with
      | operand m =>
        simp only [place, List.reverse_cons, List.filterMap_append, single, operand]
      | operator op =>
        simp only [place, List.reverse_cons, List.filterMap_append, single, operator]
      | opening => simp [place, opening]
      | closing =>
        cases tokens with
        | nil => simp [place, closing]
        | cons token older =>
          cases token with
          | operand o =>
            simp only [place, closing, List.reverse_cons, List.filterMap_append, single, operand,
              Option.toList_none, List.append_nil]
          | operator op => simp [place, closing]
          | word text => simp [place, closing]
    -- The pieces behind add their own behind that.
    rw [List.foldl_cons, ih, step, List.append_assoc, List.filterMap_cons]
    cases given piece <;> rfl

/-- A scan keeps the operators of its pieces in order. -/
theorem operators_place (pieces : List Piece) (state : List Token × Nat) :
    Stream.operators (pieces.foldl place state).1.reverse
      = Stream.operators state.1.reverse ++ pieces.filterMap operator? :=
  filterMap_place (fun _ => rfl) (fun _ => rfl) rfl rfl pieces state

/-- The measure that a piece is, if it is one. -/
def measure? : Piece → Option Measure
  | .operand m => some m
  | _ => none

/-- A scan keeps the measures of its pieces in order. -/
theorem measures_place (pieces : List Piece) (state : List Token × Nat) :
    (Stream.operands (pieces.foldl place state).1.reverse).map (·.toMeasure)
      = (Stream.operands state.1.reverse).map (·.toMeasure) ++ pieces.filterMap measure? := by
  simp only [Stream.operands, List.map_filterMap]
  exact filterMap_place (fun _ => rfl) (fun _ => rfl) rfl rfl pieces state

/-- Trimming takes no measures off. -/
theorem measures_trim (pieces : List Piece) :
    (trim pieces).filterMap measure? = pieces.filterMap measure? := by
  -- A piece that is taken off is an operator, and that has no measure.
  fun_induction trim pieces with
  | case1 => rfl
  | case2 last operator =>
    cases last with
    | operator op => rfl
    | operand m => cases operator
    | opening => cases operator
    | closing => cases operator
  | case3 => rfl
  | case4 first second rest ih => rw [List.filterMap_cons, ih, ← List.filterMap_cons]

end Piece

namespace Stream

/-- A balanced text that is read as pieces is a stream with their operators, but for one at the
end. -/
theorem Reads.operators_scan {text : List Char} {pieces : List Piece}
    (reads : Reads false text pieces) (balanced : Text.Balanced text) :
    operators (scan (String.ofList text)) = (Piece.trim pieces).filterMap Piece.operator? := by
  have placed := Piece.operators_place (Piece.trim pieces) ([], 0)
  rw [(reads.scan_eq balanced).1, List.reverse_reverse] at placed
  exact placed

/-- A balanced text that is read as pieces is a stream with their measures. -/
theorem Reads.measures_scan {text : List Char} {pieces : List Piece}
    (reads : Reads false text pieces) (balanced : Text.Balanced text) :
    (scan (String.ofList text)).operands.map (·.toMeasure) = pieces.filterMap Piece.measure? := by
  have placed := Piece.measures_place (Piece.trim pieces) ([], 0)
  rw [(reads.scan_eq balanced).1, List.reverse_reverse, Piece.measures_trim] at placed
  exact placed

/-- Where an operand is expected the first piece of a text without brackets is a measure. -/
theorem Reads.measures_ne_nil {text : List Char} {pieces : List Piece}
    (reads : Reads false text pieces)
    (bracketless : ∀ c ∈ text, c ≠ '(' ∧ c ≠ ')') (some : pieces ≠ []) :
    pieces.filterMap Piece.measure? ≠ [] := by
  generalize expected : false = behind at reads
  -- Where an operand is expected, nothing but a literal or what is skipped can come first.
  induction reads with
  | nothing => exact absurd rfl some
  | operand found reads => simp [Piece.measure?]
  | dropped found reads => cases expected
  | operator sign reads => cases expected
  | opening reads => exact absurd rfl (bracketless '(' (by simp)).1
  | closing stops reads => cases expected
  | skipped literal plain sign stays reads ih =>
    exact ih (fun c member => bracketless c (by simp [member])) some expected

end Stream

namespace Text

/-- A text without brackets inside a pair of them may be taken out together with the pair, and
another one put in. -/
theorem Balanced.replaced {before inside after : List Char}
    (balanced : Balanced (before ++ '(' :: (inside ++ ')' :: after)))
    (bracketless : ∀ c ∈ inside, c ≠ '(' ∧ c ≠ ')') {text : List Char}
    (plain : ∀ c ∈ text, c ≠ '(' ∧ c ≠ ')') : Balanced (before ++ (text ++ after)) := by
  unfold Balanced at balanced ⊢
  rw [depth?_append] at balanced ⊢
  obtain ⟨depth, front, behind⟩ := Option.bind_eq_some_iff.1 balanced
  rw [depth?_opening, depth?_append, depth?_bracketless bracketless] at behind
  rw [front, Option.bind_some, depth?_append, depth?_bracketless plain]
  exact behind

/-- Taking a pair of brackets out, with no bracket inside and none put in, leaves one fewer. -/
theorem count_replaced (before after : List Char) {inside text : List Char}
    (bracketless : ∀ c ∈ inside, c ≠ '(' ∧ c ≠ ')') (plain : ∀ c ∈ text, c ≠ '(' ∧ c ≠ ')') :
    (before ++ (text ++ after)).count '(' + 1
      = (before ++ '(' :: (inside ++ ')' :: after)).count '(' := by
  -- Only the bracket itself is counted on one side and not on the other.
  have within : inside.count '(' = 0 :=
    List.count_eq_zero.2 fun member => (bracketless _ member).1 rfl
  have put : text.count '(' = 0 := List.count_eq_zero.2 fun member => (plain _ member).1 rfl
  have closing : (')' == '(') = false := by decide
  simp only [List.count_append, List.count_cons, within, put, closing, beq_self_eq_true, if_true,
    Bool.false_eq_true, if_false]
  omega

/-- A text without brackets is balanced. -/
theorem balanced_of_bracketless {text : List Char} (bracketless : ∀ c ∈ text, c ≠ '(' ∧ c ≠ ')') :
    Balanced text := depth?_bracketless bracketless 0

/-- A balanced text that opens no bracket closes none either. -/
theorem Balanced.bracketless {text : List Char} (balanced : Balanced text) (unopened : '(' ∉ text) :
    ∀ c ∈ text, c ≠ '(' ∧ c ≠ ')' := by
  have count := count_of_depth? balanced
  rw [List.count_eq_zero.2 unopened] at count
  have unclosed : ')' ∉ text := List.count_eq_zero.1 (by omega)
  exact fun c member => ⟨fun same => unopened (same ▸ member), fun same => unclosed (same ▸ member)⟩

end Text

/-- One bracket resolved at the same time in a text and in its canonical expression. -/
structure Resolves (text inside next : List Char) : Prop where
  reads : ∃ pieces, Reads false next pieces
  balanced : Text.Balanced next
  fewer : next.count '(' + 1 = text.count '('
  follows : ∀ budget, (Resolution.ofExpression budget (String.ofList next)).Follows
    (some (scan (String.ofList inside)).fold.result)
    (Resolution.ofExpression (budget + 1) (String.ofList text))
  canonical : ∀ budget, (Resolution.ofExpression budget (scan (String.ofList next)).render).Follows
    (some (scan (String.ofList inside)).fold.result)
    (Resolution.ofExpression (budget + 1) (scan (String.ofList text)).render)
  steps : ∀ budget, (Resolution.ofExpression (budget + 1) (String.ofList text)).steps
    = .bracket (String.ofList inside)
      :: (scan (String.ofList inside)).fold.steps.map .operation
      ++ (Resolution.ofExpression budget (String.ofList next)).steps
  operators : (operators (scan (String.ofList text))).Perm
    (operators (scan (String.ofList inside)) ++ operators (scan (String.ofList next)))
  measures : ∃ front behind, (scan (String.ofList text)).operands.map (·.toMeasure)
      = front ++ ((scan (String.ofList inside)).operands.map (·.toMeasure) ++ behind)
    ∧ (scan (String.ofList next)).operands.map (·.toMeasure)
      = front ++ (scan (String.ofList inside)).fold.result.measure.reread :: behind
  nonempty : scan (String.ofList inside) ≠ []

/-- Resolving the first closed bracket of one expression leads to another one that has the text of
what the bracket folds to in its place. -/
theorem Resolution.follows_toList {whole next : String} {before inside after : List Char}
    (unclosed : ')' ∉ before) (bracketless : ∀ c ∈ inside, c ≠ '(' ∧ c ≠ ')') {result : Propagated}
    (folded : (scan (String.ofList inside)).fold.result = result)
    (split : whole.toList = before ++ '(' :: (inside ++ ')' :: after))
    (replaced : next.toList = before ++ (result.measure.text.toList ++ after)) (budget : Nat) :
    (ofExpression budget next).Follows (some result) (ofExpression (budget + 1) whole) := by
  subst folded
  have follows := follows_bracket after unclosed bracketless budget
  rw [← split, ← replaced, String.ofList_toList, String.ofList_toList] at follows
  exact follows

namespace Stream

/-- A bracket of the pieces of a text is one of the text. -/
theorem Reads.mem_of_spell {behind : Bool} {text : List Char} {pieces : List Piece}
    (reads : Reads behind text pieces) {c : Char} (bracket : c = '(' ∨ c = ')')
    (member : c ∈ Piece.spell pieces) : c ∈ text := by
  have listed := mem_brackets.2 ⟨member, bracket⟩
  rw [reads.brackets_spell] at listed
  exact (mem_brackets.1 listed).1

/-- The pieces of a text without brackets are written without brackets. -/
theorem Reads.bracketless_spell {behind : Bool} {text : List Char} {pieces : List Piece}
    (reads : Reads behind text pieces) (bracketless : ∀ c ∈ text, c ≠ '(' ∧ c ≠ ')') :
    ∀ c ∈ Piece.spell pieces, c ≠ '(' ∧ c ≠ ')' := fun c member =>
  ⟨fun same => (bracketless c (reads.mem_of_spell (.inl same) member)).1 same,
    fun same => (bracketless c (reads.mem_of_spell (.inr same) member)).2 same⟩

/-- A text that is read as pieces and has brackets resolves one of them together with its canonical
expression. -/
theorem Reads.exists_resolves {text : List Char} {pieces : List Piece}
    (reads : Reads false text pieces)
    (balanced : Text.Balanced text) (opens : '(' ∈ text) :
    ∃ inside next, Resolves text inside next := by
  obtain ⟨before, inside, after, rfl, unclosed, bracketless⟩ := balanced.exists_innermost opens
  obtain ⟨front, rest, rfl, opened, replaced⟩ := reads.split_opening
  obtain ⟨within, behind, rfl, inner, outer, stops, trimmed, some⟩ := opened.split_closing
  -- What the inside comes to is read as an operand in the place of the bracket.
  have written := written_result_scan (String.ofList inside)
  have plain := bracketless_result_scan (String.ofList inside)
  have next := replaced _ _ (Reads.measure written stops outer)
  have nextBalanced := balanced.replaced bracketless plain
  have innerBalanced := balanced_of_bracketless bracketless
  -- The canonical expression has the same bracket, between the same pieces.
  have canonical := reads.toList_render_scan balanced
  rw [Piece.trim_append front rfl, Piece.trim_append within rfl] at canonical
  have canonicalNext := next.toList_render_scan nextBalanced
  rw [Piece.trim_append front rfl] at canonicalNext
  have canonicalInside := inner.toList_render_scan innerBalanced
  rw [trimmed] at canonicalInside
  -- Both texts have the same inside in front of the same closing bracket, so one pass over each
  -- comes to the same.
  have unclosedFront : ')' ∉ Piece.spell front := by
    intro member
    have alone := replaced [] [] (.nothing false)
    rw [List.append_nil, List.append_nil] at alone
    exact unclosed (alone.mem_of_spell (.inr rfl) member)
  have same : scan (String.ofList (Piece.spell within)) = scan (String.ofList inside) := by
    rw [← canonicalInside, String.ofList_toList, scan_render_scan]
  refine ⟨inside, _, ⟨_, next⟩, nextBalanced,
    count_replaced before after bracketless plain,
      Resolution.follows_bracket after unclosed bracketless,
    fun budget => ?canonical, fun budget => ?steps, ?operators, ?measures, ?nonempty⟩
  case canonical =>
    simp only [Piece.spell_append, Piece.spell_cons, Piece.text, List.singleton_append,
      written.text_reread] at canonical canonicalNext
    exact Resolution.follows_toList unclosedFront (inner.bracketless_spell bracketless)
      (congrArg (fun stream => stream.fold.result) same) canonical canonicalNext budget
  case steps => rw [Resolution.ofExpression_bracket after unclosed bracketless budget rfl]
  case operators =>
    -- The bracket is an operand of what is left, and its operators stand between those around it.
    rw [reads.operators_scan balanced, next.operators_scan nextBalanced,
      inner.operators_scan innerBalanced, trimmed, Piece.trim_append front rfl,
      Piece.trim_append within rfl, Piece.trim_append front rfl]
    simp only [List.filterMap_append, List.filterMap_cons, Piece.operator?]
    exact List.perm_append_comm_assoc _ _ _
  case measures =>
    refine ⟨front.filterMap Piece.measure?, behind.filterMap Piece.measure?, ?_, ?_⟩
    · rw [reads.measures_scan balanced, inner.measures_scan innerBalanced]
      simp only [List.filterMap_append, List.filterMap_cons, Piece.measure?]
    · rw [next.measures_scan nextBalanced]
      simp only [List.filterMap_append, List.filterMap_cons, Piece.measure?]
  case nonempty =>
    intro nothing
    have none := inner.measures_scan innerBalanced
    rw [nothing] at none
    exact inner.measures_ne_nil bracketless (some rfl) none.symm

/-- What holds of texts in which no bracket is resolved, for want of one or by the limit, and of a
text whenever it holds of what resolving one of its brackets leads to, holds of every text that is
read as pieces, with any limit. -/
@[elab_as_elim]
theorem Reads.limit_induction {motive : List Char → Nat → Prop}
    (unresolved : ∀ text pieces, Reads false text pieces → Text.Balanced text → ∀ budget,
      (budget = 0 ∨ ∀ c ∈ text, c ≠ '(' ∧ c ≠ ')') → motive text budget)
    (resolved : ∀ text inside next, Resolves text inside next → ∀ budget, motive next budget →
      motive text (budget + 1))
    {text : List Char} {pieces : List Piece} (reads : Reads false text pieces)
    (balanced : Text.Balanced text) (budget : Nat) : motive text budget := by
  -- The induction is on the limit: each resolved bracket takes one off, and its text is read as
  -- pieces again.
  induction budget generalizing text pieces with
  | zero => exact unresolved text pieces reads balanced 0 (.inl rfl)
  | succ budget ih =>
    by_cases opens : '(' ∈ text
    · obtain ⟨inside, next, resolves⟩ := reads.exists_resolves balanced opens
      obtain ⟨_, later⟩ := resolves.reads
      exact resolved text inside next resolves budget (ih later resolves.balanced)
    · exact unresolved text pieces reads balanced (budget + 1) (.inr (balanced.bracketless opens))

/-- What holds of texts without brackets, and of a text whenever it holds of what resolving one of
its brackets leads to, holds of every text that is read as pieces, with any limit that its brackets
keep to. -/
@[elab_as_elim]
theorem Reads.resolve_induction {motive : List Char → Nat → Prop}
    (plain : ∀ text pieces, Reads false text pieces → Text.Balanced text →
      (∀ c ∈ text, c ≠ '(' ∧ c ≠ ')') → ∀ budget, motive text budget)
    (resolved : ∀ text inside next, Resolves text inside next → ∀ budget, motive next budget →
      motive text (budget + 1))
    {text : List Char} {pieces : List Piece} (reads : Reads false text pieces)
    (balanced : Text.Balanced text) {budget : Nat} (within : text.count '(' ≤ budget) :
    motive text budget := by
  -- The limit is never reached as long as there are brackets.
  refine Reads.limit_induction (motive := fun text budget => text.count '('
    ≤ budget → motive text budget)
    ?_ ?_ reads balanced budget within
  · rintro text pieces reads balanced budget (rfl | bracketless) within
    · have unopened : '(' ∉ text := List.count_eq_zero.1 (by omega)
      exact plain text pieces reads balanced (balanced.bracketless unopened) 0
    · exact plain text pieces reads balanced bracketless budget
  · intro text inside next resolves budget later within
    have fewer := resolves.fewer
    exact resolved text inside next resolves budget (later (by omega))

/-- Resolving brackets in a text and in its canonical expression goes on side by side, and ends with
the same result of the last bracket and with the same stream. -/
theorem Reads.agree {text : List Char} {pieces : List Piece} (reads : Reads false text pieces)
    (balanced : Text.Balanced text) {budget : Nat} (within : text.count '(' ≤ budget) :
    (Resolution.ofExpression budget (String.ofList text)).last
        = (Resolution.ofExpression budget (scan (String.ofList text)).render).last
      ∧ scan (Resolution.ofExpression budget (String.ofList text)).expression
        = scan (Resolution.ofExpression budget (scan (String.ofList text)).render).expression := by
  refine Reads.resolve_induction ?_ ?_ reads balanced within
  · -- Without brackets there is nothing to resolve on either side.
    intro text pieces reads balanced bracketless budget
    have canonical : ∀ c ∈ (scan (String.ofList text)).render.toList, c ≠ '(' ∧ c ≠ ')' := by
      intro c member
      rw [reads.toList_render_scan balanced] at member
      obtain ⟨piece, kept, written⟩ := List.mem_flatMap.1 member
      exact reads.bracketless_spell bracketless c
        (List.mem_flatMap.2 ⟨piece, Piece.mem_of_trim kept, written⟩)
    have left := Resolution.ofExpression_bracketless canonical budget
    rw [String.ofList_toList] at left
    rw [Resolution.ofExpression_bracketless bracketless, left]
    exact ⟨rfl, (scan_render_scan _).symm⟩
  · -- One bracket is resolved on both sides, to the same result.
    intro text inside next resolves budget ⟨last, streams⟩
    rw [(resolves.follows budget).last, (resolves.canonical budget).last,
      (resolves.follows budget).expression, (resolves.canonical budget).expression, last, streams]
    exact ⟨rfl, rfl⟩

/-- Solving a text leads to the result of solving its canonical expression, and so to the same
digits, if its brackets are balanced, no more of them than may be resolved, and all around operands:
each opens where an operand is expected and closes behind one, nothing in front of it could become
the sign, the first digits or the exponent of a number, and no number goes on behind it. -/
theorem solve_canonical (config : Config) (text : String) (placed : fits false text.toList = true)
    (balanced : Text.Balanced text.toList)
    (within : (text.toList.count '(' : Int) ≤ config.maxBracketIterations) :
    (solve config text).result = (solve config (scan text).render).result := by
  obtain ⟨pieces, reads⟩ := exists_reads_of_fits placed
  -- The result depends on the last bracket and on the stream that is left.
  obtain ⟨last, stream⟩ :=
    @Reads.agree _ _ reads balanced config.maxBracketIterations.toNat (by omega)
  rw [String.ofList_toList] at last stream
  unfold solve
  dsimp only
  rw [last, stream]

/-- Blanks, other signs for products, an operand too many and words between the brackets make no
difference. -/
theorem solve_canonical_noise :
    fits false "about 2 × ( 3±0.1 4 + (5e-1) ÷ 7 ) kg - (+8)".toList = true
      ∧ Text.Balanced "about 2 × ( 3±0.1 4 + (5e-1) ÷ 7 ) kg - (+8)".toList
      ∧ ("about 2 × ( 3±0.1 4 + (5e-1) ÷ 7 ) kg - (+8)".toList.count '(' : Int)
        ≤ (default : Config).maxBracketIterations
      ∧ (solve default "about 2 × ( 3±0.1 4 + (5e-1) ÷ 7 ) kg - (+8)").result
        = (solve default (scan "about 2 × ( 3±0.1 4 + (5e-1) ÷ 7 ) kg - (+8)").render).result :=
  ⟨by decide +kernel, by decide +kernel, by decide +kernel,
    solve_canonical default _ (by decide +kernel) (by decide +kernel) (by decide +kernel)⟩

/-- A number right behind a bracket is dropped when the text is read, but its digits join those of
what the bracket comes to when that is put in its place first. -/
theorem solve_joined_digits :
    Text.Balanced "(2)5".toList ∧ ("(2)5".toList.count '(' : Int)
      ≤ (default : Config).maxBracketIterations
      ∧ (scan "(2)5").render = "(2±0)"
      ∧ (solve default "(2)5").result.measure.uncertainty.digits = "05"
      ∧ (solve default (scan "(2)5").render).result.measure.uncertainty.digits = "0" := by
  decide +kernel

end Stream

end PlusMinus
