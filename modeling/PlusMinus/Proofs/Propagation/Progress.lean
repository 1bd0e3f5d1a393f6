import PlusMinus.Proofs.Propagation.Line
import PlusMinus.Proofs.Text.Depth

/-! Progress in resolving brackets: every pass takes one opening bracket out of the expression,
whatever the expression is, and the limit cuts the passes off only where an opening bracket is
left. -/

namespace PlusMinus

open PlusMinus.Stream Text

namespace Bracket

/-- A bracket of a text without another one in it; one that is never closed stops where it
starts. -/
inductive Innermost : List Char → Bracket → Prop
  | closed (before inside after : List Char) (depth : Nat)
      (bracketless : ∀ c ∈ inside, c ≠ '(' ∧ c ≠ ')') :
      Innermost (before ++ '(' :: (inside ++ ')' :: after))
        ⟨before.length, before.length + 1 + inside.length, depth⟩
  | unclosed (before after : List Char) (depth : Nat)
    (bracketless : ∀ c ∈ after, c ≠ '(' ∧ c ≠ ')') :
      Innermost (before ++ '(' :: after) ⟨before.length, before.length, depth⟩

/-- Where a search stands behind a text: it found no bracket and is not inside one either, or no
bracket follows the deepest one that it found, and that one is still open. -/
def Stands (front : List Char) (depth : Int) (start deepest : Nat) : Prop :=
  (deepest = 0 ∧ depth ≤ 0)
    ∨ ∃ before inside, front = before ++ '(' :: inside ∧ start = before.length
      ∧ depth = (deepest : Int) ∧ 0 < deepest ∧ ∀ c ∈ inside, c ≠ '(' ∧ c ≠ ')'

namespace Stands

variable {front : List Char} {depth : Int} {start deepest : Nat}
    (stands : Stands front depth start deepest)

include stands

/-- An opening bracket that is deeper than all before it is the deepest one now. -/
theorem opening_deeper (deeper : (deepest : Int) < depth + 1) :
    Stands (front ++ ['(']) (depth + 1) front.length (deepest + 1) := by
  refine .inr ⟨front, [], by simp, rfl, ?_, by omega, by simp⟩
  rcases stands with ⟨_, _⟩ | ⟨_, _, _, _, _, _, _⟩ <;> omega

/-- An opening bracket that is not deeper leaves the search outside. -/
theorem opening_outside (outer : ¬ (deepest : Int) < depth + 1) :
    Stands (front ++ ['(']) (depth + 1) start deepest := by
  rcases stands with ⟨none, _⟩ | ⟨_, _, _, _, same, _, _⟩
  · exact .inl ⟨none, by omega⟩
  · omega

/-- A closing bracket that is not that of the deepest one leaves the search outside. -/
theorem closing_outside (outer : ¬ (depth = deepest ∧ 0 < deepest)) :
    Stands (front ++ [')']) (depth - 1) start deepest := by
  rcases stands with ⟨none, _⟩ | ⟨_, _, _, _, same, positive, _⟩
  · exact .inl ⟨none, by omega⟩
  · exact absurd ⟨same, positive⟩ outer

/-- A character that is no bracket changes nothing. -/
theorem plain {c : Char} (bracketless : c ≠ '(' ∧ c ≠ ')') :
    Stands (front ++ [c]) depth start deepest := by
  rcases stands with outside | ⟨before, inside, rfl, rfl, same, positive, without⟩
  · exact .inl outside
  · refine .inr ⟨before, inside ++ [c], by simp, rfl, same, positive, fun d member => ?_⟩
    rcases List.mem_append.1 member with member | member
    · exact without d member
    · exact List.mem_singleton.1 member ▸ bracketless

/-- The deepest bracket is an innermost one when it is closed, since it was opened last. -/
theorem closed (deep : depth = deepest ∧ 0 < deepest) (rest : List Char) :
    Innermost (front ++ ')' :: rest) ⟨start, front.length, deepest⟩ := by
  rcases stands with ⟨none, _⟩ | ⟨before, inside, rfl, rfl, _, _, bracketless⟩
  · omega
  · have whole : before ++ '(' :: inside ++ ')' :: rest
        = before ++ '(' :: (inside ++ ')' :: rest) := by simp
    -- The closing bracket stands behind the opening one and what is between them.
    have stop : (before ++ '(' :: inside).length = before.length + 1 + inside.length := by
      simp only [List.length_append, List.length_cons]
      omega
    rw [whole, stop]
    exact .closed _ _ _ _ bracketless

/-- At the end of the text the deepest bracket, if there is one, is an innermost one that stays
open. -/
theorem unclosed (some : deepest ≠ 0) : Innermost front ⟨start, start, deepest⟩ := by
  rcases stands with ⟨none, _⟩ | ⟨before, inside, rfl, rfl, _, _, bracketless⟩
  · exact absurd none some
  · exact .unclosed _ _ _ bracketless

end Stands

/-- What a search finds behind a text is an innermost bracket of the whole. -/
theorem innermost_of_search {front text : List Char} {depth : Int} {start deepest : Nat}
    {bracket : Bracket} (stands : Stands front depth start deepest)
    (found : search front.length depth start deepest text = some bracket) :
    Innermost (front ++ text) bracket := by
  -- The invariant is where the search stands; each character that is read moves behind the front.
  induction text generalizing front depth start deepest with
  | nil =>
    rw [search] at found
    split at found
    · cases found
    · rename_i some
      cases found
      rw [List.append_nil]
      exact stands.unclosed some
  | cons c rest ih =>
    have moved : front ++ c :: rest = (front ++ [c]) ++ rest := by simp
    have length : front.length + 1 = (front ++ [c]).length := by simp
    by_cases opening : c = '('
    · subst opening
      rw [search, length] at found
      rw [moved]
      split at found
      · rename_i deeper
        exact ih (stands.opening_deeper deeper) found
      · rename_i outer
        exact ih (stands.opening_outside outer) found
    by_cases closing : c = ')'
    · subst closing
      rw [search, length] at found
      split at found
      · rename_i deep
        cases found
        exact stands.closed deep rest
      · rename_i outer
        rw [moved]
        exact ih (stands.closing_outside outer) found
    · -- Anything else keeps what was found.
      have bracketless : ∀ d ∈ [c], d ≠ '(' ∧ d ≠ ')' := by simp [opening, closing]
      have passed := search_bracketless bracketless front.length depth start deepest rest
      rw [List.singleton_append, List.length_singleton, length] at passed
      rw [passed] at found
      rw [moved]
      exact ih (stands.plain ⟨opening, closing⟩) found

/-- The bracket that is resolved next is an innermost one, in every expression. -/
theorem innermost_of_innermost? {expression : String} {bracket : Bracket}
    (found : innermost? expression = some bracket) : Innermost expression.toList bracket :=
  @innermost_of_search [] _ 0 0 0 bracket (.inl ⟨rfl, Int.le_refl 0⟩) found

/-- Behind a bracket that was found, a search finds one. -/
theorem isSome_search {deepest : Nat} (positive : 0 < deepest) (position : Nat) (depth : Int)
    (start : Nat) (text : List Char) :
    (search position depth start deepest text).isSome = true := by
  -- The depth that was reached is kept, and at the end of the text it is enough.
  fun_induction search position depth start deepest text with
  | case1 => omega
  | case2 => rfl
  | case3 position depth start deepest rest deeper ih => exact ih (Nat.succ_pos _)
  | case4 position depth start deepest rest _ ih => exact ih positive
  | case5 => rfl
  | case6 position depth start deepest rest _ ih => exact ih positive
  | case7 position depth start deepest c rest _ _ ih => exact ih positive

/-- An expression that opens brackets, and closes none that is not open, has an innermost one. -/
theorem isSome_innermost? {expression : String}
    (closes : (depth? 0 expression.toList).isSome = true) (opens : '(' ∈ expression.toList) :
    (innermost? expression).isSome = true := by
  obtain ⟨before, after, whole, unopened⟩ := List.eq_append_cons_of_mem opens
  -- Before the first opening bracket there is none that could be closed.
  have bracketless : ∀ c ∈ before, c ≠ '(' ∧ c ≠ ')' := by
    refine fun c member => ⟨fun same => unopened (same ▸ member), fun same => ?_⟩
    subst same
    have bound := (isSome_depth?_iff 0 _).1 closes before ⟨_, whole.symm⟩
    have some := List.count_pos_iff.2 member
    rw [List.count_eq_zero.2 unopened] at bound
    omega
  unfold innermost?
  rw [whole, search_bracketless bracketless, search, if_pos (by decide)]
  exact isSome_search (Nat.succ_pos 0) _ _ _ _

/-- Where no bracket is found none is opened, if no bracket is closed that is not open. -/
theorem count_opening_of_none {expression : String} (found : innermost? expression = none)
    (closes : (depth? 0 expression.toList).isSome = true) : expression.toList.count '(' = 0 :=
  List.count_eq_zero.2 (mt (isSome_innermost? closes) (by simp [found]))

/-- Replacing a bracket that is never closed keeps what stands before and behind its sign. -/
theorem replace_unclosed (before after : List Char) (depth : Nat) (text : String) :
    (Bracket.mk before.length before.length depth).replace
      (String.ofList (before ++ '(' :: after)) text
      = String.ofList (before ++ (text.toList ++ after)) := by
  unfold Bracket.replace
  apply String.toList_inj.1
  simp [List.drop_append]

end Bracket

namespace Resolution

/-- One pass: the expression with what a bracket folds to in its place. -/
def pass (expression : String) (bracket : Bracket) : String :=
  bracket.replace expression (scan (bracket.inside expression)).fold.result.measure.text

/-- A pass takes an opening bracket out of an expression, with the closing one behind it if there is
one, and keeps all others. -/
theorem brackets_pass {expression : String} {bracket : Bracket}
    (found : Bracket.innermost? expression = some bracket) :
    ∃ before closing after, (closing = [')'] ∨ closing = [] ∧ after = [])
      ∧ brackets expression.toList = before ++ '(' :: (closing ++ after)
      ∧ brackets (pass expression bracket).toList = before ++ after := by
  -- What is put back holds no brackets.
  have written : ∀ text : String,
      brackets (scan text).fold.result.measure.text.toList = [] :=
    fun text => brackets_bracketless (bracketless_result_scan text)
  have innermost := Bracket.innermost_of_innermost? found
  obtain ⟨text, rfl⟩ : ∃ text, expression = String.ofList text := ⟨_, String.ofList_toList.symm⟩
  rw [String.toList_ofList] at innermost ⊢
  unfold pass
  cases innermost with
  | closed before inside after depth bracketless =>
    refine ⟨brackets before, [')'], brackets after, .inl rfl, ?_, ?_⟩
    · have plain := brackets_bracketless bracketless
      rw [brackets_append, brackets_opening, brackets_append, plain]
      rfl
    · rw [Bracket.replace_eq, String.toList_ofList, brackets_append, brackets_append, written]
      rfl
  | unclosed before after depth bracketless =>
    refine ⟨brackets before, [], [], .inr ⟨rfl, rfl⟩, ?_, ?_⟩
    · rw [brackets_append, brackets_opening, brackets_bracketless bracketless]
      rfl
    · rw [Bracket.replace_unclosed, String.toList_ofList, brackets_append, brackets_append, written,
        brackets_bracketless bracketless]
      rfl

/-- A pass is one round of resolving, and leaves the rest of the limit for the others. -/
theorem ofExpression_pass {expression : String} {bracket : Bracket}
    (found : Bracket.innermost? expression = some bracket) (budget : Nat) :
    (ofExpression (budget + 1) expression).expression
        = (ofExpression budget (pass expression bracket)).expression
      ∧ (ofExpression (budget + 1) expression).stopped
        = (ofExpression budget (pass expression bracket)).stopped
      ∧ (ofExpression (budget + 1) expression).steps
        = .bracket (bracket.inside expression)
          :: (scan (bracket.inside expression)).fold.steps.map .operation
          ++ (ofExpression budget (pass expression bracket)).steps := by
  rw [ofExpression.eq_def, found]
  exact ⟨rfl, rfl, rfl⟩

/-- A pass leaves one opening bracket less. -/
theorem count_opening_pass {expression : String} {bracket : Bracket}
    (found : Bracket.innermost? expression = some bracket) :
    (pass expression bracket).toList.count '(' + 1 = expression.toList.count '(' := by
  obtain ⟨before, closing, after, shape, whole, left⟩ := brackets_pass found
  have first := congrArg (List.count '(') whole
  have second := congrArg (List.count '(') left
  rw [count_opening_brackets] at first second
  -- The closing bracket, if there is one, is none of those that are counted.
  have uncounted : closing.count '(' = 0 := by
    rcases shape with rfl | ⟨rfl, _⟩ <;> rfl
  rw [second, first, List.count_append, List.count_append, List.count_cons_self,
    List.count_append, uncounted]
  omega

/-- A pass closes no bracket that is not open if the expression before it closes none. -/
theorem isSome_depth?_pass {expression : String} {bracket : Bracket}
    (found : Bracket.innermost? expression = some bracket)
    (closes : (depth? 0 expression.toList).isSome = true) :
    (depth? 0 (pass expression bracket).toList).isSome = true := by
  obtain ⟨before, closing, after, shape, whole, left⟩ := brackets_pass found
  rw [← depth?_brackets, whole, depth?_append] at closes
  rw [← depth?_brackets, left, depth?_append]
  -- The depth behind a pair is the depth before it, and behind a single sign no bracket follows.
  cases front : depth? 0 before with
  | none =>
    rw [front] at closes
    cases closes
  | some depth =>
    rw [front] at closes
    rcases shape with rfl | ⟨_, rfl⟩
    · exact closes
    · rfl

end Resolution

namespace Step

/-- Whether a step resolves a bracket. -/
def isBracket : Step → Bool
  | .bracket _ => true
  | _ => false

/-- Whether a step is a note. -/
def isNote : Step → Bool
  | .note _ => true
  | _ => false

/-- Operations are neither. -/
theorem countP_operations {kind : Step → Bool}
    (other : ∀ operation, kind (.operation operation) = false)
    (operations : List Operation) : (operations.map Step.operation).countP kind = 0 := by
  simp [List.countP_eq_zero, other]

end Step

namespace Resolution

/-- Resolving goes on until the limit is reached or no opening bracket is left that is closed
nowhere before it, in every expression: brackets resolved and brackets left are together those there
were. -/
theorem countP_isBracket_add (budget : Nat) (expression : String) :
    (ofExpression budget expression).steps.countP Step.isBracket
        + (ofExpression budget expression).expression.toList.count '('
      = expression.toList.count '(' := by
  induction budget generalizing expression with
  | zero =>
    rw [expression_ofExpression_zero, ofExpression.eq_def]
    cases Bracket.innermost? expression <;> simp [tooMany, Step.isBracket]
  | succ budget ih =>
    cases found : Bracket.innermost? expression with
    | none =>
      rw [ofExpression_none found]
      simp
    | some bracket =>
      -- The step of this pass stands for the bracket that it takes out.
      obtain ⟨same, _, steps⟩ := ofExpression_pass found budget
      have later := ih (pass expression bracket)
      have fewer := count_opening_pass found
      rw [same, steps, List.countP_append, List.countP_cons,
        Step.countP_operations fun _ => rfl]
      simp only [Step.isBracket, if_true]
      omega

/-- Without a limit that is below the number of opening brackets, resolving ends by itself. -/
theorem stopped_of_count_le {budget : Nat} {expression : String}
    (enough : expression.toList.count '(' ≤ budget) :
    (ofExpression budget expression).stopped = false := by
  induction budget generalizing expression with
  | zero =>
    cases found : Bracket.innermost? expression with
    | none => rw [ofExpression_none found]
    | some bracket =>
      -- A bracket that is found is one more than the limit allows.
      have fewer := count_opening_pass found
      omega
  | succ budget ih =>
    cases found : Bracket.innermost? expression with
    | none => rw [ofExpression_none found]
    | some bracket =>
      have fewer := count_opening_pass found
      rw [(ofExpression_pass found budget).2.1]
      exact ih (by omega)

/-- Where no bracket is closed that is not open, brackets are resolved until the limit is reached or
no opening one is left, and the note is made when one is. -/
theorem countP_steps (budget : Nat) {expression : String}
    (closes : (depth? 0 expression.toList).isSome = true) :
    (ofExpression budget expression).steps.countP Step.isBracket
        = min (expression.toList.count '(') budget
      ∧ (ofExpression budget expression).steps.countP Step.isNote
        = (if budget < expression.toList.count '(' then 1 else 0)
      ∧ ((ofExpression budget expression).stopped = true
        ↔ budget < expression.toList.count '(') := by
  induction budget generalizing expression with
  | zero =>
    cases found : Bracket.innermost? expression with
    | none =>
      rw [ofExpression_none found, Bracket.count_opening_of_none found closes]
      simp
    | some bracket =>
      have fewer := count_opening_pass found
      rw [ofExpression.eq_def, found, ← fewer]
      simp [tooMany, Step.isBracket, Step.isNote]
  | succ budget ih =>
    cases found : Bracket.innermost? expression with
    | none =>
      rw [ofExpression_none found, Bracket.count_opening_of_none found closes]
      simp
    | some bracket =>
      obtain ⟨_, stopped, steps⟩ := ofExpression_pass found budget
      obtain ⟨resolved, noted, ended⟩ := ih (isSome_depth?_pass found closes)
      have fewer := count_opening_pass found
      rw [stopped, steps]
      -- The operations of the pass are neither brackets nor notes.
      have plain := @Step.countP_operations Step.isBracket (fun _ => rfl)
      have quiet := @Step.countP_operations Step.isNote (fun _ => rfl)
      simp only [List.countP_append, List.countP_cons, plain, quiet, resolved,
        noted, ended, ← fewer]
      refine ⟨?_, ?_, by omega⟩
      · simp only [Step.isBracket, if_true]
        omega
      · simp [Step.isNote]

end Resolution

/-- Beside what resolving brackets adds to it, the trace of a solution has no brackets and no
notes. -/
theorem countP_trace_solve (config : Config) (expression : String) {kind : Step → Bool}
    (operation : ∀ operation, kind (.operation operation) = false)
    (text : ∀ text afterBrackets, kind (.expression text afterBrackets) = false) :
    (solve config expression).trace.countP kind
      = (Resolution.ofExpression config.maxBracketIterations.toNat expression).steps.countP
        kind := by
  unfold solve
  dsimp only
  simp only [List.cons_append, List.countP_cons, List.countP_append,
    Step.countP_operations operation, text]
  split <;> simp [text]

/-- Resolving brackets makes progress, and the limit on it is honest. Where no front of an
expression has more closing brackets than opening ones, one bracket is resolved for each opening one
as far as the limit allows; one note and one warning say that brackets were left, just when there
are more of them than that. In every expression a pass takes out one opening bracket, and one
closing bracket or none, and keeps the other brackets as they are; so, whatever the expression, a
limit of at least its number of opening brackets is never reached, and no more passes than that are
made. -/
theorem solve_brackets (config : Config) (expression : String) :
    ((∀ front, front <+: expression.toList → front.count ')' ≤ front.count '(') →
      (solve config expression).trace.countP Step.isBracket
          = min (expression.toList.count '(') config.maxBracketIterations.toNat
        ∧ (solve config expression).trace.countP Step.isNote
          = (if config.maxBracketIterations.toNat < expression.toList.count '(' then 1 else 0)
        ∧ (solve config expression).warnings
          = (if config.maxBracketIterations.toNat < expression.toList.count '(' then
              [.bracketsLeft config.maxBracketIterations.toNat
                (Resolution.ofExpression config.maxBracketIterations.toNat expression).expression]
            else []))
      ∧ (∀ bracket, Bracket.innermost? expression = some bracket →
        (∀ budget, (Resolution.ofExpression (budget + 1) expression).expression
            = (Resolution.ofExpression budget (Resolution.pass expression bracket)).expression)
          ∧ ∃ before closing after, (closing = [')'] ∨ closing = [])
            ∧ brackets expression.toList = before ++ '(' :: (closing ++ after)
            ∧ brackets (Resolution.pass expression bracket).toList = before ++ after)
      ∧ ∀ budget, expression.toList.count '(' ≤ budget →
        (Resolution.ofExpression budget expression).stopped = false
          ∧ (Resolution.ofExpression budget expression).steps.countP Step.isBracket
            ≤ expression.toList.count '(' := by
  refine ⟨fun fronts => ?_, fun bracket found => ?_, fun budget enough => ?_⟩
  · -- The steps that count are those of resolving the brackets.
    have closes := (isSome_depth?_iff 0 expression.toList).2 (by simpa using fronts)
    obtain ⟨resolved, noted, ended⟩ :=
      Resolution.countP_steps config.maxBracketIterations.toNat closes
    rw [countP_trace_solve _ _ (fun _ => rfl) fun _ _ => rfl,
      countP_trace_solve _ _ (fun _ => rfl) fun _ _ => rfl]
    refine ⟨resolved, noted, ?_⟩
    unfold solve
    simp only [ended]
  · obtain ⟨before, closing, after, shape, whole, left⟩ := Resolution.brackets_pass found
    exact ⟨fun budget => (Resolution.ofExpression_pass found budget).1, before, closing, after,
      shape.imp_right And.left, whole, left⟩
  · -- Brackets resolved and brackets left add up to those there were.
    have total := Resolution.countP_isBracket_add budget expression
    exact ⟨Resolution.stopped_of_count_le enough, by omega⟩

/-- With one bracket to resolve, the second of two is left, even though it is never closed. -/
theorem solve_brackets_unclosed :
    (∀ front, front <+: "(1±0-(2±0)".toList → front.count ')' ≤ front.count '(')
      ∧ (solve { maxBracketIterations := 1 } "(1±0-(2±0)").trace.countP Step.isBracket = 1
      ∧ (solve { maxBracketIterations := 1 } "(1±0-(2±0)").trace.countP Step.isNote = 1
      ∧ (solve { maxBracketIterations := 1 } "(1±0-(2±0)").warnings
        = [.bracketsLeft 1 (Resolution.ofExpression 1 "(1±0-(2±0)").expression] := by
  have closes : (depth? 0 "(1±0-(2±0)".toList).isSome = true := by decide
  have fronts := (isSome_depth?_iff 0 _).1 closes
  simp only [Nat.zero_add] at fronts
  exact ⟨fronts, (solve_brackets { maxBracketIterations := 1 } "(1±0-(2±0)").1 fronts⟩

end PlusMinus
