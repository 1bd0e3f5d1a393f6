import PlusMinus.Proofs.Propagation.Progress
import PlusMinus.Proofs.Propagation.Trace

/-! What is put in the place of brackets: measures whose uncertainty is never below zero, each
written so that it is read again as the one operand that it is. -/

namespace PlusMinus

open PlusMinus.Stream

/-- An operation on measures that read back, which leads to one. -/
structure Operation.Written (step : Operation) : Prop where
  left : step.left.Written
  right : step.right.Written
  outcome : step.outcome.Written

/-- An operation on measures that read back leads to another one. -/
theorem Operator.written_apply (operator : Operator) {left right : Measure} (first : left.Written)
    (second : right.Written) : (operator.apply left right).Written := by
  obtain ⟨_, front, behind⟩ := operator.apply_keeps left right
  exact ⟨front.symm ▸ first, behind.symm ▸ second,
    operator.written_outcome first.nonnegative second.nonnegative⟩

/-- A measure that reads back is read from its text as a single operand. -/
theorem Measure.Written.scan_text {m : Measure} (written : m.Written) :
    scan m.text = [.operand { toMeasure := m.reread }] := by
  have alone : Line.All Measure.Canonical ⟨m.reread, []⟩ := ⟨written.canonical_reread, by simp⟩
  have read := Stream.scan_text alone
  -- The text of the line is that of the measure, which has the same digits as before.
  simpa [Line.text, Line.restText, Line.stream, Line.restStream, written.text_reread] using read

namespace Stream

/-- Every operation of folding a text is one on measures that read back. -/
theorem written_steps_scan (text : String) : ∀ step ∈ (scan text).fold.steps, step.Written := by
  rcases canonical_scan text with nothing | canonical
  · simp [nothing, fold, foldProducts, foldSums, Folding.steps]
  · -- The operations are those of a line of canonical measures.
    obtain ⟨line, _, bare, _, all⟩ := canonical.alternates.exists_line
    obtain ⟨products, sums, _⟩ := fold_of_bare bare
    rw [Folding.steps, products, sums]
    exact measures_keeps_written.forall_steps
      (fun operator _ _ first second => operator.written_apply first second)
      (all Measure.Written fun o member => (canonical.operands o member).measure.written)

end Stream

/-- The text inside the bracket that a step resolves, if it resolves one. -/
def Step.inside? : Step → Option String
  | .bracket inside => some inside
  | _ => none

/-- Operations resolve no brackets. -/
theorem Step.filterMap_inside? (operations : List Operation) :
    (operations.map Step.operation).filterMap inside? = [] := by
  simp [inside?]

namespace Resolution

/-- From an expression to what is left of it, with the text inside each bracket that was resolved
and the measure whose text took its place. -/
inductive Splices : String → List (String × Measure) → String → Prop
  | nothing (expression : String) : Splices expression [] expression
  | bracket {expression left : String} {bracket : Bracket} {measure : Measure}
      {later : List (String × Measure)} (found : Bracket.innermost? expression = some bracket)
      (rest : Splices (bracket.replace expression measure.text) later left) :
      Splices expression ((bracket.inside expression, measure) :: later) left

/-- Resolving is such a run: its steps show the inside of each bracket with the operations of
folding it, and what is put in the place of the bracket is the measure that these lead to. -/
theorem exists_splices (budget : Nat) (expression : String) :
    ∃ spliced, Splices expression spliced (ofExpression budget expression).expression
      ∧ (ofExpression budget expression).steps.filterMap Step.inside? = spliced.map Prod.fst
      ∧ (ofExpression budget expression).steps.filterMap Step.operation?
        = spliced.flatMap (fun pair => (scan pair.1).fold.steps)
      ∧ ∀ pair ∈ spliced, pair.2 = (scan pair.1).fold.result.measure := by
  induction budget generalizing expression with
  | zero =>
    refine ⟨[], ?_, ?_, ?_, by simp⟩
    · rw [expression_ofExpression_zero]
      exact .nothing expression
    all_goals
      rw [ofExpression.eq_def]
      cases Bracket.innermost? expression <;> rfl
  | succ budget ih =>
    cases found : Bracket.innermost? expression with
    | none =>
      rw [ofExpression_none found]
      exact ⟨[], .nothing expression, rfl, rfl, by simp⟩
    | some bracket =>
      -- The pass comes first, and then the run from what it leaves.
      obtain ⟨spliced, run, insides, operations, measures⟩ := ih (pass expression bracket)
      obtain ⟨same, _, steps⟩ := ofExpression_pass found budget
      have inner := Step.filterMap_inside? (scan (bracket.inside expression)).fold.steps
      refine ⟨(bracket.inside expression, (scan (bracket.inside expression)).fold.result.measure)
        :: spliced, same ▸ .bracket found run, ?_, ?_, List.forall_mem_cons.2 ⟨rfl, measures⟩⟩
      · rw [steps, List.filterMap_append, List.filterMap_cons, inner, insides]
        rfl
      · rw [steps, List.filterMap_append, List.filterMap_cons,
          Step.filterMap_operations, operations]
        rfl

end Resolution

/-- Solving never makes an uncertainty negative, and reads what it has written as what it was. In
every trace the operands and the outcome of each operation, and the result as well, have an
uncertainty that is no number or at least zero. And each measure that is put in the place of a
bracket is read from its text as exactly one operand, with the same digits. -/
theorem solve_splices (config : Config) (expression : String) :
    (∀ step, .operation step ∈ (solve config expression).trace →
      ∀ m ∈ [step.left, step.right, step.outcome],
        m.uncertainty.magnitude.isNaN = true ∨ Double.zero.le m.uncertainty.magnitude = true)
      ∧ ((solve config expression).result.measure.uncertainty.magnitude.isNaN = true
        ∨ Double.zero.le (solve config expression).result.measure.uncertainty.magnitude = true)
      ∧ ∃ spliced, Resolution.Splices expression spliced
          (Resolution.ofExpression config.maxBracketIterations.toNat expression).expression
        ∧ (solve config expression).trace.filterMap Step.inside? = spliced.map Prod.fst
        ∧ ∀ pair ∈ spliced, pair.2 = (scan pair.1).fold.result.measure
          ∧ ∃ n : Measure, scan pair.2.text = [.operand { toMeasure := n }] ∧ n.Alike pair.2 := by
  obtain ⟨spliced, run, insides, operations, measures⟩ :=
    Resolution.exists_splices config.maxBracketIterations.toNat expression
  refine ⟨fun step member => ?_, ?_, spliced, run, ?_, fun pair member => ?_⟩
  · -- An operation is one of a bracket or one of what is left, and all of these read back.
    have listed := mem_trace_solve.1 member
    rw [Resolution.operations, operations] at listed
    have written : step.Written := by
      rcases List.mem_append.1 listed with inner | outer
      · obtain ⟨pair, _, inner⟩ := List.mem_flatMap.1 inner
        exact written_steps_scan pair.1 step inner
      · exact written_steps_scan _ step outer
    have all : ∀ m ∈ [step.left, step.right, step.outcome], m.Written := by
      simpa using ⟨written.left, written.right, written.outcome⟩
    exact fun m among => Double.isNaN_or_zero_le (all m among).nonnegative
  · rw [measure_solve]
    exact Double.isNaN_or_zero_le (written_result_scan _).nonnegative
  · -- The expressions and the operations of the trace have no inside.
    rw [trace_solve config expression rfl, ← insides]
    split <;> simp only [List.filterMap_cons,
      List.filterMap_append, List.filterMap_nil, Step.inside?, Step.filterMap_inside?,
      List.append_nil]
  · have same := measures pair member
    have written : pair.2.Written := same ▸ written_result_scan pair.1
    exact ⟨same, _, written.scan_text, written.reread_alike⟩

end PlusMinus
