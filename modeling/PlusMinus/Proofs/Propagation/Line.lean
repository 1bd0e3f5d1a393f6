import PlusMinus.Proofs.Propagation.Remainder

/-! The line of measures of an alternating stream: a stream is folded like its line, whatever
brackets are counted with its operands. -/

namespace PlusMinus

namespace Line

variable {α : Type}

/-- The operators of a line in reading order. -/
def operators (line : Line α) : List Operator := line.rest.map (·.1)

end Line

namespace Stream

/-- The operators of a stream in reading order. -/
def operators (stream : Stream) : List Operator :=
  stream.filterMap fun token => match token with
    | .operator operator => some operator
    | _ => none

/-- The measures of an alternating stream with the operators between them. -/
def line? : Stream → Option (Line Measure)
  | [.operand o] => some ⟨o.toMeasure, []⟩
  | .operand o :: .operator operator :: rest =>
    (line? rest).map fun later => ⟨o.toMeasure, (operator, later.first) :: later.rest⟩
  | _ => none

/-- An alternating stream has a line of measures, with the operators of the stream, and what holds
of the measures of all its operands holds along the line. -/
theorem Alternates.exists_line {stream : Stream} (alternates : stream.Alternates) :
    ∃ line, stream.line? = some line ∧ stream.map Token.bare = line.stream
      ∧ line.operators = stream.operators
      ∧ ∀ kept : Measure → Prop, (∀ o, .operand o ∈ stream → kept o.toMeasure) → line.All kept := by
  -- The line of the rest gets the new operand in front, and its first measure goes behind the
  -- operator.
  induction alternates with
  | last o => exact ⟨⟨o.toMeasure, []⟩, rfl, rfl, rfl, fun kept all => ⟨all o (by simp), by simp⟩⟩
  | more o operator alternates ih =>
    obtain ⟨line, found, bare, same, all⟩ := ih
    refine ⟨⟨o.toMeasure, (operator, line.first) :: line.rest⟩, ?_, ?_, ?_, ?_⟩
    · rw [line?, found]
      rfl
    · rw [List.map_cons, List.map_cons, bare]
      rfl
    · exact congrArg (operator :: ·) same
    · intro kept listed
      have later := all kept fun p member => listed p (by simp [member])
      refine ⟨listed o (by simp), fun pair member => ?_⟩
      rcases List.mem_cons.1 member with rfl | member
      · exact later.first
      · exact later.rest pair member

/-- The values of the line of a stream are the measures of its operands, in order. -/
theorem values_of_line? {stream : Stream} {line : Line Measure} (found : stream.line? = some line) :
    line.first :: line.rest.map (·.2) = stream.operands.map (·.toMeasure) := by
  -- The line is read from two tokens at a time, each pair with one operand.
  fun_induction line? stream generalizing line with
  | case1 o =>
    cases found
    rfl
  | case2 o operator rest ih =>
    obtain ⟨later, behind, same⟩ := Option.map_eq_some_iff.1 found
    subst same
    exact congrArg (o.toMeasure :: ·) (ih behind)
  | case3 => cases found

/-- A fold of a stream does the operations of the fold of its line. -/
theorem fold_of_bare {stream : Stream} {line : Line Measure}
    (bare : stream.map Token.bare = line.stream) :
    stream.fold.products = (measures.fold line).products
      ∧ stream.fold.sums = (measures.fold line).sums
      ∧ stream.fold.remaining.map Token.bare
        = [.operand { toMeasure := (measures.fold line).value }] := by
  -- Neither loop looks at brackets, so that they may be left out before as well as behind.
  have folded := fold_stream line
  rw [← bare] at folded
  unfold fold at folded ⊢
  rw [foldProducts_bare] at folded
  dsimp only at folded ⊢
  rw [foldSums_bare] at folded
  exact ⟨congrArg Folding.products folded, congrArg Folding.sums folded,
    congrArg Folding.remaining folded⟩

/-- The result of a stream is that of its line, whatever brackets are counted with its operands. -/
theorem result_of_bare {stream : Stream} {line : Line Measure}
    (bare : stream.map Token.bare = line.stream) :
    stream.fold.result = (measures.fold line).propagated := by
  obtain ⟨products, sums, remaining⟩ := fold_of_bare bare
  -- The one token that is left is an operand with the measure of the line.
  obtain ⟨token, left, same⟩ := List.map_eq_singleton_iff.1 remaining
  cases token with
  | operand o =>
    have measure : o.toMeasure = (measures.fold line).value :=
      congrArg Operand.toMeasure (Token.operand.inj same)
    unfold Folding.result
    rw [left]
    simp only [Folding.steps, products, sums, measure, Folded.propagated, List.length_append]
  | operator operator => cases same
  | word text => cases same

/-- What a text comes to, whatever brackets it has, reads back but for the sign of a zero. -/
theorem written_result_scan (text : String) : (scan text).fold.result.measure.Written := by
  rcases canonical_scan text with nothing | canonical
  · -- Without an operand there is no result, which is written as two words.
    have undefined : (fold []).result.measure = .undefined := by
      simp [fold, foldProducts, foldSums, Folding.result]
    rw [nothing, undefined]
    exact @Measure.written_ofDouble .nan .nan rfl
  · -- The measures of a canonical stream fold to one that reads back from its text.
    obtain ⟨line, _, bare, _, all⟩ := canonical.alternates.exists_line
    rw [result_of_bare bare]
    exact measures_keeps_written.fold
      (all Measure.Written fun o member => (canonical.operands o member).measure.written)

/-- What a text comes to is written without brackets. -/
theorem bracketless_result_scan (text : String) :
    ∀ c ∈ (scan text).fold.result.measure.text.toList, c ≠ '(' ∧ c ≠ ')' := by
  have written := written_result_scan text
  rw [← written.text_reread]
  exact written.canonical_reread.bracketless

end Stream

end PlusMinus
