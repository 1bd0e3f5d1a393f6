import PlusMinus.Proofs.Stream.Splice
import PlusMinus.Proofs.Tree.Basic

/-! Canonical expressions are read piece by piece, and they have the brackets of their streams. -/

namespace PlusMinus

open Literal Text

namespace Text

/-- Opening brackets make a text deeper by their number. -/
theorem depth?_openings (count depth : Nat) (rest : List Char) :
    depth? depth (List.replicate count '(' ++ rest) = depth? (depth + count) rest := by
  induction count generalizing depth with
  | zero => rfl
  | succ count ih =>
    rw [List.replicate_succ, List.cons_append, depth?_opening, ih]
    congr 1
    omega

/-- Closing brackets end as many open ones. -/
theorem depth?_closings {count depth : Nat} (opened : count ≤ depth) (rest : List Char) :
    depth? depth (List.replicate count ')' ++ rest) = depth? (depth - count) rest := by
  -- One bracket fewer is closed at a depth that is one smaller.
  induction count generalizing depth with
  | zero => rfl
  | succ count ih =>
    obtain ⟨outer, rfl⟩ := Nat.exists_eq_add_of_le' (Nat.lt_of_lt_of_le (Nat.succ_pos count) opened)
    rw [List.replicate_succ, List.cons_append, depth?_closing, ih (by omega)]
    congr 1
    omega

end Text

namespace Stream

/-- Where a text is read as pieces, a measure that reads back is read as an operand in front of what
no number goes on with. -/
theorem Reads.measure {m : Measure} (written : m.Written) {rest : List Char} (stops : Stops rest)
    {pieces : List Piece} (reads : Reads true rest pieces) :
    Reads false (m.text.toList ++ rest) (.operand m.reread :: pieces) := by
  have found := ofText?_of_grammar written.value written.uncertainty stops
  -- The text of a measure is one literal with a bound.
  have text : m.text.toList ++ rest
      = m.value.digits.toList ++ '±' :: (m.uncertainty.digits.toList ++ rest) := by
    simp [Measure.text]
  have measure :
      ((Literal.mk m.value.digits.toList (some m.uncertainty.digits.toList) rest).toOperand
      0).toMeasure = m.reread := by
    simp [Literal.toOperand, Measure.reread]
  rw [text, ← measure]
  exact .operand found reads

/-- Opening brackets are pieces where an operand is expected. -/
theorem Reads.openings {rest : List Char} {pieces : List Piece} (reads : Reads false rest pieces)
    (count : Nat) :
    Reads false (List.replicate count '(' ++ rest) (List.replicate count .opening ++ pieces) := by
  induction count with
  | zero => exact reads
  | succ count ih => exact .opening ih

/-- No number goes on behind closing brackets if none does behind what follows them. -/
theorem stops_closings {rest : List Char} (stops : Stops rest) (count : Nat) :
    Stops (List.replicate count ')' ++ rest) := by
  cases count with
  | zero => exact stops
  | succ count =>
    intro c first
    cases first
    decide

/-- Closing brackets are pieces behind an operand. -/
theorem Reads.closings {rest : List Char} {pieces : List Piece} (stops : Stops rest)
    (reads : Reads true rest pieces) (count : Nat) :
    Reads true (List.replicate count ')' ++ rest) (List.replicate count .closing ++ pieces) := by
  induction count with
  | zero => exact reads
  | succ count ih => exact .closing (stops_closings stops count) ih

/-- A canonical operand is read with its brackets where an operand is expected. -/
theorem Reads.bracketed {o : Operand} (canonical : o.Canonical) (index : Nat) {rest : List Char}
    (stops : Stops rest) {pieces : List Piece} (reads : Reads true rest pieces) :
    ∃ pieces, Reads false (Spelling.written.bracketed index o ++ rest) pieces := by
  have closed := reads.closings stops o.closeBrackets.toNat
  have measure := Reads.measure canonical.measure.written
    (stops_closings stops o.closeBrackets.toNat) closed
  rw [Spelling.written, Spelling.bracketed_characters, List.append_assoc, List.append_assoc]
  exact ⟨_, measure.openings o.openBrackets.toNat⟩

/-- The spelling of a canonical stream is read as pieces. -/
theorem Canonical.exists_reads {stream : Stream} (canonical : stream.Canonical) :
    ∃ pieces, Reads false stream.render.toList pieces := by
  obtain ⟨alternates, operands⟩ := canonical
  rw [toList_render alternates]
  -- The induction is on the alternating tokens, and each operand has the next index.
  generalize 0 = index
  induction alternates generalizing index with
  | last o => exact Reads.bracketed (operands o (by simp)) index stops_nil (.nothing true)
  | @more o operator rest alternates ih =>
    obtain ⟨pieces, later⟩ := ih (fun o member => operands o (by simp [member])) (index + 1)
    exact Reads.bracketed (operands o (by simp)) index (stops_operator operator _)
      (.operator operator.ofChar?_symbol later)

/-- Every expression that a scanned text is written as fits. -/
theorem fits_render_scan (text : String) : fits false (scan text).render.toList = true := by
  rcases canonical_scan text with nothing | canonical
  · rw [nothing]
    exact (Reads.nothing false).fits
  · obtain ⟨pieces, reads⟩ := canonical.exists_reads
    exact reads.fits

/-- The depth behind the spelling of a canonical stream is counted along its operands. -/
theorem depth?_spell {stream : Stream} (alternates : stream.Alternates)
    (operands : ∀ o, .operand o ∈ stream → o.Canonical) (index : Nat) {depth behind : Nat}
    (found : depthFrom? depth stream.operands = some behind) :
    depth? depth (stream.spell .written index) = some behind := by
  -- Each operand opens its brackets, has none in its measure, and closes no more than are open.
  have bracketed : ∀ (o : Operand), o.Canonical → ∀ (index depth : Nat),
      o.closeBrackets.toNat ≤ depth + o.openBrackets.toNat → ∀ rest : List Char,
      depth? depth (Spelling.written.bracketed index o ++ rest)
        = depth? (depth + o.openBrackets.toNat - o.closeBrackets.toNat) rest := by
    intro o canonical index depth opened rest
    rw [Spelling.written, Spelling.bracketed_characters, List.append_assoc, List.append_assoc,
      depth?_openings, depth?_append, depth?_bracketless canonical.measure.bracketless,
      Option.bind_some, depth?_closings opened]
  induction alternates generalizing index depth with
  | last o =>
    rw [operands_operand, depthFrom?] at found
    split at found
    · rename_i opened
      rw [spell, bracketed o (operands o (by simp)) index depth opened]
      exact found
    · cases found
  | @more o operator rest alternates ih =>
    rw [operands_operand, operands_operator, depthFrom?] at found
    split at found
    · rename_i opened
      have later := ih (fun o member => operands o (by simp [member])) (index + 1) found
      rw [spell, bracketed o (operands o (by simp)) index depth opened, spell, depth?_append]
      cases operator <;> exact later
    · cases found

/-- The expression of a canonical stream is balanced if the stream is. -/
theorem Canonical.balanced_render {stream : Stream} (canonical : stream.Canonical)
    (balanced : stream.Balanced) : Text.Balanced stream.render.toList := by
  unfold Text.Balanced
  rw [toList_render canonical.alternates]
  exact depth?_spell canonical.alternates canonical.operands 0 balanced

/-- The expression of a canonical stream opens the brackets of its operands. -/
theorem Canonical.count_render {stream : Stream} (canonical : stream.Canonical) :
    stream.render.toList.count '(' = stream.openings := by
  obtain ⟨alternates, operands⟩ := canonical
  rw [toList_render alternates]
  generalize 0 = index
  -- No measure and no operator is written with a bracket.
  have bracketed : ∀ (o : Operand), o.Canonical → ∀ index : Nat,
      (Spelling.written.bracketed index o).count '(' = o.openBrackets.toNat := by
    intro o canonical index
    have none : o.toMeasure.text.toList.count '(' = 0 :=
      List.count_eq_zero.2 fun member => (canonical.measure.bracketless _ member).1 rfl
    rw [Spelling.written, Spelling.bracketed_characters, List.count_append, List.count_append, none]
    simp [List.count_replicate]
  induction alternates generalizing index with
  | last o =>
    rw [spell, List.count_append, bracketed o (operands o (by simp))]
    simp [spell, openings]
  | @more o operator rest alternates ih =>
    have later := ih (fun o member => operands o (by simp [member])) (index + 1)
    have symbol : (Spelling.written.sign operator).count '(' = 0 := by cases operator <;> decide
    rw [spell, List.count_append, bracketed o (operands o (by simp)), spell,
      List.count_append, symbol, later]
    simp [openings]

end Stream

end PlusMinus
