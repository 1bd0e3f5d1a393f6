import Mathlib.Data.List.Forall2
import PlusMinus.Proofs.Fault
import PlusMinus.Proofs.Numeral.Denoted
import PlusMinus.Proofs.Stream.RoundTrip
import PlusMinus.Proofs.Tree.Basic
import PlusMinus.Stream.Rows

/-! The stream of accepted rows, and what becomes of it when it is read again from its
expression. -/

namespace PlusMinus

open Literal

/-- What an accepted value row says about its operand. -/
structure Operand.Entered (value bound : Entry) (o : Operand) : Prop where
  value : value.toFigure = .ok o.value
  uncertainty : o.uncertainty = .exact ∨ bound.toFigure = .ok o.uncertainty
  openBrackets : 0 ≤ o.openBrackets
  closeBrackets : 0 ≤ o.closeBrackets

/-- An operand that is accepted is the entered one. -/
theorem Operand.entered_of_ofEntries {value bound : Entry} {openBrackets closeBrackets : Int}
    {o : Operand} (found : ofEntries value bound openBrackets closeBrackets = .ok o) :
    o.Entered value bound := by
  simp only [ofEntries, Fault.refused_eq_ok, Fault.bind_eq_ok] at found
  obtain ⟨_, v, valueRead, _, found⟩ := found
  -- A blank or missing bound is the one of an exact value.
  have accepted : ∃ u, (u = .exact ∨ bound.toFigure = .ok u)
      ∧ ¬ (openBrackets < 0 ∨ closeBrackets < 0)
      ∧ o = { value := v, uncertainty := u, openBrackets, closeBrackets } := by
    split at found <;> simp only [Fault.refused_eq_ok, Fault.bind_eq_ok] at found
    · obtain ⟨u, exact, _, _, brackets, found⟩ := found
      cases exact
      cases found
      exact ⟨.exact, .inl rfl, brackets, rfl⟩
    · obtain ⟨u, read, _, _, brackets, found⟩ := found
      cases found
      exact ⟨u, .inr read, brackets, rfl⟩
  obtain ⟨u, boundRead, brackets, rfl⟩ := accepted
  exact ⟨valueRead, boundRead, by dsimp only; omega, by dsimp only; omega⟩

instance (m : Measure) : Decidable m.Readable :=
  decidable_of_iff (IsSigned m.value.digits.toList ∧ IsUnsigned m.uncertainty.digits.toList
      ∧ (Double.ofText m.value.digits).Alike m.value.magnitude
      ∧ (Double.ofText m.uncertainty.digits).Alike m.uncertainty.magnitude)
    ⟨fun ⟨value, uncertainty, valueRead, uncertaintyRead⟩ =>
        ⟨value, uncertainty, valueRead, uncertaintyRead⟩,
      fun readable =>
        ⟨readable.value, readable.uncertainty, readable.valueRead, readable.uncertaintyRead⟩⟩

namespace Row

/-- A row without a ready-made operand. -/
def Plain (row : Row) : Prop := ∀ o, row ≠ .operand o

/-- The value and the bound of a row that gives them in fields or cells. -/
def entries? : Row → Option (Entry × Entry)
  | .fields row => some (row.value, row.uncertainty)
  | .cells [_, value, uncertainty, _] => some (value, uncertainty)
  | _ => none

/-- A row that is accepted gives an operand where one is expected, or else an operator. -/
theorem cases_toToken {row : Row} {afterOperand : Bool} {token : Token}
    (found : row.toToken afterOperand = .ok token) :
    (afterOperand = false ∧ ∃ o, token = .operand o
        ∧ (row = .operand o ∨ ∃ value bound, row.entries? = some (value, bound)
          ∧ o.Entered value bound))
      ∨ (afterOperand = true ∧ ∃ operator, token = .operator operator) := by
  -- Whatever form an operand has, it is accepted only where one is expected.
  have read {operand : Except Fault Operand}
      (found : (do
        let o ← operand
        if afterOperand then throw .missingOperator
        pure (.operand o) : Except Fault Token) = .ok token) :
      afterOperand = false ∧ ∃ o, token = .operand o ∧ operand = .ok o := by
    simp only [Fault.bind_eq_ok, Fault.refused_eq_ok] at found
    obtain ⟨o, given, expected, found⟩ := found
    cases found
    exact ⟨by simpa using expected, o, rfl, given⟩
  -- Both forms of a value row are checked in the same way.
  have entered {row : ValueRow} {o : Operand} (found : row.toOperand = .ok o) :
      o.Entered row.value row.uncertainty := by
    simp only [ValueRow.toOperand, Fault.bind_eq_ok] at found
    obtain ⟨_, _, _, _, found⟩ := found
    exact Operand.entered_of_ofEntries found
  -- The cases are the forms of a row: an operator, fields, cells, and a ready-made operand.
  unfold toToken at found
  dsimp only at found
  split at found
  · split at found
    · cases found
    · split at found
      · rename_i behind
        cases found
        exact .inr ⟨behind, _, rfl⟩
      · cases found
  · obtain ⟨expected, o, rfl, given⟩ := read found
    exact .inl ⟨expected, o, rfl, .inr ⟨_, _, rfl, entered given⟩⟩
  · obtain ⟨expected, o, rfl, given⟩ := read found
    exact .inl ⟨expected, o, rfl, .inr ⟨_, _, rfl, entered given⟩⟩
  · cases found
  · obtain ⟨expected, _, rfl, given⟩ := read found
    cases given
    exact .inl ⟨expected, _, rfl, .inl rfl⟩
  · cases found

end Row

namespace Token

/-- A token read again from the digits of its figures. -/
def reread : Token → Token
  | .operand o => .operand { o with toMeasure := o.toMeasure.reread }
  | token => token

/-- The same operator, or operands with the same digits and the same brackets, whose numbers are
equal but for the sign of a zero. -/
inductive Alike : Token → Token → Prop
  | operand {o p : Operand} (measure : o.toMeasure.Alike p.toMeasure)
      (openBrackets : o.openBrackets = p.openBrackets)
      (closeBrackets : o.closeBrackets = p.closeBrackets) : Alike (.operand o) (.operand p)
  | operator (operator : Operator) : Alike (.operator operator) (.operator operator)

end Token

namespace Stream

/-- Accepted rows go on with an operator behind an operand, and with an operand behind an
operator. -/
theorem alternates_ofRowsAfter {rows : List Row} {last : Option Token} {stream : Stream}
    (accepted : ofRowsAfter last rows = .ok stream) :
    (∀ o, last = some (.operand o) → Alternates (.operand o :: stream))
      ∧ (last.any (·.isOperand) = false → last = none ∧ stream = [] ∨ stream.Alternates) := by
  -- What is expected next depends on the row before, and so does what the rest has to be.
  induction rows generalizing last stream with
  | nil =>
    unfold ofRowsAfter at accepted
    split at accepted
    · cases accepted
    · rename_i finished
      cases accepted
      refine ⟨fun o _ => .last o, fun expected => .inl ⟨?_, rfl⟩⟩
      cases last with
      | none => rfl
      | some token => simp_all
  | cons row rows ih =>
    simp only [ofRowsAfter, Fault.bind_eq_ok] at accepted
    obtain ⟨token, read, rest, later, accepted⟩ := accepted
    cases accepted
    obtain ⟨behind, ahead⟩ := ih later
    -- The token decides which of the two facts about the rest is the one to go on with.
    rcases Row.cases_toToken read with ⟨expected, o, rfl, _⟩ | ⟨joined, operator, rfl⟩
    · refine ⟨?_, fun _ => .inr (behind o rfl)⟩
      rintro first rfl
      cases expected
    · refine ⟨fun o _ => ?_, fun expected => by rw [joined] at expected; cases expected⟩
      rcases ahead rfl with ⟨nothing, _⟩ | alternates
      · cases nothing
      · exact .more o operator alternates

/-- The stream of accepted rows is empty or alternates. -/
theorem alternates_ofRows {rows : List Row} {stream : Stream}
    (accepted : ofRows rows = .ok stream) : stream = [] ∨ stream.Alternates :=
  ((alternates_ofRowsAfter accepted).2 rfl).imp And.right id

/-- Every operand of accepted rows stands in one of them. -/
theorem exists_row {rows : List Row} {last : Option Token} {stream : Stream}
    (accepted : ofRowsAfter last rows = .ok stream) {o : Operand} (member : .operand o ∈ stream) :
    ∃ row ∈ rows, row = .operand o
      ∨ ∃ value bound, row.entries? = some (value, bound) ∧ o.Entered value bound := by
  -- Each row gives one token, which is the operand or stands before it.
  induction rows generalizing last stream with
  | nil =>
    unfold ofRowsAfter at accepted
    split at accepted
    · cases accepted
    · cases accepted
      cases member
  | cons row rows ih =>
    simp only [ofRowsAfter, Fault.bind_eq_ok] at accepted
    obtain ⟨token, read, rest, later, accepted⟩ := accepted
    cases accepted
    rcases List.mem_cons.1 member with rfl | member
    · rcases Row.cases_toToken read with ⟨_, p, same, given⟩ | ⟨_, operator, other⟩
      · cases same
        exact ⟨row, by simp, given⟩
      · cases other
    · obtain ⟨found, listed, given⟩ := ih later member
      exact ⟨found, by simp [listed], given⟩

/-- Reading the figures of an alternating stream again keeps it alternating. -/
theorem Alternates.reread {stream : Stream} (alternates : stream.Alternates) :
    Alternates (stream.map Token.reread) := by
  induction alternates with
  | last o => exact .last _
  | more o operator _ ih => exact .more _ operator ih

/-- A stream of readable operands has the same expression when its figures are read again. -/
theorem render_reread {stream : Stream}
    (readable : ∀ o, .operand o ∈ stream → o.toMeasure.Readable) :
    render (stream.map Token.reread) = stream.render := by
  have same : ∀ index, textFrom (fun _ o => o.bracketed) index (stream.map Token.reread)
      = textFrom (fun _ o => o.bracketed) index stream := by
    induction stream with
    | nil => intro index; rfl
    | cons token rest ih =>
      intro index
      have later := ih fun o member => readable o (by simp [member])
      -- Only the figures are read again, so that an operand stays one.
      have text : token.reread.textWith (fun o => o.bracketed)
          = token.textWith (fun o => o.bracketed)
          ∧ token.reread.isOperand = token.isOperand := by
        cases token with
        | operand o =>
          have written := (readable o (by simp)).text_reread
          refine ⟨?_, rfl⟩
          simp only [Token.reread, Token.textWith, Operand.bracketed, Operand.bracket, written]
        | operator operator => exact ⟨rfl, rfl⟩
        | word text => exact ⟨rfl, rfl⟩
      rw [List.map_cons, textFrom, textFrom, text.1, text.2, later]
  exact same 0

/-- The expression of a stream of readable operands is read as the stream with its figures read
again. -/
theorem scan_render_reread {stream : Stream} (alternates : stream.Alternates)
    (readable : ∀ o, .operand o ∈ stream → o.toMeasure.Readable)
    (brackets : ∀ o, .operand o ∈ stream → 0 ≤ o.openBrackets ∧ 0 ≤ o.closeBrackets) :
    scan stream.render = stream.map Token.reread := by
  rw [← render_reread readable]
  refine Canonical.scan_render ⟨alternates.reread, fun p member => ?_⟩
  -- An operand read again is canonical, and its brackets are those that it had.
  obtain ⟨token, listed, same⟩ := List.mem_map.1 member
  cases token with
  | operand o =>
    cases same
    exact ⟨(readable o listed).canonical_reread, (brackets o listed).1, (brackets o listed).2⟩
  | operator operator => cases same
  | word text => cases same

/-- A stream of readable operands is like the one with its figures read again. -/
theorem alike_reread {stream : Stream} (alternates : stream.Alternates)
    (readable : ∀ o, .operand o ∈ stream → o.toMeasure.Readable) :
    List.Forall₂ Token.Alike (stream.map Token.reread) stream := by
  -- Rereading keeps operators and brackets, and readable figures denote what they did.
  induction alternates with
  | last o => exact .cons (.operand (readable o (by simp)).reread_alike rfl rfl) .nil
  | more o operator _ ih =>
    have later := ih fun o member => readable o (by simp [member])
    exact .cons (.operand (readable o (by simp)).reread_alike rfl rfl)
      (.cons (.operator operator) later)

/-- A stream that is like one of canonical operands has readable ones. -/
theorem readable_of_alike {read stream : Stream} (alike : List.Forall₂ Token.Alike read stream)
    (canonical : ∀ o, .operand o ∈ read → o.Canonical) {p : Operand}
    (member : .operand p ∈ stream) :
    p.toMeasure.Readable := by
  induction alike with
  | nil => cases member
  | cons head _ ih =>
    rcases List.mem_cons.1 member with rfl | member
    · -- The digits are those of a canonical operand, and so they denote its numbers.
      cases head with
      | @operand o _ measure _ _ =>
        have read := (canonical o (by simp)).measure.written.readable
        refine ⟨?_, ?_, ?_, ?_⟩
        · exact measure.valueDigits ▸ read.value
        · exact measure.uncertaintyDigits ▸ read.uncertainty
        · exact measure.valueDigits ▸ read.valueRead.trans measure.value
        · exact measure.uncertaintyDigits ▸ read.uncertaintyRead.trans measure.uncertainty
    · exact ih (fun o listed => canonical o (by simp [listed])) member

/-- The expression of accepted rows is read as the operands that were entered exactly if their
digits are in the grammar of literals, the bound without a sign, and denote the numbers that stand
beside them. -/
theorem scan_render_ofRows {rows : List Row} {stream : Stream} (accepted : ofRows rows = .ok stream)
    (plain : ∀ row ∈ rows, row.Plain) :
    List.Forall₂ Token.Alike (scan stream.render) stream
      ↔ ∀ o ∈ stream.operands, o.toMeasure.Readable := by
  constructor
  · -- Whatever is scanned is canonical, so only readable operands can be like it.
    intro alike o member
    refine readable_of_alike alike (fun p listed => ?_) (mem_operands.1 member)
    rcases canonical_scan stream.render with nothing | canonical
    · rw [nothing] at listed
      cases listed
    · exact canonical.operands p listed
  -- Readable operands are written in the grammar, so the text is read as they were written.
  · intro readable
    have measures : ∀ o, .operand o ∈ stream → o.toMeasure.Readable :=
      fun o member => readable o (mem_operands.2 member)
    have brackets : ∀ o, .operand o ∈ stream → 0 ≤ o.openBrackets ∧ 0 ≤ o.closeBrackets := by
      intro o member
      obtain ⟨row, listed, same | ⟨_, _, _, entered⟩⟩ := exists_row accepted member
      · exact absurd same (plain row listed o)
      · exact ⟨entered.openBrackets, entered.closeBrackets⟩
    rcases alternates_ofRows accepted with rfl | alternates
    · simp [scan, render, textFrom, scanFrom, dropOperator]
    · rw [scan_render_reread alternates measures brackets]
      exact alike_reread alternates measures

-- A sign is no part of a bound, though it denotes the same number with one.
example : ¬ Measure.Readable ⟨.ofText "5", .ofText "+0.3"⟩ := by decide +kernel

/-- A product of a typed value with a bound and an exact one, in brackets, is read as it was
entered. -/
theorem scan_render_ofRows_product :
    ∃ rows stream, rows = [.cells [.integer 1, .text " 2", .text "0.1", .integer 0], .operator "×",
        .fields { value := .text "-3", closeBrackets := .integer 1 }]
      ∧ ofRows rows = .ok stream ∧ (∀ row ∈ rows, row.Plain)
      ∧ (List.Forall₂ Token.Alike (scan stream.render) stream
        ↔ ∀ o ∈ stream.operands, o.toMeasure.Readable)
      ∧ ∀ o ∈ stream.operands, o.toMeasure.Readable := by
  -- Blanks around a typed value are not part of its digits.
  have accepted : ofRows [.cells [.integer 1, .text " 2", .text "0.1", .integer 0], .operator "×",
        .fields { value := .text "-3", closeBrackets := .integer 1 }]
      = .ok [.operand { value := .ofText "2", uncertainty := .ofText "0.1", openBrackets := 1 },
        .operator .mul,
          .operand { value := .ofText "-3", uncertainty := .exact, closeBrackets := 1 }] := by
    decide +kernel
  have plain : ∀ row ∈ [Row.cells [.integer 1, .text " 2", .text "0.1", .integer 0], .operator "×",
      .fields { value := .text "-3", closeBrackets := .integer 1 }], row.Plain := by
    simp [Row.Plain]
  exact ⟨_, _, rfl, accepted, plain, scan_render_ofRows accepted plain, by decide +kernel⟩

/-- A bound with a sign is accepted, but its sign is read as an operator behind an exact value. -/
theorem scan_render_signed_bound :
    ∃ stream, ofRows [.cells [.integer 0, .text "5", .text "+0.3", .integer 0]] = .ok stream
      ∧ (∀ row ∈ [Row.cells [.integer 0, .text "5", .text "+0.3", .integer 0]], row.Plain)
      ∧ stream.length = 1
      ∧ scan stream.render = [.operand { value := .ofText "5", uncertainty := .exact },
        .operator .add, .operand { value := .ofText "0.3", uncertainty := .exact }] := by
  refine ⟨[.operand { value := .ofText "5", uncertainty := .ofText "+0.3" }], ?_, ?_, rfl, ?_⟩
  · decide +kernel
  · simp [Row.Plain]
  · decide +kernel

end Stream

end PlusMinus
