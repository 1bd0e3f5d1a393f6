import PlusMinus.Proofs.Measure.Canonical
import PlusMinus.Proofs.Stream.Spelling

/-! A stream that was read from a text reads back from its expression. -/

namespace PlusMinus

open Literal Text

namespace Stream

/-- An alternating stream of canonical operands. -/
structure Canonical (stream : Stream) : Prop where
  alternates : stream.Alternates
  operands : ∀ o, .operand o ∈ stream → o.Canonical

/-- A character that starts no literal is taken by itself. -/
theorem scanFrom_symbol {tokens : List Token} {pending : Nat} {c : Char} {rest : List Char}
    (symbol : literalAt? tokens (c :: rest) = none) :
    scanFrom tokens pending (c :: rest)
      = scanFrom (scanSymbol tokens pending c).1 (scanSymbol tokens pending c).2 rest := by
  -- The scanner looks for a literal first, and there is none.
  rw [scanFrom]
  split
  · rename_i found
    rw [symbol] at found
    cases found
  · rfl

/-- A character that neither a number nor a sign starts with is no literal, wherever it stands. -/
theorem literalAt?_eq_none (tokens : List Token) (c : Char) (rest : List Char)
    (other : isDecimal c = false) (unlike : c ∉ ['.', '+', '-', 'I', 'N']) :
    literalAt? tokens (c :: rest) = none := by
  unfold literalAt?
  split
  · rfl
  · exact Literal.ofText?_eq_none rest other unlike

/-- An operator that is no sign of a number starts no literal. -/
theorem ofText?_operator {c : Char} {operator : Operator}
    (read : Operator.ofChar? c = some operator) (unsigned : c ≠ '+' ∧ c ≠ '-')
    (rest : List Char) : Literal.ofText? (c :: rest) = none := by
  unfold Operator.ofChar? at read
  -- The other signs are no digits, no points and no words.
  split at read
  · exact absurd rfl unsigned.1
  · exact absurd rfl unsigned.2
  · exact Literal.ofText?_eq_none rest (by decide) (by decide)
  · exact Literal.ofText?_eq_none rest (by decide) (by decide)
  · exact Literal.ofText?_eq_none rest (by decide) (by decide)
  · exact Literal.ofText?_eq_none rest (by decide) (by decide)
  · cases read

/-- The operator behind an operand is never part of a literal. -/
theorem literalAt?_operator {c : Char} {operator : Operator}
    (read : Operator.ofChar? c = some operator) (o : Operand) (older : List Token)
    (rest : List Char) : literalAt? (.operand o :: older) (c :: rest) = none := by
  unfold literalAt?
  split
  · rfl
  · -- Behind an operand no sign is looked for.
    rename_i unsigned
    exact ofText?_operator read
      (by simpa [endsInOperand, Token.isOperand, Token.operand?] using unsigned) rest

/-- A literal is read as an operand where one is expected, and dropped behind another one. -/
theorem scanFrom_literal {tokens : List Token} {text : List Char} {literal : Literal}
    (read : literalAt? tokens text = some literal) (pending : Nat) :
    scanFrom tokens pending text
      = if endsInOperand tokens then scanFrom tokens 0 literal.rest
        else scanFrom (.operand (literal.toOperand pending) :: tokens) 0 literal.rest := by
  -- A text with a literal at its front is not empty.
  obtain ⟨c, rest, rfl⟩ : ∃ c rest, text = c :: rest := by
    cases text with
    | nil => exact absurd (literalAt?_rest_length read) (Nat.not_lt_zero _)
    | cons c rest => exact ⟨c, rest, rfl⟩
  rw [scanFrom]
  split
  · rename_i other same
    rw [read] at same
    cases same
    rfl
  · rename_i none
    rw [read] at none
    cases none

/-- Opening brackets where an operand is expected wait for it. -/
theorem scanFrom_opening {tokens : List Token} (expected : endsInOperand tokens = false)
    (count pending : Nat) (rest : List Char) :
    scanFrom tokens pending (List.replicate count '(' ++ rest)
      = scanFrom tokens (pending + count) rest := by
  -- A bracket is no literal, and it is counted until an operand comes.
  induction count generalizing pending with
  | zero => rfl
  | succ count ih =>
    have symbol := literalAt?_eq_none tokens '(' (List.replicate count '(' ++ rest)
      (by decide) (by decide)
    have step : scanSymbol tokens pending '(' = (tokens, pending + 1) := by
      unfold scanSymbol
      split
      · cases expected
      · rfl
    rw [List.replicate_succ, List.cons_append, scanFrom_symbol symbol, step, ih]
    congr 1
    omega

/-- Closing brackets behind an operand are counted with it. -/
theorem scanFrom_closing (o : Operand) (older : List Token) (count pending : Nat)
    (rest : List Char) :
    scanFrom (.operand o :: older) pending (List.replicate count ')' ++ rest)
      = scanFrom (.operand { o with closeBrackets := o.closeBrackets + count } :: older)
          pending rest := by
  -- Each bracket raises the count of the operand before it.
  induction count generalizing o with
  | zero => simp
  | succ count ih =>
    have symbol := literalAt?_eq_none (.operand o :: older) ')'
      (List.replicate count ')' ++ rest) (by decide) (by decide)
    have step : scanSymbol (.operand o :: older) pending ')'
        = (.operand { o with closeBrackets := o.closeBrackets + 1 } :: older, pending) := rfl
    have total : o.closeBrackets + 1 + (count : Int) = o.closeBrackets + (count + 1 : Nat) := by
      omega
    rw [List.replicate_succ, List.cons_append, scanFrom_symbol symbol, step, ih]
    simp only [total]

/-- An operator behind an operand is read as such. -/
theorem scanFrom_operator {c : Char} {operator : Operator}
    (read : Operator.ofChar? c = some operator) (o : Operand) (older : List Token)
    (pending : Nat) (rest : List Char) :
    scanFrom (.operand o :: older) pending (c :: rest)
      = scanFrom (.operator operator :: .operand o :: older) pending rest := by
  have step : scanSymbol (.operand o :: older) pending c
      = (.operator operator :: .operand o :: older, pending) := by
    simp [scanSymbol, read]
  rw [scanFrom_symbol (literalAt?_operator read o older rest), step]

/-- A canonical measure is read where an operand is expected. -/
theorem scanFrom_measure {tokens : List Token} (expected : endsInOperand tokens = false)
    {m : Measure} (canonical : m.Canonical) (pending : Nat) {rest : List Char}
    (stops : Stops rest) :
    scanFrom tokens pending (m.text.toList ++ rest)
      = scanFrom (.operand { toMeasure := m, openBrackets := pending } :: tokens) 0 rest := by
  -- The digits of a canonical measure are a literal with a bound.
  have text : m.text.toList ++ rest
      = m.value.digits.toList ++ '±' :: (m.uncertainty.digits.toList ++ rest) := by
    simp [Measure.text]
  have found := ofText?_of_grammar canonical.value canonical.uncertainty stops
  have literal : literalAt? tokens (m.text.toList ++ rest)
      = some ⟨m.value.digits.toList, some m.uncertainty.digits.toList, rest⟩ := by
    rw [text, literalAt?, expected]
    exact found
  have operand :
      (Literal.mk m.value.digits.toList (some m.uncertainty.digits.toList) rest).toOperand
      pending = { toMeasure := m, openBrackets := pending } := by
    simp [Literal.toOperand, canonical.valueRead, canonical.uncertaintyRead]
  rw [scanFrom_literal literal, expected, if_neg (by decide), operand]

/-- An operator or nothing ends a number. -/
theorem stops_operator (operator : Operator) (rest : List Char) :
    Stops (operator.symbol :: rest) := by
  intro c first
  cases first
  cases operator <;> decide

/-- A canonical operand is read with its brackets where an operand is expected. -/
theorem scanFrom_operand {tokens : List Token} (expected : endsInOperand tokens = false)
    {o : Operand} (canonical : o.Canonical) (index : Nat) {rest : List Char}
    (stops : Stops rest) :
    scanFrom tokens 0 (Spelling.written.bracketed index o ++ rest)
      = scanFrom (.operand o :: tokens) 0 rest := by
  -- Whatever follows the measure, a closing bracket or the rest, stops its uncertainty.
  have closed : Stops (List.replicate o.closeBrackets.toNat ')' ++ rest) := by
    cases o.closeBrackets.toNat with
    | zero => exact stops
    | succ count =>
      intro c first
      cases first
      decide
  have opens := canonical.openBrackets
  have closes := canonical.closeBrackets
  have spelled : Spelling.written.bracketed index o ++ rest
      = List.replicate o.openBrackets.toNat '('
        ++ (o.toMeasure.text.toList ++ (List.replicate o.closeBrackets.toNat ')' ++ rest)) := by
    simp [Spelling.written, Spelling.bracketed_characters]
  rw [spelled, scanFrom_opening expected, scanFrom_measure expected canonical.measure _ closed,
    scanFrom_closing]
  -- The brackets that were written are counted again, since neither count is negative.
  congr 3
  obtain ⟨m, openBrackets, closeBrackets⟩ := o
  simp only at opens closes
  simp [Int.toNat_of_nonneg opens, Int.toNat_of_nonneg closes]

/-- Scanning the spelling of a canonical stream reads its tokens. -/
theorem scanFrom_spell {stream : Stream} (alternates : stream.Alternates)
    (canonical : ∀ o, .operand o ∈ stream → o.Canonical) (tokens : List Token)
    (expected : endsInOperand tokens = false) (index : Nat) :
    scanFrom tokens 0 (stream.spell .written index) = stream.reverse ++ tokens := by
  -- Each round reads an operand and the operator behind it.
  induction alternates generalizing tokens index with
  | last o =>
    have read := scanFrom_operand expected (canonical o (by simp)) index stops_nil
    rw [List.append_nil] at read
    simp [spell, read, scanFrom]
  | @more o operator rest _ ih =>
    have read := scanFrom_operand expected (canonical o (by simp)) index
      (stops_operator operator (rest.spell .written (index + 1)))
    have later := ih (fun o member => canonical o (by simp [member]))
      (.operator operator :: .operand o :: tokens) rfl (index + 1)
    simp only [spell, Spelling.written, Spelling.sign_characters, List.singleton_append]
      at read later ⊢
    rw [read, scanFrom_operator operator.ofChar?_symbol, later]
    simp

/-- An alternating stream ends in an operand. -/
theorem Alternates.dropOperator_reverse {stream : Stream} (alternates : stream.Alternates) :
    dropOperator stream.reverse = stream.reverse := by
  -- The newest token of the reversed stream is its last operand.
  have ends : ∃ o older, stream.reverse = .operand o :: older := by
    induction alternates with
    | last o => exact ⟨o, [], rfl⟩
    | more o operator _ ih =>
      obtain ⟨last, older, same⟩ := ih
      exact ⟨last, older ++ [.operator operator, .operand o], by simp [same]⟩
  obtain ⟨o, older, same⟩ := ends
  rw [same]
  rfl

/-- The expression of a canonical stream is read as that stream. -/
theorem Canonical.scan_render {stream : Stream} (canonical : stream.Canonical) :
    scan stream.render = stream := by
  have read := scanFrom_spell canonical.alternates canonical.operands [] rfl 0
  rw [scan, toList_render canonical.alternates, read, List.append_nil,
    canonical.alternates.dropOperator_reverse, List.reverse_reverse]

/-- The newest tokens of a scan: they alternate, and every operand is canonical. -/
inductive Scanned : List Token → Prop
  | nothing : Scanned []
  | operand {older : List Token} {o : Operand} (canonical : o.Canonical)
      (expected : endsInOperand older = false) (scanned : Scanned older) :
      Scanned (.operand o :: older)
  | operator {older : List Token} {operator : Operator} (behind : endsInOperand older = true)
      (scanned : Scanned older) : Scanned (.operator operator :: older)

/-- A character that starts no literal keeps the tokens of a scan in order. -/
theorem Scanned.scanSymbol {tokens : List Token} (scanned : Scanned tokens) (pending : Nat)
    (c : Char) : Scanned (scanSymbol tokens pending c).1 := by
  unfold Stream.scanSymbol
  split
  · -- Behind an operand an operator is read, or a closing bracket is counted with the operand.
    rename_i o older
    split
    · exact .operator rfl scanned
    split
    · exact scanned
    split
    · cases scanned with
      | operand canonical expected scanned =>
        have closes := canonical.closeBrackets
        exact .operand ⟨canonical.measure, canonical.openBrackets, by dsimp only; omega⟩ expected
          scanned
    · exact scanned
  · exact scanned

/-- A scan keeps its tokens in order to the end of the text. -/
theorem Scanned.scanFrom {tokens : List Token} (scanned : Scanned tokens) (pending : Nat)
    (text : List Char) : Scanned (scanFrom tokens pending text) := by
  -- The induction follows the scanner: each step takes a literal or a single character.
  fun_induction Stream.scanFrom tokens pending text with
  | case1 => exact scanned
  | case2 tokens pending c rest literal found shorter behind ih => exact ih scanned
  | case3 tokens pending c rest literal found shorter expected ih =>
    -- A literal only becomes an operand where one is expected.
    unfold literalAt? at found
    split at found
    · cases found
    · exact ih (.operand (Literal.canonical_toOperand found pending) (by simpa using expected)
        scanned)
  | case4 tokens pending c rest found tokens' pending' step ih =>
    have kept := scanned.scanSymbol pending c
    rw [step] at kept
    exact ih kept

/-- What a scan leaves without an operator at its end is nothing or a canonical stream. -/
theorem Scanned.dropOperator {tokens : List Token} (scanned : Scanned tokens) :
    dropOperator tokens = [] ∨ Canonical (dropOperator tokens).reverse := by
  induction scanned with
  | nothing => exact .inl rfl
  | @operand older o canonical expected scanned ih =>
    right
    cases scanned with
    | nothing => exact ⟨.last o, by simpa [Stream.dropOperator] using canonical⟩
    | operand _ _ _ => cases expected
    | @operator older operator behind scanned =>
      -- The stream before the operator is already canonical, and two tokens are added to it.
      have earlier : Canonical older.reverse := ih.resolve_left fun nothing => by
        simp only [Stream.dropOperator] at nothing
        subst nothing
        cases behind
      have spelled : (Stream.dropOperator (.operand o :: .operator operator :: older)).reverse
          = older.reverse ++ [.operator operator, .operand o] := by simp [Stream.dropOperator]
      rw [spelled]
      refine ⟨earlier.alternates.append operator o, fun p member => ?_⟩
      rcases List.mem_append.1 member with member | member
      · exact earlier.operands p member
      · have same : p = o := by simpa using member
        exact same ▸ canonical
  | @operator older operator behind scanned ih =>
    cases scanned with
    | nothing => cases behind
    | operand _ _ _ => exact ih
    | operator _ _ => cases behind

/-- A text is read as nothing or as a canonical stream. -/
theorem canonical_scan (text : String) : scan text = [] ∨ (scan text).Canonical := by
  rcases (Scanned.nothing.scanFrom 0 text.toList).dropOperator with nothing | canonical
  · exact .inl (by simp [scan, nothing])
  · exact .inr canonical

/-- The expression of the stream that any text is read as is read as the same stream. -/
theorem scan_render_scan (text : String) : scan (scan text).render = scan text := by
  -- Every text that is not read as nothing is read as a canonical stream.
  rcases canonical_scan text with nothing | canonical
  · rw [nothing]
    simp [scan, render, textFrom, scanFrom, dropOperator]
  · exact canonical.scan_render

end Stream

end PlusMinus
