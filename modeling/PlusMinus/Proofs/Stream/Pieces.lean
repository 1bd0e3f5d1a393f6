import PlusMinus.Proofs.Numeral.Separator
import PlusMinus.Proofs.Stream.RoundTrip
import PlusMinus.Proofs.Text.Depth

/-! Texts whose brackets all stand around operands: how such a text is read piece by piece, and that
its canonical expression is made of the same pieces. -/

namespace PlusMinus

open Literal Text PlusMinus.Stream

/-- A part of a text that a scan keeps. -/
inductive Piece where
  | operand (measure : Measure)
  | operator (operator : Operator)
  | opening
  | closing
deriving DecidableEq

namespace Piece

/-- The text of a piece in a canonical expression. -/
def text : Piece → List Char
  | .operand m => m.text.toList
  | .operator op => [op.symbol]
  | .opening => ['(']
  | .closing => [')']

/-- The operator that a piece is, if it is one. -/
def operator? : Piece → Option Operator
  | .operator op => some op
  | _ => none

/-- The text of pieces in a canonical expression. -/
def spell (pieces : List Piece) : List Char := pieces.flatMap text

/-- The text of pieces is that of some of them and then of the others. -/
@[simp] theorem spell_append (front rest : List Piece) :
    spell (front ++ rest) = spell front ++ spell rest :=
  List.flatMap_append

/-- The text of a piece comes before that of the others. -/
@[simp] theorem spell_cons (piece : Piece) (rest : List Piece) :
    spell (piece :: rest) = piece.text ++ spell rest := rfl

/-- Pieces without an operator at their end. -/
def trim : List Piece → List Piece
  | [] => []
  | [piece] => if piece.operator?.isSome then [] else [piece]
  | first :: second :: rest => first :: trim (second :: rest)

/-- Adds a piece to the newest tokens of a scan and to the brackets that wait for an operand. -/
def place : List Token × Nat → Piece → List Token × Nat
  | (tokens, pending), .operand m =>
    (.operand { toMeasure := m, openBrackets := pending } :: tokens, 0)
  | (tokens, pending), .operator op => (.operator op :: tokens, pending)
  | (tokens, pending), .opening => (tokens, pending + 1)
  | (.operand o :: older, pending), .closing =>
    (.operand { o with closeBrackets := o.closeBrackets + 1 } :: older, pending)
  | (tokens, pending), .closing => (tokens, pending)

end Piece

namespace Stream

/-- The literal at the front of a text, behind an operand or where one is expected. -/
def literalIn? (behind : Bool) (text : List Char) : Option Literal :=
  if behind && text.head?.any (fun c => c = '+' || c = '-') then none else Literal.ofText? text

/-- A scan looks for a literal by what its newest token is. -/
theorem literalAt?_eq {tokens : List Token} {behind : Bool} (place : endsInOperand tokens = behind)
    (text : List Char) : literalAt? tokens text = literalIn? behind text := by
  rw [← place]
  rfl

/-- A literal takes at least one character, behind an operand and where one is expected. -/
theorem length_of_literalIn? {behind : Bool} {text : List Char} {literal : Literal}
    (found : literalIn? behind text = some literal) : literal.rest.length < text.length := by
  unfold literalIn? at found
  split at found
  · cases found
  · exact Literal.ofText?_rest_length found

/-- Whether a character that is skipped stays so whatever a bracket behind it comes to: where an
operand is expected it may start a number, and behind an operand it may mark an exponent. -/
def skips (behind : Bool) (c : Char) (rest : List Char) : Bool :=
  if behind then !((c = 'e' || c = 'E') && rest.head?.any fun d => d = '+' || d = '-')
  else !(['.', '+', '-', 'I', 'N'].contains c && rest.head?.any fun d => d = '(' || goesOn d)

/-- How a text is read piece by piece, behind an operand or where one is expected. Brackets open
only where an operand is expected and close only behind one, no number goes on behind a closing
bracket, and what is skipped stays so. -/
inductive Reads : Bool → List Char → List Piece → Prop
  | nothing (behind : Bool) : Reads behind [] []
  | operand {text : List Char} {literal : Literal} {pieces : List Piece}
      (found : Literal.ofText? text = some literal) (reads : Reads true literal.rest pieces) :
      Reads false text (.operand (literal.toOperand 0).toMeasure :: pieces)
  | dropped {text : List Char} {literal : Literal} {pieces : List Piece}
      (found : literalIn? true text = some literal) (reads : Reads true literal.rest pieces) :
      Reads true text pieces
  | operator {c : Char} {rest : List Char} {operator : Operator} {pieces : List Piece}
      (sign : Operator.ofChar? c = some operator) (reads : Reads false rest pieces) :
      Reads true (c :: rest) (.operator operator :: pieces)
  | opening {rest : List Char} {pieces : List Piece} (reads : Reads false rest pieces) :
      Reads false ('(' :: rest) (.opening :: pieces)
  | closing {rest : List Char} {pieces : List Piece} (stops : Stops rest)
      (reads : Reads true rest pieces) : Reads true (')' :: rest) (.closing :: pieces)
  | skipped {behind : Bool} {c : Char} {rest : List Char} {pieces : List Piece}
      (literal : literalIn? behind (c :: rest) = none) (plain : c ≠ '(' ∧ c ≠ ')')
      (sign : behind = true → Operator.ofChar? c = none) (stays : skips behind c rest = true)
      (reads : Reads behind rest pieces) : Reads behind (c :: rest) pieces

instance (rest : List Char) : Decidable (Stops rest) :=
  decidable_of_iff (rest.head?.all fun c => !isDecimal c && c != '.' && c != 'e' && c != 'E') (by
    unfold Stops
    cases rest.head? <;> simp [and_assoc])

/-- Whether a text, behind an operand or where one is expected, is read piece by piece to its
end. -/
def fits (behind : Bool) (text : List Char) : Bool :=
  match text with
  | [] => true
  | c :: rest =>
    match found : literalIn? behind (c :: rest) with
    | some literal =>
      have : literal.rest.length ≤ rest.length := Nat.le_of_lt_succ (length_of_literalIn? found)
      fits true literal.rest
    | none =>
      if c = '(' then !behind && fits false rest
      else if c = ')' then behind && decide (Stops rest) && fits true rest
      else if behind && (Operator.ofChar? c).isSome then fits false rest
      else skips behind c rest && fits behind rest
termination_by text.length

/-- A text that fits is read as pieces. -/
theorem exists_reads_of_fits {behind : Bool} {text : List Char} (placed : fits behind text = true) :
    ∃ pieces, Reads behind text pieces := by
  -- Where an operand is expected a literal is one, and behind an operand it is dropped.
  fun_induction fits behind text with
  | case1 behind => exact ⟨[], .nothing behind⟩
  | case2 behind c rest literal found shorter ih =>
    obtain ⟨pieces, reads⟩ := ih placed
    cases behind with
    | true => exact ⟨pieces, .dropped found reads⟩
    | false => exact ⟨_, .operand found reads⟩
  | case3 behind rest literal ih =>
    obtain ⟨expected, later⟩ := Bool.and_eq_true_iff.1 placed
    obtain ⟨pieces, reads⟩ := ih later
    cases behind with
    | true => cases expected
    | false => exact ⟨_, .opening reads⟩
  | case4 behind rest literal _ ih =>
    simp only [Bool.and_eq_true, decide_eq_true_eq] at placed
    obtain ⟨⟨rfl, stops⟩, later⟩ := placed
    obtain ⟨pieces, reads⟩ := ih later
    exact ⟨_, .closing stops reads⟩
  | case5 behind c rest literal opening closing sign ih =>
    obtain ⟨rfl, some⟩ := Bool.and_eq_true_iff.1 sign
    obtain ⟨operator, sign⟩ := Option.isSome_iff_exists.1 some
    obtain ⟨pieces, reads⟩ := ih placed
    exact ⟨_, .operator sign reads⟩
  | case6 behind c rest literal opening closing sign ih =>
    obtain ⟨stays, later⟩ := Bool.and_eq_true_iff.1 placed
    obtain ⟨pieces, reads⟩ := ih later
    refine ⟨pieces, .skipped literal ⟨opening, closing⟩ (fun behind => ?_) stays reads⟩
    simpa [behind] using sign

/-- The text of the tokens of a scan, the newest first, and of the brackets that wait. -/
def spelled (state : List Token × Nat) : List Char :=
  (state.1.reverse.flatMap fun token => (token.textWith Operand.bracketed).toList)
    ++ List.replicate state.2 '('

/-- Brackets may be closed behind the newest token of a scan. -/
def Closable (tokens : List Token) : Prop :=
  ∀ o older, tokens = .operand o :: older → 0 ≤ o.closeBrackets

/-- The expression of a stream is made of the texts of its tokens. -/
theorem toList_render_eq (stream : Stream) :
    stream.render.toList = stream.flatMap fun token =>
      (token.textWith Operand.bracketed).toList := by
  -- The texts of operands do not depend on where they stand.
  have general : ∀ index, (stream.textFrom (fun _ o => o.bracketed) index).toList
      = stream.flatMap fun token => (token.textWith Operand.bracketed).toList := by
    induction stream with
    | nil => intro index; rfl
    | cons token rest ih => intro index; simp [textFrom, ih]
  exact general 0

/-- The sign of an operator is a separator, and no bracket. -/
theorem listed_of_ofChar? {c : Char} {operator : Operator}
    (sign : Operator.ofChar? c = some operator) :
    c ∈ separators ∧ c ≠ '(' ∧ c ≠ ')' := by
  unfold Operator.ofChar? at sign
  split at sign <;> first | decide | cases sign

/-- Behind an operand the sign of an operator starts no literal. -/
theorem literalIn?_operator {c : Char} {operator : Operator}
    (sign : Operator.ofChar? c = some operator) (rest : List Char) :
    literalIn? true (c :: rest) = none := by
  unfold literalIn?
  split
  · rfl
  · rename_i unsigned
    exact ofText?_operator sign (by simpa using unsigned) rest

/-- A bracket starts no literal. -/
theorem literalIn?_bracket (behind : Bool) {c : Char} (bracket : c = '(' ∨ c = ')')
    (rest : List Char) : literalIn? behind (c :: rest) = none := by
  unfold literalIn?
  split
  · rfl
  · rcases bracket with rfl | rfl
    · exact Literal.ofText?_eq_none rest (by decide) (by decide)
    · exact Literal.ofText?_eq_none rest (by decide) (by decide)

/-- Where a literal is read a text fits just when what is behind it does. -/
theorem fits_of_literal {behind : Bool} {text : List Char} {literal : Literal}
    (found : literalIn? behind text = some literal) :
    fits behind text = fits true literal.rest := by
  have shorter := length_of_literalIn? found
  -- The literal that is found is the one that fitting asks for.
  cases text with
  | nil => simp at shorter
  | cons c rest =>
    rw [fits]
    split
    · rename_i other same
      rw [found] at same
      cases same
      rfl
    · rename_i none
      rw [found] at none
      cases none

/-- Where no literal is read the first character decides how a text goes on. -/
theorem fits_of_none {behind : Bool} {c : Char} {rest : List Char}
    (none : literalIn? behind (c :: rest) = none) :
    fits behind (c :: rest)
      = if c = '(' then !behind && fits false rest
        else if c = ')' then behind && decide (Stops rest) && fits true rest
        else if behind && (Operator.ofChar? c).isSome then fits false rest
        else skips behind c rest && fits behind rest := by
  rw [fits]
  split
  · rename_i found
    rw [none] at found
    cases found
  · rfl

/-- A text that is read as pieces fits. -/
theorem Reads.fits {behind : Bool} {text : List Char} {pieces : List Piece}
    (reads : Reads behind text pieces) : Stream.fits behind text = true := by
  -- Every way to read a piece is a case of fitting, and the ones before it do not apply.
  induction reads with
  | nothing behind => rw [Stream.fits]
  | @operand text literal pieces found reads ih =>
    have here : literalIn? false text = some literal := found
    rw [fits_of_literal here, ih]
  | dropped found reads ih => rw [fits_of_literal found, ih]
  | @operator c rest operator pieces sign reads ih =>
    obtain ⟨_, opening, closing⟩ := listed_of_ofChar? sign
    simp [fits_of_none (literalIn?_operator sign rest), opening, closing, sign, ih]
  | @opening rest pieces reads ih =>
    simp [fits_of_none (literalIn?_bracket false (.inl rfl) rest), ih]
  | @closing rest pieces stops reads ih =>
    simp [fits_of_none (literalIn?_bracket true (.inr rfl) rest), stops, ih]
  | @skipped behind c rest pieces literal plain sign stays reads ih =>
    have other : (behind && (Operator.ofChar? c).isSome) = false := by
      cases behind with
      | false => rfl
      | true => rw [sign rfl]; rfl
    simp [fits_of_none literal, plain.1, plain.2, other, stays, ih]

/-- A scan that ends in an operand has it as its newest token. -/
theorem exists_operand_of_ends {tokens : List Token} (ends : endsInOperand tokens = true) :
    ∃ o older, tokens = .operand o :: older := by
  match tokens, ends with
  | .operand o :: older, _ => exact ⟨o, older, rfl⟩

/-- The text of an operand is added behind the brackets that wait for it. -/
theorem spelled_operand (tokens : List Token) (pending : Nat) (m : Measure) :
    spelled (Piece.place (tokens, pending) (.operand m))
      = spelled (tokens, pending) ++ m.text.toList := by
  simp [spelled, Piece.place, Token.textWith, Operand.bracketed, Operand.bracket]

/-- An operator is added behind an operand. -/
theorem spelled_operator (tokens : List Token) (operator : Operator) :
    spelled (Piece.place (tokens, 0) (.operator operator))
      = spelled (tokens, 0) ++ [operator.symbol] := by
  simp [spelled, Piece.place, Token.textWith]

/-- An opening bracket waits behind those that wait already. -/
theorem spelled_opening (tokens : List Token) (pending : Nat) :
    spelled (Piece.place (tokens, pending) .opening) = spelled (tokens, pending) ++ ['('] := by
  simp [spelled, Piece.place, List.replicate_succ']

/-- A closing bracket is added to the operand in front of it. -/
theorem spelled_closing (o : Operand) (older : List Token) (closable : 0 ≤ o.closeBrackets) :
    spelled (Piece.place (.operand o :: older, 0) .closing)
      = spelled (.operand o :: older, 0) ++ [')'] := by
  have more : (o.closeBrackets + 1).toNat = o.closeBrackets.toNat + 1 := by omega
  simp [spelled, Piece.place, Token.textWith, Operand.bracketed, Operand.bracket, more,
    List.replicate_succ']

/-- A character that is skipped changes nothing. -/
theorem scanFrom_skipped {tokens : List Token} {c : Char} {rest : List Char} (pending : Nat)
    (literal : literalIn? (endsInOperand tokens) (c :: rest) = none) (plain : c ≠ '(' ∧ c ≠ ')')
    (sign : endsInOperand tokens = true → Operator.ofChar? c = none) :
    scanFrom tokens pending (c :: rest) = scanFrom tokens pending rest := by
  -- The symbol is neither a bracket nor an operator that is expected.
  have same : scanSymbol tokens pending c = (tokens, pending) := by
    unfold scanSymbol
    split
    · rw [sign rfl]
      simp [plain]
    · simp [plain]
  rw [scanFrom_symbol literal, same]

/-- A piece is scanned before others when one step of the scan places it and its text is spelled
behind what was there. -/
theorem scanned_cons (state : List Token × Nat) {piece : Piece} {pieces : List Piece}
    {text rest : List Char}
    (step : scanFrom state.1 state.2 text
      = scanFrom (Piece.place state piece).1 (Piece.place state piece).2 rest)
    (added : spelled (Piece.place state piece) = spelled state ++ piece.text)
    (others : scanFrom (Piece.place state piece).1 (Piece.place state piece).2 rest
        = (pieces.foldl Piece.place (Piece.place state piece)).1
      ∧ spelled (pieces.foldl Piece.place (Piece.place state piece))
        = spelled (Piece.place state piece) ++ Piece.spell pieces) :
    scanFrom state.1 state.2 text = ((piece :: pieces).foldl Piece.place state).1
      ∧ spelled ((piece :: pieces).foldl Piece.place state) = spelled state ++ Piece.spell
        (piece :: pieces) := by
  obtain ⟨scanned, later⟩ := others
  rw [List.foldl_cons, step, scanned, later, added, Piece.spell_cons, List.append_assoc]
  exact ⟨rfl, rfl⟩

/-- What is read as pieces is scanned one piece after the other, and their texts follow the text of
the tokens that were there before. -/
theorem Reads.scanned {behind : Bool} {text : List Char} {pieces : List Piece}
    (reads : Reads behind text pieces) {tokens : List Token} (place : endsInOperand tokens = behind)
    {pending : Nat} (waiting : behind = true → pending = 0) (closable : Closable tokens) :
    scanFrom tokens pending text = (pieces.foldl Piece.place (tokens, pending)).1
      ∧ spelled (pieces.foldl Piece.place (tokens, pending))
        = spelled (tokens, pending) ++ Piece.spell pieces := by
  -- Each piece is placed as the scan places it, and adds its text to what is spelled.
  induction reads generalizing tokens pending with
  | nothing behind => simp [scanFrom, Piece.spell]
  | @operand text literal pieces found reads ih =>
    have read : literalAt? tokens text = some literal := (literalAt?_eq place text).trans found
    have closed : Closable (.operand (literal.toOperand pending) :: tokens) := by
      intro o older same
      cases same
      exact Int.le_refl 0
    have step := scanFrom_literal read pending
    rw [place, if_neg (by decide)] at step
    exact scanned_cons (tokens, pending) step (spelled_operand tokens pending _)
      (ih rfl (fun _ => rfl) closed)
  | @dropped text literal pieces found reads ih =>
    have none := waiting rfl
    subst none
    rw [scanFrom_literal ((literalAt?_eq place text).trans found), place, if_pos rfl]
    exact ih place waiting closable
  | @operator c rest operator pieces sign reads ih =>
    -- Behind an operand no bracket waits, and an operator is kept.
    have none := waiting rfl
    subst none
    obtain ⟨o, older, rfl⟩ := exists_operand_of_ends place
    exact scanned_cons (.operand o :: older, 0) (scanFrom_operator sign o older 0 rest)
      (spelled_operator _ operator)
      (ih rfl (fun _ => rfl) fun _ _ same => by cases same)
  | @opening rest pieces reads ih =>
    exact scanned_cons (tokens, pending) (scanFrom_opening place 1 pending rest)
      (spelled_opening tokens pending) (ih place (fun behind => by cases behind) closable)
  | @closing rest pieces stops reads ih =>
    -- The operand that ends the tokens takes the bracket, and stays their end.
    have none := waiting rfl
    subst none
    obtain ⟨o, older, rfl⟩ := exists_operand_of_ends place
    have counted := closable o older rfl
    have closed : Closable (.operand { o with closeBrackets := o.closeBrackets + 1 } :: older) := by
      intro p older same
      cases same
      dsimp only
      omega
    exact scanned_cons (.operand o :: older, 0) (scanFrom_closing o older 1 0 rest)
      (spelled_closing o older counted) (ih rfl (fun _ => rfl) closed)
  | @skipped behind c rest pieces literal plain sign stays reads ih =>
    subst place
    rw [scanFrom_skipped pending literal plain sign]
    exact ih rfl waiting closable

/-- The pieces of a text have the brackets of the text. -/
theorem Reads.brackets_spell {behind : Bool} {text : List Char} {pieces : List Piece}
    (reads : Reads behind text pieces) : brackets (Piece.spell pieces) = brackets text := by
  -- Neither literals nor what is skipped hold any.
  have taken : ∀ {text : List Char} {literal : Literal}, Literal.ofText? text = some literal →
      brackets text = brackets literal.rest := by
    intro text literal found
    obtain ⟨taken, whole, _, plain, _⟩ := Literal.exists_taken found
    rw [whole, brackets_append, brackets_bracketless plain, List.nil_append]
  -- A piece is spelled with the bracket that was read, and with none where none was.
  induction reads with
  | nothing behind => rfl
  | @operand text literal pieces found reads ih =>
    have measure := (Literal.canonical_toOperand found 0).measure.bracketless
    rw [taken found, ← ih, Piece.spell, List.flatMap_cons, brackets_append]
    exact congrArg (· ++ brackets (Piece.spell pieces)) (brackets_bracketless measure)
  | @dropped text literal pieces found reads ih =>
    unfold literalIn? at found
    split at found
    · cases found
    · rw [taken found, ← ih]
  | @operator c rest operator pieces sign reads ih =>
    obtain ⟨_, notOpening, notClosing⟩ := listed_of_ofChar? sign
    have symbol : brackets [operator.symbol] = [] := by cases operator <;> rfl
    have sign : brackets [c] = [] := brackets_bracketless (by simp [notOpening, notClosing])
    have whole : c :: rest = [c] ++ rest := rfl
    rw [whole, brackets_append, sign, ← ih, Piece.spell, List.flatMap_cons, brackets_append]
    exact congrArg (· ++ brackets (Piece.spell pieces)) symbol
  | @opening rest pieces reads ih => exact congrArg ('(' :: ·) ih
  | @closing rest pieces stops reads ih => exact congrArg (')' :: ·) ih
  | @skipped behind c rest pieces literal plain sign stays reads ih =>
    have whole : c :: rest = [c] ++ rest := rfl
    have none : brackets [c] = [] := brackets_bracketless (by simpa using plain)
    rw [whole, brackets_append, none, ← ih]
    rfl

end Stream

namespace Piece

/-- Trimming does not reach beyond a piece that is no operator. -/
theorem trim_append (front : List Piece) {piece : Piece} (other : piece.operator? = none)
    (rest : List Piece) : trim (front ++ piece :: rest) = front ++ piece :: trim rest := by
  -- The last piece is looked at only behind all the others, and the piece in between keeps the
  -- front from being the end.
  induction front with
  | nil =>
    cases rest with
    | nil => simp [trim, other]
    | cons second rest => rfl
  | cons first front ih =>
    rw [List.cons_append, List.cons_append, ← ih]
    obtain ⟨second, later, same⟩ := List.exists_cons_of_ne_nil
      (show front ++ piece :: rest ≠ [] by simp)
    rw [same]
    rfl

/-- Trimming adds no piece. -/
theorem mem_of_trim {piece : Piece} {pieces : List Piece} (member : piece ∈ trim pieces) :
    piece ∈ pieces := by
  fun_induction trim pieces with
  | case1 => exact member
  | case2 last operator => cases member
  | case3 last other => exact member
  | case4 first second rest ih =>
    rcases List.mem_cons.1 member with rfl | member
    · exact List.mem_cons_self
    · exact List.mem_cons_of_mem _ (ih member)

/-- Trimming keeps a piece in front of others, and one that is no operator. -/
theorem trim_cons {piece : Piece} {rest : List Piece} (kept : trim rest = rest)
    (inner : piece.operator? = none ∨ rest ≠ []) : trim (piece :: rest) = piece :: rest := by
  cases rest with
  | nil => simpa [trim] using inner
  | cons second rest => exact congrArg (piece :: ·) kept

/-- Trimming takes an operator off the end. -/
theorem trim_operator (front : List Piece) (op : Operator) :
    trim (front ++ [.operator op]) = front := by
  induction front with
  | nil => rfl
  | cons first front ih =>
    rw [List.cons_append]
    -- Pieces in front of the operator are never the last ones.
    obtain ⟨second, later, same⟩ := List.exists_cons_of_ne_nil
      (show front ++ [Piece.operator op] ≠ [] by simp)
    rw [same] at ih ⊢
    exact congrArg (first :: ·) ih

/-- The brackets that wait are those that are left open. -/
theorem waiting_of_balanced {state : List Token × Nat} (balanced : Text.Balanced (spelled state)) :
    state.2 = 0 := by
  unfold Text.Balanced spelled at balanced
  rw [depth?_append] at balanced
  obtain ⟨depth, _, opened⟩ := Option.bind_eq_some_iff.1 balanced
  have count := count_of_depth? opened
  simp [List.count_replicate] at count
  omega

end Piece

namespace Stream

/-- The operator that a scan drops at the end of its tokens is the one that is trimmed off its
pieces. -/
theorem dropOperator_place {front : List Piece} {last : Piece} {tokens : List Token} {pending : Nat}
    (whole : spelled (Piece.place (tokens, pending) last) = Piece.spell (front ++ [last]))
    (waiting : (Piece.place (tokens, pending) last).2 = 0)
    (placed : front.foldl Piece.place ([], 0) = (tokens, pending)) :
    ((Piece.trim (front ++ [last])).foldl Piece.place ([], 0)
        = (dropOperator (Piece.place (tokens, pending) last).1, 0))
      ∧ spelled ((Piece.trim (front ++ [last])).foldl Piece.place ([], 0))
        = Piece.spell (Piece.trim (front ++ [last])) := by
  -- A last piece that is no operator is kept, and the tokens with it.
  have kept : last.operator? = none →
      dropOperator (Piece.place (tokens, pending) last).1 = (Piece.place (tokens, pending) last).1 →
      ((Piece.trim (front ++ [last])).foldl Piece.place ([], 0)
          = (dropOperator (Piece.place (tokens, pending) last).1, 0))
        ∧ spelled ((Piece.trim (front ++ [last])).foldl Piece.place ([], 0))
          = Piece.spell (Piece.trim (front ++ [last])) := by
    intro other same
    rw [Piece.trim_append front other, Piece.trim, List.foldl_append, placed, List.foldl_cons,
      List.foldl_nil, same, whole]
    exact ⟨Prod.ext rfl waiting, rfl⟩
  cases last with
  | operator operator =>
    have none : pending = 0 := waiting
    subst none
    have spell : Piece.spell (front ++ [.operator operator])
        = Piece.spell front ++ [operator.symbol] := by simp [Piece.spell, Piece.text]
    rw [spelled_operator, spell] at whole
    rw [Piece.trim_operator, placed]
    exact ⟨rfl, List.append_cancel_right whole⟩
  | operand m => exact kept rfl rfl
  | opening => exact absurd waiting (Nat.succ_ne_zero _)
  | closing =>
    refine kept rfl ?_
    match tokens with
    | .operand o :: older => rfl
    | .word text :: older => rfl
    | [] => rfl
    | .operator operator :: older =>
      -- A text that ends in a bracket does not end in an operator.
      have none : pending = 0 := waiting
      subst none
      have last := congrArg List.getLast? whole
      simp [spelled, Piece.place, Token.textWith, Piece.spell, Piece.text] at last
      cases operator <;> cases last

/-- A balanced text that is read as pieces is scanned as them, but for an operator at the end. -/
theorem Reads.scan_eq {text : List Char} {pieces : List Piece} (reads : Reads false text pieces)
    (balanced : Text.Balanced text) :
    (Piece.trim pieces).foldl Piece.place ([], 0) = ((scan (String.ofList text)).reverse, 0)
      ∧ spelled ((Piece.trim pieces).foldl Piece.place ([], 0))
        = Piece.spell (Piece.trim pieces) := by
  -- The scan starts with no tokens and no brackets that wait.
  obtain ⟨scanned, whole⟩ := @Reads.scanned _ _ _ reads [] rfl 0 (fun _ => rfl)
    (fun _ _ same => by cases same)
  have nothing : spelled ([], 0) = [] := rfl
  rw [nothing, List.nil_append] at whole
  -- No bracket waits behind the last piece.
  have waiting := @Piece.waiting_of_balanced (pieces.foldl Piece.place ([], 0)) (by
    rw [Text.Balanced, whole, ← depth?_brackets, reads.brackets_spell, depth?_brackets]
    exact balanced)
  unfold scan
  rw [String.toList_ofList, List.reverse_reverse, scanned]
  rcases List.eq_nil_or_concat pieces with rfl | ⟨front, last, rfl⟩
  · exact ⟨rfl, rfl⟩
  · rw [List.concat_eq_append] at whole waiting ⊢
    rw [List.foldl_append, List.foldl_cons, List.foldl_nil] at whole waiting ⊢
    exact dropOperator_place whole waiting rfl

/-- The canonical expression of a balanced text that is read as pieces is made of them, but for an
operator at the end. -/
theorem Reads.toList_render_scan {text : List Char} {pieces : List Piece}
    (reads : Reads false text pieces) (balanced : Text.Balanced text) :
    (scan (String.ofList text)).render.toList = Piece.spell (Piece.trim pieces) := by
  obtain ⟨placed, written⟩ := reads.scan_eq balanced
  rw [placed] at written
  rw [← written, toList_render_eq]
  simp [spelled]

end Stream

end PlusMinus
