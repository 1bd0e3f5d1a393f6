import PlusMinus.Proofs.Expression.Chosen
import PlusMinus.Proofs.Expression.Denotes
import PlusMinus.Proofs.Stream.RoundTrip

/-! Printed expressions are read back: with the brackets that precedence and order ask for, or with
more of them, and with blanks wherever two lexemes meet. What is printed without balanced brackets
is no expression. -/

namespace PlusMinus

/-- How tightly an expression holds together. -/
inductive Rank where
  /-- A number, an expression in brackets or either of them behind signs. -/
  | factor
  /-- Factors joined by products and quotients. -/
  | term
  /-- Terms joined by sums and differences. -/
  | sum
deriving DecidableEq

namespace Lexeme

/-- Blanks between two lexemes; a line may only end inside brackets. -/
def IsGap (depth : Nat) (gap : List Char) : Prop :=
  ∀ c ∈ gap, (c = ' ' ∨ c = '\t' ∨ c = '\x0c') ∨ (c = '\n' ∧ 0 < depth)

end Lexeme

namespace Expression

open Lexeme

/-- The texts that an expression is printed as where so many brackets are open, as tightly as a rank
asks for. -/
inductive Prints : Nat → Rank → Expression → List Char → Prop
  | number (depth : Nat) {x : Double} (finite : x.isFinite = true)
    (magnitude : x.isNegative = false) :
      Prints depth .factor (.number x) x.text.toList
  | bracket {depth : Nat} {e : Expression} {before text after : List Char}
      (room : depth < depthLimit) (opened : IsGap (depth + 1) before)
      (inside : Prints (depth + 1) .sum e text) (closed : IsGap (depth + 1) after) :
      Prints depth .factor e ('(' :: (before ++ (text ++ (after ++ [')']))))
  | positive {depth : Nat} {e : Expression} {gap text : List Char} (blanks : IsGap depth gap)
      (operand : Prints depth .factor e text) :
      Prints depth .factor (.positive e) ('+' :: (gap ++ text))
  | negative {depth : Nat} {e : Expression} {gap text : List Char} (blanks : IsGap depth gap)
      (operand : Prints depth .factor e text) :
      Prints depth .factor (.negative e) ('-' :: (gap ++ text))
  | product {depth : Nat} {operator : Operator} {l r : Expression}
    {left before after right : List Char}
      (product : operator.isProduct = true) (first : Prints depth .term l left)
      (blanksBefore : IsGap depth before) (blanksAfter : IsGap depth after)
      (second : Prints depth .factor r right) :
      Prints depth .term (.binary operator l r)
        (left ++ (before ++ operator.symbol :: (after ++ right)))
  | sum {depth : Nat} {operator : Operator} {l r : Expression} {left before after right : List Char}
      (sum : operator.isProduct = false) (first : Prints depth .sum l left)
      (blanksBefore : IsGap depth before) (blanksAfter : IsGap depth after)
      (second : Prints depth .term r right) :
      Prints depth .sum (.binary operator l r)
        (left ++ (before ++ operator.symbol :: (after ++ right)))
  | ofFactor {depth : Nat} {e : Expression} {text : List Char}
    (factor : Prints depth .factor e text) :
      Prints depth .term e text
  | ofTerm {depth : Nat} {e : Expression} {text : List Char} (term : Prints depth .term e text) :
      Prints depth .sum e text

end Expression

namespace Lexeme

/-- Blanks are skipped in a line. -/
theorem ofLine?_gap {depth : Nat} {gap : List Char} (blanks : IsGap depth gap) (rest : List Char) :
    ofLine? depth (gap ++ rest) = ofLine? depth rest := by
  induction gap with
  | nil => rfl
  | cons c gap ih =>
    have later := ih fun d member => blanks d (by simp [member])
    -- A blank is skipped wherever it stands, and a line end inside brackets.
    have step : ofLine? depth (c :: (gap ++ rest)) = ofLine? depth (gap ++ rest) := by
      rw [ofLine?.eq_def]
      dsimp only
      rcases blanks c (by simp) with blank | ⟨rfl, inside⟩
      · rw [if_pos blank]
      · rw [if_neg (by decide), if_pos rfl, if_neg (by omega)]
    rw [List.cons_append, step, later]

/-- Blanks end a name or a number, and so does what ends it without them. -/
theorem ends_gap {depth : Nat} {gap : List Char} (blanks : IsGap depth gap) {rest : List Char}
    (ends : Ends rest) : Ends (gap ++ rest) := by
  cases gap with
  | nil => exact ends
  | cons c gap =>
    refine ends_cons ?_ _
    rcases blanks c (by simp) with (rfl | rfl | rfl) | ⟨rfl, _⟩ <;> decide

/-- Blanks between lexemes are characters of an expression. -/
theorem plain_gap {depth : Nat} {gap : List Char} (blanks : IsGap depth gap) :
    ∀ c ∈ gap, c.toNat < 0x80 ∧ c ≠ '\r' ∧ c ≠ '\x00' := by
  intro c member
  rcases blanks c member with (rfl | rfl | rfl) | ⟨rfl, _⟩ <;> decide

/-- The symbol of an operator is ordinary. -/
theorem ordinary_symbol (operator : Operator) : Ordinary operator.symbol := by
  cases operator <;> exact ⟨by decide, by decide, by decide, by decide⟩

end Lexeme

namespace Expression

open Lexeme

/-- Lexemes that are read as an expression of a rank, wherever one of that rank may stand. -/
def ReadsAs : Rank → List Lexeme → Expression → Prop
  | .factor, lexemes, e => ∀ reader : Reader, reader.term = none →
    ∃ after, lexemes.foldlM Reader.read reader = some after ∧ after.outer = reader.outer
      ∧ after.level.sum = reader.level.sum ∧ after.term = some (reader.level.term e)
  | .term, lexemes, e => ∀ reader : Reader, reader.Awaits → reader.level.product = none →
    ∃ after, lexemes.foldlM Reader.read reader = some after ∧ after.outer = reader.outer
      ∧ after.level.sum = reader.level.sum ∧ after.term = some e
  | .sum, lexemes, e => ∀ outer : List Level,
    ∃ after, lexemes.foldlM Reader.read { outer } = some after ∧ after.outer = outer
      ∧ ∃ term, after.term = some term ∧ after.level.close term = e

namespace ReadsAs

variable {lexemes first second : List Lexeme} {e l r : Expression}

/-- A number is a factor. -/
theorem number (x : Double) : ReadsAs .factor [.number x] (.number x) := by
  intro reader awaits
  exact ⟨{ reader with term := some (reader.level.term (.number x)) },
    by simp [Reader.read, Reader.operand, awaits], rfl, rfl, rfl⟩

/-- A sum in brackets is a factor. -/
theorem bracket (inside : ReadsAs .sum lexemes e) :
    ReadsAs .factor (.opening :: (lexemes ++ [.closing])) e := by
  intro reader awaits
  have opened : reader.read .opening = some { outer := reader.level :: reader.outer } := by
    simp [Reader.read, awaits]
  obtain ⟨after, read, outer, term, complete, total⟩ := inside (reader.level :: reader.outer)
  -- The closing bracket hands the sum inside to the level around it.
  have closed : after.read .closing = some
      { outer := reader.outer, level := reader.level, term := some (reader.level.term e) } := by
    simp [Reader.read, complete, outer, total]
  refine ⟨{ outer := reader.outer, level := reader.level, term := some (reader.level.term e) },
    ?_, rfl, rfl, rfl⟩
  rw [List.foldlM_cons, opened]
  change (lexemes ++ [Lexeme.closing]).foldlM Reader.read _ = _
  rw [foldlM_read_append read, List.foldlM_cons, closed]
  rfl

/-- A factor behind a sign is one itself. -/
theorem signed {operator : Operator} (sign : operator.isProduct = false)
    (operand : ReadsAs .factor lexemes e) :
    ReadsAs .factor (.operator operator :: lexemes) (Level.signed e operator) := by
  intro reader awaits
  -- The sign waits with those before it, and is the first to be applied.
  have waits : reader.read (.operator operator)
      = some { reader with level.signs := operator :: reader.level.signs } := by
    simp [Reader.read, awaits, sign]
  obtain ⟨after, read, outer, sum, term⟩ :=
    operand { reader with level.signs := operator :: reader.level.signs } awaits
  refine ⟨after, ?_, outer, sum, term⟩
  rw [List.foldlM_cons, waits]
  exact read

/-- A factor is a term. -/
theorem ofFactor (factor : ReadsAs .factor lexemes e) : ReadsAs .term lexemes e := by
  intro reader awaits none
  -- With no sign and no product that waits, the term is the factor itself.
  obtain ⟨after, read, outer, sum, term⟩ := factor reader awaits.term
  refine ⟨after, read, outer, sum, term.trans ?_⟩
  rw [Level.term, awaits.signs, none]
  rfl

/-- A term is a sum. -/
theorem ofTerm (term : ReadsAs .term lexemes e) : ReadsAs .sum lexemes e := by
  intro outer
  obtain ⟨after, read, same, sum, complete⟩ := term { outer } ⟨rfl, rfl⟩ rfl
  refine ⟨after, read, same, e, complete, ?_⟩
  rw [Level.close, sum]
  rfl

/-- A term goes on with a product sign and a factor. -/
theorem product {operator : Operator} (product : operator.isProduct = true)
    (left : ReadsAs .term first l) (right : ReadsAs .factor second r) :
    ReadsAs .term (first ++ .operator operator :: second) (.binary operator l r) := by
  intro reader awaits none
  -- Behind the sign a factor is awaited, and the product so far waits for it.
  obtain ⟨middle, read, outer, sum, complete⟩ := left reader awaits none
  obtain ⟨after, later, outer', sum', term⟩ := right
    { middle with level.product := some (l, operator), level.signs := [], term := .none } rfl
  refine ⟨after, ?_, outer'.trans outer, sum'.trans sum, term⟩
  rw [foldlM_read_append read, List.foldlM_cons, read_product complete product]
  exact later

/-- A sum goes on with a sum sign and a term. -/
theorem sum {operator : Operator} (sum : operator.isProduct = false)
    (left : ReadsAs .sum first l) (right : ReadsAs .term second r) :
    ReadsAs .sum (first ++ .operator operator :: second) (.binary operator l r) := by
  intro outer
  obtain ⟨middle, read, same, term, complete, total⟩ := left outer
  -- Behind the sign a new term starts, and the sum so far waits for it.
  obtain ⟨after, later, same', waits, factor⟩ := right
    { middle with level := { sum := some (middle.level.close term, operator) }, term := none }
    ⟨rfl, rfl⟩ rfl
  refine ⟨after, ?_, same'.trans same, r, factor, ?_⟩
  · rw [foldlM_read_append read, List.foldlM_cons, read_sum complete sum]
    exact later
  · rw [Level.close, waits, total]
    rfl

end ReadsAs

end Expression

namespace Lexeme

/-- A text that is read as given lexemes where so many brackets are open. -/
def LexesAt (depth : Nat) (text : List Char) (lexemes : List Lexeme) : Prop :=
  ∀ rest, Ends rest → ofLine? depth (text ++ rest) = (ofLine? depth rest).map (behind lexemes)

namespace LexesAt

variable {depth : Nat} {text left right before after gap : List Char}
  {lexemes first second : List Lexeme}

/-- A text in brackets is one deeper than they are. -/
theorem bracket (room : depth < depthLimit) (opened : IsGap (depth + 1) before)
    (inside : LexesAt (depth + 1) text lexemes) (closed : IsGap (depth + 1) after) :
    LexesAt depth ('(' :: (before ++ (text ++ (after ++ [')']))))
      (.opening :: (lexemes ++ [.closing])) := by
  intro rest ends
  -- The closing bracket ends the last lexeme inside, whatever comes behind it.
  have close : Ends (after ++ ')' :: rest) := ends_gap closed (ends_cons (by decide) rest)
  calc ofLine? depth ('(' :: (before ++ (text ++ (after ++ [')']))) ++ rest)
      = ofLine? depth ('(' :: (before ++ (text ++ (after ++ ')' :: rest)))) := by simp
    _ = (ofLine? (depth + 1) (before ++ (text ++ (after ++ ')' :: rest)))).map
          (behind [.opening]) := ofLine?_opening room _
    _ = ((ofLine? (depth + 1) (after ++ ')' :: rest)).map (behind lexemes)).map
          (behind [.opening]) := by rw [ofLine?_gap opened, inside _ close]
    _ = (((ofLine? depth rest).map (behind [.closing])).map (behind lexemes)).map
          (behind [.opening]) := by
      rw [ofLine?_gap closed, ofLine?_closing (Nat.succ_pos depth), Nat.succ_sub_one]
    _ = _ := by rw [map_behind_behind, map_behind_behind]; rfl

/-- A sign stands before a text, with blanks between them. -/
theorem signed (operator : Operator) (blanks : IsGap depth gap)
    (operand : LexesAt depth text lexemes) :
    LexesAt depth (operator.symbol :: (gap ++ text)) (.operator operator :: lexemes) := by
  intro rest ends
  calc ofLine? depth (operator.symbol :: (gap ++ text) ++ rest)
      = ofLine? depth (operator.symbol :: (gap ++ (text ++ rest))) := by simp
    _ = ((ofLine? depth rest).map (behind lexemes)).map (behind [.operator operator]) := by
      rw [ofLine?_operator, ofLine?_gap blanks, operand rest ends]
    _ = _ := map_behind_behind _ _ _

/-- An operator stands between two texts, with blanks on both sides. -/
theorem binary (operator : Operator) (earlier : LexesAt depth left first)
    (blanksBefore : IsGap depth before) (blanksAfter : IsGap depth after)
    (later : LexesAt depth right second) :
    LexesAt depth (left ++ (before ++ operator.symbol :: (after ++ right)))
      (first ++ .operator operator :: second) := by
  intro rest ends
  -- The operator ends the last lexeme on its left.
  have sign : Ends (before ++ operator.symbol :: (after ++ right ++ rest)) :=
    ends_gap blanksBefore (ends_operator operator _)
  have behindSign := later.signed operator blanksAfter rest ends
  calc ofLine? depth (left ++ (before ++ operator.symbol :: (after ++ right)) ++ rest)
      = ofLine? depth (left ++ (before ++ operator.symbol :: (after ++ right ++ rest))) := by simp
    _ = ((ofLine? depth rest).map (behind (.operator operator :: second))).map (behind first) := by
      rw [earlier _ sign, ofLine?_gap blanksBefore]
      exact congrArg _ behindSign
    _ = _ := map_behind_behind _ _ _

end LexesAt

namespace Framed

variable {depth : Nat} {text left right before after gap : List Char}

/-- An ordinary character is a text of its own. -/
theorem single {c : Char} (ordinary : Ordinary c) : Framed [c] :=
  framed_of_ordinary (by simp) (by simpa using ordinary)

/-- Two texts with blanks between them have ordinary characters at their ends. -/
theorem append (first : Framed left) (blanks : IsGap depth gap) (second : Framed right) :
    Framed (left ++ (gap ++ right)) := by
  obtain ⟨c, front, ordinary⟩ := first.first
  obtain ⟨d, back, ordinary'⟩ := second.last
  -- The first character is that of the first text and the last one that of the second.
  refine ⟨⟨c, by simp [List.head?_append, front], ordinary⟩,
    ⟨d, by simp [List.getLast?_append, back], ordinary'⟩, fun e member => ?_⟩
  rcases List.mem_append.1 member with member | member
  · exact first.plain e member
  · exact (List.mem_append.1 member).elim (plain_gap blanks e) (second.plain e)

/-- A text in brackets starts and ends with them. -/
theorem bracket (opened : IsGap depth before) (inside : Framed text) (closed : IsGap depth after) :
    Framed ('(' :: (before ++ (text ++ (after ++ [')'])))) := by
  have opening : Ordinary '(' := ⟨by decide, by decide, by decide, by decide⟩
  have closing : Ordinary ')' := ⟨by decide, by decide, by decide, by decide⟩
  exact (single opening).append opened (inside.append closed (single closing))

/-- A text behind a sign starts with the sign. -/
theorem signed (operator : Operator) (blanks : IsGap depth gap) (operand : Framed text) :
    Framed (operator.symbol :: (gap ++ text)) :=
  (single (ordinary_symbol operator)).append blanks operand

/-- Two texts around an operator start and end like them. -/
theorem binary (operator : Operator) (first : Framed left) (blanksBefore : IsGap depth before)
    (blanksAfter : IsGap depth after) (second : Framed right) :
    Framed (left ++ (before ++ operator.symbol :: (after ++ right))) :=
  first.append blanksBefore (second.signed operator blanksAfter)

end Framed

end Lexeme

namespace Expression

open Lexeme

/-- A magnitude is written as a single number. -/
theorem lexes_magnitude {x : Double} (finite : x.isFinite = true)
    (magnitude : x.isNegative = false) :
    Lexes x.text.toList [.number x] := by
  have legible := (Double.legible_text finite).lexes
  have unsigned : x.hasMinus = false := by rw [Double.hasMinus, magnitude, Bool.false_and]
  -- Without a sign the only lexeme is the number itself.
  have plain : x.abs = x := by
    rcases Double.nonnegative_cases magnitude with rfl | rfl | ⟨quanta, fits, rfl⟩ <;> rfl
  rwa [Double.lexemes, unsigned, if_neg Bool.false_ne_true, plain] at legible

namespace Prints

variable {depth : Nat} {rank : Rank} {e : Expression} {text : List Char}

/-- A printed text has ordinary characters at its ends. -/
theorem framed (prints : Prints depth rank e text) : Framed text := by
  -- A number is made of ordinary characters, and every other form starts and ends with one of its
  -- own or with those of its operands.
  induction prints with
  | number depth finite magnitude =>
    have legible := Double.legible_text finite
    exact framed_of_ordinary legible.nonempty legible.ordinary
  | bracket room opened inside closed ih => exact .bracket opened ih closed
  | positive blanks operand ih => exact .signed .add blanks ih
  | negative blanks operand ih => exact .signed .sub blanks ih
  | product product first blanksBefore blanksAfter second ih ih' =>
    exact .binary _ ih blanksBefore blanksAfter ih'
  | sum sum first blanksBefore blanksAfter second ih ih' =>
    exact .binary _ ih blanksBefore blanksAfter ih'
  | ofFactor factor ih => exact ih
  | ofTerm term ih => exact ih

/-- The lexemes of a printed text make up the expression. -/
theorem exists_lexemes (prints : Prints depth rank e text) :
    ∃ lexemes, LexesAt depth text lexemes ∧ ReadsAs rank lexemes e := by
  -- Each way to print joins lexemes as the reader takes them apart.
  induction prints with
  | number depth finite magnitude =>
    exact ⟨_, fun rest ends => lexes_magnitude finite magnitude depth rest ends, .number _⟩
  | bracket room opened inside closed ih =>
    obtain ⟨lexemes, lexes, reads⟩ := ih
    exact ⟨_, lexes.bracket room opened closed, reads.bracket⟩
  | positive blanks operand ih =>
    obtain ⟨lexemes, lexes, reads⟩ := ih
    exact ⟨_, lexes.signed .add blanks, reads.signed rfl⟩
  | negative blanks operand ih =>
    obtain ⟨lexemes, lexes, reads⟩ := ih
    exact ⟨_, lexes.signed .sub blanks, reads.signed rfl⟩
  | product product first blanksBefore blanksAfter second ih ih' =>
    obtain ⟨left, lexesLeft, readsLeft⟩ := ih
    obtain ⟨right, lexesRight, readsRight⟩ := ih'
    exact ⟨_, lexesLeft.binary _ blanksBefore blanksAfter lexesRight,
      readsLeft.product product readsRight⟩
  | sum sum first blanksBefore blanksAfter second ih ih' =>
    obtain ⟨left, lexesLeft, readsLeft⟩ := ih
    obtain ⟨right, lexesRight, readsRight⟩ := ih'
    exact ⟨_, lexesLeft.binary _ blanksBefore blanksAfter lexesRight, readsLeft.sum sum readsRight⟩
  | ofFactor factor ih =>
    obtain ⟨lexemes, lexes, reads⟩ := ih
    exact ⟨lexemes, lexes, reads.ofFactor⟩
  | ofTerm term ih =>
    obtain ⟨lexemes, lexes, reads⟩ := ih
    exact ⟨lexemes, lexes, reads.ofTerm⟩

/-- An expression that is printed has a value: no name stands in it. -/
theorem exists_value? (prints : Prints depth rank e text) : ∃ x, e.value? = some x := by
  -- Signs and operations pass values on, and leaves have one.
  induction prints with
  | number depth finite magnitude => exact ⟨_, rfl⟩
  | bracket room opened inside closed ih => exact ih
  | positive blanks operand ih => exact ih
  | negative blanks operand ih =>
    obtain ⟨x, value⟩ := ih
    exact ⟨-x, by simp [value?, value]⟩
  | product product first blanksBefore blanksAfter second ih ih'
  | sum sum first blanksBefore blanksAfter second ih ih' =>
    rename_i operator _ _ _ _ _ _
    obtain ⟨x, left⟩ := ih
    obtain ⟨y, right⟩ := ih'
    exact ⟨operator.compute x y, by simp [value?, left, right]⟩
  | ofFactor factor ih => exact ih
  | ofTerm term ih => exact ih

/-- A printed text is read as the expression. -/
theorem ofText? (prints : Prints 0 .sum e text) : Expression.ofText? text = some e := by
  obtain ⟨lexemes, lexes, reads⟩ := prints.exists_lexemes
  have line := lexes [] ends_nil
  rw [List.append_nil, show ofLine? 0 [] = some ([], []) by simp [ofLine?]] at line
  obtain ⟨after, read, outer, term, complete, total⟩ := reads []
  -- At the end of the text no bracket is open, and the sum is complete.
  have finished : after.finish = some e := by
    rw [Reader.finish, complete, outer]
    exact congrArg some total
  unfold Expression.ofText?
  rw [prints.framed.ofText?_of_line line, Option.bind_some, ofLexemes?]
  dsimp only
  rw [List.append_nil, read]
  exact finished

/-- Blanks around a printed text do not matter where it is read. -/
theorem ofWritten? (prints : Prints 0 .sum e text) {before after : List Char}
    (blankBefore : ∀ c ∈ before, Text.isBlank c = true)
    (blankAfter : ∀ c ∈ after, Text.isBlank c = true) :
    Expression.ofWritten? (String.ofList (before ++ (text ++ after))) = some e :=
  (prints.framed.ofWritten? blankBefore blankAfter).trans prints.ofText?

/-- The value of a printed text is what the expression stands for, unless it is too deep. -/
theorem evaluate (prints : Prints 0 .sum e text) {before after : List Char}
    (blankBefore : ∀ c ∈ before, Text.isBlank c = true)
    (blankAfter : ∀ c ∈ after, Text.isBlank c = true) (limit : Nat) :
    ∃ x, (e.Denotes x ∧ ∀ y, e.Denotes y → y = x)
      ∧ Expression.evaluate (String.ofList (before ++ (text ++ after))) limit
        = if e.depth ≤ limit then x else .nan := by
  obtain ⟨x, value⟩ := prints.exists_value?
  refine ⟨x, ⟨denotes_of_value? value, fun y denotes => ?_⟩, ?_⟩
  · exact Option.some.inj (denotes.value?.symm.trans value)
  · -- The walk leads to what the expression stands for, or to nothing.
    unfold Expression.evaluate
    rw [prints.ofWritten? blankBefore blankAfter, Option.bind_some, walk?, value]
    split <;> rfl

/-- Whatever may stand as a factor or as a term may stand as a sum. -/
theorem toSum (prints : Prints depth rank e text) : Prints depth .sum e text := by
  cases rank with
  | factor => exact prints.ofFactor.ofTerm
  | term => exact prints.ofTerm
  | sum => exact prints

/-- A factor may stand where any rank is asked for. -/
theorem ofAny (factor : Prints depth .factor e text) (rank : Rank) : Prints depth rank e text := by
  cases rank with
  | factor => exact factor
  | term => exact factor.ofFactor
  | sum => exact factor.ofFactor.ofTerm

end Prints

/-- Whether an expression is made up of magnitudes. -/
def isPlain : Expression → Bool
  | .number x => x.isFinite && !x.isNegative
  | .name _ => false
  | .positive operand | .negative operand => operand.isPlain
  | .binary _ left right => left.isPlain && right.isPlain

/-- Whether a sum or a product needs brackets where a rank is asked for. -/
def needsBracket (operator : Operator) : Rank → Bool
  | .factor => true
  | .term => !operator.isProduct
  | .sum => false

/-- The rank that the left operand of an operator is printed with. -/
def leftRank (operator : Operator) : Rank := if operator.isProduct then .term else .sum

/-- The rank that the right operand of an operator is printed with: one level tighter, since equal
levels are joined from the left. -/
def rightRank (operator : Operator) : Rank := if operator.isProduct then .factor else .term

/-- An expression with the brackets that precedence and order ask for, and without blanks. -/
def print : Rank → Expression → List Char
  | _, .number x => x.text.toList
  | _, .name text => text.toList
  | _, .positive operand => '+' :: operand.print .factor
  | _, .negative operand => '-' :: operand.print .factor
  | rank, .binary sign left right =>
    let text := left.print (leftRank sign) ++ sign.symbol :: right.print (rightRank sign)
    if needsBracket sign rank then '(' :: (text ++ [')']) else text

/-- How deep brackets are nested in a printed expression. -/
def nesting : Rank → Expression → Nat
  | _, .number _ | _, .name _ => 0
  | _, .positive operand | _, .negative operand => operand.nesting .factor
  | rank, .binary sign left right =>
    max (left.nesting (leftRank sign)) (right.nesting (rightRank sign))
      + (if needsBracket sign rank then 1 else 0)

/-- Two printed operands make up a sum, with the operator between them. -/
theorem Prints.binary {depth : Nat} {sign : Operator} {l r : Expression} {left right : List Char}
    (first : Prints depth (leftRank sign) l left) (second : Prints depth (rightRank sign) r right) :
    Prints depth (leftRank sign) (.binary sign l r) (left ++ sign.symbol :: right) := by
  have none : IsGap depth [] := by
    intro c member
    cases member
  -- A product takes terms and factors, a sum takes sums and terms, and neither needs a blank.
  cases kind : sign.isProduct with
  | true =>
    simp only [leftRank, rightRank, kind, if_true] at first second ⊢
    exact .product kind first none none second
  | false =>
    simp only [leftRank, rightRank, kind, Bool.false_eq_true, if_false] at first second ⊢
    exact .sum kind first none none second

/-- The text with the fewest brackets is one of those that an expression is printed as. -/
theorem prints_print (e : Expression) (plain : e.isPlain = true) {rank : Rank} {depth : Nat}
    (shallow : depth + e.nesting rank ≤ depthLimit) : Prints depth rank e (e.print rank) := by
  have none (depth : Nat) : IsGap depth [] := by
    intro c member
    cases member
  -- The rank and the depth change on the way down.
  induction e generalizing rank depth with
  | number x =>
    simp only [isPlain, Bool.and_eq_true, Bool.not_eq_true'] at plain
    rw [print]
    exact (Prints.number depth plain.1 plain.2).ofAny rank
  | name text => cases plain
  | positive operand ih =>
    rw [nesting] at shallow
    rw [print]
    exact (Prints.positive (none depth) (ih plain shallow)).ofAny rank
  | negative operand ih =>
    rw [nesting] at shallow
    rw [print]
    exact (Prints.negative (none depth) (ih plain shallow)).ofAny rank
  | binary sign left right ihLeft ihRight =>
    simp only [isPlain, Bool.and_eq_true] at plain
    rw [nesting] at shallow
    rw [print]
    cases bracket : needsBracket sign rank with
    | true =>
      -- Inside brackets everything is printed as it is on the outermost level.
      simp only [bracket, if_true] at shallow ⊢
      have first : Prints (depth + 1) (leftRank sign) left _ := ihLeft plain.1 (by omega)
      have second : Prints (depth + 1) (rightRank sign) right _ := ihRight plain.2 (by omega)
      have enclosed := Prints.bracket (by omega) (none _) (first.binary second).toSum (none _)
      exact enclosed.ofAny rank
    | false =>
      simp only [bracket, Bool.false_eq_true, if_false] at shallow ⊢
      have first : Prints depth (leftRank sign) left _ := ihLeft plain.1 (by omega)
      have second : Prints depth (rightRank sign) right _ := ihRight plain.2 (by omega)
      -- Without brackets the rank is that of the operator, or that of sums.
      cases rank with
      | factor => cases bracket
      | term =>
        have product : sign.isProduct = true := by simpa [needsBracket] using bracket
        have same : leftRank sign = .term := by rw [leftRank, product, if_pos rfl]
        have joined := first.binary second
        simp only [same] at joined ⊢
        exact joined
      | sum => exact (first.binary second).toSum

/-- Evaluating computes what is printed: an expression over magnitudes stands for one double, and
that is the value wherever it is printed with the brackets that it needs, or with more of them, and
with any blanks between its lexemes, unless it is deeper than expressions are walked; and it may be
printed with the fewest brackets, as long as those nest within the limit. A stream whose brackets
are not balanced has no value, whatever bounds are chosen for its operands. -/
theorem evaluate_prints (limit : Nat) :
    (∀ (e : Expression) (text before after : List Char), Prints 0 .sum e text →
        (∀ c ∈ before, Text.isBlank c = true) → (∀ c ∈ after, Text.isBlank c = true) →
        ∃ x, (e.Denotes x ∧ ∀ y, e.Denotes y → y = x)
          ∧ evaluate (String.ofList (before ++ (text ++ after))) limit
            = if e.depth ≤ limit then x else .nan)
      ∧ (∀ e : Expression, e.isPlain = true → e.nesting .sum ≤ depthLimit →
        Prints 0 .sum e (e.print .sum))
      ∧ ∀ (stream : Stream) (digits : Int) (choice : Nat → Option Bool), stream.Alternates →
        ¬stream.Balanced → evaluate (stream.chosenText digits choice) limit = .nan := by
  refine ⟨fun e text before after prints blankBefore blankAfter =>
    prints.evaluate blankBefore blankAfter limit, fun e plain shallow => ?_,
    fun stream digits choice alternates unbalanced => ?_⟩
  · exact e.prints_print plain (by rwa [Nat.zero_add])
  · exact Stream.evaluate_of_unbalanced digits choice alternates unbalanced limit

/-- Eight less the difference of two and the negative of three, behind a blank, and a bracket that
is never closed. -/
theorem evaluate_prints_difference :
    let two := Expression.number (Double.ofInt 2)
    let three := Expression.number (Double.ofInt 3)
    let eight := Expression.number (Double.ofInt 8)
    let e := Expression.binary .sub eight (.binary .sub two (.negative three))
    e.isPlain = true ∧ e.nesting .sum ≤ depthLimit ∧ e.print .sum = "8-(2--3)".toList
      ∧ (∃ x, (e.Denotes x ∧ ∀ y, e.Denotes y → y = x)
        ∧ evaluate (String.ofList ([' '] ++ (e.print .sum ++ []))) 4 = x)
      ∧ evaluate (String.ofList ([' '] ++ (e.print .sum ++ []))) 3 = .nan
      ∧ evaluate ((Stream.scan "(1").chosenText 10 fun _ => none) = .nan := by
  intro two three eight e
  have plain : e.isPlain = true := by decide +kernel
  have shallow : e.nesting .sum ≤ depthLimit := by decide +kernel
  have prints := (evaluate_prints 4).2.1 e plain shallow
  have nonempty : Stream.scan "(1" ≠ [] := by decide +kernel
  have alternates := ((Stream.canonical_scan "(1").resolve_left nonempty).alternates
  have blank : ∀ c ∈ [' '], Text.isBlank c = true := by
    intro c member
    rw [List.mem_singleton.1 member]
    decide
  -- The expression is walked through four calls.
  have depth : e.depth = 4 := by decide +kernel
  have value := (evaluate_prints 4).1 e _ [' '] [] prints blank (by simp)
  obtain ⟨_, _, deep⟩ := (evaluate_prints 3).1 e _ [' '] [] prints blank (by simp)
  rw [depth] at value deep
  exact ⟨plain, shallow, by decide +kernel, value, deep,
    (evaluate_prints _).2.2 _ 10 _ alternates (by decide +kernel)⟩

end Expression

end PlusMinus
