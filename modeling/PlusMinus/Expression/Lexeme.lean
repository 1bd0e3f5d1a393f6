import PlusMinus.Numeral.Reader
import PlusMinus.Stream.Basic
import PlusMinus.Text.PlainForm

/-! The lexemes of a plain arithmetic expression, which may run over several lines. -/

namespace PlusMinus

/-- The smallest parts of an expression. -/
inductive Lexeme where
  | number (x : Double)
  | name (text : String)
  | operator (operator : Operator)
  | opening
  | closing
deriving DecidableEq

namespace Lexeme

/-- Characters of a name, which may be typographic forms of plain ones. -/
def isNameCharacter (c : Char) : Bool :=
  (Text.plainForm c).isAlphanum || Text.plainForm c = '_'

/-- Characters of a number or of a name that is stuck to one. -/
def isNumberCharacter (c : Char) : Bool := isNameCharacter c || c = '.'

/-- The value of a digit in a base of up to sixteen. -/
def radixDigit? (base : Nat) (c : Char) : Option Nat :=
  let value := if c.isDigit then c.toNat - 0x30 else c.toLower.toNat - 0x57
  if c.isAlphanum ∧ value < base then some value else none

/-- The whole number that digits of a base denote, where one underscore may precede each digit. -/
def radixDigits? (base value : Nat) : List Char → Option Nat
  | [] => some value
  | '_' :: c :: rest =>
    (radixDigit? base c).bind fun digit => radixDigits? base (value * base + digit) rest
  | c :: rest =>
    (radixDigit? base c).bind fun digit => radixDigits? base (value * base + digit) rest

/-- The base that a number announces. -/
def base? : Char → Option Nat
  | 'x' | 'X' => some 16
  | 'o' | 'O' => some 8
  | 'b' | 'B' => some 2
  | _ => none

/-- The double that the text of a number denotes; whole numbers have to be in range, and to start
with a zero only when they are zero. -/
def number? (text : List Char) : Option Double :=
  let announced : Option (Nat × List Char) := match text with
    | '0' :: mark :: digits => (base? mark).map (·, digits)
    | _ => none
  match announced with
  | some (base, digits) =>
    if digits.isEmpty then none else (radixDigits? base 0 digits).bind fun n => Double.ofInt? n
  | none => do
    let digits ← Numeral.joinDigits? text
    match Numeral.digits? digits with
    | some n =>
      -- A leading zero would leave the base in doubt.
      if digits.head? = some '0' ∧ n ≠ 0 then none else Double.ofInt? n
    | none => (Numeral.decimal? digits).map (·.toDouble false)

/-- The rest of a number behind its first character, across the sign of an exponent, and what is
left. -/
def splitNumber (first : Char) (text : List Char) : List Char × List Char :=
  let head := first :: text.takeWhile isNumberCharacter
  let tail := text.dropWhile isNumberCharacter
  -- Behind a base mark the letter e is a digit or an error, and a sign ends the number.
  let marked := head.getLast?.any (fun c => c = 'e' || c = 'E')
    && !(first = '0' && (text.head?.bind base?).isSome)
  match tail with
  | sign :: rest =>
    if marked && (sign = '+' || sign = '-') && rest.head?.any Char.isDigit then
      (head ++ sign :: rest.takeWhile isNumberCharacter, rest.dropWhile isNumberCharacter)
    else (head, tail)
  | [] => (head, [])

/-- A number leaves no more text than followed its first character. -/
theorem splitNumber_length (first : Char) (text : List Char) :
    (splitNumber first text).2.length ≤ text.length := by
  have outer := (List.dropWhile_sublist (l := text) isNumberCharacter).length_le
  unfold splitNumber
  dsimp only
  -- The digits behind the sign of an exponent are a run of their own.
  split
  · rename_i sign rest split
    have inner := (List.dropWhile_sublist (l := rest) isNumberCharacter).length_le
    split
    · dsimp only
      rw [split, List.length_cons] at outer
      omega
    · exact outer
  · exact Nat.zero_le _

/-- Everything but a line feed. -/
def isInLine (c : Char) : Bool := c != '\n'

/-- A text with a line feed for every line end. -/
def unifyLines : List Char → List Char
  | '\r' :: '\n' :: rest => '\n' :: unifyLines rest
  | '\r' :: rest => '\n' :: unifyLines rest
  | c :: rest => c :: unifyLines rest
  | [] => []

/-- Skips lines of blanks and comments; gives the indentation of the next line and its text. A
backslash joins two lines and keeps the indentation before it. -/
def skipBlankLines? (column carried : Nat) (comment : Bool) :
    List Char → Option (Nat × List Char)
  | [] => some (if comment then 0 else if carried = 0 then column else carried, [])
  | c :: rest =>
    if comment then skipBlankLines? 0 0 (c ≠ '\n') rest
    else if c = ' ' then skipBlankLines? (column + 1) carried false rest
    else if c = '\t' then skipBlankLines? ((column / 8 + 1) * 8) carried false rest
    else if c = '\x0c' then skipBlankLines? 0 carried false rest
    else if c = '\n' then skipBlankLines? 0 0 false rest
    else if c = '#' then skipBlankLines? 0 0 true rest
    else if c = '\\' then match rest with
      | '\n' :: d :: tail =>
        skipBlankLines? column (if carried = 0 then column else carried) false (d :: tail)
      | _ => none
    else some (if carried = 0 then column else carried, c :: rest)

/-- Brackets may nest this deep. -/
def depthLimit : Nat := 200

/-- The lexemes of a line and the text behind it; inside brackets a line end is a blank. -/
def ofLine? (depth : Nat) (text : List Char) : Option (List Lexeme × List Char) :=
  let prepend (lexeme : Lexeme) : Option (List Lexeme × List Char) →
    Option (List Lexeme × List Char) :=
    Option.map fun (lexemes, rest) => (lexeme :: lexemes, rest)
  match text with
  | [] => if depth = 0 then some ([], []) else none
  | c :: rest =>
    if c = ' ' ∨ c = '\t' ∨ c = '\x0c' then ofLine? depth rest
    else if c = '\n' then if depth = 0 then some ([], rest) else ofLine? depth rest
    else if c = '#' then
      have := (List.dropWhile_sublist (l := rest) isInLine).length_le
      ofLine? depth (rest.dropWhile isInLine)
    else if c = '\\' then match rest with
      | '\n' :: d :: tail => ofLine? depth (d :: tail)
      | _ => none
    else if c = '(' then
      if depth < depthLimit then prepend .opening (ofLine? (depth + 1) rest) else none
    else if c = ')' then
      if 0 < depth then prepend .closing (ofLine? (depth - 1) rest) else none
    else if c.isDigit || c = '.' then
      have := splitNumber_length c rest
      match number? (splitNumber c rest).1 with
      | some x => prepend (.number x) (ofLine? depth (splitNumber c rest).2)
      | none => none
    else if isNameCharacter c then
      have := (List.dropWhile_sublist (l := rest) isNameCharacter).length_le
      prepend (.name (String.ofList ((c :: rest.takeWhile isNameCharacter).map Text.plainForm)))
        (ofLine? depth (rest.dropWhile isNameCharacter))
    else match c with
      | '+' => prepend (.operator .add) (ofLine? depth rest)
      | '-' => prepend (.operator .sub) (ofLine? depth rest)
      | '*' => prepend (.operator .mul) (ofLine? depth rest)
      | '/' => prepend (.operator .div) (ofLine? depth rest)
      | _ => none
termination_by text.length
decreasing_by all_goals simp_wf <;> omega

/-- The lexemes of a text that holds one expression; other lines have to be blank, and the line of
the expression may not be indented. -/
def ofText? (text : List Char) : Option (List Lexeme) := do
  if text.contains '\x00' then none
  else
    let (indentation, line) ← skipBlankLines? 0 0 false (unifyLines text)
    if indentation ≠ 0 then none
    else
      let (lexemes, rest) ← ofLine? 0 line
      match ← skipBlankLines? 0 0 false rest with
      | (0, []) => pure lexemes
      | _ => none

end Lexeme

end PlusMinus
