import PlusMinus.Text.Character

/-! The number literals of an expression: digits with an optional point and exponent, or a name. -/

namespace PlusMinus.Literal

open Text

/-- The marked exponent at the front of a text, if a digit follows it, and what is left. -/
def splitExponent (text : List Char) : List Char × List Char :=
  match text with
  | mark :: rest =>
    if mark = 'e' ∨ mark = 'E' then
      let (sign, digits) : List Char × List Char := match rest with
        | '+' :: digits => (['+'], digits)
        | '-' :: digits => (['-'], digits)
        | digits => ([], digits)
      if digits.head?.any isDecimal then
        (mark :: sign ++ digits.takeWhile isDecimal, digits.dropWhile isDecimal)
      else ([], text)
    else ([], text)
  | [] => ([], [])

/-- Digits with at most one point inside or in front, and what is left. -/
def splitMantissa? (text : List Char) : Option (List Char × List Char) :=
  let whole := text.takeWhile isDecimal
  match text.dropWhile isDecimal with
  | '.' :: rest =>
    if rest.head?.any isDecimal then
      some (whole ++ '.' :: rest.takeWhile isDecimal, rest.dropWhile isDecimal)
    else if whole.isEmpty then none
    else some (whole, '.' :: rest)
  | rest => if whole.isEmpty then none else some (whole, rest)

/-- A word at the front of a text, and what is left. -/
def splitWord? (word text : List Char) : Option (List Char × List Char) :=
  if word.isPrefixOf text then some (word, text.drop word.length) else none

/-- The unsigned number at the front of a text, and what is left. -/
def splitUnsigned? (text : List Char) : Option (List Char × List Char) :=
  match splitMantissa? text with
  | some (mantissa, rest) =>
    let (exponent, rest) := splitExponent rest
    some (mantissa ++ exponent, rest)
  | none => splitWord? "Infinity".toList text <|> splitWord? "NaN".toList text

/-- The number at the front of a text, with its sign if it has one, and what is left. -/
def splitSigned? : List Char → Option (List Char × List Char)
  | '+' :: rest => (splitUnsigned? rest).map fun (number, rest) => ('+' :: number, rest)
  | '-' :: rest => (splitUnsigned? rest).map fun (number, rest) => ('-' :: number, rest)
  | text => splitUnsigned? text

/-- The number behind a plus-minus sign at the front of a text, and what is left. -/
def splitBound? (text : List Char) : Option (List Char × List Char) :=
  match stripLeft text with
  | '±' :: rest => splitUnsigned? (stripLeft rest)
  | _ => none

end PlusMinus.Literal

namespace PlusMinus

/-- A literal at the front of a text: a number, the bound written behind it, and what is left. -/
structure Literal where
  value : List Char
  bound : Option (List Char)
  rest : List Char
deriving DecidableEq

namespace Literal

/-- The literal at the front of a text. -/
def ofText? (text : List Char) : Option Literal :=
  (splitSigned? text).map fun (value, rest) =>
    match splitBound? rest with
    | some (bound, tail) => ⟨value, some bound, tail⟩
    | none => ⟨value, none, rest⟩

/-- A mantissa and what is left make up the text, and the mantissa is not empty. -/
theorem splitMantissa?_append {text mantissa rest : List Char}
    (found : splitMantissa? text = some (mantissa, rest)) :
    mantissa ++ rest = text ∧ mantissa ≠ [] := by
  -- The digits before the point and the remainder make up the text in every branch.
  have whole := List.takeWhile_append_dropWhile (p := Text.isDecimal) (l := text)
  unfold splitMantissa? at found
  dsimp only at found
  split at found
  · rename_i tail remainder
    rw [remainder] at whole
    split at found
    · cases found
      refine ⟨?_, by simp⟩
      rw [List.append_assoc, List.cons_append, List.takeWhile_append_dropWhile, whole]
    · split at found
      · cases found
      · rename_i nonempty
        cases found
        exact ⟨whole, by simpa using nonempty⟩
  · split at found
    · cases found
    · rename_i nonempty
      cases found
      exact ⟨whole, by simpa using nonempty⟩

/-- An exponent and what is left make up the text. -/
theorem splitExponent_append (text : List Char) :
    (splitExponent text).1 ++ (splitExponent text).2 = text := by
  -- Only the branch that takes digits moves characters from one side to the other.
  unfold splitExponent
  split
  · rename_i mark rest
    split
    · dsimp only
      split <;> dsimp only <;> split <;>
        simp [List.takeWhile_append_dropWhile]
    · rfl
  · rfl

/-- An unsigned number and what is left make up the text, and the number is not empty. -/
theorem splitUnsigned?_append {text number rest : List Char}
    (found : splitUnsigned? text = some (number, rest)) :
    number ++ rest = text ∧ number ≠ [] := by
  -- A word is a front of the text and nothing else of it is looked at.
  have word : ∀ {word : List Char}, word ≠ [] → splitWord? word text = some (number, rest) →
      number ++ rest = text ∧ number ≠ [] := by
    intro word nonempty split
    unfold splitWord? at split
    split at split
    · rename_i isFront
      cases split
      refine ⟨?_, nonempty⟩
      exact List.prefix_iff_eq_append.1 (List.isPrefixOf_iff_prefix.1 isFront)
    · cases split
  unfold splitUnsigned? at found
  split at found
  · -- Digits come first; only where there are none is a word looked for.
    rename_i mantissa tail split
    obtain ⟨whole, nonempty⟩ := splitMantissa?_append split
    have exponent := splitExponent_append tail
    rcases splitExponent tail with ⟨marked, remainder⟩
    dsimp only at exponent found
    cases found
    refine ⟨?_, by simp [nonempty]⟩
    rw [List.append_assoc, exponent, whole]
  · cases infinity : splitWord? "Infinity".toList text with
    | some pair =>
      rw [infinity] at found
      cases found
      exact word (by decide) infinity
    | none =>
      rw [infinity] at found
      exact word (by decide) found

/-- A signed number and what is left make up the text, and the number is not empty. -/
theorem splitSigned?_append {text number rest : List Char}
    (found : splitSigned? text = some (number, rest)) :
    number ++ rest = text ∧ number ≠ [] := by
  unfold splitSigned? at found
  -- With either sign, the rest of the number is an unsigned one.
  split at found
  · obtain ⟨⟨unsigned, tail⟩, split, same⟩ := Option.map_eq_some_iff.1 found
    cases same
    exact ⟨by rw [List.cons_append, (splitUnsigned?_append split).1], by simp⟩
  · obtain ⟨⟨unsigned, tail⟩, split, same⟩ := Option.map_eq_some_iff.1 found
    cases same
    exact ⟨by rw [List.cons_append, (splitUnsigned?_append split).1], by simp⟩
  · exact splitUnsigned?_append found

/-- A bound is a number behind its sign, with nothing but blanks on both sides of the sign. -/
theorem splitBound?_append {text number rest : List Char}
    (found : splitBound? text = some (number, rest)) :
    ∃ before between, text = before ++ '±' :: (between ++ (number ++ rest))
      ∧ ∀ c ∈ before ++ between, Text.isBlank c = true := by
  unfold splitBound? at found
  split at found
  · rename_i later sign
    -- The blanks are what was stripped from both sides of the sign.
    have outer := List.takeWhile_append_dropWhile (p := Text.isBlank) (l := text)
    have inner := List.takeWhile_append_dropWhile (p := Text.isBlank) (l := later)
    have whole := (splitUnsigned?_append found).1
    unfold Text.stripLeft at sign whole
    refine ⟨text.takeWhile Text.isBlank, later.takeWhile Text.isBlank, ?_, fun c member => ?_⟩
    · rw [whole, inner, ← sign, outer]
    · rcases List.mem_append.1 member with member | member
      · exact List.all_eq_true.1 List.all_takeWhile c member
      · exact List.all_eq_true.1 List.all_takeWhile c member
  · cases found

/-- A literal is a number with the bound behind it, or the number alone where no bound is. -/
theorem ofText?_cases {text : List Char} {literal : Literal} (found : ofText? text = some literal) :
    ∃ value rest, splitSigned? text = some (value, rest)
      ∧ ((∃ bound tail, splitBound? rest = some (bound, tail) ∧ literal = ⟨value, some bound, tail⟩)
        ∨ splitBound? rest = none ∧ literal = ⟨value, none, rest⟩) := by
  obtain ⟨⟨value, rest⟩, signed, same⟩ := Option.map_eq_some_iff.1 found
  refine ⟨value, rest, signed, ?_⟩
  dsimp only at same
  split at same
  · rename_i bound tail bounded
    exact .inl ⟨bound, tail, bounded, same.symm⟩
  · rename_i unbounded
    exact .inr ⟨unbounded, same.symm⟩

/-- A literal takes at least one character. -/
theorem ofText?_rest_length {text : List Char} {literal : Literal}
    (found : ofText? text = some literal) : literal.rest.length < text.length := by
  obtain ⟨value, rest, signed, taken⟩ := ofText?_cases found
  obtain ⟨rfl, nonempty⟩ := splitSigned?_append signed
  -- The number alone is not empty, and a bound only takes more.
  have some := List.length_pos_iff.2 nonempty
  obtain ⟨bound, tail, bounded, rfl⟩ | ⟨_, rfl⟩ := taken
  · obtain ⟨before, between, rfl, _⟩ := splitBound?_append bounded
    simp only [List.length_append, List.length_cons]
    omega
  · simp only [List.length_append]
    omega

end Literal

end PlusMinus
