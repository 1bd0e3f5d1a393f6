import PlusMinus.Numeral.Literal
import PlusMinus.Proofs.Text.Digit

/-! The grammar of number literals, and the reader that takes exactly one of them from a text. -/

namespace PlusMinus.Literal

open Text

/-- A run of decimal digits of any script, with at least one digit. -/
def IsDigits (text : List Char) : Prop := text ≠ [] ∧ ∀ c ∈ text, isDecimal c = true

/-- Digits with at most one point, which has to stand before a digit. -/
inductive IsMantissa : List Char → Prop
  | whole {digits : List Char} (run : IsDigits digits) : IsMantissa digits
  | pointed {whole fraction : List Char} (before : ∀ c ∈ whole, isDecimal c = true)
      (after : IsDigits fraction) : IsMantissa (whole ++ '.' :: fraction)

/-- An exponent with its mark, or nothing. -/
inductive IsExponent : List Char → Prop
  | absent : IsExponent []
  | marked {mark : Char} {sign digits : List Char} (isMark : mark = 'e' ∨ mark = 'E')
      (isSign : sign = [] ∨ sign = ['+'] ∨ sign = ['-']) (run : IsDigits digits) :
      IsExponent (mark :: (sign ++ digits))

/-- A number without a sign. -/
inductive IsUnsigned : List Char → Prop
  | number {mantissa exponent : List Char} (digits : IsMantissa mantissa)
      (scale : IsExponent exponent) : IsUnsigned (mantissa ++ exponent)
  | infinity : IsUnsigned "Infinity".toList
  | nan : IsUnsigned "NaN".toList

/-- A number with or without a sign. -/
inductive IsSigned : List Char → Prop
  | unsigned {number : List Char} (grammar : IsUnsigned number) : IsSigned number
  | plus {number : List Char} (grammar : IsUnsigned number) : IsSigned ('+' :: number)
  | minus {number : List Char} (grammar : IsUnsigned number) : IsSigned ('-' :: number)

/-- A text that no run of digits goes on in. -/
def NoDigit (rest : List Char) : Prop := ∀ c, rest.head? = some c → isDecimal c = false

/-- A text that no number goes on in. -/
def Stops (rest : List Char) : Prop :=
  ∀ c, rest.head? = some c → isDecimal c = false ∧ c ≠ '.' ∧ c ≠ 'e' ∧ c ≠ 'E'

/-- No number goes on at the end of a text. -/
theorem stops_nil : Stops [] := by
  intro c found
  cases found

/-- A number that ends is also a run of digits that ends. -/
theorem Stops.noDigit {rest : List Char} (stops : Stops rest) : NoDigit rest :=
  fun c first => (stops c first).1

/-- Nothing but a digit starts a run of digits. -/
theorem noDigit_cons {c : Char} (other : isDecimal c = false) (rest : List Char) :
    NoDigit (c :: rest) := by
  intro d first
  cases first
  exact other

/-- Taking digits stops where a run of them does. -/
theorem takeWhile_digits {digits rest : List Char} (run : ∀ c ∈ digits, isDecimal c = true)
    (ends : NoDigit rest) : (digits ++ rest).takeWhile isDecimal = digits :=
  takeWhile_run run ends

/-- Dropping digits stops where a run of them does. -/
theorem dropWhile_digits {digits rest : List Char} (run : ∀ c ∈ digits, isDecimal c = true)
    (ends : NoDigit rest) : (digits ++ rest).dropWhile isDecimal = rest :=
  dropWhile_run run ends

/-- What is taken from the front of a text as digits, when a digit starts it, is a run of them. -/
theorem isDigits_takeWhile {text : List Char} (first : text.head?.any isDecimal = true) :
    IsDigits (text.takeWhile isDecimal) := by
  cases text with
  | nil => cases first
  | cons c rest =>
    -- The digit at the front keeps the run from being empty.
    have digit : isDecimal c = true := by simpa using first
    refine ⟨by simp [digit], fun d member => ?_⟩
    exact List.all_eq_true.1 List.all_takeWhile d member

/-- The first character of a run of digits is a digit. -/
theorem IsDigits.head {digits : List Char} (run : IsDigits digits) (rest : List Char) :
    ((digits ++ rest).head?).any isDecimal = true := by
  obtain ⟨nonempty, all⟩ := run
  cases digits with
  | nil => exact absurd rfl nonempty
  | cons c tail => simpa using all c (by simp)

/-- A mantissa is taken whole from a text in which neither digits nor a point follow it. -/
theorem splitMantissa?_of_isMantissa {mantissa rest : List Char} (grammar : IsMantissa mantissa)
    (ends : NoDigit rest) (pointless : ∀ tail, rest ≠ '.' :: tail) :
    splitMantissa? (mantissa ++ rest) = some (mantissa, rest) := by
  unfold splitMantissa?
  dsimp only
  cases grammar with
  | whole run =>
    -- The digits end where the mantissa does, and no point follows.
    rw [takeWhile_digits run.2 ends, dropWhile_digits run.2 ends]
    have nonempty : mantissa.isEmpty = false := by simpa using run.1
    split
    · exact absurd rfl (pointless _)
    · simp [nonempty]
  | @pointed whole fraction before after =>
    have point : NoDigit ('.' :: (fraction ++ rest)) := noDigit_cons (by decide) _
    rw [List.append_assoc, List.cons_append, takeWhile_digits before point,
      dropWhile_digits before point]
    simp only [after.head rest, if_true, takeWhile_digits after.2 ends,
      dropWhile_digits after.2 ends]

/-- A mantissa that is taken from a text follows the grammar. -/
theorem isMantissa_of_splitMantissa? {text mantissa rest : List Char}
    (found : splitMantissa? text = some (mantissa, rest)) : IsMantissa mantissa := by
  have all : ∀ c ∈ text.takeWhile isDecimal, isDecimal c = true :=
    List.all_eq_true.1 List.all_takeWhile
  -- A point is only taken with a digit behind it.
  unfold splitMantissa? at found
  dsimp only at found
  split at found
  · rename_i tail _
    split at found
    · rename_i digit
      cases found
      exact .pointed all (isDigits_takeWhile digit)
    · split at found
      · cases found
      · rename_i nonempty
        cases found
        exact .whole ⟨by simpa using nonempty, all⟩
  · split at found
    · cases found
    · rename_i nonempty
      cases found
      exact .whole ⟨by simpa using nonempty, all⟩

/-- Without a sign behind its mark an exponent is the digits there, if there are any. -/
theorem splitExponent_unsigned {mark : Char} {text : List Char} (isMark : mark = 'e' ∨ mark = 'E')
    (unsigned : ∀ c, text.head? = some c → c ≠ '+' ∧ c ≠ '-') :
    splitExponent (mark :: text)
      = if text.head?.any isDecimal then
        (mark :: text.takeWhile isDecimal, text.dropWhile isDecimal)
        else ([], mark :: text) := by
  unfold splitExponent
  simp only [isMark, if_true]
  split
  · exact absurd rfl (unsigned '+' rfl).1
  · exact absurd rfl (unsigned '-' rfl).2
  · rfl

/-- With a sign behind its mark an exponent is the sign and the digits there, if there are any. -/
theorem splitExponent_signed {mark plusMinus : Char} (isMark : mark = 'e' ∨ mark = 'E')
    (isSign : plusMinus = '+' ∨ plusMinus = '-') (text : List Char) :
    splitExponent (mark :: plusMinus :: text)
      = if text.head?.any isDecimal then
          (mark :: plusMinus :: text.takeWhile isDecimal, text.dropWhile isDecimal)
        else ([], mark :: plusMinus :: text) := by
  unfold splitExponent
  simp only [isMark, if_true]
  rcases isSign with rfl | rfl <;> rfl

/-- An exponent is taken whole from a text in which nothing goes on with the number. -/
theorem splitExponent_of_isExponent {exponent rest : List Char} (grammar : IsExponent exponent)
    (stops : Stops rest) : splitExponent (exponent ++ rest) = (exponent, rest) := by
  cases grammar with
  | absent =>
    -- Without an exponent the text must not look like the start of one.
    cases rest with
    | nil => rfl
    | cons c tail =>
      obtain ⟨_, _, small, capital⟩ := stops c rfl
      simp [splitExponent, small, capital]
  | @marked mark sign digits isMark isSign run =>
    have ends := stops.noDigit
    -- A digit has to follow the mark and the sign, or the mark would be left in the text.
    have head := run.head rest
    have taken := takeWhile_digits run.2 ends
    have left := dropWhile_digits run.2 ends
    have signed : ∀ {c : Char}, c = '+' ∨ c = '-' →
        splitExponent (mark :: c :: (digits ++ rest)) = (mark :: c :: digits, rest) := by
      intro c isSign
      rw [splitExponent_signed isMark isSign, if_pos head, taken, left]
    rcases isSign with rfl | rfl | rfl
    · -- A digit right behind the mark is no sign.
      have unsigned : ∀ c, (digits ++ rest).head? = some c → c ≠ '+' ∧ c ≠ '-' := by
        intro c first
        have digit : isDecimal c = true := by simpa [first] using head
        exact ⟨ne_of_kind digit (by decide), ne_of_kind digit (by decide)⟩
      exact (splitExponent_unsigned isMark unsigned).trans (by rw [if_pos head, taken, left]; rfl)
    · exact signed (.inl rfl)
    · exact signed (.inr rfl)

/-- An exponent that is taken from a text follows the grammar. -/
theorem isExponent_splitExponent (text : List Char) : IsExponent (splitExponent text).1 := by
  unfold splitExponent
  split
  · rename_i mark rest
    split
    · -- A mark without digits behind it is left in the text.
      rename_i isMark
      split
      rename_i sign digits signed
      have isSign : sign = [] ∨ sign = ['+'] ∨ sign = ['-'] := by
        split at signed <;> cases signed <;> simp
      split
      · rename_i digit
        exact .marked isMark isSign (isDigits_takeWhile digit)
      · exact .absent
    · exact .absent
  · exact .absent

/-- A word that does not start like a number is no mantissa. -/
theorem splitMantissa?_eq_none (c : Char) (rest : List Char) (other : isDecimal c = false)
    (pointless : c ≠ '.') : splitMantissa? (c :: rest) = none := by
  simp only [splitMantissa?, List.takeWhile_cons, List.dropWhile_cons, other]
  split
  · rename_i same
    exact absurd (List.cons.inj same).1 pointless
  · rfl

/-- An unsigned number is taken whole from a text in which nothing goes on with it. -/
theorem splitUnsigned?_of_isUnsigned {number rest : List Char} (grammar : IsUnsigned number)
    (stops : Stops rest) : splitUnsigned? (number ++ rest) = some (number, rest) := by
  cases grammar with
  | @number mantissa exponent digits scale =>
    -- Neither the mark of an exponent nor what stops the number is a digit or a point.
    have ends : NoDigit (exponent ++ rest) ∧ ∀ tail, exponent ++ rest ≠ '.' :: tail := by
      cases scale with
      | absent =>
        refine ⟨stops.noDigit, fun tail same => ?_⟩
        exact (stops '.' (by simpa using congrArg List.head? same)).2.1 rfl
      | marked isMark _ _ =>
        rcases isMark with rfl | rfl
        · exact ⟨noDigit_cons (by decide) _, by simp⟩
        · exact ⟨noDigit_cons (by decide) _, by simp⟩
    unfold splitUnsigned?
    rw [List.append_assoc, splitMantissa?_of_isMantissa digits ends.1 ends.2]
    simp [splitExponent_of_isExponent scale stops]
  | infinity =>
    -- The words are looked for where no mantissa starts.
    have none := splitMantissa?_eq_none 'I' ("nfinity".toList ++ rest) (by decide) (by decide)
    have word : splitWord? "Infinity".toList ("Infinity".toList ++ rest)
        = some ("Infinity".toList, rest) := by simp [splitWord?]
    unfold splitUnsigned?
    rw [show "Infinity".toList ++ rest = 'I' :: ("nfinity".toList ++ rest) from rfl, none,
      ← show "Infinity".toList ++ rest = 'I' :: ("nfinity".toList ++ rest) from rfl, word]
    rfl
  | nan =>
    have none := splitMantissa?_eq_none 'N' ("aN".toList ++ rest) (by decide) (by decide)
    have other : splitWord? "Infinity".toList ("NaN".toList ++ rest) = Option.none := by
      simp [splitWord?]
    have word : splitWord? "NaN".toList ("NaN".toList ++ rest) = some ("NaN".toList, rest) := by
      simp [splitWord?]
    unfold splitUnsigned?
    rw [show "NaN".toList ++ rest = 'N' :: ("aN".toList ++ rest) from rfl, none,
      ← show "NaN".toList ++ rest = 'N' :: ("aN".toList ++ rest) from rfl, other, word]
    rfl

/-- An unsigned number that is taken from a text follows the grammar. -/
theorem isUnsigned_of_splitUnsigned? {text number rest : List Char}
    (found : splitUnsigned? text = some (number, rest)) : IsUnsigned number := by
  -- A mantissa with its exponent is tried first, and the words after it.
  unfold splitUnsigned? at found
  split at found
  · rename_i mantissa tail split
    cases found
    exact .number (isMantissa_of_splitMantissa? split) (isExponent_splitExponent tail)
  · unfold splitWord? at found
    split at found
    · cases found
      exact .infinity
    · split at found
      · cases found
        exact .nan
      · cases found

/-- A number does not start with a sign. -/
theorem IsUnsigned.head_ne {number rest : List Char} {c : Char} (grammar : IsUnsigned number)
    (front : number = c :: rest) : c ≠ '+' ∧ c ≠ '-' := by
  have digit : ∀ {d : Char}, isDecimal d = true → d ≠ '+' ∧ d ≠ '-' := fun digit =>
    ⟨ne_of_kind digit (by decide), ne_of_kind digit (by decide)⟩
  -- A number starts with a digit, with a point or with the first letter of a word.
  cases grammar with
  | @number mantissa exponent digits scale =>
    cases digits with
    | whole run =>
      obtain ⟨d, tail, same⟩ := List.exists_cons_of_ne_nil run.1
      subst same
      cases front
      exact digit (run.2 _ (by simp))
    | @pointed whole fraction before after =>
      cases whole with
      | nil => cases front; decide
      | cons d tail =>
        cases front
        exact digit (before _ (by simp))
  | infinity => cases front; decide
  | nan => cases front; decide

/-- A number takes at least one character. -/
theorem IsUnsigned.ne_nil {number : List Char} (grammar : IsUnsigned number) : number ≠ [] := by
  -- The reader never takes nothing.
  have whole := splitUnsigned?_of_isUnsigned grammar stops_nil
  exact (splitUnsigned?_append whole).2

/-- Without a sign at its front a text is read as an unsigned number. -/
theorem splitSigned?_cons {c : Char} (rest : List Char) (notPlus : c ≠ '+') (notMinus : c ≠ '-') :
    splitSigned? (c :: rest) = splitUnsigned? (c :: rest) := by
  unfold splitSigned?
  split
  · rename_i same
    exact absurd (List.cons.inj same).1 notPlus
  · rename_i same
    exact absurd (List.cons.inj same).1 notMinus
  · rfl

/-- A signed number is taken whole from a text in which nothing goes on with it. -/
theorem splitSigned?_of_isSigned {number rest : List Char} (grammar : IsSigned number)
    (stops : Stops rest) : splitSigned? (number ++ rest) = some (number, rest) := by
  cases grammar with
  | unsigned grammar =>
    -- The first character is no sign, so that nothing is taken before the number.
    obtain ⟨c, tail, same⟩ := List.exists_cons_of_ne_nil grammar.ne_nil
    obtain ⟨notPlus, notMinus⟩ := grammar.head_ne same
    have taken := splitUnsigned?_of_isUnsigned grammar stops
    subst same
    rw [List.cons_append, splitSigned?_cons _ notPlus notMinus]
    exact taken
  | plus grammar => simp [splitSigned?, splitUnsigned?_of_isUnsigned grammar stops]
  | minus grammar => simp [splitSigned?, splitUnsigned?_of_isUnsigned grammar stops]

/-- A signed number that is taken from a text follows the grammar. -/
theorem isSigned_of_splitSigned? {text number rest : List Char}
    (found : splitSigned? text = some (number, rest)) : IsSigned number := by
  -- A sign is taken off first, and what is left follows the grammar without one.
  unfold splitSigned? at found
  split at found
  · obtain ⟨⟨unsigned, tail⟩, split, same⟩ := Option.map_eq_some_iff.1 found
    cases same
    exact .plus (isUnsigned_of_splitUnsigned? split)
  · obtain ⟨⟨unsigned, tail⟩, split, same⟩ := Option.map_eq_some_iff.1 found
    cases same
    exact .minus (isUnsigned_of_splitUnsigned? split)
  · exact .unsigned (isUnsigned_of_splitUnsigned? found)

end PlusMinus.Literal
