import PlusMinus.Proofs.Numeral.Literal

/-! Operators and brackets part a text: a literal in front of one is read without a look at what
stands behind it. -/

namespace PlusMinus.Literal

open Text

/-- The operators and brackets, which no literal goes on over, but for a sign in an exponent. -/
def separators : List Char := "+-*/×÷()".toList

/-- A separator behind a text that does not end in the mark of an exponent if the separator is a
sign. -/
structure Parts (front : List Char) (sign : Char) : Prop where
  listed : sign ∈ separators
  unmarked : sign = '+' ∨ sign = '-' → front.getLast? ≠ some 'e' ∧ front.getLast? ≠ some 'E'

/-- What a separator is not: a digit, a blank, the sign of a bound, or a character of a number
without a sign. -/
structure Other (sign : Char) : Prop where
  digit : isDecimal sign = false
  blank : isBlank sign = false
  bound : sign ≠ '±'
  mark : sign ∉ ".eEInfityNa".toList

instance (sign : Char) : Decidable (Other sign) :=
  decidable_of_iff (isDecimal sign = false ∧ isBlank sign = false ∧ sign ≠ '±'
    ∧ sign ∉ ".eEInfityNa".toList)
      ⟨fun ⟨d, b, p, m⟩ => ⟨d, b, p, m⟩, fun ⟨d, b, p, m⟩ => ⟨d, b, p, m⟩⟩

/-- No separator is one of these. -/
theorem other_of_listed {sign : Char} (listed : sign ∈ separators) : Other sign := by
  have all : separators.all (fun c => Other c) = true := by decide
  exact of_decide_eq_true (List.all_eq_true.1 all sign listed)

/-- A separator parts from the end of a text what it parts from the whole. -/
theorem Parts.suffix {front rest : List Char} {sign : Char} (parts : Parts (front ++ rest) sign) :
    Parts rest sign := by
  refine ⟨parts.listed, fun isSign => ?_⟩
  -- A text that is not empty ends as the whole does.
  cases rest with
  | nil => simp
  | cons c rest =>
    have last : (front ++ c :: rest).getLast? = (c :: rest).getLast? := by
      simp [List.getLast?_cons]
    rw [← last]
    exact parts.unmarked isSign

section Apart

variable {front : List Char} {sign : Char} (behind : List Char)

/-- Taking characters of a kind stops in front of another one. -/
theorem takeWhile_apart {kind : Char → Bool} (other : kind sign = false) :
    (front ++ sign :: behind).takeWhile kind = front.takeWhile kind := by
  induction front with
  | nil => simp [other]
  | cons c front ih =>
    rw [List.cons_append, List.takeWhile_cons, List.takeWhile_cons, ih]

/-- Dropping characters of a kind stops in front of another one. -/
theorem dropWhile_apart {kind : Char → Bool} (other : kind sign = false) :
    (front ++ sign :: behind).dropWhile kind = front.dropWhile kind ++ sign :: behind := by
  induction front with
  | nil => simp [other]
  | cons c front ih =>
    rw [List.cons_append, List.dropWhile_cons, List.dropWhile_cons, ih]
    split <;> rfl

/-- A separator is no digit, so that one stands at the front only if it does so in front of it. -/
theorem head_apart (other : isDecimal sign = false) :
    (front ++ sign :: behind).head?.any isDecimal = front.head?.any isDecimal := by
  cases front with
  | nil => simp [other]
  | cons c front => rfl

/-- Without a point behind its digits a mantissa is those digits. -/
theorem splitMantissa?_pointless {text rest : List Char} (left : text.dropWhile isDecimal = rest)
    (pointless : ∀ tail, rest ≠ '.' :: tail) :
    splitMantissa? text
      = if (text.takeWhile isDecimal).isEmpty then none
        else some (text.takeWhile isDecimal, rest) := by
  unfold splitMantissa?
  rw [left]
  dsimp only
  split
  · exact absurd rfl (pointless _)
  · rfl

/-- A mantissa is read up to a separator. -/
theorem splitMantissa?_apart (other : Other sign) :
    splitMantissa? (front ++ sign :: behind)
      = (splitMantissa? front).map fun (mantissa, rest) => (mantissa, rest ++ sign :: behind) := by
  have whole := @takeWhile_apart front sign behind isDecimal other.digit
  have left := @dropWhile_apart front sign behind isDecimal other.digit
  by_cases pointed : ∃ tail, front.dropWhile isDecimal = '.' :: tail
  · obtain ⟨tail, point⟩ := pointed
    -- The point is found in front of the separator, and so are the digits behind it.
    unfold splitMantissa?
    simp only [whole, left, point, List.cons_append, head_apart behind other.digit,
      takeWhile_apart behind other.digit, dropWhile_apart behind other.digit]
    split
    · rfl
    · split <;> rfl
  · -- Neither a separator nor anything else behind the digits is a point.
    have pointless : ∀ tail, front.dropWhile isDecimal ++ sign :: behind ≠ '.' :: tail := by
      intro tail same
      cases rest : front.dropWhile isDecimal with
      | nil =>
        rw [rest] at same
        cases same
        exact other.mark (by decide)
      | cons c later =>
        rw [rest] at same
        cases same
        exact pointed ⟨later, rest⟩
    rw [splitMantissa?_pointless left pointless, whole,
      splitMantissa?_pointless rfl fun tail same => pointed ⟨tail, same⟩]
    split <;> rfl

/-- A text without a sign in front has none there either when a separator follows it: a sign does
not part the mark of an exponent from what stands behind it. -/
theorem unsigned_apart {mark : Char} {digits : List Char} (isMark : mark = 'e' ∨ mark = 'E')
    (parts : Parts (mark :: digits) sign)
    (unsigned : ∀ c, digits.head? = some c → c ≠ '+' ∧ c ≠ '-') :
    ∀ c, (digits ++ sign :: behind).head? = some c → c ≠ '+' ∧ c ≠ '-' := by
  -- Only without digits does the separator come first, and behind a mark it is no sign.
  cases digits with
  | nil =>
    intro c first
    cases first
    have unmarked : ¬(sign = '+' ∨ sign = '-') := by
      intro isSign
      have := parts.unmarked isSign
      rcases isMark with rfl | rfl <;> simp at this
    exact not_or.1 unmarked
  | cons c tail => exact unsigned

/-- An exponent is read up to a separator. -/
theorem splitExponent_apart (parts : Parts front sign) :
    splitExponent (front ++ sign :: behind)
      = ((splitExponent front).1, (splitExponent front).2 ++ sign :: behind) := by
  have other := other_of_listed parts.listed
  have whole : ∀ {digits : List Char},
      (digits ++ sign :: behind).takeWhile isDecimal = digits.takeWhile isDecimal :=
    takeWhile_apart behind other.digit
  have left : ∀ {digits : List Char},
      (digits ++ sign :: behind).dropWhile isDecimal
        = digits.dropWhile isDecimal ++ sign :: behind :=
    dropWhile_apart behind other.digit
  -- Without a mark there is no exponent, and the separator itself is no mark.
  match front with
  | [] =>
    have unmarked : ¬(sign = 'e' ∨ sign = 'E') := by
      rintro (rfl | rfl)
      · exact other.mark (by decide)
      · exact other.mark (by decide)
    simp only [List.nil_append, splitExponent, unmarked, if_false]
  | mark :: digits =>
    by_cases isMark : mark = 'e' ∨ mark = 'E'
    · by_cases signed : ∃ c tail, digits = c :: tail ∧ (c = '+' ∨ c = '-')
      · obtain ⟨c, tail, rfl, isSign⟩ := signed
        rw [List.cons_append, List.cons_append, splitExponent_signed isMark isSign,
          splitExponent_signed isMark isSign, head_apart behind other.digit, whole, left]
        split <;> rfl
      · -- A sign directly behind the mark would be the sign of the exponent.
        have unsigned : ∀ c, digits.head? = some c → c ≠ '+' ∧ c ≠ '-' := by
          intro c first
          obtain ⟨tail, same⟩ := List.head?_eq_some_iff.1 first
          exact not_or.1 fun isSign => signed ⟨c, tail, same, isSign⟩
        rw [List.cons_append,
          splitExponent_unsigned isMark (unsigned_apart behind isMark parts unsigned),
          splitExponent_unsigned isMark unsigned, head_apart behind other.digit, whole, left]
        split <;> rfl
    · simp only [List.cons_append, splitExponent, isMark, if_false]

/-- A word is read up to a separator. -/
theorem splitWord?_apart {word : List Char} (absent : sign ∉ word) :
    splitWord? word (front ++ sign :: behind)
      = (splitWord? word front).map fun (taken, rest) => (taken, rest ++ sign :: behind) := by
  unfold splitWord?
  -- A word that ends behind the separator would hold it.
  have same : word.isPrefixOf (front ++ sign :: behind) = word.isPrefixOf front := by
    rw [Bool.eq_iff_iff, List.isPrefixOf_iff_prefix, List.isPrefixOf_iff_prefix]
    refine ⟨fun initial => ?_, fun initial => initial.trans (List.prefix_append _ _)⟩
    rcases Nat.lt_or_ge front.length word.length with longer | shorter
    · have upTo : front ++ [sign] <+: front ++ sign :: behind := ⟨behind, by simp⟩
      have held : front ++ [sign] <+: word := by
        refine List.prefix_of_prefix_length_le upTo initial ?_
        rw [List.length_append, List.length_singleton]
        exact longer
      exact absurd (held.subset (by simp)) absent
    · exact List.prefix_of_prefix_length_le initial (List.prefix_append _ _) shorter
  rw [same]
  split
  · rename_i initial
    have within := (List.isPrefixOf_iff_prefix.1 initial).length_le
    simp [List.drop_append_of_le_length within]
  · rfl

/-- A number without a sign is read up to a separator. -/
theorem splitUnsigned?_apart (parts : Parts front sign) :
    splitUnsigned? (front ++ sign :: behind)
      = (splitUnsigned? front).map fun (number, rest) => (number, rest ++ sign :: behind) := by
  have other := other_of_listed parts.listed
  have absent : ∀ {word : List Char}, word.all (".eEInfityNa".toList.contains ·)
      = true → sign ∉ word :=
    fun listed member => other.mark (by simpa using List.all_eq_true.1 listed sign member)
  have infinity := @splitWord?_apart front sign behind "Infinity".toList (absent (by decide))
  have nan := @splitWord?_apart front sign behind "NaN".toList (absent (by decide))
  unfold splitUnsigned?
  rw [splitMantissa?_apart behind other, infinity, nan]
  cases found : splitMantissa? front with
  | none =>
    -- Only a word can stand here, and at most one of the two does.
    dsimp only [Option.map_none]
    cases splitWord? "Infinity".toList front <;> rfl
  | some pair =>
    obtain ⟨mantissa, rest⟩ := pair
    rw [← (splitMantissa?_append found).1] at parts
    simp only [Option.map_some, splitExponent_apart behind parts.suffix]

/-- A number that starts in front of a separator is read up to it. -/
theorem splitSigned?_apart (parts : Parts front sign) (nonempty : front ≠ []) :
    splitSigned? (front ++ sign :: behind)
      = (splitSigned? front).map fun (number, rest) => (number, rest ++ sign :: behind) := by
  -- The separator is not the first character, which alone may be the sign of the number.
  obtain ⟨c, tail, rfl⟩ := List.exists_cons_of_ne_nil nonempty
  have later := @splitUnsigned?_apart tail sign behind (@Parts.suffix [c] tail sign parts)
  by_cases plus : c = '+'
  · subst plus
    simp only [List.cons_append, splitSigned?, later]
    cases splitUnsigned? tail <;> rfl
  by_cases minus : c = '-'
  · subst minus
    simp only [List.cons_append, splitSigned?, later]
    cases splitUnsigned? tail <;> rfl
  · have unsigned := splitUnsigned?_apart behind parts
    rw [List.cons_append] at unsigned ⊢
    rw [splitSigned?_cons _ plus minus, splitSigned?_cons _ plus minus, unsigned]

/-- A bound is read up to a separator. -/
theorem splitBound?_apart (parts : Parts front sign) :
    splitBound? (front ++ sign :: behind)
      = (splitBound? front).map fun (number, rest) => (number, rest ++ sign :: behind) := by
  have other := other_of_listed parts.listed
  -- Blanks in front of the sign and behind it are passed over without reaching the separator.
  have stripped : ∀ {text : List Char},
      stripLeft (text ++ sign :: behind) = stripLeft text ++ sign :: behind :=
    dropWhile_apart behind other.blank
  have suffix : ∀ {text : List Char}, Parts text sign → Parts (stripLeft text) sign := by
    intro text parts
    rw [← List.takeWhile_append_dropWhile (p := isBlank) (l := text)] at parts
    exact parts.suffix
  unfold splitBound?
  rw [stripped]
  have left := suffix parts
  -- The separator is not the sign of a bound, so that a bound starts in front of it or not at all.
  match same : stripLeft front with
  | [] =>
    rw [List.nil_append]
    split
    · rename_i first
      exact absurd (List.cons.inj first).1 other.bound
    · rfl
  | c :: rest =>
    rw [same] at left
    by_cases bounded : c = '±'
    · subst bounded
      simp only [List.cons_append, stripped]
      exact splitUnsigned?_apart behind (suffix (@Parts.suffix ['±'] rest sign left))
    · rw [List.cons_append]
      split
      · rename_i first
        exact absurd (List.cons.inj first).1 bounded
      · split
        · rename_i first
          exact absurd (List.cons.inj first).1 bounded
        · rfl

/-- A literal that starts in front of a separator is read up to it, whatever stands behind that. -/
theorem ofText?_apart (parts : Parts front sign) (nonempty : front ≠ []) :
    ofText? (front ++ sign :: behind)
      = (ofText? front).map fun literal =>
        { literal with rest := literal.rest ++ sign :: behind } := by
  unfold ofText?
  rw [splitSigned?_apart behind parts nonempty]
  -- First the number is read up to the separator, then a bound in what is left.
  cases found : splitSigned? front with
  | none => rfl
  | some pair =>
    obtain ⟨number, rest⟩ := pair
    rw [← (splitSigned?_append found).1] at parts
    simp only [Option.map_some, splitBound?_apart behind parts.suffix]
    cases splitBound? rest <;> rfl

/-- A literal that is read up to a separator is read in the same way in front of any other text. -/
theorem ofText?_replaced (parts : Parts front sign) (nonempty : front ≠ []) {literal : Literal}
    (found : ofText? (front ++ sign :: behind) = some literal) {left : List Char}
    (rest : literal.rest = left ++ sign :: behind) (other : List Char) :
    ofText? (front ++ sign :: other) = some { literal with rest := left ++ sign :: other } := by
  rw [ofText?_apart behind parts nonempty] at found
  obtain ⟨inner, read, rfl⟩ := Option.map_eq_some_iff.1 found
  have same : inner.rest = left := List.append_cancel_right rest
  rw [ofText?_apart other parts nonempty, read, ← same]
  rfl

end Apart

/-- Behind a text that does not end in the mark of an exponent a separator parts as much as
before. -/
theorem Parts.behind {front rest : List Char} {sign : Char} (parts : Parts rest sign)
    (unmarked : front.getLast? ≠ some 'e' ∧ front.getLast? ≠ some 'E') :
    Parts (front ++ rest) sign := by
  refine ⟨parts.listed, fun isSign => ?_⟩
  -- The separator follows the rest, or the front where there is no rest.
  cases rest with
  | nil => simpa using unmarked
  | cons c rest =>
    have last : (front ++ c :: rest).getLast? = (c :: rest).getLast? := by
      simp [List.getLast?_cons]
    rw [last]
    exact parts.unmarked isSign

/-- A text that ends in a digit. -/
def EndsInDigit (text : List Char) : Prop := ∃ front c, text = front ++ [c] ∧ isDecimal c = true

/-- A run of digits ends in one, whatever stands in front of it. -/
theorem IsDigits.ends {digits : List Char} (run : IsDigits digits) (front : List Char) :
    EndsInDigit (front ++ digits) := by
  refine ⟨front ++ digits.dropLast, digits.getLast run.1, ?_, run.2 _ (List.getLast_mem run.1)⟩
  rw [List.append_assoc, List.dropLast_concat_getLast run.1]

/-- No number ends in the mark of an exponent. -/
theorem IsUnsigned.unmarked {number : List Char} (grammar : IsUnsigned number) (front : List Char) :
    (front ++ number).getLast? ≠ some 'e' ∧ (front ++ number).getLast? ≠ some 'E' := by
  have digit : EndsInDigit (front ++ number) →
      (front ++ number).getLast? ≠ some 'e' ∧ (front ++ number).getLast? ≠ some 'E' := by
    rintro ⟨before, c, whole, digit⟩
    rw [whole, List.getLast?_concat]
    simpa using And.intro (ne_of_kind digit (show isDecimal 'e' = false by decide))
      (ne_of_kind digit (show isDecimal 'E' = false by decide))
  cases grammar with
  | @number mantissa exponent digits scale =>
    -- The last digit is one of the exponent, of the fraction or of the whole.
    refine digit ?_
    cases scale with
    | @marked mark sign run isMark isSign scale =>
      have ends := scale.ends (front ++ mantissa ++ mark :: sign)
      simpa using ends
    | absent =>
      cases digits with
      | whole run => simpa using run.ends front
      | @pointed whole fraction before after => simpa using after.ends (front ++ whole ++ ['.'])
  | infinity => simp [List.getLast?_append]
  | nan => simp [List.getLast?_append]

/-- A literal is taken from the front of a text. What is taken has no brackets and does not end in
the mark of an exponent. -/
theorem exists_taken {text : List Char} {literal : Literal} (found : ofText? text = some literal) :
    ∃ taken, text = taken ++ literal.rest ∧ taken ≠ [] ∧ (∀ c ∈ taken, c ≠ '(' ∧ c ≠ ')')
      ∧ taken.getLast? ≠ some 'e' ∧ taken.getLast? ≠ some 'E' := by
  obtain ⟨signed, unsigned⟩ := grammar_of_ofText? found
  obtain ⟨value, rest, split, taken⟩ := ofText?_cases found
  obtain ⟨rfl, nonempty⟩ := splitSigned?_append split
  obtain ⟨bound, tail, bounded, rfl⟩ | ⟨_, rfl⟩ := taken
  · -- The bound stands behind its sign, with blanks on both sides of it.
    obtain ⟨before, between, rfl, blanks⟩ := splitBound?_append bounded
    have grammar := unsigned bound rfl
    have blank : ∀ c ∈ before ++ between, c ≠ '(' ∧ c ≠ ')' := fun c member =>
      ⟨ne_of_kind (blanks c member) (by decide), ne_of_kind (blanks c member) (by decide)⟩
    refine ⟨value ++ before ++ '±' :: between ++ bound, by simp, by simp [nonempty],
      fun c member => ?_, grammar.unmarked _⟩
    simp only [List.mem_append, List.mem_cons] at member
    rcases member with ((member | member) | rfl | member) | member
    · exact ne_bracket_of_mem (signed.mem c member)
    · exact blank c (List.mem_append_left _ member)
    · decide
    · exact blank c (List.mem_append_right _ member)
    · exact ne_bracket_of_mem (grammar.mem c member)
  · refine ⟨value, rfl, nonempty, fun c member => ne_bracket_of_mem (signed.mem c member), ?_⟩
    cases signed with
    | unsigned grammar => exact grammar.unmarked []
    | plus grammar => exact grammar.unmarked ['+']
    | minus grammar => exact grammar.unmarked ['-']

/-- A digit starts a literal, whatever follows it. -/
theorem ofText?_ne_none {c : Char} (digit : isDecimal c = true) (rest : List Char) :
    ofText? (c :: rest) ≠ none := by
  intro none
  have unsigned : splitUnsigned? (c :: rest) = Option.none := by
    rw [← splitSigned?_cons rest (ne_of_kind digit (by decide)) (ne_of_kind digit (by decide))]
    exact Option.map_eq_none_iff.1 none
  -- The digits at the front are a mantissa at least.
  have front : ((c :: rest).takeWhile isDecimal).isEmpty = false := by simp [digit]
  have mantissa : splitMantissa? (c :: rest) ≠ Option.none := by
    unfold splitMantissa?
    simp only [front]
    split
    · split <;> simp
    · simp
  unfold splitUnsigned? at unsigned
  split at unsigned
  · cases unsigned
  · exact mantissa ‹_›

/-- Whether a character can be the second one of a literal behind a sign, a point or a letter. -/
def goesOn (c : Char) : Bool := isDecimal c || ['.', 'I', 'N', 'n', 'a'].contains c

/-- A sign, a point or a letter starts no literal if the next character does not go on with it. -/
theorem ofText?_eq_none_of_second {c d : Char} (rest : List Char) (start : isDecimal c = false)
    (second : goesOn d = false) : ofText? (c :: d :: rest) = none := by
  simp only [goesOn, Bool.or_eq_false_iff] at second
  obtain ⟨digit, unlike⟩ := second
  -- The characters that start a literal without being digits are few.
  have other : d ≠ '.' ∧ d ≠ 'I' ∧ d ≠ 'N' ∧ d ≠ 'n' ∧ d ≠ 'a' := by simpa using unlike
  obtain ⟨point, upperI, upperN, lowerN, lowerA⟩ := other
  by_cases unlike : c ∈ ['.', '+', '-', 'I', 'N']
  · have none : splitUnsigned? (d :: rest) = Option.none := by
      have mantissa := splitMantissa?_eq_none d rest digit point
      simp [splitUnsigned?, mantissa, splitWord?, Ne.symm upperI, Ne.symm upperN]
    -- Behind a sign a number would have to start, and the others want one character each.
    simp only [List.mem_cons, List.not_mem_nil, or_false] at unlike
    rcases unlike with rfl | rfl | rfl | rfl | rfl
    · simp [ofText?, splitSigned?, splitUnsigned?, splitMantissa?, splitWord?, start, digit]
    · simp [ofText?, splitSigned?, none]
    · simp [ofText?, splitSigned?, none]
    · have mantissa := splitMantissa?_eq_none 'I' (d :: rest) start (by decide)
      simp [ofText?, splitSigned?, splitUnsigned?, mantissa, splitWord?, Ne.symm lowerN]
    · have mantissa := splitMantissa?_eq_none 'N' (d :: rest) start (by decide)
      simp [ofText?, splitSigned?, splitUnsigned?, mantissa, splitWord?, Ne.symm lowerA]
  · exact ofText?_eq_none (d :: rest) start unlike

end PlusMinus.Literal
