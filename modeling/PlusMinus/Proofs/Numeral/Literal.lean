import PlusMinus.Proofs.Numeral.Grammar

/-! A measure in the grammar of literals is taken whole from a text, and nothing else is. -/

namespace PlusMinus.Literal

open Text

/-- The characters that stand in numbers beside digits. -/
def marks : List Char := ".eE+-InfityNa".toList

/-- Every character of a mantissa is a digit or a mark. -/
theorem IsMantissa.mem {mantissa : List Char} (grammar : IsMantissa mantissa) :
    ∀ c ∈ mantissa, isDecimal c = true ∨ c ∈ marks := by
  intro c member
  -- Only the point is no digit.
  cases grammar with
  | whole run => exact .inl (run.2 c member)
  | pointed before after =>
    rcases List.mem_append.1 member with member | member
    · exact .inl (before c member)
    · rcases List.mem_cons.1 member with rfl | member
      · exact .inr (by decide)
      · exact .inl (after.2 c member)

/-- Every character of an exponent is a digit or a mark. -/
theorem IsExponent.mem {exponent : List Char} (grammar : IsExponent exponent) :
    ∀ c ∈ exponent, isDecimal c = true ∨ c ∈ marks := by
  intro c member
  cases grammar with
  | absent => cases member
  | marked isMark isSign run =>
    -- The mark comes first, the sign second if there is one, and then the digits.
    rcases List.mem_cons.1 member with rfl | member
    · rcases isMark with rfl | rfl <;> exact .inr (by decide)
    · rcases List.mem_append.1 member with member | member
      · rcases isSign with rfl | rfl | rfl
        · cases member
        · rw [List.mem_singleton.1 member]
          exact .inr (by decide)
        · rw [List.mem_singleton.1 member]
          exact .inr (by decide)
      · exact .inl (run.2 c member)

/-- Every character of a number is a digit or a mark. -/
theorem IsUnsigned.mem {number : List Char} (grammar : IsUnsigned number) :
    ∀ c ∈ number, isDecimal c = true ∨ c ∈ marks := by
  cases grammar with
  | number mantissa exponent =>
    intro c member
    exact (List.mem_append.1 member).elim (mantissa.mem c) (exponent.mem c)
  -- The letters of the words are among the marks.
  | infinity =>
    have listed : "Infinity".toList.all marks.contains = true := by decide
    exact fun c member => .inr (List.contains_iff_mem.1 (List.all_eq_true.1 listed c member))
  | nan =>
    have listed : "NaN".toList.all marks.contains = true := by decide
    exact fun c member => .inr (List.contains_iff_mem.1 (List.all_eq_true.1 listed c member))

/-- Every character of a signed number is a digit or a mark. -/
theorem IsSigned.mem {number : List Char} (grammar : IsSigned number) :
    ∀ c ∈ number, isDecimal c = true ∨ c ∈ marks := by
  intro c member
  cases grammar with
  | unsigned grammar => exact grammar.mem c member
  -- A sign is a mark, and the rest is an unsigned number.
  | plus grammar =>
    rcases List.mem_cons.1 member with rfl | member
    · exact .inr (by decide)
    · exact grammar.mem c member
  | minus grammar =>
    rcases List.mem_cons.1 member with rfl | member
    · exact .inr (by decide)
    · exact grammar.mem c member

/-- No digit or mark is blank. -/
theorem solid_of_mem {c : Char} (member : isDecimal c = true ∨ c ∈ marks) : isBlank c = false := by
  rcases member with digit | mark
  · exact isBlank_of_isDecimal digit
  · -- The marks are few enough to be looked at one by one.
    have solid : marks.all (!isBlank ·) = true := by decide
    simpa using List.all_eq_true.1 solid c mark

/-- No digit or mark is a bracket. -/
theorem ne_bracket_of_mem {c : Char} (member : isDecimal c = true ∨ c ∈ marks) :
    c ≠ '(' ∧ c ≠ ')' := by
  rcases member with digit | mark
  · exact ⟨ne_of_kind digit (by decide), ne_of_kind digit (by decide)⟩
  · have other : marks.all (fun c => c ≠ '(' ∧ c ≠ ')') = true := by decide
    simpa using List.all_eq_true.1 other c mark

/-- No character of a number is blank. -/
theorem IsUnsigned.solid {number : List Char} (grammar : IsUnsigned number) :
    ∀ c ∈ number, isBlank c = false :=
  fun c member => solid_of_mem (grammar.mem c member)

/-- No character of a signed number is blank. -/
theorem IsSigned.solid {number : List Char} (grammar : IsSigned number) :
    ∀ c ∈ number, isBlank c = false :=
  fun c member => solid_of_mem (grammar.mem c member)

/-- A measure is taken whole from a text in which nothing goes on with its uncertainty. -/
theorem ofText?_of_grammar {value bound rest : List Char} (signed : IsSigned value)
    (unsigned : IsUnsigned bound) (stops : Stops rest) :
    ofText? (value ++ '±' :: (bound ++ rest)) = some ⟨value, some bound, rest⟩ := by
  have mark : Stops ('±' :: (bound ++ rest)) := by
    intro c first
    cases first
    decide
  -- No blank has to be skipped before the sign or behind it.
  obtain ⟨c, tail, same⟩ := List.exists_cons_of_ne_nil unsigned.ne_nil
  have solid : stripLeft (bound ++ rest) = bound ++ rest := by
    have := unsigned.solid c (by simp [same])
    simp [same, stripLeft, this]
  have skipped : stripLeft ('±' :: (bound ++ rest)) = '±' :: (bound ++ rest) := by
    have : isBlank '±' = false := by decide
    simp [stripLeft, this]
  have found : splitBound? ('±' :: (bound ++ rest)) = some (bound, rest) := by
    simp only [splitBound?, skipped, solid]
    exact splitUnsigned?_of_isUnsigned unsigned stops
  simp [ofText?, splitSigned?_of_isSigned signed mark, found]

/-- A literal that is found follows the grammar, and so does its bound. -/
theorem grammar_of_ofText? {text : List Char} {literal : Literal}
    (found : ofText? text = some literal) :
    IsSigned literal.value ∧ ∀ bound, literal.bound = some bound → IsUnsigned bound := by
  -- The value is found first, and a bound may follow it.
  obtain ⟨value, rest, split, ⟨bound, tail, bounded, rfl⟩ | ⟨_, rfl⟩⟩ := ofText?_cases found
  · refine ⟨isSigned_of_splitSigned? split, fun _ same => ?_⟩
    cases same
    unfold splitBound? at bounded
    split at bounded
    · exact isUnsigned_of_splitUnsigned? bounded
    · cases bounded
  · exact ⟨isSigned_of_splitSigned? split, by simp⟩

/-- A character that neither a number nor a sign starts with starts no literal. -/
theorem ofText?_eq_none {c : Char} (rest : List Char) (other : isDecimal c = false)
    (unlike : c ∉ ['.', '+', '-', 'I', 'N']) : ofText? (c :: rest) = none := by
  simp only [List.mem_cons, List.not_mem_nil, or_false, not_or] at unlike
  obtain ⟨point, plus, minus, infinity, nan⟩ := unlike
  -- It starts neither a mantissa nor one of the words.
  have noWord : ∀ {d : Char} {word : List Char}, c ≠ d →
      splitWord? (d :: word) (c :: rest) = none := by
    intro d word different
    simp [splitWord?, Ne.symm different]
  have unsigned : splitUnsigned? (c :: rest) = none := by
    unfold splitUnsigned?
    rw [splitMantissa?_eq_none c rest other point]
    dsimp only
    rw [show "Infinity".toList = 'I' :: "nfinity".toList from rfl, noWord infinity,
      show "NaN".toList = 'N' :: "aN".toList from rfl, noWord nan]
    rfl
  have signed : splitSigned? (c :: rest) = none :=
    (splitSigned?_cons rest plus minus).trans unsigned
  simp [ofText?, signed]

end PlusMinus.Literal
