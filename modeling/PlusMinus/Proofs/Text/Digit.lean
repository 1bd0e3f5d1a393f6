import PlusMinus.Text.Character

/-! Runs of characters of one kind, and decimal digits, which are never blank, so that stripping a
number leaves it as it is. -/

namespace PlusMinus.Text

/-- Taking characters of a kind stops where a run of them does. -/
theorem takeWhile_run {kind : Char → Bool} {run rest : List Char}
    (all : ∀ c ∈ run, kind c = true) (ends : ∀ c, rest.head? = some c → kind c = false) :
    (run ++ rest).takeWhile kind = run := by
  -- The whole run is taken, and then at most the first character behind it is looked at.
  rw [List.takeWhile_append_of_pos all]
  cases rest with
  | nil => simp
  | cons c tail => simp [ends c rfl]

/-- Dropping characters of a kind stops where a run of them does. -/
theorem dropWhile_run {kind : Char → Bool} {run rest : List Char}
    (all : ∀ c ∈ run, kind c = true) (ends : ∀ c, rest.head? = some c → kind c = false) :
    (run ++ rest).dropWhile kind = rest := by
  rw [List.dropWhile_append_of_pos all]
  cases rest with
  | nil => rfl
  | cons c tail => simp [ends c rfl]

/-- A test that two characters answer differently tells them apart. -/
theorem ne_of_kind {kind : Char → Bool} {c d : Char} (own : kind c = true)
    (other : kind d = false) :
    c ≠ d := by
  rintro rfl
  rw [own] at other
  cases other

/-- What is no capital in ASCII is its own small letter there. -/
theorem toLower_eq_self {c : Char} (other : c.toNat < 65 ∨ 90 < c.toNat) : c.toLower = c := by
  unfold Char.toLower
  rw [dif_neg]
  simp only [ge_iff_le, UInt32.le_iff_toNat_le, not_and]
  intro capital last
  change 65 ≤ c.toNat at capital
  change c.toNat ≤ 90 at last
  omega

/-- The code of an ASCII digit. -/
theorem toNat_of_isDigit {c : Char} (digit : c.isDigit = true) :
    0x30 ≤ c.toNat ∧ c.toNat ≤ 0x39 := by
  -- The test compares code points as machine words.
  simpa [Char.isDigit, UInt32.le_iff_toNat_le] using digit

/-- The ASCII digits are decimal digits. -/
theorem isDecimal_of_isDigit {c : Char} (digit : c.isDigit = true) : isDecimal c = true := by
  have range := toNat_of_isDigit digit
  unfold isDecimal digitValue?
  dsimp only
  rw [if_pos (by omega), if_pos range]
  rfl

/-- The value of a decimal digit is below ten. -/
theorem digitValue?_lt {c : Char} {value : Nat} (found : digitValue? c = some value) :
    value < 10 := by
  unfold digitValue? at found
  dsimp only at found
  -- In ASCII the value is the distance from the digit zero, and elsewhere that from the zero of a
  -- run.
  split at found
  · split at found
    · cases found
      omega
    · cases found
  · obtain ⟨start, listed, rfl⟩ := Option.map_eq_some_iff.1 found
    have bounds := List.find?_some listed
    simp only [Bool.and_eq_true, decide_eq_true_eq] at bounds
    omega

/-- A decimal digit is not blank, in whatever script it is written. -/
theorem isBlank_of_isDecimal {c : Char} (digit : isDecimal c = true) : isBlank c = false := by
  unfold isDecimal digitValue? at digit
  dsimp only at digit
  unfold isBlank
  split at digit
  · rename_i ascii
    split at digit
    · rename_i range
      rw [if_pos ascii]
      simp only [Bool.or_eq_false_iff, Bool.and_eq_false_iff, decide_eq_false_iff_not]
      omega
    · cases digit
  · rename_i other
    -- No run of ten digits overlaps a range of blanks.
    have apart : ∀ start ∈ zeroDigits, ∀ range ∈ blankRanges,
        range.2 < start ∨ start + 10 ≤ range.1 := by decide
    simp only [Option.isSome_map] at digit
    obtain ⟨start, found⟩ := Option.isSome_iff_exists.1 digit
    have member := List.mem_of_find?_eq_some found
    have bounds := List.find?_some found
    simp only [Bool.and_eq_true, decide_eq_true_eq] at bounds
    rw [if_neg other]
    simp only [inRanges, List.any_eq_false, Bool.and_eq_true, decide_eq_true_eq]
    intro range listed inside
    have := apart start member range listed
    omega

/-- Blanks around a text are stripped when it neither starts nor ends with one. -/
theorem strip_margins {before text after : List Char} (blankBefore : ∀ c ∈ before, isBlank c = true)
    (first : ∀ c, text.head? = some c → isBlank c = false)
    (last : ∀ c, text.getLast? = some c → isBlank c = false)
    (blankAfter : ∀ c ∈ after, isBlank c = true) :
    strip (before ++ (text ++ after)) = text := by
  unfold strip stripLeft
  cases text with
  | nil =>
    -- Without a text everything is blank.
    have all : ∀ c ∈ before ++ after, isBlank c = true :=
      fun c member => (List.mem_append.1 member).elim (blankBefore c) (blankAfter c)
    have nothing : (before ++ after).dropWhile isBlank = [] := by
      rw [← List.append_nil (before ++ after), dropWhile_run all (by simp)]
    rw [List.nil_append, nothing]
    rfl
  | cons c rest =>
    -- From either side the blanks go as far as the text.
    have left : ∀ d, (c :: rest ++ after).head? = some d → isBlank d = false := by
      intro d found
      cases found
      exact first c rfl
    have right : ∀ d, (c :: rest).reverse.head? = some d → isBlank d = false := by
      intro d found
      rw [List.head?_reverse] at found
      exact last d found
    rw [dropWhile_run blankBefore left, List.reverse_append,
      dropWhile_run (by simpa using blankAfter) right, List.reverse_reverse]

/-- Nothing is stripped from a text without blanks. -/
theorem strip_eq_self {text : List Char} (solid : ∀ c ∈ text, isBlank c = false) :
    strip text = text := by
  -- There are no blanks on either side.
  have none : ∀ c ∈ ([] : List Char), isBlank c = true := by simp
  simpa using strip_margins none (fun c found => solid c (List.mem_of_head? found))
    (fun c found => solid c (List.mem_of_getLast? found)) none

end PlusMinus.Text
