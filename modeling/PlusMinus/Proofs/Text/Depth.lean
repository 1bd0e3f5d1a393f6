import Mathlib.Data.List.Infix

/-! The brackets of a text: how deep it nests them, and where its innermost ones stand. -/

namespace PlusMinus.Text

/-- The brackets of a text without what stands between them. -/
def brackets (text : List Char) : List Char := text.filter fun c => c = '(' || c = ')'

/-- The depth behind a text, from a depth on, if no bracket is closed that is not open. -/
def depth? (depth : Nat) : List Char → Option Nat
  | [] => some depth
  | c :: rest =>
    if c = '(' then depth? (depth + 1) rest
    else if c = ')' then match depth with
      | 0 => none
      | outer + 1 => depth? outer rest
    else depth? depth rest

/-- Every closing bracket of a text has an opening one before it, and none stays open. -/
def Balanced (text : List Char) : Prop := depth? 0 text = some 0

instance (text : List Char) : Decidable (Balanced text) := inferInstanceAs (Decidable (_ = _))

/-- An opening bracket makes a text deeper. -/
@[simp] theorem depth?_opening (depth : Nat) (rest : List Char) :
    depth? depth ('(' :: rest) = depth? (depth + 1) rest := rfl

/-- A closing bracket ends the innermost open one. -/
@[simp] theorem depth?_closing (depth : Nat) (rest : List Char) :
    depth? (depth + 1) (')' :: rest) = depth? depth rest := rfl

/-- The depth behind two texts is counted through the first and then through the second. -/
theorem depth?_append (depth : Nat) (front rest : List Char) :
    depth? depth (front ++ rest) = (depth? depth front).bind (depth? · rest) := by
  induction front generalizing depth with
  | nil => rfl
  | cons c front ih =>
    -- The first character changes the depth in the same way on both sides.
    rw [List.cons_append, depth?.eq_def, depth?.eq_def depth (c :: front)]
    dsimp only
    split
    · exact ih _
    split
    · cases depth with
      | zero => rfl
      | succ depth => exact ih depth
    · exact ih depth

/-- A text without brackets keeps the depth. -/
theorem depth?_bracketless {text : List Char} (bracketless : ∀ c ∈ text, c ≠ '(' ∧ c ≠ ')')
    (depth : Nat) : depth? depth text = some depth := by
  induction text with
  | nil => rfl
  | cons c rest ih =>
    obtain ⟨notOpening, notClosing⟩ := bracketless c (by simp)
    simp only [depth?, notOpening, notClosing, if_false]
    exact ih fun d member => bracketless d (by simp [member])

/-- Only brackets count for the depth. -/
theorem depth?_brackets (text : List Char) (depth : Nat) :
    depth? depth (brackets text) = depth? depth text := by
  induction text generalizing depth with
  | nil => rfl
  | cons c rest ih =>
    unfold brackets at ih ⊢
    -- A bracket is kept and counted on both sides, and anything else is neither.
    by_cases opening : c = '('
    · subst opening
      exact ih (depth + 1)
    by_cases closing : c = ')'
    · subst closing
      cases depth with
      | zero => rfl
      | succ depth => exact ih depth
    · rw [List.filter_cons_of_neg (by simp [opening, closing]), ih]
      simp only [depth?, opening, closing, if_false]

/-- A text has the brackets of its two sides. -/
@[simp] theorem brackets_append (front rest : List Char) :
    brackets (front ++ rest) = brackets front ++ brackets rest := List.filter_append ..

/-- An opening bracket is one of the brackets. -/
@[simp] theorem brackets_opening (rest : List Char) :
    brackets ('(' :: rest) = '(' :: brackets rest :=
  rfl

/-- A text without brackets has none. -/
theorem brackets_bracketless {text : List Char} (bracketless : ∀ c ∈ text, c ≠ '(' ∧ c ≠ ')') :
    brackets text = [] := by
  simpa [brackets] using bracketless

/-- A bracket of a text is among its brackets. -/
theorem mem_brackets {c : Char} {text : List Char} :
    c ∈ brackets text ↔ c ∈ text ∧ (c = '(' ∨ c = ')') := by
  simp [brackets]

/-- All opening brackets of a text are among its brackets. -/
theorem count_opening_brackets (text : List Char) :
    (brackets text).count '(' = text.count '(' :=
  List.count_filter (by decide)

/-- The depth tells how many more brackets are opened than closed. -/
theorem count_of_depth? {text : List Char} {before behind : Nat}
    (found : depth? before text = some behind) :
    text.count '(' + before = text.count ')' + behind := by
  induction text generalizing before with
  | nil =>
    cases found
    simp
  | cons c rest ih =>
    -- A bracket adds to one of the counts and changes the depth by as much.
    rw [depth?.eq_def] at found
    dsimp only at found
    split at found
    · rename_i opening
      subst opening
      have later := ih found
      simp
      omega
    split at found
    · rename_i closing
      subst closing
      cases before with
      | zero => cases found
      | succ before =>
        have later := ih found
        simp
        omega
    · rename_i notOpening notClosing
      have later := ih found
      simpa [List.count_cons, notOpening, notClosing] using later

/-- A text closes no bracket that is not open just when no front of it has more closing brackets
than opening ones. -/
theorem isSome_depth?_iff (depth : Nat) (text : List Char) :
    (depth? depth text).isSome = true
      ↔ ∀ front, front <+: text → front.count ')' ≤ depth + front.count '(' := by
  constructor
  · intro found front ⟨rest, whole⟩
    rw [← whole, depth?_append] at found
    -- Where the whole has a depth the front has one, and that is how many brackets it leaves open.
    cases inside : depth? depth front with
    | none =>
      rw [inside] at found
      cases found
    | some behind =>
      have count := count_of_depth? inside
      omega
  · intro fronts
    induction text generalizing depth with
    | nil => rfl
    | cons c rest ih =>
      -- A front of the rest is one of the whole, with the first character before it.
      have later : ∀ outer : Nat, (∀ front, front <+: rest →
          (c :: front).count ')' ≤ depth + (c :: front).count '(' →
          front.count ')' ≤ outer + front.count '(') → (depth? outer rest).isSome = true :=
        fun outer implies => ih outer fun front initial =>
          implies front initial (fronts _ ((List.prefix_cons_inj c).2 initial))
      rw [depth?.eq_def]
      dsimp only
      split
      · rename_i opening
        subst opening
        refine later _ fun front _ bound => ?_
        simp at bound
        omega
      split
      · rename_i closing
        subst closing
        cases depth with
        -- A front of one closing bracket has one too many.
        | zero => exact absurd (fronts [')'] ⟨rest, rfl⟩) (by simp)
        | succ depth =>
          refine later _ fun front _ bound => ?_
          simp at bound
          omega
      · rename_i notOpening notClosing
        refine later _ fun front _ bound => ?_
        simpa [List.count_cons, notOpening, notClosing] using bound

/-- A character that stands in a list has a last place in it. -/
theorem exists_last_of_mem {c : Char} {text : List Char} (member : c ∈ text) :
    ∃ before after, text = before ++ c :: after ∧ c ∉ after := by
  obtain ⟨after, before, split, absent⟩ := List.eq_append_cons_of_mem (List.mem_reverse.2 member)
  refine ⟨before.reverse, after.reverse, ?_, by simpa using absent⟩
  rw [← List.reverse_reverse text, split]
  simp

/-- Where brackets are opened and none is closed, no bracket follows the last one that is opened. -/
theorem exists_last_opening {text : List Char} (opens : '(' ∈ text) (unclosed : ')' ∉ text) :
    ∃ before inside, text = before ++ '(' :: inside ∧ ∀ c ∈ inside, c ≠ '(' ∧ c ≠ ')' := by
  obtain ⟨before, inside, rfl, last⟩ := exists_last_of_mem opens
  exact ⟨before, inside, rfl, fun c member => ⟨fun same => last (same ▸ member),
    fun same => unclosed (List.mem_append_right _ (.tail _ (same ▸ member)))⟩⟩

/-- A balanced text with brackets has an innermost one, which the first closing bracket of the text
ends. -/
theorem Balanced.exists_innermost {text : List Char} (balanced : Balanced text)
    (opens : '(' ∈ text) :
    ∃ before inside after, text = before ++ '(' :: (inside ++ ')' :: after) ∧ ')' ∉ before
      ∧ ∀ c ∈ inside, c ≠ '(' ∧ c ≠ ')' := by
  have count := count_of_depth? balanced
  have closed : ')' ∈ text := List.count_pos_iff.1 (by
    have := List.count_pos_iff.2 opens
    omega)
  obtain ⟨front, after, rfl, unclosed⟩ := List.eq_append_cons_of_mem closed
  -- Without an opening bracket before it the first closing one would end nothing.
  have opened : '(' ∈ front := by
    by_contra absent
    have plain : ∀ c ∈ front, c ≠ '(' ∧ c ≠ ')' := fun c member =>
      ⟨fun same => absent (same ▸ member), fun same => unclosed (same ▸ member)⟩
    rw [Balanced, depth?_append, depth?_bracketless plain] at balanced
    cases balanced
  obtain ⟨before, inside, rfl, bracketless⟩ := exists_last_opening opened unclosed
  exact ⟨before, inside, after, by simp, fun member => unclosed (by simp [member]), bracketless⟩

end PlusMinus.Text
