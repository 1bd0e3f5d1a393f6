import PlusMinus.Propagation.Bracket

/-! The first closing bracket of an expression ends its innermost bracket. -/

namespace PlusMinus.Bracket

/-- The search passes over what is no bracket. -/
theorem search_bracketless {text : List Char} (bracketless : ∀ c ∈ text, c ≠ '(' ∧ c ≠ ')')
    (position : Nat) (depth : Int) (start deepest : Nat) (rest : List Char) :
    search position depth start deepest (text ++ rest)
      = search (position + text.length) depth start deepest rest := by
  -- Only the position counts on.
  induction text generalizing position with
  | nil => rfl
  | cons c text ih =>
    obtain ⟨notOpening, notClosing⟩ := bracketless c (by simp)
    have step : search position depth start deepest (c :: (text ++ rest))
        = search (position + 1) depth start deepest (text ++ rest) := by
      rw [search] <;> assumption
    rw [List.cons_append, step, ih fun c member => bracketless c (by simp [member]),
      List.length_cons, Nat.add_right_comm, Nat.add_assoc]

/-- As long as no bracket is opened the search finds none, however many are closed. -/
theorem search_unopened {text : List Char} (unopened : '(' ∉ text) (position : Nat) (depth : Int)
    (start : Nat) (rest : List Char) :
    search position depth start 0 (text ++ rest)
      = search (position + text.length) (depth - text.count ')') start 0 rest := by
  -- Each closing bracket lowers the depth by one, below zero as well.
  induction text generalizing position depth with
  | nil => simp
  | cons c text ih =>
    have later : '(' ∉ text := fun member => unopened (by simp [member])
    have length : position + 1 + text.length = position + (c :: text).length := by
      rw [List.length_cons]
      omega
    rw [← length, List.cons_append]
    by_cases closing : c = ')'
    · subst closing
      have count : depth - (')' :: text).count ')' = depth - 1 - text.count ')' := by
        rw [List.count_cons_self]
        omega
      rw [search, if_neg (by omega), ih later, count]
    · have plain : ∀ d ∈ [c], d ≠ '(' ∧ d ≠ ')' := by
        simpa [closing] using fun same : c = '(' => unopened (by simp [same])
      rw [List.count_cons_of_ne closing, ← ih later]
      exact search_bracketless plain position depth start 0 (text ++ rest)

/-- As long as no bracket is closed the search is at the deepest place, or still below zero. -/
theorem search_unclosed {text : List Char} (unclosed : ')' ∉ text) (position : Nat) (depth : Int)
    (start : Nat) (rest : List Char) :
    ∃ start' : Nat, search position depth start depth.toNat (text ++ rest)
      = search (position + text.length) (depth + text.count '(') start'
          (depth + text.count '(').toNat rest := by
  -- The depth only grows, so that every bracket opened above zero is the deepest one so far.
  induction text generalizing position depth start with
  | nil => exact ⟨start, by simp⟩
  | cons c text ih =>
    have later : ')' ∉ text := fun member => unclosed (by simp [member])
    have length : position + 1 + text.length = position + (c :: text).length := by
      rw [List.length_cons]
      omega
    by_cases opening : c = '('
    · subst opening
      have count : depth + ('(' :: text).count '(' = depth + 1 + text.count '(' := by
        rw [List.count_cons_self]
        omega
      rw [List.cons_append, search, ← length, count]
      split
      · have deepest : depth.toNat + 1 = (depth + 1).toNat := by omega
        rw [deepest]
        exact ih later _ _ _
      · have deepest : depth.toNat = (depth + 1).toNat := by omega
        rw [deepest]
        exact ih later _ _ _
    · have plain : ∀ d ∈ [c], d ≠ '(' ∧ d ≠ ')' := by
        simpa [opening] using fun same : c = ')' => unclosed (by simp [same])
      obtain ⟨start', same⟩ := ih later (position + 1) depth start
      refine ⟨start', ?_⟩
      rw [List.cons_append, ← length, List.count_cons_of_ne opening, ← same]
      exact search_bracketless plain position depth start depth.toNat (text ++ rest)

/-- Behind brackets that are closed first and others that are opened then, the search is as deep as
the opened ones outnumber the closed ones. -/
theorem search_closed_opened {closed opened : List Char} (unopened : '(' ∉ closed)
    (unclosed : ')' ∉ opened) (rest : List Char) :
    ∃ start : Nat, search 0 0 0 0 (closed ++ opened ++ rest)
      = search (closed ++ opened).length (opened.count '(' - closed.count ')') start
          ((opened.count '(' : Int) - closed.count ')').toNat rest := by
  obtain ⟨start, same⟩ :=
    search_unclosed unclosed (0 + closed.length) (0 - (closed.count ')' : Int)) 0 rest
  refine ⟨start, ?_⟩
  -- Closing brackets lead below zero, and no depth below zero is the deepest one.
  have deepest : (0 - (closed.count ')' : Int)).toNat = 0 := by omega
  have length : (closed ++ opened).length = 0 + closed.length + opened.length := by simp
  have depth : (opened.count '(' : Int) - closed.count ')'
      = 0 - closed.count ')' + opened.count '(' := by omega
  rw [List.append_assoc, search_unopened unopened, length, depth, ← same, deepest]

/-- The innermost bracket starts where the first one is opened that has only closing signs and
unclosed opening ones before it, if the opening ones are as many as the closing ones. -/
theorem innermost?_eq_some {closed opened inside : List Char} (after : List Char)
    (unopened : '(' ∉ closed) (unclosed : ')' ∉ opened)
    (bracketless : ∀ c ∈ inside, c ≠ '(' ∧ c ≠ ')') (fewer : closed.count ')' ≤ opened.count '(') :
    ∃ depth, innermost? (String.ofList (closed ++ opened ++ '(' :: (inside ++ ')' :: after)))
      = some ⟨(closed ++ opened).length, (closed ++ opened).length + 1 + inside.length, depth⟩ := by
  obtain ⟨start, same⟩ := search_closed_opened unopened unclosed ('(' :: (inside ++ ')' :: after))
  refine ⟨((opened.count '(' : Int) - closed.count ')').toNat + 1, ?_⟩
  unfold innermost?
  -- The bracket is deeper than all before it, and the next sign closes it.
  rw [String.toList_ofList, same, search, if_pos (by omega), search_bracketless bracketless, search,
    if_pos ⟨by omega, by omega⟩]

/-- An expression without brackets has no innermost one. -/
theorem innermost?_eq_none {text : List Char} (bracketless : ∀ c ∈ text, c ≠ '(' ∧ c ≠ ')') :
    innermost? (String.ofList text) = none := by
  -- The search reaches the end of the text and has nothing to show.
  have passed := search_bracketless bracketless 0 0 0 0 []
  unfold innermost?
  rw [String.toList_ofList]
  simpa [search] using passed

/-- What stands between the signs of a bracket is its inside. -/
theorem inside_eq (before inside after : List Char) (depth : Nat) :
    (Bracket.mk before.length (before.length + 1 + inside.length) depth).inside
      (String.ofList (before ++ '(' :: (inside ++ ')' :: after))) = String.ofList inside := by
  -- The text is cut at the closing sign, and what is left of it behind the opening one.
  have split : before ++ '(' :: (inside ++ ')' :: after)
      = (before ++ '(' :: inside) ++ ')' :: after := by simp
  have length : before.length + 1 + inside.length = (before ++ '(' :: inside).length := by
    rw [List.length_append, List.length_cons]
    omega
  have front : before ++ '(' :: inside = (before ++ ['(']) ++ inside := by simp
  have start : before.length + 1 = (before ++ ['(']).length := by simp
  unfold Bracket.inside
  rw [String.toList_ofList]
  dsimp only
  rw [split, length, List.take_left, front, start, List.drop_left]

/-- Replacing a bracket keeps what stands before and behind it. -/
theorem replace_eq (before inside after : List Char) (depth : Nat) (text : String) :
    (Bracket.mk before.length (before.length + 1 + inside.length) depth).replace
      (String.ofList (before ++ '(' :: (inside ++ ')' :: after))) text
      = String.ofList (before ++ (text.toList ++ after)) := by
  -- The signs themselves are replaced along with what stands between them.
  have split : before ++ '(' :: (inside ++ ')' :: after)
      = (before ++ '(' :: (inside ++ [')'])) ++ after := by simp
  have length : before.length + 1 + inside.length + 1
      = (before ++ '(' :: (inside ++ [')'])).length := by
    simp only [List.length_append, List.length_cons, List.length_nil]
    omega
  unfold Bracket.replace
  rw [String.toList_ofList]
  dsimp only
  rw [List.take_left, split, length, List.drop_left]
  apply String.toList_inj.1
  simp

end PlusMinus.Bracket
