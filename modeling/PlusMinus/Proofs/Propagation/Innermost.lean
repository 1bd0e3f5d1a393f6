import PlusMinus.Proofs.Propagation.Progress

/-! Which bracket is the innermost one: the leftmost pair of signs without a bracket between them,
unless more brackets are closed than opened before it. -/

namespace PlusMinus.Bracket

/-- Whether the bracket that is opened at one position of a text is closed at another one, with no
bracket between them. -/
def IsPair (text : List Char) (start stop : Nat) : Prop :=
  start < stop ∧ text[start]? = some '(' ∧ text[stop]? = some ')'
    ∧ ∀ i < stop, start < i → text[i]? ≠ some '(' ∧ text[i]? ≠ some ')'

instance (text : List Char) (start stop : Nat) : Decidable (IsPair text start stop) :=
  inferInstanceAs (Decidable (_ ∧ _ ∧ _ ∧ _))

/-- Whether a pair of a text is the leftmost one. -/
def IsFirstPair (text : List Char) (start stop : Nat) : Prop :=
  IsPair text start stop ∧ ∀ i < start, ∀ j < text.length, ¬IsPair text i j

instance (text : List Char) (start stop : Nat) : Decidable (IsFirstPair text start stop) :=
  inferInstanceAs (Decidable (_ ∧ _))

/-- A character at a position splits a text there. -/
theorem exists_append_of_getElem? {text : List Char} {position : Nat} {c : Char}
    (found : text[position]? = some c) :
    ∃ before after, text = before ++ c :: after ∧ before.length = position := by
  obtain ⟨inside, rfl⟩ := List.getElem?_eq_some_iff.1 found
  refine ⟨text.take position, text.drop (position + 1), ?_, ?_⟩
  · rw [← List.drop_eq_getElem_cons inside, List.take_append_drop]
  · exact List.length_take_of_le inside.le

/-- The signs of a pair split a text, and what they enclose has no brackets. -/
theorem isPair_iff {text : List Char} {start stop : Nat} :
    IsPair text start stop ↔ ∃ before inside after, text = before ++ '(' :: (inside ++ ')' :: after)
      ∧ start = before.length ∧ stop = before.length + 1 + inside.length
      ∧ ∀ c ∈ inside, c ≠ '(' ∧ c ≠ ')' := by
  constructor
  · rintro ⟨less, opening, closing, between⟩
    obtain ⟨before, rest, rfl, rfl⟩ := exists_append_of_getElem? opening
    -- Positions behind the opening sign are positions of the rest.
    have behind : ∀ i, (before ++ '(' :: rest)[before.length + 1 + i]? = rest[i]? := fun i => by
      rw [List.getElem?_append_right (by omega), List.getElem?_cons, if_neg (by omega)]
      congr 1
      omega
    obtain ⟨distance, rfl⟩ : ∃ distance, stop = before.length + 1 + distance :=
      ⟨stop - (before.length + 1), by omega⟩
    rw [behind] at closing
    obtain ⟨inside, after, rfl, rfl⟩ := exists_append_of_getElem? closing
    refine ⟨before, inside, after, rfl, rfl, rfl, fun c member => ?_⟩
    obtain ⟨i, less, rfl⟩ := List.mem_iff_getElem.1 member
    have apart := between (before.length + 1 + i) (by omega) (by omega)
    rw [behind, List.getElem?_append_left less, List.getElem?_eq_getElem less] at apart
    simpa using apart
  · rintro ⟨before, inside, after, rfl, rfl, rfl, bracketless⟩
    refine ⟨by omega, by simp, ?_, fun i less greater => ?_⟩
    · rw [List.getElem?_append_right (by omega), List.getElem?_cons, if_neg (by omega),
        List.getElem?_append_right (by omega), List.getElem?_cons, if_pos (by omega)]
    · have inner : i - before.length - 1 < inside.length := by omega
      rw [List.getElem?_append_right (by omega), List.getElem?_cons, if_neg (by omega),
        List.getElem?_append_left inner, List.getElem?_eq_getElem inner]
      simpa using bracketless _ (List.getElem_mem inner)

/-- An innermost bracket starts at an opening sign. -/
theorem Innermost.getElem?_start {text : List Char} {bracket : Bracket}
    (innermost : Innermost text bracket) : text[bracket.start]? = some '(' := by
  cases innermost <;> simp

/-- Without a pair all brackets that a text closes come before those that it opens. -/
theorem exists_closed_opened {text : List Char} (unpaired : ∀ start stop, ¬IsPair text start stop) :
    ∃ closed opened, text = closed ++ opened ∧ '(' ∉ closed ∧ ')' ∉ opened := by
  by_cases opens : '(' ∈ text
  · obtain ⟨closed, rest, rfl, unopened⟩ := List.eq_append_cons_of_mem opens
    refine ⟨closed, '(' :: rest, rfl, unopened, fun closes => ?_⟩
    -- The first closing sign behind the opening one would make a pair with the last one before it.
    obtain ⟨front, after, whole, unclosed⟩ := List.eq_append_cons_of_mem closes
    have opened : '(' ∈ front := by
      cases front with
      | nil => cases whole
      | cons c front => exact (List.cons.inj whole).1 ▸ List.mem_cons_self
    obtain ⟨before, inside, rfl, bracketless⟩ := Text.exists_last_opening opened unclosed
    refine unpaired _ _ (isPair_iff.2 ⟨closed ++ before, inside, after, ?_, rfl, rfl, bracketless⟩)
    rw [whole]
    simp
  · exact ⟨text, [], by simp, opens, List.not_mem_nil⟩

/-- A search that has found nothing so far finds what starts behind it. -/
theorem le_start_of_search {position start deepest : Nat} {depth : Int} {text : List Char}
    {bracket : Bracket} {bound : Nat} (behind : bound ≤ position)
    (found : 0 < deepest → bound ≤ start)
    (searched : search position depth start deepest text = some bracket) :
    bound ≤ bracket.start := by
  -- Only an opening bracket behind the bound moves the start, so both facts go on with the search.
  fun_induction search position depth start deepest text with
  | case1 => cases searched
  | case2 position depth start deepest some =>
    cases searched
    exact found (by omega)
  | case3 position depth start deepest rest deeper ih =>
    exact ih (by omega) (fun _ => behind) searched
  | case4 position depth start deepest rest _ ih => exact ih (by omega) found searched
  | case5 position depth start deepest rest deep =>
    cases searched
    exact found deep.2
  | case6 position depth start deepest rest _ ih => exact ih (by omega) found searched
  | case7 position depth start deepest c rest _ _ ih => exact ih (by omega) found searched

/-- A search that is outside of all brackets finds none just where no front of the text opens more
brackets than it closes. -/
theorem search_eq_none_iff {depth : Int} (outside : depth ≤ 0) (position start : Nat)
    (text : List Char) :
    search position depth start 0 text = none
      ↔ ∀ front, front <+: text → depth + front.count '(' ≤ front.count ')' := by
  induction text generalizing position depth with
  | nil => simpa [search] using outside
  | cons c rest ih =>
    -- A front of the whole is empty, or the first character and a front of the rest.
    have fronts : (∀ front, front <+: c :: rest → depth + front.count '(' ≤ front.count ')')
        ↔ ∀ front, front <+: rest → depth + (c :: front).count '(' ≤ (c :: front).count ')' := by
      constructor
      · exact fun bound front initial => bound _ ((List.prefix_cons_inj c).2 initial)
      · intro bound front initial
        rcases List.prefix_cons_iff.1 initial with rfl | ⟨tail, rfl, initialTail⟩
        · simpa using outside
        · exact bound tail initialTail
    rw [fronts]
    by_cases opening : c = '('
    · subst opening
      simp only [List.count_cons_self, List.count_cons_of_ne (show ('(' : Char) ≠ ')' by decide)]
      rw [search]
      split
      · -- The bracket is found, and its sign is the front that opens more.
        have found := isSome_search (Nat.succ_pos 0) (position + 1) (depth + 1) position rest
        constructor
        · intro none
          rw [none] at found
          cases found
        · intro bound
          have atSign := bound [] (List.nil_prefix)
          simp at atSign
          omega
      · rw [ih (by omega)]
        refine forall₂_congr fun front _ => ?_
        omega
    -- A closing bracket leads further out, and any other character changes no count.
    by_cases closing : c = ')'
    · subst closing
      simp only [List.count_cons_self, List.count_cons_of_ne (show (')' : Char) ≠ '(' by decide)]
      rw [search, if_neg (by omega), ih (by omega)]
      refine forall₂_congr fun front _ => ?_
      omega
    · simp only [List.count_cons_of_ne opening, List.count_cons_of_ne closing]
      rw [search, ih outside] <;> assumption

/-- The leftmost pair of a text is innermost just where no more brackets are closed than opened
before it. -/
theorem innermost?_pair_iff {expression : String} {start stop : Nat}
    (first : IsFirstPair expression.toList start stop) :
    (∃ depth, innermost? expression = some ⟨start, stop, depth⟩)
      ↔ (expression.toList.take start).count ')' ≤ (expression.toList.take start).count '(' := by
  obtain ⟨pair, leftmost⟩ := first
  obtain ⟨before, inside, after, whole, rfl, rfl, bracketless⟩ := isPair_iff.1 pair
  obtain ⟨text, rfl⟩ : ∃ text, expression = String.ofList text := ⟨_, String.ofList_toList.symm⟩
  rw [String.toList_ofList] at whole leftmost ⊢
  subst whole
  -- What stands before the leftmost pair has none itself.
  have unpaired : ∀ i j, ¬IsPair before i j := by
    intro i j inner
    obtain ⟨front, between, behind, rfl, rfl, rfl, plain⟩ := isPair_iff.1 inner
    refine leftmost front.length (by simp) (front.length + 1 + between.length) (by simp; omega) ?_
    exact isPair_iff.2 ⟨front, between,
      behind ++ '(' :: (inside ++ ')' :: after), by simp, rfl, rfl,
      plain⟩
  obtain ⟨closed, opened, rfl, unopened, unclosed⟩ := exists_closed_opened unpaired
  rw [List.take_left, List.count_append, List.count_append, List.count_eq_zero.2 unopened,
    List.count_eq_zero.2 unclosed, Nat.add_zero, Nat.zero_add]
  constructor
  · rintro ⟨depth, found⟩
    by_contra more
    -- The search is still below zero behind the pair, and finds only what starts later.
    obtain ⟨start, same⟩ :=
      search_closed_opened unopened unclosed ('(' :: (inside ++ ')' :: after))
    unfold innermost? at found
    have deepest : ((opened.count '(' : Int) - closed.count ')').toNat = 0 := by omega
    rw [String.toList_ofList, same, search,
      if_neg (by omega), search_bracketless bracketless, search, if_neg (by omega),
      deepest] at found
    have later := le_start_of_search (Nat.le_refl _) (by omega) found
    simp only at later
    omega
  · exact fun fewer => innermost?_eq_some after unopened unclosed bracketless fewer

/-- In a text without a pair a bracket is innermost just where more are opened than closed, and it
is never closed. -/
theorem innermost?_unclosed_iff {expression : String}
    (unpaired : ∀ start stop, ¬IsPair expression.toList start stop) :
    (∃ start depth, innermost? expression = some ⟨start, start, depth⟩
        ∧ expression.toList[start]? = some '(')
      ↔ expression.toList.count ')' < expression.toList.count '(' := by
  -- Without a pair all closing brackets stand before all opening ones.
  obtain ⟨closed, opened, whole, unopened, unclosed⟩ := exists_closed_opened unpaired
  obtain ⟨start, same⟩ := search_closed_opened unopened unclosed []
  have searched : innermost? expression
      = if ((opened.count '(' : Int) - closed.count ')').toNat = 0 then none
        else some ⟨start, start, ((opened.count '(' : Int) - closed.count ')').toNat⟩ := by
    unfold innermost?
    rw [whole, ← List.append_nil (closed ++ opened), same, search]
  rw [whole, List.count_append, List.count_append, List.count_eq_zero.2 unopened,
    List.count_eq_zero.2 unclosed, Nat.add_zero, Nat.zero_add]
  constructor
  · rintro ⟨_, _, found, _⟩
    by_contra fewer
    rw [searched, if_pos (by omega)] at found
    cases found
  · intro more
    rw [if_neg (by omega)] at searched
    refine ⟨start, _, searched, ?_⟩
    exact whole ▸ (innermost_of_innermost? searched).getElem?_start

/-- Which bracket is resolved next, in every expression. The leftmost pair of signs with no bracket
between them is, if no more brackets are closed than opened before it, and only then. Without such a
pair it is a bracket that is never closed, if more are opened than closed in all, and only then.
There is none just where no front of the expression opens more brackets than it closes, as when it
opens none. -/
theorem innermost?_leftmost (expression : String) :
    (∀ start stop, IsFirstPair expression.toList start stop →
      ((∃ depth, innermost? expression = some ⟨start, stop, depth⟩)
        ↔ (expression.toList.take start).count ')' ≤ (expression.toList.take start).count '('))
      ∧ ((∀ start stop, ¬IsPair expression.toList start stop) →
        ((∃ start depth, innermost? expression = some ⟨start, start, depth⟩
            ∧ expression.toList[start]? = some '(')
          ↔ expression.toList.count ')' < expression.toList.count '('))
      ∧ (innermost? expression = none
        ↔ ∀ front, front <+: expression.toList → front.count '(' ≤ front.count ')') := by
  refine ⟨fun start stop => innermost?_pair_iff, innermost?_unclosed_iff, ?_⟩
  unfold innermost?
  rw [search_eq_none_iff (Int.le_refl 0)]
  simp only [Int.zero_add, Int.ofNat_le]

/-- A sign that closes nothing is made up for by the outer one of two nested brackets. -/
theorem innermost?_leftmost_nested :
    IsFirstPair "1)+((2+3)*4)".toList 4 8
      ∧ ∃ depth, innermost? "1)+((2+3)*4)" = some ⟨4, 8, depth⟩ := by
  have first : IsFirstPair "1)+((2+3)*4)".toList 4 8 := by decide
  exact ⟨first, ((innermost?_leftmost "1)+((2+3)*4)").1 4 8 first).2 (by decide)⟩

/-- A sign that closes nothing hides the bracket behind it. -/
theorem innermost?_hidden :
    IsFirstPair ")(2+3)*4".toList 1 5 ∧ innermost? ")(2+3)*4" = none := by
  decide

end PlusMinus.Bracket
