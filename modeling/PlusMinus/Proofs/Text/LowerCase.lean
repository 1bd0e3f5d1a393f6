import Mathlib.Data.List.Basic
import PlusMinus.Proofs.Text.Digit
import PlusMinus.Text.LowerCase

/-! Small letters in ASCII. -/

namespace PlusMinus.Text

/-- A character whose small letter is in ASCII has it as its only one. -/
theorem lowerCharacter_of_ascii {c : Char} (ascii : c.toLower.toNat < 0x80) :
    lowerCharacter c = [c.toLower] ∧ isBlank c.toLower = isBlank c := by
  -- In ASCII there are few enough characters to look at each of them.
  have table : ∀ code < 0x80, lowerCharacter (Char.ofNat code) = [(Char.ofNat code).toLower]
      ∧ isBlank (Char.ofNat code).toLower = isBlank (Char.ofNat code) := by decide +kernel
  by_cases small : c.toNat < 0x80
  · have same := table c.toNat small
    rwa [Char.ofNat_toNat] at same
  · -- Only capitals in ASCII have other small letters there.
    rw [toLower_eq_self (by omega)] at ascii
    exact absurd ascii small

/-- A word in ASCII is found whatever the case of its letters is, and between blanks. -/
theorem lower_strip {before word after name : List Char}
    (blankBefore : ∀ c ∈ before, isBlank c = true)
    (blankAfter : ∀ c ∈ after, isBlank c = true) (lowered : word.map Char.toLower = name)
    (ascii : ∀ c ∈ name, c.toNat < 0x80 ∧ isBlank c = false) :
    lower (strip (before ++ (word ++ after))) = name := by
  have letters : ∀ c ∈ word, lowerCharacter c = [c.toLower] ∧ isBlank c = false := by
    intro c member
    have listed : c.toLower ∈ name := lowered ▸ List.mem_map_of_mem member
    obtain ⟨small, same⟩ := lowerCharacter_of_ascii (ascii _ listed).1
    exact ⟨small, same ▸ (ascii _ listed).2⟩
  -- A word with the one letter whose small letter depends on its place is in no such list.
  have noSigma : word.contains 'Σ' = false := by
    simp only [List.contains_eq_mem, decide_eq_false_iff_not]
    intro member
    have listed : Char.toLower 'Σ' ∈ name := lowered ▸ List.mem_map_of_mem member
    exact absurd (ascii _ listed).1 (by decide)
  rw [strip_margins blankBefore (fun c found => (letters c (List.mem_of_head? found)).2)
    (fun c found => (letters c (List.mem_of_getLast? found)).2) blankAfter, lower, noSigma,
    if_neg Bool.false_ne_true, ← lowered, List.map_eq_flatMap]
  exact List.flatMap_congr fun c member => (letters c member).1

/-- What comes before the capitals in ASCII is not changed. -/
theorem map_toLower_eq_self {text : List Char} (small : ∀ c ∈ text, c.toNat < 65) :
    text.map Char.toLower = text := by
  rw [List.map_congr_left fun c member => toLower_eq_self (.inl (small c member)), List.map_id']

/-- A text in ASCII without blanks is put into small letters one by one. -/
theorem lower_of_ascii {text : List Char} (ascii : ∀ c ∈ text, c.toNat < 0x80 ∧ isBlank c = false) :
    lower (strip text) = text.map Char.toLower := by
  -- Small letters of ASCII are in ASCII, as all of its characters show.
  have table : ∀ code < 0x80, (Char.ofNat code).toLower.toNat < 0x80 := by decide +kernel
  have none : ∀ c ∈ ([] : List Char), isBlank c = true := by simp
  have stripped := lower_strip none none (rfl : text.map Char.toLower = _) fun d listed => by
    obtain ⟨c, member, rfl⟩ := List.mem_map.1 listed
    obtain ⟨small, solid⟩ := ascii c member
    have lowered := table c.toNat small
    rw [Char.ofNat_toNat] at lowered
    exact ⟨lowered, (lowerCharacter_of_ascii lowered).2.trans solid⟩
  rwa [List.nil_append, List.append_nil] at stripped

end PlusMinus.Text
