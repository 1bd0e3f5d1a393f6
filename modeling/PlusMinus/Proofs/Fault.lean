import PlusMinus.Fault

/-! Requests that are not refused. -/

namespace PlusMinus

namespace Fault

variable {α β : Type} {result : β}

instance [DecidableEq α] : DecidableEq (Except Fault α)
  | .ok value, .ok other => decidable_of_iff (value = other) ⟨congrArg _, Except.ok.inj⟩
  | .error fault, .error other => decidable_of_iff (fault = other) ⟨congrArg _, Except.error.inj⟩
  | .ok _, .error _ => isFalse nofun
  | .error _, .ok _ => isFalse nofun

/-- A check that is passed leads on. -/
theorem ok_bind (value : α) (next : α → Except Fault β) :
    (Except.ok value >>= next) = next value := rfl

/-- A check leads on exactly if it is passed. -/
theorem bind_eq_ok {checked : Except Fault α} {next : α → Except Fault β} :
    (checked >>= next) = .ok result ↔ ∃ value, checked = .ok value ∧ next value = .ok result := by
  constructor
  · intro found
    cases checked with
    | error fault => cases found
    | ok value => exact ⟨value, rfl, found⟩
  · rintro ⟨value, rfl, found⟩
    exact found

/-- Checks that are all passed lead on. -/
theorem forM_eq_ok {check : α → Except Fault Unit}
    (passed : ∀ a, check a = .ok ()) (list : List α) :
    list.forM check = .ok () := by
  induction list with
  | nil => rfl
  | cons a rest ih =>
    rw [List.forM, passed a, ok_bind]
    exact ih

/-- Results that are all found are collected. -/
theorem mapM_eq_ok {find : α → Except Fault β} {found : α → β}
    (always : ∀ a, find a = .ok (found a))
    (list : List α) : list.mapM find = .ok (list.map found) := by
  induction list with
  | nil => rfl
  | cons a rest ih =>
    rw [List.mapM_cons, always a, ok_bind, ih, ok_bind]
    rfl

/-- What is refused under a condition leads on exactly without it. -/
theorem refused_eq_ok {condition : Prop} [Decidable condition] {fault : Fault}
    {refused : α → Except Fault β} {next : Except Fault β} :
    (if condition then throw fault >>= refused else next) = .ok result
      ↔ ¬ condition ∧ next = .ok result := by
  -- Under the condition neither side holds, since what is thrown leads nowhere.
  split
  · rename_i holds
    exact iff_of_false nofun fun free => free.1 holds
  · rename_i free
    exact ⟨fun found => ⟨free, found⟩, And.right⟩

section First

variable {fault other : Fault} {later : List Fault} {condition : Prop} [Decidable condition]

/-- The fault of a check that is refused. -/
def ofCheck : Except Fault α → List Fault
  | .ok _ => []
  | .error fault => [fault]

/-- A fault under a condition. -/
def given (condition : Prop) [Decidable condition] (fault : Fault) : List Fault :=
  if condition then [fault] else []

theorem ofCheck_eq_nil_iff {checked : Except Fault α} :
    ofCheck checked = [] ↔ ∃ value, checked = .ok value := by
  cases checked <;> simp [ofCheck]

theorem given_eq_nil_iff : given condition fault = [] ↔ ¬condition := by
  simp [given]

/-- A check that is refused gives the first fault, and one that is passed leaves it to what
follows. -/
theorem bind_of_head {checked : Except Fault α} {next : α → Except Fault β}
    (first : (ofCheck checked ++ later).head? = some fault)
    (rest : ∀ value, checked = .ok value → later.head? = some fault → next value = .error fault) :
    (checked >>= next) = .error fault := by
  cases checked with
  | error refused =>
    cases first
    rfl
  | ok value => exact rest value rfl first

/-- So does what is refused under a condition. -/
theorem refused_of_head {refused : α → Except Fault β} {next : Except Fault β}
    (first : (given condition other ++ later).head? = some fault)
    (rest : ¬condition → later.head? = some fault → next = .error fault) :
    (if condition then throw other >>= refused else next) = .error fault := by
  unfold given at first
  -- Either the condition gives the first fault, or the first one is behind it.
  split at first
  · rename_i holds
    cases first
    exact if_pos holds
  · rename_i free
    rw [if_neg free]
    exact rest free first

end First

end Fault

end PlusMinus
