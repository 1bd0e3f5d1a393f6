import PlusMinus.Proofs.Tree.Basic

/-! Computing with the tree of an expression: in each chain first the products and quotients, from
the left, and then the sums and differences, from the left. -/

namespace PlusMinus

/-- What the operands, the operators and the brackets of an expression mean. -/
structure Arithmetic (σ α : Type) where
  /-- The value of an operand, by its index. -/
  operand : Nat → Operand → α
  /-- An operation on two values. -/
  step : Operator → α → α → σ
  /-- The value that an operation leads to. -/
  outcome : σ → α
  /-- The value of a bracket, from that of the chain in it. -/
  bracket : α → α

/-- Values joined by operators, in reading order. -/
structure Line (α : Type) where
  first : α
  rest : List (Operator × α) := []

/-- The operations that a line of values is folded by, and the value that it comes to. -/
structure Folded (σ α : Type) where
  products : List σ
  sums : List σ
  value : α

namespace Arithmetic

variable {σ α : Type} (A : Arithmetic σ α)

/-- Does the products and quotients of a line from the left; the sums and differences are left. -/
def products (first : α) : List (Operator × α) → List σ × Line α
  | [] => ([], ⟨first, []⟩)
  | (operator, next) :: rest =>
    if operator.isProduct then
      let step := A.step operator first next
      let (steps, line) := products (A.outcome step) rest
      (step :: steps, line)
    else
      let (steps, line) := products next rest
      (steps, ⟨first, (operator, line.first) :: line.rest⟩)

/-- Does the operations of a line from the left, whatever they are. -/
def sums (first : α) : List (Operator × α) → List σ × α
  | [] => ([], first)
  | (operator, next) :: rest =>
    let step := A.step operator first next
    let (steps, value) := sums (A.outcome step) rest
    (step :: steps, value)

/-- Folds a line of values: products and quotients first, then sums and differences. -/
def fold (line : Line α) : Folded σ α :=
  let (products, terms) := A.products line.first line.rest
  let (sums, value) := A.sums terms.first terms.rest
  { products, sums, value }

end Arithmetic

mutual

/-- The value of a part. -/
def Part.value {σ α : Type} (A : Arithmetic σ α) : Part → α
  | .operand index o => A.operand index o
  | .bracket inside => A.bracket (A.fold (inside.line A)).value

/-- The values of the parts of a chain. -/
def Chain.line {σ α : Type} (A : Arithmetic σ α) : Chain → Line α
  | .last part => ⟨part.value A, []⟩
  | .more part operator rest =>
    let later := rest.line A
    ⟨part.value A, (operator, later.first) :: later.rest⟩

end

namespace Chain

variable {σ α : Type}

/-- A chain folded by the operations of its own level. -/
def folded (A : Arithmetic σ α) (chain : Chain) : Folded σ α := A.fold (chain.line A)

/-- The value of a chain. -/
def value (A : Arithmetic σ α) (chain : Chain) : α := (chain.folded A).value

end Chain

/-- Lines with the same operators between related values. -/
inductive RestRelated {α β : Type} (R : α → β → Prop) :
    List (Operator × α) → List (Operator × β) → Prop
  | nil : RestRelated R [] []
  | cons (operator : Operator) {a : α} {b : β} {as : List (Operator × α)}
      {bs : List (Operator × β)} (head : R a b) (tail : RestRelated R as bs) :
      RestRelated R ((operator, a) :: as) ((operator, b) :: bs)

/-- A line is related to itself when each of its values is. -/
theorem RestRelated.of_forall {α : Type} {R : α → α → Prop} {rest : List (Operator × α)}
    (all : ∀ pair ∈ rest, R pair.2 pair.2) : RestRelated R rest rest := by
  induction rest with
  | nil => exact .nil
  | cons pair rest ih =>
    have behind := ih fun p member => all p (by simp [member])
    exact .cons pair.1 (all pair (by simp)) behind

namespace Arithmetic

variable {σ τ α β : Type}

/-- Two arithmetics whose operations keep a relation between their values. -/
def StepRelated (A : Arithmetic σ α) (B : Arithmetic τ β) (R : α → β → Prop) : Prop :=
  ∀ (operator : Operator) {a b : α} {x y : β}, R a x → R b y →
    R (A.outcome (A.step operator a b)) (B.outcome (B.step operator x y))

/-- Two arithmetics whose operations and brackets keep a relation between their values. -/
structure Related (A : Arithmetic σ α) (B : Arithmetic τ β) (R : α → β → Prop) : Prop where
  step : A.StepRelated B R
  bracket : ∀ {a : α} {x : β}, R a x → R (A.bracket a) (B.bracket x)

variable {A : Arithmetic σ α} {B : Arithmetic τ β} {R : α → β → Prop}

/-- Doing the products of related lines leaves related lines. -/
theorem StepRelated.products (step : A.StepRelated B R) {a : α} {b : β} {as : List (Operator × α)}
    {bs : List (Operator × β)} (head : R a b) (tail : RestRelated R as bs) :
    R (A.products a as).2.first (B.products b bs).2.first
      ∧ RestRelated R (A.products a as).2.rest (B.products b bs).2.rest := by
  -- The operators are the same, so that both lines are folded at the same places.
  induction tail generalizing a b with
  | nil => exact ⟨head, .nil⟩
  | cons operator next _ ih =>
    simp only [Arithmetic.products]
    split
    · exact ih (step operator head next)
    · obtain ⟨first, rest⟩ := ih next
      exact ⟨head, .cons operator first rest⟩

/-- Doing all operations of related lines leads to related values. -/
theorem StepRelated.sums (step : A.StepRelated B R) {a : α} {b : β} {as : List (Operator × α)}
    {bs : List (Operator × β)} (head : R a b) (tail : RestRelated R as bs) :
    R (A.sums a as).2 (B.sums b bs).2 := by
  -- The value so far stays related while the rest of the line gets shorter.
  induction tail generalizing a b with
  | nil => exact head
  | cons operator next _ ih => exact ih (step operator head next)

/-- Related lines fold to related values. -/
theorem StepRelated.fold (step : A.StepRelated B R) {l : Line α} {m : Line β}
    (head : R l.first m.first) (tail : RestRelated R l.rest m.rest) :
    R (A.fold l).value (B.fold m).value := by
  obtain ⟨first, rest⟩ := step.products head tail
  exact step.sums first rest

/-- Two arithmetics agree on the operands of a list up to a relation. -/
def Agree (A : Arithmetic σ α) (B : Arithmetic τ β) (R : α → β → Prop)
    (leaves : List (Nat × Operand)) : Prop :=
  ∀ leaf ∈ leaves, R (A.operand leaf.1 leaf.2) (B.operand leaf.1 leaf.2)

end Arithmetic

section Related

variable {σ τ α β : Type} {A : Arithmetic σ α} {B : Arithmetic τ β} {R : α → β → Prop}

mutual

/-- Related arithmetics give a part related values. -/
theorem Part.value_related (related : A.Related B R) :
    ∀ part : Part, A.Agree B R (part.spell .leaves) → R (part.value A) (part.value B)
  | .operand index o, agree => agree (index, o) (by simp [Part.spell, Spelling.leaves])
  | .bracket inside, agree => by
    obtain ⟨head, tail⟩ := inside.line_related related fun leaf member =>
      agree leaf (by simpa [Part.spell, Spelling.leaves] using member)
    -- The values on the level inside fold to related ones, and the bracket passes them on.
    exact related.bracket (related.step.fold head tail)

/-- Related arithmetics give the parts of a chain related values. -/
theorem Chain.line_related (related : A.Related B R) :
    ∀ chain : Chain, A.Agree B R (chain.spell .leaves) →
      R (chain.line A).first (chain.line B).first
        ∧ RestRelated R (chain.line A).rest (chain.line B).rest
  | .last part, agree => ⟨part.value_related related agree, .nil⟩
  | .more part operator rest, agree => by
    -- Both lines have the same operator between related parts.
    have head := part.value_related related fun leaf member =>
      agree leaf (by simp [Chain.spell, member])
    obtain ⟨first, later⟩ := rest.line_related related fun leaf member =>
      agree leaf (by simp [Chain.spell, member])
    exact ⟨head, .cons operator first later⟩

end

/-- Related arithmetics give a chain related values. -/
theorem Chain.value_related (related : A.Related B R) (chain : Chain)
    (agree : A.Agree B R chain.leaves) : R (chain.value A) (chain.value B) := by
  obtain ⟨head, tail⟩ := chain.line_related related agree
  exact related.step.fold head tail

end Related

namespace Arithmetic

/-- Arithmetic on plain numbers that is undefined from the first division by zero on. -/
def guarded {α : Type} (operand : Nat → Operand → α) (isZero : α → Bool)
    (compute : Operator → α → α → α) : Arithmetic (Option α) (Option α) where
  operand index o := some (operand index o)
  step operator left right := do
    let x ← left
    let y ← right
    if operator = .div ∧ isZero y = true then none else some (compute operator x y)
  outcome := id
  bracket := id

/-- A relation that asks nothing of an undefined value. -/
def WhenDefined {α β : Type} (R : α → β → Prop) (value : Option α) (b : β) : Prop :=
  ∀ a, value = some a → R a b

/-- A value that is there has to be related. -/
theorem WhenDefined.some {α β : Type} {R : α → β → Prop} {a : α} {b : β} (related : R a b) :
    WhenDefined R (.some a) b := by
  intro value same
  cases same
  exact related

/-- Operations that keep a relation as long as no divisor is zero keep it when all is defined. -/
theorem guarded_related {α τ β : Type} {operand : Nat → Operand → α} {isZero : α → Bool}
    {compute : Operator → α → α → α} {B : Arithmetic τ β} {R : α → β → Prop}
    (step : ∀ (operator : Operator) {a b : α} {x y : β}, R a x → R b y →
      (operator = .div → isZero b = false) →
        R (compute operator a b) (B.outcome (B.step operator x y)))
    (bracket : ∀ {a : α} {x : β}, R a x → R a (B.bracket x)) :
    (guarded operand isZero compute).Related B (WhenDefined R) where
  step := by
    intro operator first second x y left right value found
    -- A value is there only if both operands have one and no zero divides.
    obtain ⟨a, rfl, later⟩ := Option.bind_eq_some_iff.1 found
    obtain ⟨b, rfl, computed⟩ := Option.bind_eq_some_iff.1 later
    split at computed
    · cases computed
    · rename_i nonzero
      cases computed
      refine step operator (left a rfl) (right b rfl) fun division => ?_
      simpa [division] using nonzero
  bracket := fun related value found => bracket (related value found)

end Arithmetic

end PlusMinus
