import PlusMinus.Proofs.Propagation.Solve

/-! Brackets around a whole expression: they keep its value, and the account of its operations
unless they are the second pair around them. -/

namespace PlusMinus

open PlusMinus.Stream

/-- What rounding asks about the way to a result. -/
structure Account where
  usedProduct : Bool := false
  usedSum : Bool := false
  significantFigures : Option Int := none
  decimalPlace : Option Int := none
deriving DecidableEq

/-- The account of the operations that led to a result. -/
def Propagated.account (result : Propagated) : Account where
  usedProduct := result.usedProduct
  usedSum := result.usedSum
  significantFigures := result.significantFigures
  decimalPlace := result.decimalPlace

namespace Chain

/-- A chain that is one pair of brackets around an operation. -/
def Wraps : Chain → Bool
  | .last (.bracket (.more _ _ _)) => true
  | _ => false

/-- A chain with brackets around it. -/
def enclosed (chain : Chain) : Chain := .last (.bracket chain)

end Chain

namespace Arithmetic

variable {σ α : Type} (A : Arithmetic σ α)

/-- Each operator of a line is either done as a product or left for the sums. -/
theorem length_products (first : α) (rest : List (Operator × α)) :
    (A.products first rest).1.length + (A.products first rest).2.rest.length = rest.length := by
  -- A product takes one operator out of the line, and anything else keeps its place.
  induction rest generalizing first with
  | nil => rfl
  | cons pair rest ih =>
    obtain ⟨operator, next⟩ := pair
    simp only [products]
    split
    · have later := ih (A.outcome (A.step operator first next))
      simp only [List.length_cons]
      omega
    · have later := ih next
      simp only [List.length_cons]
      omega

/-- Each operator of a line without products is done as a sum. -/
theorem length_sums (first : α) (rest : List (Operator × α)) :
    (A.sums first rest).1.length = rest.length := by
  induction rest generalizing first with
  | nil => rfl
  | cons pair rest ih => simp [sums, ih]

/-- Folding a line does one operation for each of its operators. -/
theorem length_fold (line : Line α) :
    (A.fold line).products.length + (A.fold line).sums.length = line.rest.length := by
  -- What the products leave is what the sums start from.
  have products := A.length_products line.first line.rest
  have sums := A.length_sums (A.products line.first line.rest).2.first
    (A.products line.first line.rest).2.rest
  unfold fold
  dsimp only
  omega

end Arithmetic

namespace Chain

/-- A chain without an operator on its level leaves the account empty. -/
theorem account_last (part : Part) : ((last part).folded measures).propagated.account = {} := rfl

/-- A chain with an operator on its level says so in the account. -/
theorem account_more (part : Part) (operator : Operator) (rest : Chain) :
    ((more part operator rest).folded measures).propagated.account ≠ {} := by
  intro empty
  -- Without products and sums there would be no operator on the level.
  have count := measures.length_fold ((more part operator rest).line measures)
  have products : (measures.fold ((more part operator rest).line measures)).products = [] := by
    simpa [folded, Folded.propagated, Propagated.account] using congrArg Account.usedProduct empty
  have sums : (measures.fold ((more part operator rest).line measures)).sums = [] := by
    simpa [folded, Folded.propagated, Propagated.account] using congrArg Account.usedSum empty
  rw [products, sums] at count
  simp [line] at count

/-- Brackets around a chain pass on the digits of its value. -/
theorem value_enclosed {chain : Chain} (canonical : AllCanonical chain.leaves) :
    (chain.enclosed.value measures).Alike (chain.value measures) :=
  (chain.written_value canonical).reread_alike

/-- Brackets around a chain pass on the account of its own level. -/
theorem account_enclosed (chain : Chain) :
    chain.enclosed.propagated.account = (chain.folded measures).propagated.account := by
  simp only [enclosed, propagated, Propagated.account]

/-- A second pair of brackets around an operation leaves the account empty. -/
theorem account_enclosed_of_wraps {chain : Chain} (wraps : chain.Wraps = true) :
    chain.enclosed.propagated.account = {} := by
  -- The level between the two pairs has no operation of its own.
  rw [account_enclosed]
  cases chain with
  | last part => exact account_last part
  | more part operator rest => simp [Wraps] at wraps

/-- Brackets around a chain pass on its account unless they are the second pair around an
operation. -/
theorem account_enclosed_iff (chain : Chain) :
    chain.enclosed.propagated.account = chain.propagated.account ↔ chain.Wraps = false := by
  rw [account_enclosed]
  match chain with
  | .last (.operand _ _) => simp only [propagated, Wraps]
  | .last (.bracket inside) =>
    -- The inner pair has the account of the level inside, and the outer pair has none.
    have inner : (last (.bracket inside)).propagated.account
        = (inside.folded measures).propagated.account := inside.account_enclosed
    rw [inner, account_last]
    cases inside with
    | last part => exact iff_of_true (account_last part).symm rfl
    | more part operator rest =>
      exact iff_of_false (account_more part operator rest).symm (by simp [Wraps])
  | .more part operator rest => simp only [propagated, Wraps]

/-- A chain with brackets around it has one pair of brackets more. -/
theorem bracketCount_enclosed (chain : Chain) :
    chain.enclosed.bracketCount = chain.bracketCount + 1 := by
  simp [enclosed, bracketCount, spell, Part.spell, Spelling.brackets, Nat.add_comm]

/-- A chain with brackets around it is written between brackets. -/
theorem written_enclosed (chain : Chain) :
    String.ofList (chain.enclosed.spell .written)
      = "(" ++ String.ofList (chain.spell .written) ++ ")" := by
  apply String.ext
  simp [enclosed, spell, Part.spell, Spelling.written, Spelling.characters]

end Chain

namespace Stream

/-- Solving an expression in brackets leads to the digits that it leads to without them. The account
of its operations is the same too, unless the expression is itself one pair of brackets around an
operation: then nothing is left of the account, and the result is rounded as an entered one. -/
theorem solve_enclosed (config : Config) (text : String) (nonempty : scan text ≠ [])
    (balanced : (scan text).Balanced)
    (within : ((scan text).openings : Int) < config.maxBracketIterations) :
    ∃ tree plain enclosed, (scan text).tree? = some tree
      ∧ (solve config (scan text).render).result = plain
      ∧ (solve config ("(" ++ (scan text).render ++ ")")).result = enclosed
      ∧ enclosed.measure.value.digits = plain.measure.value.digits
      ∧ enclosed.measure.uncertainty.digits = plain.measure.uncertainty.digits
      ∧ (enclosed.account = plain.account ↔ tree.Wraps = false)
      ∧ (tree.Wraps = true → enclosed.account = {}) := by
  have canonical := (canonical_scan text).resolve_left nonempty
  obtain ⟨tree, found, leaves, solved⟩ := canonical.solve_render balanced (Int.le_of_lt within)
  -- The text between brackets is that of the tree with brackets around it.
  have written : (scan text).render = String.ofList (tree.spell .written) := by
    rw [spell_tree? .written found, ← toList_render canonical.alternates, String.ofList_toList]
  have count : tree.bracketCount = (scan text).openings := by
    rw [Chain.bracketCount, spell_tree? .brackets found, length_spell_brackets]
  have inner : AllCanonical tree.enclosed.leaves := by
    simpa [Chain.enclosed, Chain.leaves, Chain.spell, Part.spell, Spelling.leaves] using leaves
  -- The pair around the tree is one bracket more, for which there is still a turn.
  have fits : tree.enclosed.bracketCount ≤ config.maxBracketIterations.toNat := by
    rw [tree.bracketCount_enclosed]
    omega
  have outer := tree.enclosed.solve_spell inner fits
  rw [tree.written_enclosed, ← written] at outer
  -- Both results have the digits of the value of the tree.
  have alike := Chain.value_enclosed leaves
  rw [← tree.enclosed.measure_propagated, ← tree.measure_propagated] at alike
  exact ⟨tree, _, _, found, solved, outer, alike.valueDigits, alike.uncertaintyDigits,
    tree.account_enclosed_iff, Chain.account_enclosed_of_wraps⟩

/-- Brackets around a product with a bracket in it. -/
theorem solve_enclosed_product :
    scan "2±0.1*(3±0.2-4)" ≠ [] ∧ (scan "2±0.1*(3±0.2-4)").Balanced
      ∧ ((scan "2±0.1*(3±0.2-4)").openings : Int) < (default : Config).maxBracketIterations
      ∧ ∃ tree plain enclosed, (scan "2±0.1*(3±0.2-4)").tree? = some tree
        ∧ (solve default (scan "2±0.1*(3±0.2-4)").render).result = plain
        ∧ (solve default ("(" ++ (scan "2±0.1*(3±0.2-4)").render ++ ")")).result = enclosed
        ∧ enclosed.measure.value.digits = plain.measure.value.digits
        ∧ enclosed.measure.uncertainty.digits = plain.measure.uncertainty.digits
        ∧ (enclosed.account = plain.account ↔ tree.Wraps = false)
        ∧ (tree.Wraps = true → enclosed.account = {}) :=
  ⟨by decide +kernel, by decide +kernel, by decide +kernel,
    solve_enclosed default _ (by decide +kernel) (by decide +kernel) (by decide +kernel)⟩

/-- A second pair of brackets around a sum makes it lose its decimal place. -/
theorem account_second_brackets :
    (scan "(2±0.1+3±0.2)" ≠ [] ∧ (scan "(2±0.1+3±0.2)").Balanced
      ∧ ((scan "(2±0.1+3±0.2)").openings : Int) < (default : Config).maxBracketIterations)
      ∧ (solve default (scan "(2±0.1+3±0.2)").render).result.account
        = { usedSum := true, decimalPlace := some 1 }
      ∧ (solve default ("(" ++ (scan "(2±0.1+3±0.2)").render ++ ")")).result.account = {} := by
  decide +kernel

end Stream

end PlusMinus
