import Mathlib.Logic.Function.Iterate
import PlusMinus.Proofs.Expression.Read

/-! Sums of one operand over and over: their trees are as deep as the sums are long, and so every
limit on the depth is passed by one of them. -/

namespace PlusMinus

open Arithmetic

/-- An operand to which it is added a number of times. -/
def Stream.repeated (o : Operand) : Nat → Stream
  | 0 => [.operand o]
  | count + 1 => .operand o :: .operator .add :: repeated o count

/-- The chain of such a sum, with its operands counted from an index on. -/
def Chain.repeated (o : Operand) (index : Nat) : Nat → Chain
  | 0 => .last (.operand index o)
  | count + 1 => .more (.operand index o) .add (repeated o (index + 1) count)

/-- One, without an uncertainty. -/
def Operand.one : Operand := { value := .ofText "1", uncertainty := .exact }

namespace Stream

variable {o : Operand}

/-- Between every two operands there is one operator. -/
theorem alternates_repeated (o : Operand) (count : Nat) : (repeated o count).Alternates := by
  induction count with
  | zero => exact .last o
  | succ count ih => exact .more o .add ih

/-- All operands are the same. -/
theorem operands_repeated (o : Operand) (count : Nat) :
    (repeated o count).operands = List.replicate (count + 1) o := by
  induction count with
  | zero => rfl
  | succ count ih =>
    rw [repeated, operands_operand, operands_operator, ih]
    rfl

/-- Only the operand is one of the operands. -/
theorem eq_of_mem_repeated {count : Nat} {p : Operand} (member : p ∈ (repeated o count).operands) :
    p = o := by
  rw [operands_repeated] at member
  exact List.eq_of_mem_replicate member

section Bracketless

variable (opening : o.openBrackets = 0) (closing : o.closeBrackets = 0) (count : Nat)

include opening closing

/-- Without brackets the depth stays as it is. -/
theorem balanced_repeated : (repeated o count).Balanced := by
  unfold Balanced
  rw [operands_repeated]
  induction count with
  | zero => simp [depthFrom?, opening, closing]
  | succ count ih => simpa [List.replicate_succ, depthFrom?, opening, closing] using ih

/-- Without brackets nothing is nested, and so no limit is passed. -/
theorem nesting_repeated_le (limit : Nat) : (repeated o count).nesting ≤ limit := by
  -- Every operand goes on at the depth zero.
  have none : (repeated o count).nesting = 0 := by
    unfold nesting
    rw [operands_repeated]
    induction count with
    | zero => simp [nestingFrom, opening, closing]
    | succ count ih => simpa [List.replicate_succ, nestingFrom, opening, closing] using ih
  rw [none]
  exact Nat.zero_le limit

omit closing in
/-- Without brackets none is opened. -/
theorem openings_repeated : (repeated o count).openings = 0 := by
  unfold openings
  rw [operands_repeated]
  induction count with
  | zero => simp [opening]
  | succ count ih => simpa [List.replicate_succ, opening] using ih

/-- The tree of a sum is one chain. -/
theorem tree?_repeated : (repeated o count).tree? = some (.repeated o 0 count) := by
  -- What was read before is put in front of the chain at the end.
  suffices general : ∀ (level : List (Part × Operator)) (index : Nat),
      (repeated o count).treeFrom? { level } index
        = some ((Chain.repeated o index count).behind level) from
    general [] 0
  have read (n : Nesting) (index : Nat) : n.read? index o = some (.operand index o, n) := by
    simp [Nesting.read?, opening, closing, Nesting.opened, Nesting.closed?]
  induction count with
  | zero =>
    intro level index
    rw [repeated, treeFrom?.eq_def]
    dsimp only
    rw [read]
    rfl
  | succ count ih =>
    intro level index
    rw [repeated, treeFrom?.eq_def]
    dsimp only
    rw [read]
    exact ih ((.operand index o, .add) :: level) (index + 1)

end Bracketless

end Stream

namespace Arithmetic

variable {σ α : Type} (A : Arithmetic σ α)

/-- A line without products is left as it is until its sums are done. -/
theorem products_of_sums (first : α) (rest : List (Operator × α))
    (sums : ∀ pair ∈ rest, pair.1.isProduct = false) :
    (A.products first rest).2 = ⟨first, rest⟩ := by
  induction rest generalizing first with
  | nil => rfl
  | cons pair rest ih =>
    have later := ih pair.2 fun p member => sums p (List.mem_cons_of_mem _ member)
    simp only [products, sums pair List.mem_cons_self, Bool.false_eq_true, if_false, later]

/-- Adding one value over and over is adding it to each total. -/
theorem sums_replicate (first next : α) (count : Nat) :
    (A.sums first (List.replicate count (.add, next))).2
      = (fun total => A.outcome (A.step .add total next))^[count] first := by
  induction count generalizing first with
  | zero => rfl
  | succ count ih => exact ih _

end Arithmetic

namespace Chain

variable {σ α : Type} {o : Operand}

/-- The line of a sum has the values of the operand at each of its indices. -/
theorem line_repeated (A : Arithmetic σ α) (index count : Nat) :
    (Chain.repeated o index count).line A
      = ⟨A.operand index o, (List.range' (index + 1) count).map fun i =>
        (.add, A.operand i o)⟩ := by
  induction count generalizing index with
  | zero => rfl
  | succ count ih => simp [Chain.repeated, Chain.line, Part.value, ih, List.range'_succ]

/-- A sum is done from the left. -/
theorem value_repeated (A : Arithmetic σ α) (index count : Nat) :
    (Chain.repeated o index count).value A
      = (A.sums (A.operand index o)
        ((List.range' (index + 1) count).map fun i => (.add, A.operand i o))).2 := by
  have terms := A.products_of_sums (A.operand index o)
    ((List.range' (index + 1) count).map fun i => (.add, A.operand i o))
    (List.forall_mem_map.2 fun _ _ => rfl)
  simp only [value, folded, line_repeated, fold, terms]

/-- Where the index of an operand does not matter, its value is added over and over. -/
theorem value_repeated_of_same (A : Arithmetic σ α) {x : α} (same : ∀ index, A.operand index o = x)
    (count : Nat) :
    (Chain.repeated o 0 count).value A
      = (fun total => A.outcome (A.step .add total x))^[count] x := by
  rw [value_repeated, ← A.sums_replicate]
  simp [same, List.map_const']

end Chain

namespace Expression

/-- Each operation makes a tree one deeper, as long as no operand is deeper than what it is added
to. -/
theorem depth_sums (operandTree : Nat → Operand → Expression) (first : Expression)
    (rest : List (Operator × Expression)) (shallow : ∀ pair ∈ rest, pair.2.depth ≤ first.depth) :
    ((trees operandTree).sums first rest).2.depth = first.depth + rest.length := by
  -- The tree so far is always the deeper side of the next operation.
  induction rest generalizing first with
  | nil => rfl
  | cons pair rest ih =>
    have joined : (binary pair.1 first pair.2).depth = first.depth + 1 := by
      rw [depth, Nat.max_eq_left (shallow pair List.mem_cons_self)]
    have later := ih (binary pair.1 first pair.2) fun p member => by
      rw [joined]
      exact Nat.le_succ_of_le (shallow p (List.mem_cons_of_mem _ member))
    refine later.trans ?_
    rw [joined, List.length_cons]
    omega

/-- The tree of a sum is as much deeper than its operand as it has operations. -/
theorem depth_repeated (operandTree : Nat → Operand → Expression) {o : Operand} {depth : Nat}
    (same : ∀ index, (operandTree index o).depth = depth) (count : Nat) :
    ((Chain.repeated o 0 count).value (trees operandTree)).depth = depth + count := by
  have terms := depth_sums operandTree (operandTree 0 o)
    ((List.range' 1 count).map fun i => (.add, operandTree i o))
    (List.forall_mem_map.2 fun i _ => Nat.le_of_eq ((same i).trans (same 0).symm))
  rw [Chain.value_repeated]
  exact terms.trans (by simp [same])

end Expression

end PlusMinus
