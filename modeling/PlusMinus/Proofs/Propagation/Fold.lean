import PlusMinus.Proofs.Measure.Canonical
import PlusMinus.Proofs.Stream.RoundTrip
import PlusMinus.Proofs.Tree.Arithmetic
import PlusMinus.Propagation.Fold

/-! A stream without brackets folds like the line of its measures. -/

namespace PlusMinus

/-- Measures under the four operations; a bracket passes its measure on as text. -/
def measures : Arithmetic Operation Measure where
  operand _ o := o.toMeasure
  step := Operator.apply
  outcome := Operation.outcome
  bracket := Measure.reread

/-- The value of a folded line, with what its operations say about rounding. -/
def Folded.propagated (folded : Folded Operation Measure) : Propagated where
  measure := folded.value
  usedProduct := !folded.products.isEmpty
  usedSum := !folded.sums.isEmpty
  significantFigures := folded.products.getLast?.bind (·.significantFigures)
  decimalPlace := folded.sums.getLast?.bind (·.decimalPlace)
  operations := folded.products.length + folded.sums.length

namespace Line

/-- The tokens of measures that follow operators. -/
def restStream : List (Operator × Measure) → Stream
  | [] => []
  | (operator, m) :: rest => .operator operator :: .operand { toMeasure := m } :: restStream rest

/-- The stream of a line of measures, without brackets. -/
def stream (line : Line Measure) : Stream :=
  .operand { toMeasure := line.first } :: restStream line.rest

/-- The characters of measures that follow operators. -/
def restText : List (Operator × Measure) → List Char
  | [] => []
  | (operator, m) :: rest => operator.symbol :: (m.text.toList ++ restText rest)

/-- The characters of a line of measures. -/
def text (line : Line Measure) : List Char := line.first.text.toList ++ restText line.rest

end Line

/-- A condition on every value of a line. -/
structure Line.All {α : Type} (kept : α → Prop) (line : Line α) : Prop where
  first : kept line.first
  rest : ∀ pair ∈ line.rest, kept pair.2

/-- A condition holds of every value of a line just when it holds of the first one and of the
others. -/
theorem Line.all_iff {α : Type} {kept : α → Prop} {first : α} {rest : List (Operator × α)} :
    Line.All kept ⟨first, rest⟩ ↔ kept first ∧ ∀ pair ∈ rest, kept pair.2 :=
  ⟨fun all => ⟨all.first, all.rest⟩, fun ⟨first, rest⟩ => ⟨first, rest⟩⟩

/-- A condition holds of every value of a line just when it holds of the first one and of the line
behind it. -/
theorem Line.all_cons {α : Type} {kept : α → Prop} {first next : α} {operator : Operator}
    {rest : List (Operator × α)} :
    Line.All kept ⟨first, (operator, next) :: rest⟩ ↔ kept first ∧ Line.All kept ⟨next, rest⟩ := by
  rw [Line.all_iff, Line.all_iff, List.forall_mem_cons]

/-- A weaker condition holds of every value too. -/
theorem Line.All.mono {α : Type} {kept weaker : α → Prop} {line : Line α} (all : line.All kept)
    (implies : ∀ a, kept a → weaker a) : line.All weaker :=
  ⟨implies _ all.first, fun pair member => implies _ (all.rest pair member)⟩

namespace Arithmetic

variable {σ α : Type} {A : Arithmetic σ α} {kept : α → Prop}

/-- Every operation on values that meet a condition leads to one that does. -/
def Keeps (A : Arithmetic σ α) (kept : α → Prop) : Prop :=
  ∀ operator a b, kept a → kept b → kept (A.outcome (A.step operator a b))

/-- A condition that operations keep holds of the value of a line. -/
theorem Keeps.fold (step : A.Keeps kept) {line : Line α} (all : line.All kept) :
    kept (A.fold line).value := by
  -- A condition is a relation of each value to itself.
  have related : A.StepRelated A fun a _ => kept a := fun operator _ _ _ _ left right =>
    step operator _ _ left right
  exact related.fold all.first (.of_forall all.rest)

/-- Operations that are allowed lead from values that are kept to others, and what they lead to is
clean just when both values are and the operation passes that on. -/
def Passes (A : Arithmetic σ α) (kept clean : α → Prop) (allowed passes : σ → Prop) : Prop :=
  ∀ operator a b, kept a → kept b → allowed (A.step operator a b) →
    kept (A.outcome (A.step operator a b))
      ∧ (clean (A.outcome (A.step operator a b)) ↔ clean a ∧ clean b ∧ passes (A.step operator a b))

variable {clean : α → Prop} {allowed passes : σ → Prop}

/-- What the products of a line leave is clean just when the line is and all of them pass that
on. -/
theorem Passes.products (step : A.Passes kept clean allowed passes) {first : α}
    {rest : List (Operator × α)} (all : Line.All kept ⟨first, rest⟩)
    (steps : ∀ s ∈ (A.products first rest).1, allowed s) :
    (A.products first rest).2.All kept
      ∧ ((A.products first rest).2.All clean
        ↔ Line.All clean ⟨first, rest⟩ ∧ ∀ s ∈ (A.products first rest).1, passes s) := by
  induction rest generalizing first with
  | nil => simpa [Arithmetic.products] using all
  | cons pair rest ih =>
    obtain ⟨operator, next⟩ := pair
    obtain ⟨front, behind⟩ := Line.all_cons.1 all
    by_cases product : operator.isProduct = true
    · -- The product takes the place of the two values in front.
      simp only [Arithmetic.products, product, if_true] at steps ⊢
      obtain ⟨here, later⟩ := List.forall_mem_cons.1 steps
      obtain ⟨outcome, same⟩ := step operator first next front behind.first here
      obtain ⟨terms, clear⟩ := ih ⟨outcome, behind.rest⟩ later
      refine ⟨terms, clear.trans ?_⟩
      rw [Line.all_iff, same, Line.all_cons, Line.all_iff, List.forall_mem_cons]
      simp only [and_assoc, and_left_comm]
    · simp only [Arithmetic.products, product, Bool.false_eq_true, if_false] at steps ⊢
      obtain ⟨terms, clear⟩ := ih behind steps
      refine ⟨Line.all_cons.2 ⟨front, terms⟩, ?_⟩
      rw [Line.all_cons, Line.all_cons, and_assoc]
      exact and_congr_right fun _ => clear

/-- What the sums of a line come to is clean just when the line is and all of them pass that on. -/
theorem Passes.sums (step : A.Passes kept clean allowed passes) {first : α}
    {rest : List (Operator × α)} (all : Line.All kept ⟨first, rest⟩)
    (steps : ∀ s ∈ (A.sums first rest).1, allowed s) :
    kept (A.sums first rest).2
      ∧ (clean (A.sums first rest).2
        ↔ Line.All clean ⟨first, rest⟩ ∧ ∀ s ∈ (A.sums first rest).1, passes s) := by
  -- The first sum is passed on by the step, and it is the first operand of the rest.
  induction rest generalizing first with
  | nil => simpa [Arithmetic.sums, Line.all_iff] using all.first
  | cons pair rest ih =>
    obtain ⟨operator, next⟩ := pair
    obtain ⟨front, behind⟩ := Line.all_cons.1 all
    simp only [Arithmetic.sums] at steps ⊢
    obtain ⟨here, later⟩ := List.forall_mem_cons.1 steps
    obtain ⟨outcome, same⟩ := step operator first next front behind.first here
    obtain ⟨total, clear⟩ := ih ⟨outcome, behind.rest⟩ later
    refine ⟨total, clear.trans ?_⟩
    rw [Line.all_iff, same, Line.all_cons, Line.all_iff, List.forall_mem_cons]
    simp only [and_assoc, and_left_comm]

/-- What a line comes to is clean just when the line is and all its operations pass that on. -/
theorem Passes.fold (step : A.Passes kept clean allowed passes) {line : Line α}
    (all : line.All kept)
    (steps : ∀ s ∈ (A.fold line).products ++ (A.fold line).sums, allowed s) :
    kept (A.fold line).value
      ∧ (clean (A.fold line).value
        ↔ line.All clean ∧ ∀ s ∈ (A.fold line).products ++ (A.fold line).sums, passes s) := by
  obtain ⟨products, sums⟩ := List.forall_mem_append.1 steps
  obtain ⟨terms, front⟩ := step.products all products
  obtain ⟨total, behind⟩ := step.sums terms sums
  refine ⟨total, behind.trans ?_⟩
  rw [front, and_assoc, List.forall_mem_append]
  rfl

/-- What holds of the operations on values that meet a condition holds of all operations of a
line. -/
theorem Keeps.forall_steps {held : σ → Prop} (step : A.Keeps kept)
    (holds : ∀ operator a b, kept a → kept b → held (A.step operator a b)) {line : Line α}
    (all : line.All kept) : ∀ s ∈ (A.fold line).products ++ (A.fold line).sums, held s := by
  -- Where everything is clean all operations must have passed that on.
  have passes : A.Passes kept (fun _ => True) (fun _ => True) held :=
    fun operator a b first second _ =>
    ⟨step operator a b first second, fun _ => ⟨trivial, trivial, holds operator a b first second⟩,
      fun _ => trivial⟩
  exact ((passes.fold all fun _ _ => trivial).2.1 trivial).2

/-- Only sums and differences are left when the products of a line are done. -/
theorem isProduct_products (A : Arithmetic σ α) (first : α) (rest : List (Operator × α)) :
    ∀ pair ∈ (A.products first rest).2.rest, pair.1.isProduct = false := by
  -- A product is folded into the value before it, and anything else stays in the line.
  induction rest generalizing first with
  | nil => simp [products]
  | cons pair rest ih =>
    obtain ⟨operator, next⟩ := pair
    simp only [products]
    split
    · exact ih _
    · rename_i sum
      intro pair member
      rcases List.mem_cons.1 member with rfl | member
      · simpa using sum
      · exact ih next pair member

end Arithmetic

namespace Stream

open Line

/-- The products of a stream are those of its line. -/
theorem foldProducts_stream (first : Measure) (rest : List (Operator × Measure)) :
    foldProducts (stream ⟨first, rest⟩)
      = ((measures.products first rest).1, (measures.products first rest).2.stream) := by
  -- The scan looks at two operands and the operator between them, as the line does.
  induction rest generalizing first with
  | nil => simp [stream, restStream, foldProducts, Arithmetic.products]
  | cons pair rest ih =>
    obtain ⟨operator, next⟩ := pair
    simp only [stream, restStream] at ih ⊢
    rw [foldProducts]
    by_cases product : operator.isProduct = true
    · simp only [product, if_true, ih, Arithmetic.products]
      rfl
    · simp only [product, ih, Arithmetic.products]
      rfl

/-- The sums of a stream without products are those of its line. -/
theorem foldSums_stream (first : Measure) {rest : List (Operator × Measure)}
    (sums : ∀ pair ∈ rest, pair.1.isProduct = false) :
    foldSums (stream ⟨first, rest⟩)
      = ((measures.sums first rest).1,
        [.operand { toMeasure := (measures.sums first rest).2 }]) := by
  -- Without products each step folds the first two operands.
  induction rest generalizing first with
  | nil => simp [stream, restStream, foldSums, Arithmetic.sums]
  | cons pair rest ih =>
    obtain ⟨operator, next⟩ := pair
    have sum : operator.isProduct = false := sums (operator, next) (by simp)
    have later := ih (operator.apply first next).outcome fun pair member =>
      sums pair (by simp [member])
    simp only [stream, restStream] at later ⊢
    rw [foldSums]
    simp only [sum, later, Arithmetic.sums]
    rfl

/-- A stream without brackets folds like the line of its measures. -/
theorem fold_stream (line : Line Measure) :
    line.stream.fold
      = ⟨(measures.fold line).products, (measures.fold line).sums,
          [.operand { toMeasure := (measures.fold line).value }]⟩ := by
  -- The products come first, and leave a line of sums and differences.
  have terms := foldSums_stream (measures.products line.first line.rest).2.first
    (measures.isProduct_products line.first line.rest)
  unfold fold
  rw [foldProducts_stream]
  dsimp only
  rw [terms]
  rfl

/-- The result of a stream without brackets is that of its line. -/
theorem result_fold_stream (line : Line Measure) :
    line.stream.fold.result = (measures.fold line).propagated := by
  rw [fold_stream]
  simp [Folding.result, Folding.steps, Folded.propagated]

/-- A line of measures makes an alternating stream. -/
theorem alternates_stream (first : Measure) (rest : List (Operator × Measure)) :
    (stream ⟨first, rest⟩).Alternates := by
  induction rest generalizing first with
  | nil => exact .last _
  | cons pair rest ih => exact .more _ _ (ih pair.2)

/-- A line of canonical measures makes a canonical stream. -/
theorem canonical_stream {line : Line Measure} (all : line.All Measure.Canonical) :
    line.stream.Canonical := by
  refine ⟨alternates_stream line.first line.rest, fun o member => ?_⟩
  -- Operands of a line carry no brackets at all.
  have bare : ∀ {m : Measure}, m.Canonical → Operand.Canonical { toMeasure := m } :=
    fun canonical => ⟨canonical, Int.le_refl 0, Int.le_refl 0⟩
  have rest : ∀ {rest : List (Operator × Measure)}, (∀ pair ∈ rest, pair.2.Canonical) →
      .operand o ∈ restStream rest → o.Canonical := by
    intro rest all member
    induction rest with
    | nil => cases member
    | cons pair rest ih =>
      simp only [restStream, List.mem_cons, Token.operand.injEq, reduceCtorEq, false_or] at member
      rcases member with rfl | member
      · exact bare (all pair (by simp))
      · exact ih (fun pair member => all pair (by simp [member])) member
  rcases List.mem_cons.1 member with same | member
  · cases same
    exact bare all.first
  · exact rest all.rest member

/-- An operand without brackets is written as its measure. -/
theorem bracketed_written (m : Measure) (index : Nat) :
    Spelling.written.bracketed index { toMeasure := m } = m.text.toList := by
  simp [Spelling.written, Spelling.bracketed_characters]

/-- The text of a line is the expression of its stream. -/
theorem toList_render_stream (line : Line Measure) : line.stream.render.toList = line.text := by
  -- Both are spelled one measure at a time, with an operator between every two.
  rw [toList_render (alternates_stream line.first line.rest)]
  have rest : ∀ (rest : List (Operator × Measure)) (index : Nat),
      spell .written index (restStream rest) = restText rest := by
    intro rest
    induction rest with
    | nil => intro index; rfl
    | cons pair rest ih =>
      intro index
      simp only [restStream, restText, spell, ih, bracketed_written]
      rfl
  simp only [stream, text, spell, rest, bracketed_written]

/-- The text of a line of canonical measures is read as the stream of the line. -/
theorem scan_text {line : Line Measure} (all : line.All Measure.Canonical) :
    scan (String.ofList line.text) = line.stream := by
  rw [← toList_render_stream, String.ofList_toList]
  exact (canonical_stream all).scan_render

end Stream

end PlusMinus
