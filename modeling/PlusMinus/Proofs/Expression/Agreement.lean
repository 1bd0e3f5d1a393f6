import PlusMinus.Proofs.Double.Undefined
import PlusMinus.Proofs.Expression.Chosen
import PlusMinus.Proofs.Expression.Repeated
import PlusMinus.Proofs.Propagation.Solve

/-! The value that propagation leads to is that of the plain expression of the nominal values. -/

namespace PlusMinus

open PlusMinus.Stream Arithmetic

/-- The nominal values under the four operations on doubles. -/
def nominals : Arithmetic (Option Double) (Option Double) :=
  guarded (fun _ o => o.nominal) Double.isZero Operator.compute

/-- The nominal value of a stream, unless it divides by zero. -/
def Stream.nominal? (stream : Stream) : Option Double :=
  stream.tree?.bind fun tree => tree.value nominals

/-- Operations on numbers that are equal but for the sign of a zero lead to such numbers. -/
theorem Operator.alike_compute (operator : Operator) {x y z w : Double} (left : x.Alike y)
    (right : z.Alike w) (nonzero : operator = .div → z.isZero = false) :
    (operator.compute x z).Alike (operator.compute y w) := by
  cases operator with
  | add => exact left.add right
  | sub => exact left.sub right
  | mul => exact left.mul right
  | div => exact left.div right (nonzero rfl)

/-- Propagation carries the nominal values along, but for the signs of zeros. -/
theorem nominals_related_measures :
    nominals.Related measures
      (WhenDefined fun x m => m.Written ∧ x.Alike m.value.magnitude) := by
  apply guarded_related
  · -- The uncertainties stay without a minus, whatever the values are.
    intro operator x y m n ⟨first, left⟩ ⟨second, right⟩ nonzero
    refine ⟨operator.written_outcome first.nonnegative second.nonnegative, ?_⟩
    have computed := operator.alike_compute left right nonzero
    have value := congrArg Figure.magnitude (operator.value_outcome m n)
    exact computed.trans (.inl value.symm)
  · -- A bracket is read again, which may lose the sign of a zero.
    intro x m ⟨written, alike⟩
    exact ⟨written.canonical_reread.written, alike.trans written.reread_alike.value.symm⟩

/-- The trees of plain expressions have the nominal values, but for the signs of zeros. -/
theorem nominals_related_trees (operandTree : Nat → Operand → Expression) :
    nominals.Related (Expression.trees operandTree)
      (WhenDefined fun x tree => ∃ y, tree.value? = some y ∧ x.Alike y) := by
  apply guarded_related
  · rintro operator x y _ _ ⟨z, leftValue, left⟩ ⟨w, rightValue, right⟩ nonzero
    refine ⟨operator.compute z w, ?_, operator.alike_compute left right nonzero⟩
    simp [Expression.trees, Expression.value?, leftValue, rightValue]
  · exact fun related => related

namespace Stream

/-- The plain expression of a stream is read as the tree of its numbers as they are shown. -/
theorem ofWritten?_chosenText (digits : Int) (choice : Nat → Option Bool) {stream : Stream}
    {tree : Chain} (found : stream.tree? = some tree) (alternates : stream.Alternates)
    (balanced : stream.Balanced) (shallow : stream.nesting ≤ Lexeme.depthLimit)
    (finite : ∀ o ∈ stream.operands, ∀ index,
      ((o.chosen (choice index)).roundDigits digits).isFinite = true) :
    Expression.ofWritten? (stream.chosenText digits choice)
      = some (tree.value (Expression.trees fun index o =>
          ((o.chosen (choice index)).roundDigits digits).expression)) := by
  have legible : ∀ o ∈ stream.operands, ∀ index,
      Legible ((o.chosen (choice index)).trimmed digits).toList
        ((o.chosen (choice index)).roundDigits digits).lexemes
        ((o.chosen (choice index)).roundDigits digits).expression :=
    fun o member index => Double.legible_text (finite o member index)
  -- The text is the spelling of the stream with a legible number for each operand.
  obtain ⟨nonempty, ordinary⟩ := ordinary_spell alternates legible 0
  rw [chosenText_eq digits choice alternates,
    (Lexeme.framed_of_ordinary nonempty ordinary).ofWritten?_alone,
    ofText?_spell found alternates balanced shallow legible]

/-- Propagation leads to the nominal value, but for the sign of a zero. -/
theorem Canonical.alike_solve {stream : Stream} (canonical : stream.Canonical)
    (balanced : stream.Balanced) {config : Config}
    (within : (stream.openings : Int) ≤ config.maxBracketIterations) {x : Double}
    (nominal : stream.nominal? = some x) :
    x.Alike (solve config stream.render).result.measure.value.magnitude := by
  obtain ⟨tree, found, leaves, solved⟩ := canonical.solve_render balanced within
  rw [nominal?, found, Option.bind_some] at nominal
  -- The measures start from the nominal values.
  have measured : nominals.Agree measures
      (WhenDefined fun x m => m.Written ∧ x.Alike m.value.magnitude) tree.leaves := by
    intro leaf member
    exact .some ⟨(leaves leaf member).written, .refl _⟩
  rw [solved, tree.measure_propagated]
  exact (tree.value_related nominals_related_measures measured x nominal).2

/-- Propagation and the plain expression lead to the same number, but for the sign of a zero, as
long as the nominal values are shown in full and none of them is divided by zero, and the expression
is not too deep to be walked. One that is too deep has no value. -/
theorem solve_alike_evaluate (config : Config) (limit : Nat) (text : String)
    (nonempty : scan text ≠ [])
    (balanced : (scan text).Balanced) (shallow : (scan text).nesting ≤ Lexeme.depthLimit)
    (within : ((scan text).openings : Int) ≤ config.maxBracketIterations)
    (finite : ∀ o ∈ (scan text).operands, o.nominal.isFinite = true)
    (kept : ∀ o ∈ (scan text).operands,
      (o.nominal.roundDigits config.debugDigits).Alike o.nominal)
    (defined : (scan text).nominal?.isSome = true) :
    let plain := (scan text).chosenText config.debugDigits fun _ => none
    (Expression.depthOf plain ≤ limit →
        (solve config (scan text).render).result.measure.value.magnitude.Alike
          (Expression.evaluate plain limit))
      ∧ (limit < Expression.depthOf plain → Expression.evaluate plain limit = .nan) := by
  refine ⟨fun inside => ?_, Expression.evaluate_of_lt⟩
  have canonical := (canonical_scan text).resolve_left nonempty
  obtain ⟨tree, found⟩ := exists_tree? canonical.alternates balanced
  -- Numbers that are kept by trimming stay finite.
  have shown : ∀ o ∈ (scan text).operands,
      (o.nominal.roundDigits config.debugDigits).isFinite = true := by
    intro o member
    rw [(kept o member).isFinite]
    exact finite o member
  obtain ⟨x, nominal⟩ := Option.isSome_iff_exists.1 defined
  have propagated := canonical.alike_solve balanced within nominal
  rw [nominal?, found, Option.bind_some] at nominal
  -- The plain expression starts from the nominal values as well, as they are shown.
  have expressed : nominals.Agree (Expression.trees fun _ o =>
        (o.nominal.roundDigits config.debugDigits).expression)
      (WhenDefined fun x tree => ∃ y, tree.value? = some y ∧ x.Alike y) tree.leaves := by
    intro leaf member
    rw [Chain.leaves, spell_tree? .leaves found] at member
    have operand := mem_spell_leaves member
    have alike := (Double.withoutZeroSign_alike _).trans (kept leaf.2 operand)
    exact .some ⟨_, Double.value?_expression (shown leaf.2 operand), alike.symm⟩
  obtain ⟨y, value, evaluated⟩ :=
    tree.value_related (nominals_related_trees _) expressed x nominal
  have read := ofWritten?_chosenText config.debugDigits (fun _ => none) found canonical.alternates
    balanced shallow fun o member _ => shown o member
  rw [Expression.evaluate_of_le inside, read, Option.bind_some]
  change (solve config (scan text).render).result.measure.value.magnitude.Alike
    ((tree.value (Expression.trees fun _ o =>
      (o.nominal.roundDigits config.debugDigits).expression)).value?.getD .nan)
  rw [value, Option.getD_some]
  exact propagated.symm.trans evaluated

/-- A negative value, an exponent and nested brackets. -/
theorem solve_alike_evaluate_nested :
    (scan "-2±0.1*(1e-7-(3±0.2)/8)" ≠ [] ∧ (scan "-2±0.1*(1e-7-(3±0.2)/8)").Balanced
      ∧ (scan "-2±0.1*(1e-7-(3±0.2)/8)").nesting ≤ Lexeme.depthLimit
      ∧ ((scan "-2±0.1*(1e-7-(3±0.2)/8)").openings : Int) ≤ (default : Config).maxBracketIterations
      ∧ (∀ o ∈ (scan "-2±0.1*(1e-7-(3±0.2)/8)").operands, o.nominal.isFinite = true)
      ∧ (∀ o ∈ (scan "-2±0.1*(1e-7-(3±0.2)/8)").operands,
        (o.nominal.roundDigits (default : Config).debugDigits).Alike o.nominal)
      ∧ (scan "-2±0.1*(1e-7-(3±0.2)/8)").nominal?.isSome = true)
      ∧ (solve default (scan "-2±0.1*(1e-7-(3±0.2)/8)").render).result.measure.value.magnitude.Alike
        (Expression.evaluate ((scan "-2±0.1*(1e-7-(3±0.2)/8)").chosenText
          (default : Config).debugDigits fun _ => none)) := by
  -- Every condition can be looked up on a stream of four operands.
  have nonempty : scan "-2±0.1*(1e-7-(3±0.2)/8)" ≠ [] := by decide +kernel
  have balanced : (scan "-2±0.1*(1e-7-(3±0.2)/8)").Balanced := by decide +kernel
  have shallow : (scan "-2±0.1*(1e-7-(3±0.2)/8)").nesting ≤ Lexeme.depthLimit := by decide +kernel
  have within : ((scan "-2±0.1*(1e-7-(3±0.2)/8)").openings : Int)
      ≤ (default : Config).maxBracketIterations := by decide +kernel
  have finite : ∀ o ∈ (scan "-2±0.1*(1e-7-(3±0.2)/8)").operands, o.nominal.isFinite = true := by
    decide +kernel
  have kept : ∀ o ∈ (scan "-2±0.1*(1e-7-(3±0.2)/8)").operands,
      (o.nominal.roundDigits (default : Config).debugDigits).Alike o.nominal := by decide +kernel
  have defined : (scan "-2±0.1*(1e-7-(3±0.2)/8)").nominal?.isSome = true := by decide +kernel
  have depth : Expression.depthOf ((scan "-2±0.1*(1e-7-(3±0.2)/8)").chosenText
      (default : Config).debugDigits fun _ => none) = 4 := by decide +kernel
  have agreed := solve_alike_evaluate default (Expression.WalkLimits.values {})
    "-2±0.1*(1e-7-(3±0.2)/8)" nonempty balanced shallow within finite kept defined
  refine ⟨⟨nonempty, balanced, shallow, within, finite, kept, defined⟩, agreed.1 ?_⟩
  rw [depth]
  decide

/-- The plain expression of a sum is at least as deep as it has terms. -/
theorem lt_depthOf_repeated {o : Operand} (opening : o.openBrackets = 0)
    (closing : o.closeBrackets = 0) (digits : Int)
    (finite : (o.nominal.roundDigits digits).isFinite = true) (count : Nat) :
    count < Expression.depthOf ((repeated o count).chosenText digits fun _ => none) := by
  have read := ofWritten?_chosenText digits (fun _ => none) (tree?_repeated opening closing count)
    (alternates_repeated o count) (balanced_repeated opening closing count)
    (nesting_repeated_le opening closing count _) fun p member _ => by
      rw [eq_of_mem_repeated member]
      exact finite
  -- All operands are the same, and so are their trees.
  have depth := Expression.depth_repeated
    (fun _ o => ((o.chosen none).roundDigits digits).expression) (o := o) (fun _ => rfl) count
  rw [Expression.depthOf_eq read, depth]
  exact Nat.lt_add_of_pos_left (Expression.depth_pos _)

/-- The nominal value of a sum of ones is a number. -/
theorem nominal?_repeated (count : Nat) :
    ∃ x : Double, (repeated .one count).nominal? = some x ∧ x.isNaN = false := by
  -- Adding one keeps a number without a minus one.
  have total : ∀ n : Nat, ∃ x : Double,
      (fun total => nominals.outcome (nominals.step .add total (some Operand.one.nominal)))^[n]
        (some Operand.one.nominal) = some x ∧ x.isNegative = false ∧ x.isNaN = false := by
    intro n
    induction n with
    | zero => exact ⟨Operand.one.nominal, rfl, by decide +kernel, by decide +kernel⟩
    | succ n ih =>
      obtain ⟨x, value, nonnegative, number⟩ := ih
      refine ⟨x + Operand.one.nominal, ?_,
        Double.isNegative_add nonnegative (by decide +kernel), ?_⟩
      · rw [Function.iterate_succ_apply', value]
        rfl
      · refine Double.isNaN_add_eq_false ?_ (.inl (by decide +kernel))
        rcases Double.nonnegative_cases nonnegative with rfl | rfl | ⟨quanta, fits, rfl⟩
        · cases number
        · exact .inr rfl
        · exact .inl rfl
  obtain ⟨x, value, _, number⟩ := total count
  have same (index : Nat) : nominals.operand index .one = some Operand.one.nominal := rfl
  refine ⟨x, ?_, number⟩
  rw [nominal?, tree?_repeated rfl rfl, Option.bind_some,
    Chain.value_repeated_of_same _ same, value]

/-- A sum of eleven hundred ones has a value where it is propagated, but none as a plain
expression. -/
theorem solve_unlike_evaluate_of_many_ones :
    let text := (repeated .one 1099).render
    (scan text ≠ [] ∧ (scan text).Balanced ∧ (scan text).nesting ≤ Lexeme.depthLimit
      ∧ ((scan text).openings : Int) ≤ (default : Config).maxBracketIterations
      ∧ (∀ o ∈ (scan text).operands, o.nominal.isFinite = true)
      ∧ (∀ o ∈ (scan text).operands,
        (o.nominal.roundDigits (default : Config).debugDigits).Alike o.nominal)
      ∧ (scan text).nominal?.isSome = true)
      ∧ ¬(solve default (scan text).render).result.measure.value.magnitude.Alike
        (Expression.evaluate
          ((scan text).chosenText (default : Config).debugDigits fun _ => none)) := by
  -- The text is read as the sum.
  have single : scan "1±0" = [.operand .one] := by decide +kernel
  have one : Operand.one.Canonical := by
    have read := (canonical_scan "1±0").resolve_left (by rw [single]; exact List.cons_ne_nil _ _)
    exact read.operands .one (by rw [single]; exact List.mem_singleton_self _)
  have canonical : (repeated .one 1099).Canonical :=
    ⟨alternates_repeated _ _,
      fun o member => by rw [eq_of_mem_repeated (mem_operands.2 member)]; exact one⟩
  have balanced := balanced_repeated (o := .one) rfl rfl 1099
  have within : ((repeated .one 1099).openings : Int)
      ≤ (default : Config).maxBracketIterations := by
    rw [openings_repeated rfl]
    decide
  have number : Operand.one.nominal.isFinite = true
      ∧ (Operand.one.nominal.roundDigits (default : Config).debugDigits).Alike
        Operand.one.nominal := by
    decide +kernel
  obtain ⟨x, value, defined⟩ := nominal?_repeated 1099
  intro text
  rw [show scan text = repeated .one 1099 from canonical.scan_render]
  refine ⟨⟨?_, balanced, nesting_repeated_le rfl rfl _ _, within, fun o member => ?_,
    fun o member => ?_, ?_⟩, fun alike => ?_⟩
  · exact List.cons_ne_nil _ _
  · rw [eq_of_mem_repeated member]
    exact number.1
  · rw [eq_of_mem_repeated member]
    exact number.2
  · rw [value]
    rfl
  · -- The sum is deeper than the limit, and so the nominal value would be like no number.
    have deep := lt_depthOf_repeated (o := .one) rfl rfl
      (default : Config).debugDigits (by decide +kernel) 1099
    rw [Expression.evaluate_of_lt (Nat.lt_trans (by decide) deep)] at alike
    have undefined := ((canonical.alike_solve balanced within value).trans alike).isNaN
    rw [defined] at undefined
    cases undefined

end Stream

end PlusMinus
