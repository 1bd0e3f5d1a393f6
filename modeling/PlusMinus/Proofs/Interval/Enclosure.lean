import PlusMinus.Proofs.Expression.Name
import PlusMinus.Proofs.Expression.Repeated
import PlusMinus.Proofs.Interval.Contains
import PlusMinus.Proofs.Stream.RoundTrip

/-! The interval of an expression holds the exact value of the expression for every choice of
numbers from the intervals of its operands. -/

namespace PlusMinus

open Arithmetic

/-- The exact outcome of an operation on numbers. -/
def Operator.exact : Operator → Rat → Rat → Rat
  | .add => (· + ·)
  | .sub => (· - ·)
  | .mul => (· * ·)
  | .div => (· / ·)

/-- Numbers chosen for the operands under the four exact operations. -/
def rationals (choice : Nat → Rat) : Arithmetic (Option Rat) (Option Rat) :=
  guarded (fun index _ => choice index) (· == 0) Operator.exact

/-- The exact value of a stream for numbers chosen for its operands, unless it divides by zero. -/
def Stream.exactValue? (choice : Nat → Rat) (stream : Stream) : Option Rat :=
  stream.tree?.bind fun tree => tree.value (rationals choice)

/-- The operation on intervals. -/
def Interval.compute : Operator → Interval → Interval → Interval
  | .add => add
  | .sub => sub
  | .mul => mul
  | .div => div

/-- The interval between the bounds of an operand. -/
def Operand.bounds (o : Operand) :
    Interval := .between (o.nominal - o.spread) (o.nominal + o.spread)

/-- The intervals of the operands under the four operations on intervals. -/
def intervals : Arithmetic Interval Interval where
  operand _ o := o.bounds
  step := Interval.compute
  outcome := id
  bracket := id

/-- Both bounds of an operand are finite. -/
def Operand.Bounded (o : Operand) : Prop :=
  (o.nominal - o.spread).isFinite = true ∧ (o.nominal + o.spread).isFinite = true

/-- A number between the bounds of an operand, whichever of them is the lower one. -/
def Operand.Within (o : Operand) (x : Rat) : Prop :=
  (o.nominal - o.spread).toRat ≤ x ∧ x ≤ (o.nominal + o.spread).toRat
    ∨ (o.nominal + o.spread).toRat ≤ x ∧ x ≤ (o.nominal - o.spread).toRat

instance (o : Operand) : Decidable o.Bounded := inferInstanceAs (Decidable (_ ∧ _))

instance (o : Operand) (x : Rat) : Decidable (o.Within x) := inferInstanceAs (Decidable (_ ∨ _))

namespace Double

/-- More quanta make a larger number. -/
theorem toRat_le {x y : Double} (fewer : x.signedQuanta ≤ y.signedQuanta) : x.toRat ≤ y.toRat := by
  -- How many quanta make one does not matter.
  unfold toRat
  generalize one = quanta
  rw [Rat.mkRat_eq_div, Rat.mkRat_eq_div]
  exact div_le_div_of_nonneg_right (by exact_mod_cast fewer) (Nat.cast_nonneg quanta)

/-- The order of finite doubles is that of their numbers. -/
theorem toRat_le_of_lt {x y : Double} (left : x.isFinite = true) (right : y.isFinite = true) :
    if x.lt y then x.toRat ≤ y.toRat else y.toRat ≤ x.toRat := by
  cases x with
  | nan => cases left
  | infinite negative => cases left
  | finite s a f =>
    cases y with
    | nan => cases right
    | infinite negative => cases right
    | finite t b g =>
      -- Finite doubles are compared by their quanta.
      split
      · rename_i less
        exact toRat_le (Int.le_of_lt (of_decide_eq_true less))
      · rename_i larger
        refine toRat_le (Int.not_lt.1 fun less => larger ?_)
        exact decide_eq_true less

/-- The end at a finite double is its number. -/
theorem ofDouble_finite {x : Double} (finite : x.isFinite = true) :
    Endpoint.ofDouble x = .finite x.toRat := by
  cases x with
  | nan => cases finite
  | infinite negative => cases finite
  | finite negative quanta fits => rfl

end Double

/-- Numbers between the bounds of an operand are in its interval. -/
theorem Operand.contains_bounds {o : Operand} (bounded : o.Bounded) {x : Rat}
    (within : o.Within x) :
    o.bounds.Contains x := by
  obtain ⟨left, right⟩ := bounded
  -- The order of the doubles, which decides on the ends, is that of the numbers.
  have order := Double.toRat_le_of_lt right left
  unfold bounds Interval.between
  rw [Double.ofDouble_finite left, Double.ofDouble_finite right]
  split
  · rename_i lower
    rw [if_pos lower] at order
    rcases within with ⟨low, high⟩ | ⟨low, high⟩
    · exact ⟨order.trans low, high.trans order⟩
    · exact ⟨low, high⟩
  · rename_i lower
    rw [if_neg lower] at order
    rcases within with ⟨low, high⟩ | ⟨low, high⟩
    · exact ⟨low, high⟩
    · exact ⟨order.trans low, high.trans order⟩

/-- Operations on numbers stay in the outcomes of the operations on intervals. -/
theorem Interval.contains_compute (operator : Operator) {s t : Interval} {x y : Rat}
    (first : s.Contains x) (second : t.Contains y) (nonzero : operator = .div → y ≠ 0) :
    (Interval.compute operator s t).Contains (operator.exact x y) := by
  cases operator with
  | add => exact contains_add first second
  | sub => exact contains_sub first second
  | mul => exact contains_mul first second
  | div => exact contains_div first second (nonzero rfl)

/-- Exact values stay in intervals. -/
theorem rationals_related_intervals (choice : Nat → Rat) :
    (rationals choice).Related intervals (WhenDefined fun x s => s.Contains x) := by
  apply guarded_related
  · -- The exact value is only defined when no divisor is zero, as the quotient of intervals needs
    -- it.
    intro operator x y s t first second nonzero
    exact Interval.contains_compute operator first second fun division => by
      simpa using nonzero division
  · exact fun inside => inside

/-- Trees of names have the intervals as values, whatever these are. -/
theorem intervals_related_trees (operandTree : Nat → Operand → Expression)
    (named : String → Option Interval) :
    intervals.Related (Expression.trees operandTree)
      fun s tree => tree.enclose? named = some (.range s) where
  step := by
    intro operator s t left right first second
    -- Both operands are intervals, so that the operation is the one on intervals.
    simp only [Expression.trees, id, Expression.enclose?, first, second]
    cases operator <;> rfl
  bracket := fun related => related

/-- An operand with finite bounds has an interval. -/
theorem Operand.interval?_eq {o : Operand} (bounded : o.Bounded) : o.interval? = some o.bounds := by
  unfold interval?
  dsimp only
  -- A finite bound is a number, and only bounds that are not are refused.
  rw [Double.isNaN_of_isFinite bounded.1, Double.isNaN_of_isFinite bounded.2]
  rfl

namespace Stream

/-- Operands with finite bounds all have intervals. -/
theorem mapM_interval? {operands : List Operand} (bounded : ∀ o ∈ operands, o.Bounded) :
    operands.mapM Operand.interval? = some (operands.map Operand.bounds) := by
  induction operands with
  | nil => rfl
  | cons o rest ih =>
    rw [List.mapM_cons, Operand.interval?_eq (bounded o (by simp)),
      ih fun p member => bounded p (by simp [member])]
    rfl

/-- Operands that all have intervals have those between their bounds. -/
theorem eq_of_mapM_interval? {operands : List Operand} {found : List Interval}
    (some : operands.mapM Operand.interval? = Option.some found) :
    found = operands.map Operand.bounds := by
  induction operands generalizing found with
  | nil => simpa using some.symm
  | cons o rest ih =>
    rw [List.mapM_cons] at some
    obtain ⟨own, first, later⟩ := Option.bind_eq_some_iff.1 some
    obtain ⟨others, behind, same⟩ := Option.bind_eq_some_iff.1 later
    -- An interval that is there is the one between the bounds.
    unfold Operand.interval? at first
    dsimp only at first
    split at first
    · cases first
    · cases first
      cases same
      rw [ih behind]
      rfl

/-- How deep the expression of a stream is with names for its operands, if it is one. -/
def namedDepth (stream : Stream) : Nat :=
  ((Expression.ofText? stream.namedText.toList).map Expression.depth).getD 0

/-- An expression that is too deep has no interval, whatever its operands are. -/
theorem enclose?_of_lt {stream : Stream} {limit : Nat} (deep : limit < stream.namedDepth) :
    stream.enclose? limit = none := by
  -- Whatever comes before the walk, the walk itself leads to nothing.
  have nothing : stream.variedValue? limit = none := by
    refine Option.eq_none_iff_forall_ne_some.2 fun value found => ?_
    simp only [variedValue?, Option.bind_eq_bind, Option.bind_eq_some_iff] at found
    obtain ⟨_, _, tree, read, walked⟩ := found
    rw [namedDepth, read, Option.map_some, Option.getD_some] at deep
    rw [Expression.walk?_of_lt deep] at walked
    cases walked
  rw [enclose?, nothing]

/-- A stream with an interval has operands that all have intervals. -/
theorem mapM_of_enclose? {stream : Stream} {limit : Nat} {interval : Interval}
    (enclosed : stream.enclose? limit = some interval) :
    stream.operands.mapM Operand.interval? = some (stream.operands.map Operand.bounds) := by
  -- Without all intervals there is no value that varies.
  cases found : stream.operands.mapM Operand.interval? with
  | none =>
    have nothing : stream.variedValue? limit = none := by
      unfold variedValue?
      rw [found]
      rfl
    rw [enclose?, nothing] at enclosed
    cases enclosed
  | some intervals => rw [eq_of_mapM_interval? found]

section Walked

variable {stream : Stream} {tree : Chain} {limit : Nat} (found : stream.tree? = some tree)
  (alternates : stream.Alternates) (balanced : stream.Balanced)
  (shallow : stream.nesting ≤ Lexeme.depthLimit)

include found alternates balanced shallow in
/-- With names for its operands a stream is read as its tree. -/
theorem ofText?_namedText :
    Expression.ofText? stream.namedText.toList
      = some (tree.value (Expression.trees fun index _ => .name (operandName index))) := by
  have read := ofText?_spell found alternates balanced shallow
    fun o _ index => legible_operandName index
  rwa [← toList_textFrom alternates fun index _ => operandName index] at read

include found in
/-- Where each name stands for the interval of its operand, the tree over the names has the value of
the tree over the intervals. -/
theorem enclose?_names :
    (tree.value (Expression.trees fun index _ => .name (operandName index))).enclose?
      (fun name => ((stream.operands.map Operand.bounds).zipIdx.map fun entry =>
        (operandName entry.2, entry.1)).lookup name)
      = some (.range (tree.value intervals)) := by
  refine tree.value_related (intervals_related_trees _ _) fun leaf member => ?_
  -- The operand of a leaf is the one with its index, and so is the interval.
  rw [Chain.leaves, spell_tree? .leaves found] at member
  obtain ⟨place, index, operand⟩ := getElem?_of_mem_leaves member
  have listed : (stream.operands.map Operand.bounds)[leaf.1]? = some leaf.2.bounds := by
    rw [index, Nat.zero_add, List.getElem?_map, operand, Option.map_some]
  have looked := lookup_operandName listed
  simp only [Expression.trees, Expression.enclose?, looked, Option.map_some]
  rfl

include found alternates balanced shallow in
/-- The interval of a stream whose operands all have intervals is computed along its tree, unless
that is too deep. -/
theorem enclose?_eq_of_mapM
    (defined : stream.operands.mapM Operand.interval? = some (stream.operands.map Operand.bounds)) :
    stream.enclose? limit = if stream.namedDepth ≤ limit then
      some (tree.value intervals) else none := by
  have read := ofText?_namedText found alternates balanced shallow
  have value := enclose?_names found
  -- What is left is to walk the tree that the text is read as.
  have depth : stream.namedDepth
      = (tree.value (Expression.trees fun index _ => .name (operandName index))).depth := by
    rw [namedDepth, read, Option.map_some, Option.getD_some]
  have varied : stream.variedValue? limit
      = (tree.value (Expression.trees fun index _ => .name (operandName index))).walk? limit
        (·.enclose? fun name => ((stream.operands.map Operand.bounds).zipIdx.map fun entry =>
          (operandName entry.2, entry.1)).lookup name) := by
    unfold variedValue?
    rw [defined]
    simp only [Option.bind_eq_bind, Option.bind_some]
    rw [read]
    rfl
  rw [enclose?, varied, depth]
  -- The depth decides whether the tree is walked, and where it is the tree of intervals has the
  -- same value.
  split
  · rename_i interval walked
    obtain ⟨inside, enclosed⟩ := Expression.walk?_eq_some.1 walked
    rw [value] at enclosed
    cases enclosed
    rw [if_pos inside]
  · rename_i none
    rw [if_neg fun inside => none _ (Expression.walk?_eq_some.2 ⟨inside, value⟩)]

include found alternates balanced shallow in
/-- An interval that a stream has is computed along its tree. -/
theorem eq_of_enclose? {interval : Interval} (enclosed : stream.enclose? limit = some interval) :
    interval = tree.value intervals := by
  rw [enclose?_eq_of_mapM found alternates balanced shallow (mapM_of_enclose? enclosed)] at enclosed
  split at enclosed
  · exact (Option.some.inj enclosed).symm
  · cases enclosed

end Walked

/-- The interval of a stream holds its exact value for every choice of numbers between the bounds of
its operands, as long as that value is defined and the expression is not too deep to be walked. So
do the returned doubles where they are the ends. For an expression that is too deep there is no
interval. -/
theorem enclosure_contains {stream : Stream} (limit : Nat) (alternates : stream.Alternates)
    (balanced : stream.Balanced) (shallow : stream.nesting ≤ Lexeme.depthLimit)
    (bounded : ∀ o ∈ stream.operands, o.Bounded) :
    (stream.namedDepth ≤ limit → ∃ interval, stream.enclose? limit = some interval
      ∧ stream.enclosure limit = (interval.low.toDouble, interval.high.toDouble)
      ∧ ∀ choice : Nat → Rat,
        (∀ (index : Nat) (o : Operand), stream.operands[index]? = some o →
          o.Within (choice index)) →
        ∀ x, stream.exactValue? choice = some x →
          interval.Contains x
          ∧ (Endpoint.ofDouble (stream.enclosure limit).1 = interval.low →
            (Endpoint.ofDouble (stream.enclosure limit).1).AtMost x)
          ∧ (Endpoint.ofDouble (stream.enclosure limit).2 = interval.high →
            (Endpoint.ofDouble (stream.enclosure limit).2).AtLeast x))
      ∧ (limit < stream.namedDepth → stream.enclosure limit = (.nan, .nan)) := by
  -- The interval and the exact value are computed along the same tree.
  obtain ⟨tree, found⟩ := exists_tree? alternates balanced
  have enclosed : stream.enclose? limit
      = if stream.namedDepth ≤ limit then some (tree.value intervals) else none :=
    enclose?_eq_of_mapM found alternates balanced shallow (mapM_interval? bounded)
  refine ⟨fun inside => ?_, fun deep => by rw [enclosure, enclose?_of_lt deep]⟩
  rw [if_pos inside] at enclosed
  refine ⟨tree.value intervals, enclosed, by rw [enclosure, enclosed], ?_⟩
  intro choice within x exact
  rw [exactValue?, found, Option.bind_some] at exact
  -- Each chosen number starts out in the interval of its operand.
  have chosen : (rationals choice).Agree intervals (WhenDefined fun x s => s.Contains x)
      tree.leaves := by
    intro leaf member
    rw [Chain.leaves, spell_tree? .leaves found] at member
    obtain ⟨place, index, operand⟩ := getElem?_of_mem_leaves member
    have inside := within place leaf.2 operand
    rw [show place = leaf.1 by omega] at inside
    exact .some (Operand.contains_bounds (bounded leaf.2 (mem_spell_leaves member)) inside)
  have inside := tree.value_related (rationals_related_intervals choice) chosen x exact
  -- A double that is an end is as good as the end.
  refine ⟨inside, fun same => ?_, fun same => ?_⟩
  · rw [same]
    exact inside.low
  · rw [same]
    exact inside.high

/-- Seven divided by two and a half is in the interval of an expression with both in reach. -/
theorem enclosure_contains_quotient :
    (scan "6±1/(3±0.5)").Alternates ∧ (scan "6±1/(3±0.5)").Balanced
      ∧ (scan "6±1/(3±0.5)").nesting ≤ Lexeme.depthLimit
      ∧ (∀ o ∈ (scan "6±1/(3±0.5)").operands, o.Bounded)
      ∧ (scan "6±1/(3±0.5)").namedDepth = 2
      ∧ (∃ interval, (scan "6±1/(3±0.5)").enclose? = some interval
        ∧ interval.Contains (7 / (5 / 2)))
      ∧ (scan "6±1/(3±0.5)").enclosure 1 = (.nan, .nan) := by
  -- Seven is the high end of the first operand, and two and a half the low end of the second.
  have nonempty : scan "6±1/(3±0.5)" ≠ [] := by decide +kernel
  have alternates := ((canonical_scan "6±1/(3±0.5)").resolve_left nonempty).alternates
  have balanced : (scan "6±1/(3±0.5)").Balanced := by decide +kernel
  have shallow : (scan "6±1/(3±0.5)").nesting ≤ Lexeme.depthLimit := by decide +kernel
  have bounded : ∀ o ∈ (scan "6±1/(3±0.5)").operands, o.Bounded := by decide +kernel
  have depth : (scan "6±1/(3±0.5)").namedDepth = 2 := by decide +kernel
  obtain ⟨interval, enclosed, _, holds⟩ :=
    (enclosure_contains enclosureLimit alternates balanced shallow bounded).1
      (by rw [depth]; decide)
  have within : ∀ pair ∈ (scan "6±1/(3±0.5)").operands.zipIdx,
      pair.1.Within (if pair.2 = 0 then 7 else 5 / 2) := by decide +kernel
  have value : (scan "6±1/(3±0.5)").exactValue? (fun index => if index = 0 then 7 else 5 / 2)
      = some (7 / (5 / 2)) := by decide +kernel
  obtain ⟨inside, _⟩ := holds _ (fun index o found =>
    within (o, index) (List.mk_mem_zipIdx_iff_getElem?.2 found)) _ value
  exact ⟨alternates, balanced, shallow, bounded, depth, ⟨interval, enclosed, inside⟩,
    (enclosure_contains 1 alternates balanced shallow bounded).2 (by rw [depth]; decide)⟩

/-- A sum of an operand without brackets is as deep as it has terms. -/
theorem namedDepth_repeated {o : Operand} (opening : o.openBrackets = 0)
    (closing : o.closeBrackets = 0) (count : Nat) :
    (repeated o count).namedDepth = count + 1 := by
  -- The text with names is read as the tree of the sum, whose depth is known.
  have read := ofText?_namedText (tree?_repeated opening closing count)
    (alternates_repeated o count) (balanced_repeated opening closing count)
    (nesting_repeated_le opening closing count _)
  rw [namedDepth, read, Option.map_some, Option.getD_some,
    Expression.depth_repeated _ fun _ => rfl, Nat.add_comm]

/-- The exact value of a sum of ones is their number. -/
theorem exactValue?_repeated (count : Nat) :
    (repeated .one count).exactValue? (fun _ => 1) = some ((count : Rat) + 1) := by
  -- Each step of the fold adds a one to the total so far.
  have total : ∀ n : Nat, (fun total => (rationals fun _ => 1).outcome
      ((rationals fun _ => 1).step .add total (some 1)))^[n] (some 1) = some ((n : Rat) + 1) := by
    intro n
    induction n with
    | zero => simp
    | succ n ih =>
      rw [Function.iterate_succ_apply', ih]
      change some ((n : Rat) + 1 + 1) = _
      push_cast
      rfl
  have same (index : Nat) : (rationals fun _ => 1).operand index .one = some 1 := rfl
  rw [exactValue?, tree?_repeated rfl rfl, Option.bind_some,
    Chain.value_repeated_of_same _ same, total]

/-- A sum of eleven hundred ones has a value, with each of them between its bounds, but no
interval. -/
theorem enclosure_of_many_ones :
    (repeated .one 1099).Alternates ∧ (repeated .one 1099).Balanced
      ∧ (repeated .one 1099).nesting ≤ Lexeme.depthLimit
      ∧ (∀ o ∈ (repeated .one 1099).operands, o.Bounded ∧ o.Within 1)
      ∧ (repeated .one 1099).exactValue? (fun _ => 1) = some 1100
      ∧ (repeated .one 1099).enclose? = none
      ∧ (repeated .one 1099).enclosure = (.nan, .nan) := by
  -- The tree is as deep as the sum is long, which is beyond the limit.
  have deep : enclosureLimit < (repeated .one 1099).namedDepth := by
    rw [namedDepth_repeated rfl rfl]
    decide
  have one : Operand.one.Bounded ∧ Operand.one.Within 1 := by decide +kernel
  have value : (repeated .one 1099).exactValue? (fun _ => 1) = some 1100 :=
    (exactValue?_repeated 1099).trans (congrArg some (by decide +kernel))
  refine ⟨alternates_repeated _ _, balanced_repeated rfl rfl _,
    nesting_repeated_le rfl rfl _ _, fun o member => ?_, value,
    enclose?_of_lt deep, ?_⟩
  · rw [eq_of_mem_repeated member]
    exact one
  · rw [enclosure, enclose?_of_lt deep]

end Stream

end PlusMinus
