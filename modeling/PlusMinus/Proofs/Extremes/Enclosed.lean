import PlusMinus.Proofs.Expression.Chosen
import PlusMinus.Proofs.Extremes.Range
import PlusMinus.Proofs.Interval.Regular

/-! The worst-case range encloses the range from the picked bounds, as long as doubles are as good
as numbers without limits on the way. -/

namespace PlusMinus

open Double

/-- A double on the way of an evaluation. -/
structure Traced where
  value : Double
  /-- Whether all that it was computed from may be relied on. -/
  sound : Bool
  /-- Whether it may be computed with in its turn. -/
  regular : Bool

/-- Doubles under the four operations that keep in mind whether they are reliable: the numbers of
the operands lie between their bounds, no divisor is zero, and what is computed with is regular. -/
def traced (operand : Nat → Operand → Double) : Arithmetic Traced Traced where
  operand index o :=
    let value := operand index o
    let inside := decide (value.isFinite = true ∧ o.bounds.Contains value.toRat)
    { value, sound := inside, regular := inside }
  step operator left right :=
    let sound := left.regular && right.regular && !(operator = .div && right.value.isZero)
    { value := operator.compute left.value right.value
      sound
      regular := sound && decide (Regular (operator.exact left.value.toRat right.value.toRat)) }
  outcome := id
  bracket := id

/-- Keeping in mind what is reliable does not change the doubles. -/
theorem traced_related_doubles (operand : Nat → Operand → Double) :
    (traced operand).Related (doubles operand) fun t x => t.value = x where
  step := by
    intro operator a b x y left right
    subst left right
    rfl
  bracket := id

/-- A double on the way of an evaluation and the interval that is computed next to it. -/
structure Traced.Within (t : Traced) (s : Interval) : Prop where
  sound : t.sound = true → ∃ z, s.Contains z ∧ t.value.Alike (nearest z)
  regular : t.regular = true → t.value.isFinite = true ∧ s.Contains t.value.toRat

/-- A finite double that is not zero does not stand for zero. -/
theorem Double.toRat_ne_zero {x : Double} (finite : x.isFinite = true)
    (nonzero : x.isZero = false) :
    x.toRat ≠ 0 := by
  rw [toRat_eq]
  refine div_ne_zero ?_ unit_ne
  -- There is at least one quantum.
  cases x with
  | nan => cases finite
  | infinite negative => cases finite
  | finite negative quanta fits =>
    have some : quanta ≠ 0 := by simpa [isZero] using nonzero
    cases negative <;> simpa [signedQuanta] using some

/-- Reliable doubles stay within the intervals that are computed next to them. -/
theorem traced_related_intervals (operand : Nat → Operand → Double) :
    (traced operand).Related intervals Traced.Within where
  step := by
    intro operator a b s t left right
    -- With reliable operands the exact outcome is in the interval, and the double is nearest to it.
    have nearest : ((traced operand).step operator a b).sound = true →
        (Interval.compute operator s t).Contains (operator.exact a.value.toRat b.value.toRat)
          ∧ (operator.compute a.value b.value).Alike
            (nearest (operator.exact a.value.toRat b.value.toRat)) := by
      intro sound
      simp only [traced, Bool.and_eq_true, Bool.not_eq_true', Bool.and_eq_false_imp,
        decide_eq_true_eq] at sound
      obtain ⟨⟨first, second⟩, nonzero⟩ := sound
      obtain ⟨finite, inside⟩ := left.regular first
      obtain ⟨finite', inside'⟩ := right.regular second
      exact ⟨Interval.contains_compute operator inside inside' fun division =>
          toRat_ne_zero finite' (nonzero division),
        operator.compute_alike_nearest finite finite' nonzero⟩
    refine ⟨fun sound => ⟨_, nearest sound⟩, fun reliable => ?_⟩
    obtain ⟨sound, regular⟩ := Bool.and_eq_true_iff.1 reliable
    replace regular := of_decide_eq_true regular
    obtain ⟨inside, alike⟩ := nearest sound
    -- A regular outcome is not rounded out of the interval, whose ends are coarse.
    have coarse := Interval.Coarse.compute operator s t
    refine ⟨alike.isFinite.trans regular.1, ?_⟩
    change (Interval.compute operator s t).Contains (operator.compute a.value b.value).toRat
    rw [alike.toRat]
    exact ⟨inside.low.nearest coarse.low regular, inside.high.nearest coarse.high regular⟩
  bracket := id

namespace Stream

variable {stream : Stream} {digits : Int} {choice : Nat → Option Bool}

/-- Whether the evaluation with a bound chosen for each operand is reliable, as far as the brackets
of the stream are balanced. -/
def sound (digits : Int) (choice : Nat → Option Bool) (stream : Stream) : Bool :=
  (stream.tree?.map fun tree => (tree.value (traced (written digits choice))).sound).getD true

/-- The value at reliable choices of bounds is between the ends of the interval of the stream. -/
theorem evaluate_between (alternates : stream.Alternates)
    (sound : stream.sound digits choice = true)
    {limits : Expression.WalkLimits} {interval : Interval}
    (enclosed : stream.enclose? limits.intervals = some interval)
    (number : (Expression.evaluate (stream.chosenText digits choice) limits.values).isNaN = false) :
    interval.low.toDouble.NotAbove
      (Expression.evaluate (stream.chosenText digits choice) limits.values)
      ∧ (Expression.evaluate (stream.chosenText digits choice) limits.values).NotAbove
        interval.high.toDouble := by
  -- A value that is a number is that of the expression.
  have value :=
    (Expression.evaluate_cases (stream.chosenText digits choice) limits.values).resolve_left
    fun none => by simp [none, isNaN] at number
  rw [value, value_chosenText digits choice alternates] at number ⊢
  split at number
  · rename_i readable
    rw [if_pos readable]
    obtain ⟨tree, found⟩ := exists_tree? alternates readable.1
    cases eq_of_enclose? found alternates readable.1 readable.2 enclosed
    -- Each number that is written lies in the interval of its operand.
    have agree : (traced (written digits choice)).Agree intervals Traced.Within tree.leaves := by
      intro leaf member
      refine ⟨fun inside => ?_, fun inside => of_decide_eq_true inside⟩
      have both := of_decide_eq_true inside
      exact ⟨_, both.2, alike_nearest both.1⟩
    -- The tree is evaluated in doubles, in traced doubles and in intervals, all alike.
    have same :=
      tree.value_related (traced_related_doubles (written digits choice)) fun leaf _ => rfl
    have within := tree.value_related (traced_related_intervals _) agree
    rw [Stream.sound, found] at sound
    obtain ⟨z, inside, alike⟩ := within.sound sound
    rw [found, Option.map_some, Option.getD_some, ← same]
    exact ⟨inside.low.toDouble.congr (.refl _) alike.symm,
      inside.high.toDouble.congr alike.symm (.refl _)⟩
  · cases number

/-- A range with a worst-case range is one of a stream with an interval, whose ends are the doubles
nearest to those of the interval. -/
theorem exists_enclose?_of_hasBound {config : Config} {limits : Expression.WalkLimits}
    (bound : (stream.extremes config limits).hasBound = true) :
    ∃ interval, stream.enclose? limits.intervals = some interval
      ∧ (stream.extremes config limits).boundMin = interval.low.toDouble
      ∧ (stream.extremes config limits).boundMax = interval.high.toDouble
      ∧ interval.low.toDouble.isNaN = false ∧ interval.high.toDouble.isNaN = false := by
  have ends : (stream.extremes config limits).boundMin
        = (if config.intervalBound && !stream.operands.isEmpty then
            stream.enclosure limits.intervals else (nan, nan)).1
      ∧ (stream.extremes config limits).boundMax
        = (if config.intervalBound && !stream.operands.isEmpty then
            stream.enclosure limits.intervals else (nan, nan)).2 :=
    ⟨rfl, rfl⟩
  unfold Extremes.hasBound at bound
  rw [ends.1, ends.2] at bound ⊢
  -- Without an interval, or when none is asked for, both ends are no numbers.
  split at bound
  · rename_i computed
    rw [if_pos computed]
    unfold enclosure at bound ⊢
    cases enclosed : stream.enclose? limits.intervals with
    | none =>
      rw [enclosed] at bound
      cases bound
    | some interval =>
      rw [enclosed] at bound
      simp only [Bool.not_eq_true', Bool.or_eq_false_iff] at bound
      exact ⟨interval, rfl, rfl, rfl, bound⟩
  · cases bound

/-- The worst-case range encloses the range from the picked bounds where the evaluations for both of
its ends are reliable. -/
theorem extremes_within_bounds (config : Config) (limits : Expression.WalkLimits)
    (alternates : stream.Alternates)
    (lower : stream.sound config.debugDigits
      (stream.oppositePicks config.debugDigits limits.values) = true)
    (upper : stream.sound config.debugDigits (stream.picks config.debugDigits limits.values)
      = true) :
    let extremes := stream.extremes config limits
    extremes.hasBound = true → extremes.min.isNaN = false → extremes.max.isNaN = false →
      extremes.boundMin.le extremes.min = true ∧ extremes.min.le extremes.max = true
        ∧ extremes.max.le extremes.boundMax = true := by
  intro extremes bound known _
  have sorted := sorted_extremes known
  obtain ⟨interval, enclosed, low, high, lowNumber, highNumber⟩ := exists_enclose?_of_hasBound bound
  -- Both of the values that the ends are taken from lie in the interval.
  have least := evaluate_between alternates lower enclosed
    (minValue_extremes config limits stream ▸ sorted.minNumber)
  have most := evaluate_between alternates upper enclosed
    (maxValue_extremes config limits stream ▸ sorted.maxNumber)
  rw [← minValue_extremes] at least
  rw [← maxValue_extremes] at most
  rw [low, high]
  exact ⟨(sorted.notAbove_min least.1 most.1).le lowNumber known, sorted.min_le_max,
    (sorted.max_notAbove least.2 most.2).le sorted.isNaN_max highNumber⟩

/-- The range of a quotient with a bracket, enclosed by its worst-case range. -/
theorem extremes_within_bounds_quotient :
    let extremes := (scan "(10±1-2±0.5)*3/4±1").extremes default
    extremes.hasBound = true ∧ extremes.boundMin.le extremes.min = true
      ∧ extremes.min.le extremes.max = true ∧ extremes.max.le extremes.boundMax = true := by
  have nonempty : scan "(10±1-2±0.5)*3/4±1" ≠ [] := by decide +kernel
  -- What is scanned alternates as soon as there is any of it.
  have alternates := ((canonical_scan "(10±1-2±0.5)*3/4±1").resolve_left nonempty).alternates
  obtain ⟨lower, upper, bound, least, most⟩ :
      let stream := scan "(10±1-2±0.5)*3/4±1"
      let digits := (default : Config).debugDigits
      let limit := Expression.WalkLimits.values {}
      stream.sound digits (stream.oppositePicks digits limit) = true
        ∧ stream.sound digits (stream.picks digits limit) = true
        ∧ (stream.extremes default).hasBound = true ∧ (stream.extremes default).min.isNaN = false
        ∧ (stream.extremes default).max.isNaN = false := by
    decide +kernel
  exact ⟨bound, extremes_within_bounds default {} alternates lower upper bound least most⟩

/-- A number that is trimmed when it is written, an outcome out of range, one that is too small for
all of its bits, and a divisor that is zero each lead out of the worst-case range. -/
theorem extremes_outside_bounds :
    let outside := fun text : String =>
      let extremes := (scan text).extremes default
      extremes.hasBound = true ∧ extremes.min.isNaN = false ∧ extremes.max.isNaN = false
        ∧ ¬(extremes.boundMin.le extremes.min = true ∧ extremes.min.le extremes.max = true
          ∧ extremes.max.le extremes.boundMax = true)
    outside "1.23456789012" ∧ outside "1e308*10/10" ∧ outside "1e-200*1e-200*1e200*1e200"
      ∧ outside "1/(1-2±1)" := by
  decide +kernel

end Stream

end PlusMinus
