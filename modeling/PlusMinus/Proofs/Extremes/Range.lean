import PlusMinus.Extremes
import PlusMinus.Proofs.Double.Order

/-! The ends of a range: the values at the picked bounds and at the opposite ones, in their
order. -/

namespace PlusMinus

open Double

/-- The lower one of two doubles is not above either of them. -/
theorem Double.lower_notAbove (x y : Double) :
    (if x.lt y then x else y).NotAbove x ∧ (if x.lt y then x else y).NotAbove y := by
  cases less : x.lt y with
  | true => exact ⟨.of_alike (.refl x), .of_lt less⟩
  | false => exact ⟨.of_lt_eq_false less, .of_alike (.refl y)⟩

/-- Neither of two doubles is above the higher one. -/
theorem Double.notAbove_higher (x y : Double) :
    x.NotAbove (if x.lt y then y else x) ∧ y.NotAbove (if x.lt y then y else x) := by
  cases less : x.lt y with
  | true => exact ⟨.of_lt less, .of_alike (.refl y)⟩
  | false => exact ⟨.of_alike (.refl x), .of_lt_eq_false less⟩

/-- The ends of a range are the values for the minimum and for the maximum, which are numbers, in
their order. -/
structure Extremes.Sorted (e : Extremes) : Prop where
  minNumber : e.minValue.isNaN = false
  maxNumber : e.maxValue.isNaN = false
  min : e.min = e.minValue ∨ e.min = e.maxValue
  max : e.max = e.minValue ∨ e.max = e.maxValue
  min_notAbove : e.min.NotAbove e.minValue ∧ e.min.NotAbove e.maxValue
  notAbove_max : e.minValue.NotAbove e.max ∧ e.maxValue.NotAbove e.max

namespace Extremes.Sorted

variable {e : Extremes} {x : Double}

/-- The lower end is a number. -/
theorem isNaN_min (sorted : e.Sorted) : e.min.isNaN = false := by
  rcases sorted.min with same | same <;> rw [same]
  · exact sorted.minNumber
  · exact sorted.maxNumber

/-- The higher end is a number. -/
theorem isNaN_max (sorted : e.Sorted) : e.max.isNaN = false := by
  rcases sorted.max with same | same <;> rw [same]
  · exact sorted.minNumber
  · exact sorted.maxNumber

/-- The ends are in order. -/
theorem min_le_max (sorted : e.Sorted) : e.min.le e.max = true :=
  (sorted.min_notAbove.1.trans sorted.notAbove_max.1 sorted.minNumber).le sorted.isNaN_min
    sorted.isNaN_max

/-- What is not above either value is not above the lower end. -/
theorem notAbove_min (sorted : e.Sorted) (first : x.NotAbove e.minValue)
    (second : x.NotAbove e.maxValue) :
    x.NotAbove e.min := by
  rcases sorted.min with same | same <;> rw [same] <;> assumption

/-- What either value is not above, the higher end is not above. -/
theorem max_notAbove (sorted : e.Sorted) (first : e.minValue.NotAbove x)
    (second : e.maxValue.NotAbove x) :
    e.max.NotAbove x := by
  rcases sorted.max with same | same <;> rw [same] <;> assumption

end Extremes.Sorted

namespace Stream

variable {stream : Stream} {digits : Int} {limit : Nat}

/-- The bound of each operand that raises the expression, if one is known to. -/
def picks (digits : Int) (limit : Nat) (stream : Stream) (index : Nat) : Option Bool :=
  ((stream.operands.zipIdx.map fun (o, index) => stream.direction digits index o limit).map
    (·.pickHigh))[index]?.join

/-- The bounds opposite to the picked ones. -/
def oppositePicks (digits : Int) (limit : Nat) (stream : Stream) (index : Nat) : Option Bool :=
  (stream.picks digits limit index).map (!·)

/-- The bound that is picked for an operand is that of its direction. -/
theorem picks_of_getElem? {index : Nat} {o : Operand} (found : stream.operands[index]? = some o) :
    stream.picks digits limit index = (stream.direction digits index o limit).pickHigh := by
  simp [picks, found]

/-- The value for the maximum is that at the picked bounds. -/
theorem maxValue_extremes (config : Config) (limits : Expression.WalkLimits) (stream : Stream) :
    (stream.extremes config limits).maxValue
      = Expression.evaluate
          (stream.chosenText config.debugDigits (stream.picks config.debugDigits limits.values))
          limits.values :=
  rfl

/-- The value for the minimum is that at the bounds opposite to the picked ones. -/
theorem minValue_extremes (config : Config) (limits : Expression.WalkLimits) (stream : Stream) :
    (stream.extremes config limits).minValue
      = Expression.evaluate
          (stream.chosenText config.debugDigits
            (stream.oppositePicks config.debugDigits limits.values))
          limits.values :=
  rfl

/-- The ends of a range that is known are sorted. -/
theorem sorted_extremes {config : Config} {limits : Expression.WalkLimits}
    (known : (stream.extremes config limits).min.isNaN = false) :
    (stream.extremes config limits).Sorted := by
  unfold extremes at known ⊢
  dsimp only at known ⊢
  generalize Expression.evaluate (stream.chosenText config.debugDigits fun i =>
    ((stream.operands.zipIdx.map fun (o, index) =>
        stream.direction config.debugDigits index o limits.values).map
      (·.pickHigh))[i]?.join) limits.values = most at known ⊢
  generalize Expression.evaluate (stream.chosenText config.debugDigits _) limits.values = least
    at known ⊢
  -- The range is unknown as soon as one of the two values is no number.
  by_cases none : (most.isNaN || least.isNaN) = true
  · rw [if_pos none] at known
    cases known
  · rw [if_neg none]
    simp only [Bool.or_eq_true, not_or, Bool.not_eq_true] at none
    have lower := lower_notAbove most least
    have higher := notAbove_higher least most
    exact
      { minNumber := none.2
        maxNumber := none.1
        min := by dsimp only; split <;> simp
        max := by dsimp only; split <;> simp
        min_notAbove := ⟨lower.2, lower.1⟩
        notAbove_max := higher }

end Stream

end PlusMinus
