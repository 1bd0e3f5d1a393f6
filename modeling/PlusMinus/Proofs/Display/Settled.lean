import PlusMinus.Proofs.Display.Grid

/-! Rounding a result again: a value and an uncertainty that are read from their rounded texts
are rounded to the same texts, unless the place of the uncertainty moves or too many digits are
shown. -/

namespace PlusMinus

open Double

/-- A value and an uncertainty whose rounded texts stay as they are when they are rounded again. -/
inductive Settled (v : Double) (u : Figure) (precision : Int) : Bool → Prop
  /-- At a given decimal place both stay on its grid. -/
  | onGrid (value : SettledOnGrid v (min (max precision (-300)) 100))
      (uncertainty : SettledOnGrid u.magnitude (min (max precision (-300)) 100)) :
      Settled v u precision true
  /-- Behind the point the leading digit of the uncertainty stays in its place. -/
  | behind (place : 0 ≤ decimalPlace u (some u))
      (stays : SettledAtPlace v u.magnitude (decimalPlace u (some u))) : Settled v u precision false
  /-- Before the point the significant figures of the value are read back. -/
  | before (place : decimalPlace u (some u) < 0)
      (stays : precision < exactFigures → v.magnitude ≠ 0 →
        SettledDigits v u.magnitude.isZero precision) :
      Settled v u precision false

/-- Rounding a settled result again changes nothing. -/
theorem roundResult_again {v : Double} {u : Figure} {precision : Int} {useDecimalPlace : Bool}
    (isFinite : v.isFinite = true) (range : u.magnitude.isFinite = true)
    (nonnegative : u.magnitude.lt zero = false) (settled : Settled v u precision useDecimalPlace) :
    roundResult (Figure.ofText (roundResult v u precision useDecimalPlace).value).magnitude
      (.ofText (roundResult v u precision useDecimalPlace).uncertainty) precision useDecimalPlace
        = roundResult v u precision useDecimalPlace := by
  -- Each way of staying belongs to one branch of rounding.
  cases settled with
  | onGrid value uncertainty => exact roundToPlace_again isFinite range value uncertainty
  | behind place stays =>
    exact roundToFigures_again_of_place isFinite range nonnegative precision place stays
  | before place stays => exact roundToFigures_again_of_whole isFinite range nonnegative place stays

/-- An entered value and uncertainty that are settled are rounded to two texts, and these to
themselves. -/
theorem roundEntries_again {value uncertainty : Entry} {v u : Figure}
    (first : value.toFigure = .ok v)
    (second : uncertainty.toFigure = .ok u) (isFinite : v.magnitude.isFinite = true)
    (range : u.magnitude.isFinite = true) (nonnegative : u.magnitude.lt zero = false)
    {precision : Int} {useDecimalPlace : Bool}
    (settled : Settled v.magnitude u precision useDecimalPlace) :
    ∃ pair, roundEntries value uncertainty precision useDecimalPlace = .ok pair
      ∧ roundEntries (.text pair.value) (.text pair.uncertainty) precision useDecimalPlace
        = .ok pair := by
  have again := roundResult_again isFinite range nonnegative settled
  refine ⟨roundResult v.magnitude u precision useDecimalPlace, ?_, ?_⟩
  · rw [roundEntries, first, second]
    rfl
  · exact congrArg Except.ok again

/-- The three ways of staying: 6 ± 0.7 in two figures, 12345 ± 60 in three, and 2.345 ± 0.0678 to
two places. -/
theorem roundEntries_again_stable :
    (∃ pair, roundEntries (.text "6") (.text "0.7000000000000001") 2 false = .ok pair
        ∧ roundEntries (.text pair.value) (.text pair.uncertainty) 2 false = .ok pair)
      ∧ (∃ pair, roundEntries (.text "12345") (.text "60") 3 false = .ok pair
        ∧ roundEntries (.text pair.value) (.text pair.uncertainty) 3 false = .ok pair)
      ∧ ∃ pair, roundEntries (.text "2.345") (.text "0.0678") 2 true = .ok pair
        ∧ roundEntries (.text pair.value) (.text pair.uncertainty) 2 true = .ok pair := by
  -- The first uncertainty has a place behind the point, the second one has not, and the third is
  -- rounded to a grid.
  refine ⟨roundEntries_again rfl rfl (by decide +kernel) (by decide +kernel) (by decide +kernel)
      (.behind (by decide +kernel) ⟨by decide +kernel, by decide +kernel, by decide +kernel⟩),
    roundEntries_again rfl rfl (by decide +kernel) (by decide +kernel) (by decide +kernel)
      (.before (by decide +kernel) fun _ _ => .of_few (by decide +kernel) (by decide +kernel)
        (by decide +kernel) (by decide +kernel) (by decide +kernel)),
    roundEntries_again rfl rfl (by decide +kernel) (by decide +kernel) (by decide +kernel)
      (.onGrid ?_ ?_)⟩
  · exact .inr (within_iff.2 ⟨by decide +kernel, by decide +kernel⟩)
  · exact .inr (within_iff.2 ⟨by decide +kernel, by decide +kernel⟩)

/-- A carry moves the place of the uncertainty: 5.3 ± 0.96 is rounded to 5.3 ± 1.0, and that to 5 ±
1. -/
theorem roundEntries_carry :
    roundEntries (.number (ofText "5.3")) (.number (ofText "0.96")) 3 false = .ok ⟨"5.3", "1.0"⟩
      ∧ roundEntries (.text "5.3") (.text "1.0") 3 false = .ok ⟨"5", "1"⟩ := by
  decide +kernel

end PlusMinus
