import PlusMinus.Checked.Display
import PlusMinus.Proofs.Checked.Measure

/-! The refusals of showing a result that cannot happen, whatever is to be shown. -/

namespace PlusMinus

namespace Double

/-- The powers of ten that results are scaled by are finite and not zero. -/
theorem powerOfTen_scale (place : Int) (low : -300 ≤ place) (high : place ≤ 100) :
    (powerOfTen place).isFinite = true ∧ (powerOfTen place).isZero = false := by
  have unit : 0 < one := twoTo_pos 1074
  unfold powerOfTen
  cases place with
  | ofNat n =>
    -- A hundred powers of ten are below the 400th power of two.
    have large : tenTo 100 ≤ twoTo 400 := by decide +kernel
    have few : (n : Int) ≤ 100 := high
    have grows : tenTo n ≤ tenTo 100 := tenTo_le (by omega)
    have within : (ofQuotient .upward false (tenTo n * one) 1).Within 400 := by
      refine within_ofQuotient _ _ (by decide) (by decide) ?_
      rw [Nat.mul_one]
      exact Nat.mul_le_mul_right _ (Nat.le_trans grows large)
    exact ⟨within.isFinite, isZero_ofQuotient _ _ (by decide) (Nat.mul_pos (tenTo_pos n) unit)⟩
  | negSucc n =>
    -- Three hundred powers of ten divide one into more than a quantum.
    have small : tenTo 300 ≤ one := by decide +kernel
    have grows : tenTo (n + 1) ≤ tenTo 300 := tenTo_le (by omega)
    have within : (ofQuotient .upward false one (tenTo (n + 1))).Within 0 := by
      refine within_ofQuotient _ _ (tenTo_pos _) (by decide) ?_
      rw [show twoTo 0 = 1 from rfl, Nat.one_mul]
      exact Nat.le_mul_of_pos_right _ (tenTo_pos _)
    exact ⟨within.isFinite, isZero_ofQuotient _ _ (tenTo_pos _) (Nat.le_trans grows small)⟩

/-- A number is shown at a decimal place without a refusal. -/
theorem checkedAtPlace_eq_ok (x : Double) (place : Int) :
    x.checkedAtPlace place = .ok (x.atPlace place) := by
  unfold checkedAtPlace atPlace
  -- Above the ones place the number is made whole, and otherwise its places are fixed.
  split
  · rw [checkedRoundHalfUp_eq_ok]
    rfl
  · exact x.checkedFixed_eq_ok place

/-- A number with fixed significant digits reads back as a number. -/
theorem exists_double?_precise (x : Double) (precision : Int) :
    ∃ y, Numeral.double? (x.precise precision).toList = some y := by
  by_cases finite : x.isFinite = true
  · exact ⟨_, double?_precise finite precision⟩
  · -- What is not finite is written as a word.
    unfold precise
    rw [if_pos (by simpa using finite)]
    exact ⟨_, double?_text x⟩

/-- A number at a decimal place reads back as a number. -/
theorem exists_double?_atPlace (x : Double) (place : Int) :
    ∃ y, Numeral.double? (x.atPlace place).toList = some y := by
  unfold atPlace
  split
  · exact ⟨_, double?_text _⟩
  · exact x.exists_double?_fixed place

end Double

/-- Rounding to a decimal place is never refused. -/
theorem checkedRoundToPlace_eq_ok (value uncertainty : Double) (places : Int) :
    checkedRoundToPlace value uncertainty places = .ok (roundToPlace value uncertainty places) := by
  obtain ⟨finite, nonzero⟩ :=
    Double.powerOfTen_scale (min (max places (-300)) 100) (by omega) (by omega)
  unfold checkedRoundToPlace roundToPlace
  generalize min (max places (-300)) 100 = place at finite nonzero
  dsimp only
  generalize Double.powerOfTen place = scale at finite nonzero
  -- The value and the uncertainty are put on the same grid, which is divided by a number.
  have onGrid (x : Double) : (do
      let steps ← (x * scale).checkedRoundHalfUp
      steps.checkedDiv scale) = .ok ((x * scale).roundHalfUp / scale) := by
    rw [Double.checkedRoundHalfUp_eq_ok, Fault.ok_bind, Double.checkedDiv_eq_ok nonzero]
  rw [Double.checkedFinite_eq_ok finite, Fault.ok_bind]
  simp only [onGrid, Fault.ok_bind, Double.checkedAtPlace_eq_ok]
  rfl

namespace Double

/-- A value rounded to significant figures, as a text and as a number; an exact value is not
rounded. -/
def inFigures (value uncertainty : Double) (place figures : Int) : String × Double :=
  if exactFigures ≤ figures then
    (if uncertainty.isZero then value.text else value.atPlace place, value)
  else (value.precise figures, value.roundDigits figures)

/-- A value aligned to a decimal place behind the point; otherwise its text stays. -/
def aligned (value : Double) (place : Int) (text : String) : String :=
  if 0 ≤ place ∧ value.isFinite then value.fixed place else text

/-- A text without an exponent when its number is below a thousand. -/
def unscaled (value uncertainty rounded : Double) (place figures : Int) (text : String) : String :=
  if text.toList.contains 'e' ∧ rounded.isFinite ∧ !(ofInt 1000).le rounded.abs then
    if uncertainty.isZero then
      String.ofList (value.signText ++ (if exactFigures ≤ figures then value.shortest
        else value.toDigits (clampDigits figures)).plain)
    else rounded.atPlace place
  else text

/-- A value is rounded to significant figures without a refusal. -/
theorem checkedFigures_eq_ok (value uncertainty : Double) (place figures : Int) :
    value.checkedFigures uncertainty place figures
      = .ok (value.inFigures uncertainty place figures) := by
  unfold checkedFigures inFigures
  -- Both ways to write the value pass: at a place, or in digits that are read again.
  split
  · split
    · rfl
    · rw [checkedAtPlace_eq_ok]
      rfl
  · rw [checkedPrecise_eq_ok, Fault.ok_bind, checkedRoundDigits_eq_ok]
    rfl

/-- A value is aligned without a refusal. -/
theorem checkedAligned_eq_ok (value : Double) (place : Int) (text : String) :
    value.checkedAligned place text = .ok (value.aligned place text) := by
  unfold checkedAligned aligned
  split
  · exact value.checkedFixed_eq_ok place
  · rfl

/-- Whichever way a value is rounded and aligned, its text reads back as a number. -/
theorem exists_double?_aligned (value uncertainty : Double) (place figures : Int) :
    ∃ y, Numeral.double?
      (value.aligned place (value.inFigures uncertainty place figures).1).toList = some y := by
  unfold aligned inFigures
  -- Aligned texts have fixed places; the others are as they were before.
  split
  · exact value.exists_double?_fixed place
  split
  · dsimp only
    split
    · exact ⟨_, value.double?_text⟩
    · exact value.exists_double?_atPlace place
  · exact value.exists_double?_precise figures

/-- A text that reads back as a number loses its exponent without a refusal. -/
theorem checkedUnscaled_eq_ok (value uncertainty rounded : Double)
    (place figures : Int) {text : String}
    (legible : ∃ y, Numeral.double? text.toList = some y) :
    value.checkedUnscaled uncertainty rounded place figures text
      = .ok (value.unscaled uncertainty rounded place figures text) := by
  obtain ⟨y, read⟩ := legible
  unfold checkedUnscaled unscaled
  dsimp only
  split
  · split
    · -- The text is read as a decimal before it is written anew.
      rw [checkedText_eq_ok read]
      rfl
    · exact rounded.checkedAtPlace_eq_ok place
  · rfl

end Double

/-- Rounding to significant figures goes through three stages, of which the first also gives a
number. -/
theorem roundToFigures_eq (value : Double) (uncertainty : Figure) (figures : Int) :
    roundToFigures value uncertainty figures
      = let u := uncertainty.magnitude
        let place := decimalPlace uncertainty (some uncertainty)
        let (text, rounded) := value.inFigures u place figures
        ⟨value.unscaled u rounded place figures (value.aligned place text), u.atPlace place⟩ := by
  unfold roundToFigures Double.inFigures Double.aligned Double.unscaled
  -- An exact value keeps its digits, and any other one is rounded.
  by_cases exact : exactFigures ≤ figures
  · simp only [exact, if_true, decide_true, Bool.not_true, Bool.false_eq_true, if_false]
  · simp only [exact, if_false, decide_false, Bool.not_false, if_true]

/-- Rounding to significant figures is never refused. -/
theorem checkedRoundToFigures_eq_ok (value : Double) (uncertainty : Figure) (figures : Int) :
    checkedRoundToFigures value uncertainty figures
      = .ok (roundToFigures value uncertainty figures) := by
  rw [roundToFigures_eq]
  unfold checkedRoundToFigures
  generalize uncertainty.magnitude = u
  rw [checkedDecimalPlace_eq_ok, Fault.ok_bind]
  generalize decimalPlace uncertainty (some uncertainty) = place
  -- Only the last stage depends on the text, which reads back whatever the stages before made of
  -- it.
  have legible := value.exists_double?_aligned u place figures
  dsimp only
  rw [Double.checkedFigures_eq_ok, Fault.ok_bind, Double.checkedAtPlace_eq_ok, Fault.ok_bind,
    Double.checkedAligned_eq_ok, Fault.ok_bind, Double.checkedUnscaled_eq_ok _ _ _ _ _ legible,
    Fault.ok_bind]
  rfl

/-- Rounding by a rule is never refused. -/
theorem checkedRoundResult_eq_ok (value : Double) (uncertainty : Figure) (precision : Int)
    (useDecimalPlace : Bool) :
    checkedRoundResult value uncertainty precision useDecimalPlace
      = .ok (roundResult value uncertainty precision useDecimalPlace) := by
  unfold checkedRoundResult roundResult
  split
  · exact checkedRoundToPlace_eq_ok _ _ _
  · exact checkedRoundToFigures_eq_ok _ _ _

/-- Rounding a range by a rule is never refused. -/
theorem checkedRoundRange_eq_ok (low high : Double) (precision : Int) (useDecimalPlace : Bool) :
    checkedRoundRange low high precision useDecimalPlace
      = .ok (roundRange low high precision useDecimalPlace) := by
  unfold checkedRoundRange roundRange
  -- The ends and the middle are rounded in the same way.
  simp only [checkedRoundResult_eq_ok, Fault.ok_bind]
  rfl

end PlusMinus
