import PlusMinus.Config
import PlusMinus.Propagation.Fold

/-! How precisely a result is shown, from the operations that it came from. -/

namespace PlusMinus

/-- A rounding rule: a number of decimal places or of significant figures, with a label. -/
structure Precision where
  useDecimalPlace : Bool
  precision : Int
  label : String
deriving DecidableEq

/-- A decimal place in words. -/
def placeLabel (places : Int) : String :=
  if 0 ≤ places then s!"{places} decimal place" ++ (if places = 1 then "" else "s")
  else
    -- The list starts at the ones place, so that an index is a power of ten.
    let names := ["ones", "tens", "hundreds", "thousands", "ten-thousands", "hundred-thousands",
      "millions"]
    match names[(-places).toNat]? with
    | some name => s!"the {name} place"
    | none => s!"the 10^{-places} place"

namespace Precision

/-- A number of significant figures. -/
def figures (n : Int) : Precision := ⟨false, n, "significant figures"⟩

/-- A number of decimal places. -/
def places (n : Int) : Precision := ⟨true, n, placeLabel n⟩

end Precision

/-- A rounding rule that a caller forces; an inactive one is not applied. -/
structure Override where
  active : Bool := false
  rule : Precision := ⟨false, 0, ""⟩
deriving DecidableEq

namespace Override

/-- Rounding to a number of significant figures. -/
def figures (n : Int) : Override :=
  ⟨true, false, n, s!"{n} significant figure" ++ (if n = 1 then "" else "s")⟩

/-- Rounding to a number of significant figures, of which there has to be one. -/
def figures? (n : Int) : Except Fault Override :=
  if n < 1 then .error .noSignificantFigures else .ok (figures n)

/-- Rounding to a number of decimal places. -/
def places (n : Int) : Override := ⟨true, .places n⟩

/-- The rule that the settings ask for, if any. -/
def ofConfig (config : Config) : Override :=
  match config.roundingMode, config.roundingDigits with
  | .significant, some n => figures (max 1 n)
  | .places, some n => places n
  | _, _ => {}

/-- A significant-figure setting is never refused. -/
theorem figures?_max (n : Int) : figures? (max 1 n) = .ok (figures (max 1 n)) := by
  have : ¬ max 1 n < 1 := by omega
  simp [figures?, this]

end Override

/-- The least of some numbers, or a default. -/
def leastOr (default : Int) (numbers : List Int) : Int := numbers.min?.getD default

namespace Propagated

/-- The rule that the operations suggest: significant figures after any product, decimal places
after sums alone, and otherwise what the least precise operand has. -/
def suggestedPrecision (used : Propagated) (operands : List Operand) : Precision :=
  if used.usedProduct then
    .figures (used.significantFigures.getD (leastOr 1 (operands.map (·.significantFigures))))
  else if used.usedSum then
    .places (used.decimalPlace.getD (leastOr 0 (operands.map (·.decimalPlace))))
  else
    .figures (leastOr 1 (operands.map (·.significantFigures)))

/-- The rule for a result: a forced one, or that of the settings, or what the operations suggest. -/
def precision (used : Propagated) (config : Config) (given : Option Override)
    (operands : List Operand) : Precision :=
  let forced := given.getD (.ofConfig config)
  if forced.active then forced.rule else used.suggestedPrecision operands

/-- Why a result is rounded the way it is. -/
def roundingReason (used : Propagated) : String :=
  match used.usedProduct, used.usedSum with
  | true, true =>
    "Mixed operations: multiplication/division takes precedence → use significant figures."
  | true, false => "Multiplication/Division detected → use significant figures."
  | false, true => "Addition/Subtraction detected → use decimal places."
  | false, false => "Default: use significant figures."

end Propagated

end PlusMinus
