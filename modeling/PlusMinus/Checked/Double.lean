import PlusMinus.Double.Log
import PlusMinus.Fault

/-! Operations on doubles that can be refused, with the refusal in place of a result. -/

namespace PlusMinus

/-- A value that has to be there, with a fault in the place of a missing one. -/
def Fault.require {α : Type} (fault : Fault) : Option α → Except Fault α
  | some value => .ok value
  | none => .error fault

namespace Double

/-- A whole number as a double, refused when it is out of range. -/
def checkedInt (n : Int) : Except Fault Double := Fault.outOfRange.require (ofInt? n)

/-- A finite double; the others are refused. -/
def checkedFinite (x : Double) : Except Fault Double :=
  match x with
  | .nan => .error .meaningless
  | .infinite _ => .error .outOfRange
  | .finite .. => .ok x

/-- The largest whole number at most a double, which only finite ones have. -/
def checkedFloor (x : Double) : Except Fault Int := x.checkedFinite.map floor

/-- The common logarithm of a magnitude; zero has none. -/
def checkedLog10 : Double → Except Fault Double
  | .nan => .ok .nan
  | .infinite _ => .ok (.infinite false)
  -- Of the finite magnitudes only zero is outside the domain of the logarithm.
  | x@(.finite ..) => if x.isZero then .error .meaningless else .ok x.log10

/-- The decimal order of magnitude, which only finite doubles have. -/
def checkedOrder (x : Double) : Except Fault Int :=
  if x.isZero then .ok 0
  else do
    let logarithm ← x.checkedLog10
    logarithm.checkedFloor

/-- A quotient, refused when the divisor is zero. -/
def checkedDiv (x y : Double) : Except Fault Double :=
  if y.isZero then .error .meaningless else .ok (x / y)

/-- The nearest whole number, a half going towards positive infinity, as long as it and the whole
number below it are in range. -/
def checkedRoundHalfUp (x : Double) : Except Fault Double :=
  if x.isFinite then do
    let below := x.floor
    -- The whole number below is a double before it is compared with the number.
    let whole ← checkedInt below
    checkedInt (if le half (x - whole) then below + 1 else below)
  else .ok x

end Double

end PlusMinus
