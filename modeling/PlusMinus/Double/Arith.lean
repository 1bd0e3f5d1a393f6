import PlusMinus.Double.Rounding

/-! Arithmetic on doubles: the exact result, rounded once to the nearest double. -/

namespace PlusMinus.Double

/-- The double nearest to a signed quotient of quanta; out of range it is an infinity. -/
def ofQuotient (tie : Tie) (negative : Bool) (numerator denominator : Nat) : Double :=
  let quanta := roundQuanta tie numerator denominator
  if bound : quanta < limit then
    .finite negative quanta ⟨bound, roundQuanta_mod_spacing tie numerator denominator⟩
  else
    .infinite negative

/-- The double nearest to a whole number, a tie going to the even significand. -/
def ofInt (n : Int) : Double :=
  ofQuotient .toEven (n < 0) (n.natAbs * one) 1

/-- A double that is in range, and nothing for an infinity. -/
def inRange? : Double → Option Double
  | .infinite _ => none
  | x => some x

/-- A whole number as a double, refused when it is out of range. -/
def ofInt? (n : Int) : Option Double := (ofInt n).inRange?

/-- The power of ten nearest to the exact one, a tie going away from zero. -/
def powerOfTen (exponent : Int) : Double :=
  match exponent with
  | .ofNat n => ofQuotient .upward false (tenTo n * one) 1
  | .negSucc n => ofQuotient .upward false one (tenTo (n + 1))

/-- Addition; an exact zero is negative only as the sum of two negative zeros. -/
def add : Double → Double → Double
  | .nan, _ => .nan
  | _, .nan => .nan
  | .infinite s, .infinite t => if s = t then .infinite s else .nan
  | .infinite s, .finite .. => .infinite s
  | .finite .., .infinite t => .infinite t
  | x@(.finite s _ _), y@(.finite t _ _) =>
    let sum := x.signedQuanta + y.signedQuanta
    let negative := if sum = 0 then s && t else sum < 0
    ofQuotient .toEven negative sum.natAbs 1

/-- Subtraction, which is the addition of the opposite. -/
def sub (x y : Double) : Double := add x (-y)

/-- Multiplication; an infinity times zero is not a number. -/
def mul : Double → Double → Double
  | .nan, _ => .nan
  | _, .nan => .nan
  | .infinite s, .infinite t => .infinite (s != t)
  | .infinite s, .finite t b _ => if b = 0 then .nan else .infinite (s != t)
  | .finite s a _, .infinite t => if a = 0 then .nan else .infinite (s != t)
  | .finite s a _, .finite t b _ => ofQuotient .toEven (s != t) (a * b) one

/-- Division; only zero by zero and infinity by infinity are not numbers. -/
def div : Double → Double → Double
  | .nan, _ => .nan
  | _, .nan => .nan
  | .infinite _, .infinite _ => .nan
  | .infinite s, .finite t _ _ => .infinite (s != t)
  | .finite s _ _, .infinite t => .finite (s != t) 0 fits_zero
  | .finite s a _, .finite t b _ =>
    if b = 0 then
      if a = 0 then .nan else .infinite (s != t)
    else
      ofQuotient .toEven (s != t) (a * one) b

instance : Add Double := ⟨add⟩
instance : Sub Double := ⟨sub⟩
instance : Mul Double := ⟨mul⟩
instance : Div Double := ⟨div⟩

/-- One half. -/
def half : Double := ofQuotient .toEven false one 2

/-- Half of a double. -/
def halve (x : Double) : Double := x / ofInt 2

/-- The largest whole number at most a finite double. -/
def floor (x : Double) : Int := x.signedQuanta / one

/-- The nearest whole number, a half going towards positive infinity, as a double. -/
def roundHalfUp (x : Double) : Double :=
  if x.isFinite then
    let below := x.floor
    ofInt (if le half (x - ofInt below) then below + 1 else below)
  else
    x

end PlusMinus.Double
