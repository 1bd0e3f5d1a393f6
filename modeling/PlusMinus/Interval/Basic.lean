import PlusMinus.Double.Arith

/-! Interval arithmetic with outward rounding to 53 significant bits and no limit on exponents. -/

namespace PlusMinus

/-- An end of an interval; the undefined one comes from an indeterminate quotient. -/
inductive Endpoint where
  | undefined
  | negInfinity
  | finite (value : Rat)
  | posInfinity
deriving DecidableEq

namespace Endpoint

/-- The value of a bit: the power of two with a given exponent. -/
def bit (exponent : Int) : Rat :=
  if exponent < 0 then mkRat 1 (twoTo (-exponent).toNat) else (twoTo exponent.toNat : Rat)

/-- The exponent of the last of the 53 significant bits of a number. -/
def lastBit (x : Rat) : Int :=
  let guess : Int := (x.num.natAbs.log2 : Int) - x.den.log2 - 52
  -- The guess is at most one too large.
  if (x / bit guess).num.natAbs / (x / bit guess).den < twoTo 52 then guess - 1 else guess

/-- The largest number of 53 bits that is at most a given one. -/
def roundDown (x : Rat) : Rat :=
  if x = 0 then 0 else (x / bit (lastBit x)).floor * bit (lastBit x)

/-- The smallest number of 53 bits that is at least a given one. -/
def roundUp (x : Rat) : Rat := -roundDown (-x)

/-- An end rounded away from the inside of its interval, as a low end. -/
def down : Endpoint → Endpoint
  | .finite x => .finite (roundDown x)
  | e => e

/-- An end rounded away from the inside of its interval, as a high end. -/
def up : Endpoint → Endpoint
  | .finite x => .finite (roundUp x)
  | e => e

/-- The sign of an end, zero for an undefined one. -/
def sign : Endpoint → Int
  | .undefined => 0
  | .negInfinity => -1
  | .finite x => if x < 0 then -1 else if 0 < x then 1 else 0
  | .posInfinity => 1

/-- The infinite end of a sign. -/
def infinity (sign : Int) : Endpoint := if sign < 0 then .negInfinity else .posInfinity

/-- The opposite end. -/
def neg : Endpoint → Endpoint
  | .undefined => .undefined
  | .negInfinity => .posInfinity
  | .finite x => .finite (-x)
  | .posInfinity => .negInfinity

/-- The exact sum; opposite infinities have none. -/
def add : Endpoint → Endpoint → Endpoint
  | .undefined, _ | _, .undefined => .undefined
  | .posInfinity, .negInfinity | .negInfinity, .posInfinity => .undefined
  | .finite x, .finite y => .finite (x + y)
  | .finite _, e => e
  | e, _ => e

/-- The exact product; zero and an infinity have none. -/
def mul : Endpoint → Endpoint → Endpoint
  | .undefined, _ | _, .undefined => .undefined
  | .finite x, .finite y => .finite (x * y)
  | e, f => if e.sign * f.sign = 0 then .undefined else infinity (e.sign * f.sign)

/-- The exact quotient; two infinities have none, nor has a division by zero. -/
def div : Endpoint → Endpoint → Endpoint
  | .undefined, _ | _, .undefined => .undefined
  | .finite x, .finite y => if y = 0 then .undefined else .finite (x / y)
  | .finite _, _ => .finite 0
  | e, .finite y => if y = 0 then .undefined else infinity (e.sign * (Endpoint.finite y).sign)
  | _, _ => .undefined

/-- Whether one end lies at or below another, for defined ends. -/
def le : Endpoint → Endpoint → Bool
  | .negInfinity, _ => true
  | _, .posInfinity => true
  | .finite x, .finite y => x ≤ y
  | _, _ => false

/-- An end, or another one in the place of an undefined one. -/
def orElse (e replacement : Endpoint) : Endpoint :=
  match e with
  | .undefined => replacement
  | e => e

/-- The end at a double. -/
def ofDouble (x : Double) : Endpoint :=
  match x with
  | .nan => .undefined
  | .infinite true => .negInfinity
  | .infinite false => .posInfinity
  | .finite .. => .finite x.toRat

/-- The double nearest to an end. -/
def toDouble : Endpoint → Double
  | .undefined => .nan
  | .negInfinity => .infinite true
  | .finite x => Double.ofQuotient .toEven (x < 0) (x.num.natAbs * Double.one) x.den
  | .posInfinity => .infinite false

end Endpoint

/-- All numbers between two ends. -/
structure Interval where
  low : Endpoint
  high : Endpoint
deriving DecidableEq

namespace Interval

/-- The whole line. -/
def whole : Interval := ⟨.negInfinity, .posInfinity⟩

/-- The interval that holds only zero. -/
def zero : Interval := ⟨.finite 0, .finite 0⟩

/-- The interval of two ends, rounded outwards, with replacements for undefined ones. -/
def outward (low ifLow high ifHigh : Endpoint) : Interval :=
  ⟨low.down.orElse ifLow, high.up.orElse ifHigh⟩

/-- Both ends are zero. -/
def isZero (s : Interval) : Bool := s.low.sign = 0 && s.high.sign = 0

/-- No number below zero. -/
def isNonnegative (s : Interval) : Bool := 0 ≤ s.low.sign

/-- No number above zero. -/
def isNonpositive (s : Interval) : Bool := s.high.sign ≤ 0

/-- Numbers on both sides of zero. -/
def isMixed (s : Interval) : Bool := s.low.sign < 0 && 0 < s.high.sign

/-- Whether an interval reaches to an infinity. -/
def isUnbounded (s : Interval) : Bool := s.low = .negInfinity || s.high = .posInfinity

/-- The interval of the opposite numbers. -/
def neg (s : Interval) : Interval := ⟨s.high.neg, s.low.neg⟩

/-- The sum of two intervals; an indeterminate end is unbounded. -/
def add (s t : Interval) : Interval :=
  outward (s.low.add t.low) .negInfinity (s.high.add t.high) .posInfinity

/-- The difference of two intervals; an indeterminate end is unbounded. -/
def sub (s t : Interval) : Interval :=
  outward (s.low.add t.high.neg) .negInfinity (s.high.add t.low.neg) .posInfinity

/-- The least of some defined ends. -/
def least (first : Endpoint) (others : List Endpoint) : Endpoint :=
  others.foldl (fun e f => if e.le f then e else f) first

/-- The greatest of some defined ends. -/
def greatest (first : Endpoint) (others : List Endpoint) : Endpoint :=
  others.foldl (fun e f => if f.le e then e else f) first

/-- The product of two intervals by the signs of their ends. -/
def mul (s t : Interval) : Interval :=
  if s.isZero then (if t.isUnbounded then whole else zero)
  else if t.isZero then (if s.isUnbounded then whole else zero)
  else if s.isNonnegative then
    -- The sign of each end of the second factor tells which end of the first one it meets.
    if t.isNonnegative then
      outward (s.low.mul t.low) (.finite 0) (s.high.mul t.high) .posInfinity
    else if t.isNonpositive then
      outward (s.high.mul t.low) .negInfinity (s.low.mul t.high) (.finite 0)
    else
      outward (s.high.mul t.low) .negInfinity (s.high.mul t.high) .posInfinity
  else if s.isNonpositive then
    if t.isNonnegative then
      outward (s.low.mul t.high) .negInfinity (s.high.mul t.low) (.finite 0)
    else if t.isNonpositive then
      outward (s.high.mul t.high) (.finite 0) (s.low.mul t.low) .posInfinity
    else
      outward (s.low.mul t.high) .negInfinity (s.low.mul t.low) .posInfinity
  else
    -- With a first factor of both signs the ends are the extremes of all four products.
    let first := s.low.mul t.low
    let others := [s.low.mul t.high, s.high.mul t.low, s.high.mul t.high]
    if (first :: others).contains .undefined then whole
    else ⟨(least first others).down, (greatest first others).up⟩

/-- The quotient by an interval without numbers below zero. -/
def divNonnegative (s t : Interval) : Interval :=
  if t.low.sign = 0 then
    -- Towards zero the quotients grow without bound, on the side of the dividend's sign.
    if s.isMixed || t.high.sign = 0 then whole
    else if s.isNonpositive then ⟨.negInfinity, (s.high.div t.high).up⟩
    else ⟨(s.low.div t.high).down, .posInfinity⟩
  else if s.isNonnegative then
    outward (s.low.div t.high) (.finite 0) (s.high.div t.low) .posInfinity
  else if s.isNonpositive then
    outward (s.low.div t.low) .negInfinity (s.high.div t.high) (.finite 0)
  else
    outward (s.low.div t.low) .negInfinity (s.high.div t.low) .posInfinity

/-- The quotient of two intervals; by an interval around zero it is the whole line. -/
def div (s t : Interval) : Interval :=
  if s.isZero then
    if t.isMixed || t.low.sign = 0 || t.high.sign = 0 then whole else zero
  else if t.isMixed then whole
  else if t.low.sign < 0 then divNonnegative s.neg t.neg
  else divNonnegative s t

/-- The interval between two doubles, in either order. -/
def between (x y : Double) : Interval :=
  if y.lt x then ⟨.ofDouble y, .ofDouble x⟩ else ⟨.ofDouble x, .ofDouble y⟩

end Interval

end PlusMinus
