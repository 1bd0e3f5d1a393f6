import PlusMinus.Double.Arith

/-! Logarithms of doubles, from a series for the significand and a split constant for the
exponent. -/

namespace PlusMinus.Double

/-- The denominator of the fixed-point numbers that the series is summed in. -/
def seriesScale : Nat := twoTo 200

/-- The terms t^(2i+1) / (2i+1) from index `i` on, given the power t^(2i+1) and the square of t. -/
def atanhTerms : Nat → Nat → Nat → Nat → Nat
  | 0, _, _, _ => 0
  | count + 1, index, power, square =>
    power / (2 * index + 1) + atanhTerms count (index + 1) (power * square / seriesScale) square

/-- The natural logarithm of a quotient between one half and two. -/
def lnQuotient (numerator denominator : Nat) : Double :=
  -- ln (a / b) is twice the inverse hyperbolic tangent of (a - b) / (a + b).
  let below := numerator < denominator
  let difference := if below then denominator - numerator else numerator - denominator
  let ratio := difference * seriesScale / (numerator + denominator)
  let sum := atanhTerms 64 0 ratio (ratio * ratio / seriesScale)
  ofQuotient .toEven below (2 * sum * one) seriesScale

/-- The common logarithm of e. -/
def log10E : Double := ofQuotient .toEven false (434294481903251816668 * one) (tenTo 21)

/-- The leading bits of the common logarithm of two, few enough for exact multiples. -/
def log10TwoHigh : Double := ofQuotient .toEven false (301029995663611771306 * one) (tenTo 21)

/-- What the leading bits leave of the common logarithm of two. -/
def log10TwoLow : Double := ofQuotient .toEven false (369423907715893078616 * one) (tenTo 33)

/-- The common logarithm of the magnitude of a finite, non-zero double. -/
def log10 (x : Double) : Double :=
  let quanta := x.magnitude
  let exponent : Int := (quanta.log2 : Int) - 1074
  -- The significand is taken from [1, 2) for numbers from one on and from [1/2, 1) below.
  let power := if exponent < 0 then exponent + 1 else exponent
  let scale := if exponent < 0 then twoTo (quanta.log2 + 1) else twoTo quanta.log2
  let y := ofInt power
  (y * log10TwoLow + log10E * lnQuotient quanta scale) + y * log10TwoHigh

/-- The decimal order of magnitude of a finite double; the order of zero is zero. -/
def order (x : Double) : Int :=
  if x.isZero then 0 else x.log10.floor

end PlusMinus.Double
