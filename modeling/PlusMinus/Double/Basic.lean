/-! Binary floating-point numbers, kept as exact counts of the smallest positive one, over powers of
two and of ten. -/

namespace PlusMinus

/-- A power of two. -/
def twoTo (exponent : Nat) : Nat := Nat.pow 2 exponent

/-- A power of ten. -/
def tenTo (exponent : Nat) : Nat := Nat.pow 10 exponent

/-- A power of two is positive. -/
theorem twoTo_pos (exponent : Nat) : 0 < twoTo exponent := Nat.pow_pos (by decide)

/-- A power of ten is positive. -/
theorem tenTo_pos (exponent : Nat) : 0 < tenTo exponent := Nat.pow_pos (by decide)

/-- Exponents add under multiplication. -/
theorem twoTo_add (m n : Nat) : twoTo (m + n) = twoTo m * twoTo n := Nat.pow_add 2 m n

/-- Exponents add under multiplication. -/
theorem tenTo_add (m n : Nat) : tenTo (m + n) = tenTo m * tenTo n := Nat.pow_add 10 m n

/-- Powers of two divide larger ones. -/
theorem twoTo_dvd {m n : Nat} (le : m ≤ n) : twoTo m ∣ twoTo n := Nat.pow_dvd_pow 2 le

namespace Double

/-- The number of smallest steps, or quanta, that make one. -/
def one : Nat := twoTo 1074

/-- The count of quanta from which a magnitude is out of range. -/
def limit : Nat := twoTo 2098

/-- The distance from a magnitude to the next larger one, in quanta. -/
def spacing (quanta : Nat) : Nat := twoTo (quanta.log2 - 52)

/-- A magnitude is a double when it is in range and its significand has at most 53 bits. -/
def Fits (quanta : Nat) : Prop :=
  quanta < limit ∧ quanta % spacing quanta = 0

instance (quanta : Nat) : Decidable (Fits quanta) :=
  inferInstanceAs (Decidable (_ ∧ _))

/-- Zero is a magnitude. -/
theorem fits_zero : Fits 0 := by decide +kernel

end Double

/-- A double is not a number, an infinity, or a signed count of quanta that fits. -/
inductive Double where
  | nan
  | infinite (negative : Bool)
  | finite (negative : Bool) (quanta : Nat) (fits : Double.Fits quanta)
deriving DecidableEq

namespace Double

/-- Positive zero. -/
def zero : Double := .finite false 0 fits_zero

instance : Inhabited Double := ⟨zero⟩

/-- Whether a double is not a number. -/
def isNaN : Double → Bool
  | .nan => true
  | _ => false

/-- Whether a double is a finite number. -/
def isFinite : Double → Bool
  | .finite .. => true
  | _ => false

/-- The sign bit; a value that is not a number carries none. -/
def isNegative : Double → Bool
  | .nan => false
  | .infinite negative => negative
  | .finite negative _ _ => negative

/-- Both zeros. -/
def isZero : Double → Bool
  | .finite _ quanta _ => quanta == 0
  | _ => false

/-- The count of quanta in the magnitude, for a finite number. -/
def magnitude : Double → Nat
  | .finite _ quanta _ => quanta
  | _ => 0

/-- The signed count of quanta of a finite number. -/
def signedQuanta : Double → Int
  | .finite true quanta _ => -quanta
  | .finite false quanta _ => quanta
  | _ => 0

/-- The rational number that a finite double stands for. -/
def toRat (x : Double) : Rat := mkRat x.signedQuanta one

/-- The same magnitude with the other sign. -/
def neg : Double → Double
  | .nan => .nan
  | .infinite negative => .infinite !negative
  | .finite negative quanta fits => .finite (!negative) quanta fits

/-- The same magnitude without a sign. -/
def abs : Double → Double
  | .nan => .nan
  | .infinite _ => .infinite false
  | .finite _ quanta fits => .finite false quanta fits

instance : Neg Double := ⟨neg⟩

/-- The place of a double on the number line, with each infinity just out of range. -/
def position? : Double → Option Int
  | .nan => none
  | .infinite true => some (-limit)
  | .infinite false => some limit
  | x@(.finite ..) => some x.signedQuanta

/-- Numeric order, which holds of no pair with a value that is not a number. -/
def lt (x y : Double) : Bool :=
  match x.position?, y.position? with
  | some p, some q => p < q
  | _, _ => false

/-- Numeric order or equality; the two zeros are equal. -/
def le (x y : Double) : Bool :=
  match x.position?, y.position? with
  | some p, some q => p ≤ q
  | _, _ => false

end Double

end PlusMinus
