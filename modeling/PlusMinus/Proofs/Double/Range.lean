import PlusMinus.Double.Log
import PlusMinus.Proofs.Double.Quotient
import PlusMinus.Proofs.Double.Sign

/-! Rounding never crosses a double, and numbers of moderate size stay finite under the
operations. -/

namespace PlusMinus

/-- A quotient that is at most a whole number is not rounded above it. -/
theorem roundDiv_le_of_le_mul (tie : Tie) {n k denominator : Nat} (positive : 0 < denominator)
    (le : n ≤ k * denominator) : roundDiv tie n denominator ≤ k := by
  rcases Nat.lt_or_eq_of_le le with less | rfl
  · -- Below the whole number there is room for one more.
    have below : n / denominator < k := (Nat.div_lt_iff_lt_mul positive).2 less
    have above := roundDiv_le tie n denominator
    omega
  · exact Nat.le_of_eq (roundDiv_of_mul tie k positive)

namespace Double

/-- The steps between doubles divide those between larger ones. -/
theorem spacing_dvd {m n : Nat} (le : m.log2 ≤ n.log2) : spacing m ∣ spacing n :=
  twoTo_dvd (by omega)

/-- Larger numbers do not have smaller logarithms. -/
theorem log2_le {m n : Nat} (le : m ≤ n) : m.log2 ≤ n.log2 := by
  -- The logarithm of zero is zero, and so it needs a case of its own.
  by_cases zero : m = 0
  · subst zero
    exact Nat.zero_le _
  · exact (Nat.le_log2 (by omega)).2 (Nat.le_trans (Nat.log2_self_le zero) le)

/-- A power of two lies between numbers whose logarithms differ. -/
theorem twoTo_between {m n : Nat} (less : m.log2 < n.log2) :
    m < twoTo n.log2 ∧ twoTo n.log2 ≤ n := by
  have some : n ≠ 0 := by
    intro zero
    simp [zero] at less
  refine ⟨?_, Nat.log2_self_le some⟩
  by_cases zero : m = 0
  · rw [zero]
    exact twoTo_pos _
  · exact (Nat.log2_lt zero).1 less

/-- A quotient that is at most the magnitude of a double is not rounded above it. -/
theorem roundQuanta_le (tie : Tie) {n m denominator : Nat} (positive : 0 < denominator)
    (fits : m % spacing m = 0) (le : n ≤ m * denominator) :
    roundQuanta tie n denominator ≤ m := by
  -- The steps at the quotient divide the magnitude, which is then a whole number of them.
  have floor : n / denominator ≤ m := Nat.div_le_of_le_mul (by rwa [Nat.mul_comm])
  obtain ⟨k, whole⟩ := Nat.dvd_trans (spacing_dvd (log2_le floor)) (Nat.dvd_of_mod_eq_zero fits)
  have step : 0 < spacing (n / denominator) := twoTo_pos _
  unfold roundQuanta
  dsimp only
  generalize spacing (n / denominator) = steps at whole step
  have few : roundDiv tie n (denominator * steps) ≤ k := by
    refine roundDiv_le_of_le_mul tie (Nat.mul_pos positive step) (Nat.le_trans le ?_)
    rw [whole]
    exact Nat.le_of_eq (by ac_rfl)
  rw [whole, Nat.mul_comm steps]
  exact Nat.mul_le_mul_right steps few

/-- A quotient that is at least the magnitude of a double is not rounded below it. -/
theorem le_roundQuanta (tie : Tie) {n m denominator : Nat} (positive : 0 < denominator)
    (fits : m % spacing m = 0) (le : m * denominator ≤ n) :
    m ≤ roundQuanta tie n denominator := by
  have floor : m ≤ n / denominator := (Nat.le_div_iff_mul_le positive).2 le
  have step : 0 < spacing (n / denominator) := twoTo_pos _
  -- A multiple of the steps lies between the magnitude and the quotient.
  obtain ⟨k, lower, upper⟩ : ∃ k, m ≤ k * spacing (n / denominator)
      ∧ k * spacing (n / denominator) ≤ n / denominator := by
    rcases Nat.lt_or_eq_of_le (log2_le floor) with less | equal
    · -- The power of two below the quotient is one.
      obtain ⟨above, reached⟩ := twoTo_between less
      have power : twoTo ((n / denominator).log2 - ((n / denominator).log2 - 52))
          * spacing (n / denominator) = twoTo (n / denominator).log2 := by
        rw [spacing, ← twoTo_add]
        congr 1
        omega
      exact ⟨_, power ▸ Nat.le_of_lt above, Nat.le_trans (Nat.le_of_eq power) reached⟩
    · -- With the same steps the magnitude is a multiple of them itself.
      have same : spacing (n / denominator) = spacing m := by rw [spacing, spacing, equal]
      have multiple : m / spacing m * spacing (n / denominator) = m := by
        rw [same, Nat.div_mul_cancel (Nat.dvd_of_mod_eq_zero fits)]
      exact ⟨m / spacing m, Nat.le_of_eq multiple.symm, Nat.le_trans (Nat.le_of_eq multiple) floor⟩
  unfold roundQuanta
  dsimp only
  generalize spacing (n / denominator) = steps at lower upper step
  -- The multiple is then reached before the quotient is rounded.
  have many : k ≤ roundDiv tie n (denominator * steps) := by
    refine Nat.le_trans ?_ (le_roundDiv tie n _)
    rw [← Nat.div_div_eq_div_mul, Nat.le_div_iff_mul_le step]
    exact upper
  exact Nat.le_trans lower (Nat.mul_le_mul_right steps many)

/-- A finite double whose magnitude is at most a power of two. -/
def Within (x : Double) (exponent : Nat) : Prop :=
  ∃ negative quanta fits, x = .finite negative quanta fits ∧ quanta ≤ twoTo exponent * one

/-- A double within a bound is finite. -/
theorem Within.isFinite {x : Double} {e : Nat} (within : x.Within e) : x.isFinite = true := by
  obtain ⟨negative, quanta, fits, rfl, _⟩ := within
  rfl

/-- The doubles within a bound are the finite ones of such a magnitude. -/
theorem within_iff {x : Double} {e : Nat} :
    x.Within e ↔ x.isFinite = true ∧ x.magnitude ≤ twoTo e * one := by
  constructor
  · rintro ⟨negative, quanta, fits, rfl, bound⟩
    exact ⟨rfl, bound⟩
  · rintro ⟨isFinite, bound⟩
    cases x with
    | nan => cases isFinite
    | infinite negative => cases isFinite
    | finite negative quanta fits => exact ⟨negative, quanta, fits, rfl, bound⟩

/-- A bound may be raised. -/
theorem Within.mono {x : Double} {e f : Nat} (within : x.Within e) (le : e ≤ f) : x.Within f := by
  obtain ⟨negative, quanta, fits, rfl, bound⟩ := within
  have higher : twoTo e ≤ twoTo f := Nat.pow_le_pow_right (by decide) le
  exact ⟨negative, quanta, fits, rfl, Nat.le_trans bound (Nat.mul_le_mul_right one higher)⟩

/-- Powers of two grow with their exponents. -/
theorem twoTo_lt {m n : Nat} (less : m < n) : twoTo m < twoTo n :=
  Nat.pow_lt_pow_right (by decide) less

/-- A power of two has this many quanta. -/
theorem twoTo_mul_one (e : Nat) : twoTo e * one = twoTo (e + 1074) := (twoTo_add e 1074).symm

/-- The logarithm of a number is at least the exponent of a power of two below it. -/
theorem le_log2_of_twoTo_le {e n : Nat} (le : twoTo e ≤ n) : e ≤ n.log2 := by
  have positive := twoTo_pos e
  exact (Nat.le_log2 (by omega)).2 le

/-- The logarithm of a number is below the exponent of a power of two above it. -/
theorem log2_lt_of_lt_twoTo {e n : Nat} (some : 0 < e) (less : n < twoTo e) : n.log2 < e := by
  by_cases zero : n = 0
  · subst zero
    exact some
  · exact (Nat.log2_lt zero).2 less

/-- The powers of two in range are doubles. -/
theorem fits_twoTo {e : Nat} (range : e < 1024) : Fits (twoTo e * one) := by
  rw [twoTo_mul_one]
  exact ⟨twoTo_lt (by omega), mod_spacing_twoTo _⟩

/-- A quotient between two doubles is rounded to a double between them. -/
theorem exists_ofQuotient (tie : Tie) (negative : Bool) {n m denominator e : Nat}
    (positive : 0 < denominator) (range : e < 1024) (fits : m % spacing m = 0)
    (lower : m * denominator ≤ n) (upper : n ≤ twoTo e * one * denominator) :
    ∃ quanta fits, ofQuotient tie negative n denominator = .finite negative quanta fits
      ∧ m ≤ quanta ∧ quanta ≤ twoTo e * one := by
  -- Rounding crosses neither of the two, and the upper one is in range.
  have power := fits_twoTo range
  have least := le_roundQuanta tie positive fits lower
  have most := roundQuanta_le tie positive power.2 upper
  unfold ofQuotient
  dsimp only
  rw [dif_pos (Nat.lt_of_le_of_lt most power.1)]
  exact ⟨_, _, rfl, least, most⟩

/-- A quotient of bounded size is rounded to a double within the bound. -/
theorem within_ofQuotient (tie : Tie) (negative : Bool) {n denominator e : Nat}
    (positive : 0 < denominator) (range : e < 1024) (le : n ≤ twoTo e * one * denominator) :
    (ofQuotient tie negative n denominator).Within e := by
  -- Zero is a double, and below every quotient.
  have least : 0 * denominator ≤ n := by
    rw [Nat.zero_mul]
    exact Nat.zero_le n
  obtain ⟨quanta, fits, rounded, _, bound⟩ :=
    exists_ofQuotient tie negative positive range fits_zero.2 least le
  exact ⟨negative, quanta, fits, rounded, bound⟩

/-- Whole numbers of bounded size are doubles within the bound. -/
theorem within_ofInt {n : Int} {e : Nat} (range : e < 1024) (le : n.natAbs ≤ twoTo e) :
    (ofInt n).Within e :=
  within_ofQuotient _ _ (by decide) range (by
    rw [Nat.mul_one]
    exact Nat.mul_le_mul_right one le)

/-- A quotient of at least one quantum is not rounded to zero. -/
theorem isZero_ofQuotient (tie : Tie) (negative : Bool) {n denominator : Nat}
    (positive : 0 < denominator) (le : denominator ≤ n) :
    (ofQuotient tie negative n denominator).isZero = false := by
  -- One quantum is a double, and rounding does not go below it.
  have least : 1 ≤ roundQuanta tie n denominator :=
    le_roundQuanta tie positive (by decide) (by rwa [Nat.one_mul])
  unfold ofQuotient
  dsimp only
  split
  · exact beq_eq_false_iff_ne.2 (by omega)
  · rfl

/-- A whole number other than zero is not zero as a double. -/
theorem isZero_ofInt {n : Int} (nonzero : n ≠ 0) : (ofInt n).isZero = false := by
  refine isZero_ofQuotient _ _ (by decide) ?_
  exact Nat.mul_pos (by omega) (twoTo_pos 1074)

/-- What is above zero is not zero. -/
theorem isZero_of_lt {x : Double} (positive : lt .zero x = true) : x.isZero = false := by
  -- Neither zero is above the other.
  refine eq_false_of_ne_true fun zero => ?_
  obtain ⟨s, rfl⟩ := exists_of_isZero zero
  cases s <;> cases positive

namespace Within

variable {x y : Double} {e f : Nat}

/-- The opposite of a number is as large. -/
theorem neg (within : x.Within e) : (-x).Within e := by
  obtain ⟨negative, quanta, fits, rfl, bound⟩ := within
  exact ⟨!negative, quanta, fits, rfl, bound⟩

/-- A sum is at most twice as large as both of its terms may be. -/
theorem add (left : x.Within e) (right : y.Within e) (range : e + 1 < 1024) :
    (x + y).Within (e + 1) := by
  obtain ⟨s, a, f, rfl, first⟩ := left
  obtain ⟨t, b, g, rfl, second⟩ := right
  rw [add_finite f g]
  refine within_ofQuotient _ _ (by decide) range ?_
  have double : twoTo (e + 1) * one = twoTo e * one + twoTo e * one := by
    rw [twoTo_add, show twoTo 1 = 2 from rfl, Nat.mul_comm (twoTo e) 2, Nat.mul_assoc, Nat.two_mul]
  -- Signs can only make the sum of the quanta smaller.
  have total : ((finite s a f).signedQuanta + (finite t b g).signedQuanta).natAbs ≤ a + b := by
    cases s <;> cases t <;> simp only [signedQuanta] <;> omega
  rw [double]
  omega

/-- A difference is at most twice as large as both of its terms may be. -/
theorem sub (left : x.Within e) (right : y.Within e) (range : e + 1 < 1024) :
    (x - y).Within (e + 1) := left.add right.neg range

/-- The bounds of the factors multiply. -/
theorem mul (left : x.Within e) (right : y.Within f) (range : e + f < 1024) :
    (x * y).Within (e + f) := by
  obtain ⟨s, a, fitsLeft, rfl, first⟩ := left
  obtain ⟨t, b, fitsRight, rfl, second⟩ := right
  rw [mul_finite fitsLeft fitsRight]
  refine within_ofQuotient _ _ (twoTo_pos 1074) range ?_
  -- One of the two units is what the product is counted in parts of.
  calc a * b ≤ twoTo e * one * (twoTo f * one) := Nat.mul_le_mul first second
    _ = twoTo (e + f) * one * one := by
      rw [twoTo_add]
      generalize one = unit
      ac_rfl

end Within

end Double

end PlusMinus
