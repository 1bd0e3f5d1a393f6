import PlusMinus.Proofs.Double.Nearest

/-! Where doubles end: a number has a finite double nearest to it exactly below the middle between
the largest double and the power of two that follows it. -/

namespace PlusMinus

namespace Double

/-- The magnitude from which numbers are out of range, half a step above the largest double. -/
def overflow : Rat := (twoTo 1024 - twoTo 970 : Nat)

/-- A quotient is rounded out of range exactly from half a step above the largest magnitude on. -/
theorem limit_le_roundQuanta_iff {n d : Nat} (positive : 0 < d) :
    limit ≤ roundQuanta .toEven n d ↔ (limit - twoTo 2044) * d ≤ n := by
  constructor
  · intro out
    by_contra below
    -- The largest magnitude would be nearer, unless the quotient is not above it at all.
    have largest : (limit - twoTo 2045) % spacing (limit - twoTo 2045) = 0 := by decide +kernel
    rcases Nat.le_total n ((limit - twoTo 2045) * d) with inside | between
    · have kept := roundQuanta_le .toEven positive largest inside
      have less : limit - twoTo 2045 < limit := by decide +kernel
      omega
    · have nearer := roundQuanta_nearest (n := n) .toEven positive largest
      have reached := Nat.mul_le_mul_right d out
      have upper : limit * d = (limit - twoTo 2044) * d + twoTo 2044 * d := by
        rw [← Nat.add_mul, show limit - twoTo 2044 + twoTo 2044 = limit by decide +kernel]
      have lower : (limit - twoTo 2044) * d = (limit - twoTo 2045) * d + twoTo 2044 * d := by
        rw [← Nat.add_mul, show limit - twoTo 2045 + twoTo 2044
          = limit - twoTo 2044 by decide +kernel]
      rw [abs_of_nonneg (by omega), abs_of_nonpos (by omega)] at nearer
      omega
  · intro reached
    -- Half a step above the largest magnitude the tie goes to the power of two, which is even.
    have tie : roundQuanta .toEven (limit - twoTo 2044) 1 = limit := by decide +kernel
    rw [← tie]
    exact roundQuanta_mono .toEven Nat.one_pos positive (by omega)

/-- A rounded quotient is finite exactly when it is rounded to less than the limit. -/
theorem isFinite_ofQuotient_iff (tie : Tie) (negative : Bool) (n d : Nat) :
    (ofQuotient tie negative n d).isFinite = true ↔ roundQuanta tie n d < limit := by
  unfold ofQuotient
  dsimp only
  split
  · rename_i inside
    exact iff_of_true rfl inside
  · rename_i outside
    exact iff_of_false Bool.false_ne_true outside

/-- A rounded quotient that is not finite is the infinity with its sign. -/
theorem ofQuotient_eq_infinite {tie : Tie} {negative : Bool} {n d : Nat}
    (outside : (ofQuotient tie negative n d).isFinite = false) :
    ofQuotient tie negative n d = infinite negative := by
  unfold ofQuotient at outside ⊢
  dsimp only at outside ⊢
  split
  · rename_i inside
    rw [dif_pos inside] at outside
    cases outside
  · rfl

/-- A number has a finite double nearest to it exactly when it is below the overflow. -/
theorem isFinite_nearest_iff {z : Rat} : (nearest z).isFinite = true ↔ |z| < overflow := by
  have divisor : (0 : Rat) < z.den := Nat.cast_pos.2 z.den_pos
  have middle : limit - twoTo 2044 = (twoTo 1024 - twoTo 970) * one := by decide +kernel
  -- In quanta this is where rounding leads to the limit.
  rw [nearest, isFinite_ofQuotient_iff, ← Nat.not_le, limit_le_roundQuanta_iff z.den_pos,
    Nat.not_le, middle, Nat.mul_right_comm, Nat.mul_lt_mul_right unit_pos, abs_eq_div,
    div_lt_iff₀ divisor, overflow]
  exact_mod_cast Iff.rfl

/-- A number below a power of two in range has a finite double nearest to it. -/
theorem isFinite_nearest {z : Rat} {e : Nat} (small : |z| ≤ twoTo e) (range : e < 1024) :
    (nearest z).isFinite = true := by
  have most : twoTo e ≤ twoTo 1023 := Nat.le_of_dvd (twoTo_pos 1023) (twoTo_dvd (by omega))
  have below : twoTo e < twoTo 1024 - twoTo 970 := most.trans_lt (by decide +kernel)
  exact isFinite_nearest_iff.2 (small.trans_lt (Nat.cast_lt.2 below))

/-- A finite double is below the overflow. -/
theorem abs_toRat_lt_overflow {x : Double} (isFinite : x.isFinite = true) : |x.toRat| < overflow :=
  isFinite_nearest_iff.1 ((alike_nearest isFinite).isFinite.symm.trans isFinite)

end Double

open Double

/-- The outcome of an operation on doubles is finite exactly when the exact one is below the
overflow. -/
theorem Operator.isFinite_compute_iff (operator : Operator) {x y : Double}
    (first : x.isFinite = true)
    (second : y.isFinite = true) (nonzero : operator = .div → y.isZero = false) :
    (operator.compute x y).isFinite = true ↔ |operator.exact x.toRat y.toRat| < overflow := by
  rw [(operator.compute_alike_nearest first second nonzero).isFinite, isFinite_nearest_iff]

end PlusMinus
