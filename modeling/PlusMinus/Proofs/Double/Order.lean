import PlusMinus.Proofs.Double.Range

/-! The order of doubles: rounding keeps the order of quotients, and so the operations keep the
order of their operands. -/

namespace PlusMinus

/-- A larger number of parts is not rounded to fewer wholes. -/
theorem roundDiv_le_roundDiv (tie : Tie) {n m : Nat} (denominator : Nat) (le : n ≤ m) :
    roundDiv tie n denominator ≤ roundDiv tie m denominator := by
  have floors : n / denominator ≤ m / denominator := Nat.div_le_div_right le
  rcases Nat.lt_or_eq_of_le floors with less | equal
  · -- Between different wholes there is room for both to be rounded.
    calc roundDiv tie n denominator ≤ n / denominator + 1 := roundDiv_le tie n denominator
      _ ≤ m / denominator := less
      _ ≤ roundDiv tie m denominator := le_roundDiv tie m denominator
  · -- Above the same whole the parts that are left over decide.
    have parts : n % denominator ≤ m % denominator := by
      have first := Nat.div_add_mod n denominator
      have second := Nat.div_add_mod m denominator
      rw [equal] at first
      omega
    unfold roundDiv
    dsimp only
    rw [equal]
    have parity := Nat.mod_lt (m / denominator) (by decide : 2 > 0)
    cases tie <;> dsimp only <;> split <;> split <;> (try split) <;> (try split) <;> omega

/-- A larger quotient is not rounded to a smaller whole number. -/
theorem roundDiv_mono (tie : Tie) {n m d e : Nat} (positive : 0 < d) (positive' : 0 < e)
    (le : n * e ≤ m * d) : roundDiv tie n d ≤ roundDiv tie m e := by
  -- Both are brought to the product of the denominators.
  rw [← roundDiv_mul_right tie n d positive',
    ← roundDiv_mul_right tie m e positive, Nat.mul_comm e d]
  exact roundDiv_le_roundDiv tie (d * e) le

namespace Double

/-- A larger quotient is not rounded to a smaller magnitude. -/
theorem roundQuanta_mono (tie : Tie) {n m d e : Nat} (positive : 0 < d) (positive' : 0 < e)
    (le : n * e ≤ m * d) : roundQuanta tie n d ≤ roundQuanta tie m e := by
  have floors : n / d ≤ m / e := by
    rw [Nat.le_div_iff_mul_le positive', ← Nat.mul_le_mul_right_iff positive]
    calc n / d * e * d = n / d * d * e := Nat.mul_right_comm _ _ _
      _ ≤ n * e := Nat.mul_le_mul_right e (Nat.div_mul_le_self n d)
      _ ≤ m * d := le
  rcases Nat.lt_or_eq_of_le (log2_le floors) with less | equal
  · -- A power of two lies between the quotients, and neither is rounded across it.
    obtain ⟨above, reached⟩ := twoTo_between less
    have power := mod_spacing_twoTo (m / e).log2
    exact Nat.le_trans
      (roundQuanta_le tie positive power (Nat.le_of_lt ((Nat.div_lt_iff_lt_mul positive).1 above)))
      (le_roundQuanta tie positive' power ((Nat.le_div_iff_mul_le positive').1 reached))
  · -- With the same steps the number of steps decides.
    have step : 0 < spacing (m / e) := twoTo_pos _
    have same : spacing (n / d) = spacing (m / e) := by rw [spacing, spacing, equal]
    unfold roundQuanta
    dsimp only
    rw [same]
    generalize spacing (m / e) = steps at step
    refine Nat.mul_le_mul_right steps ?_
    refine roundDiv_mono tie (Nat.mul_pos positive step) (Nat.mul_pos positive' step) ?_
    calc n * (e * steps) = n * e * steps := (Nat.mul_assoc _ _ _).symm
      _ ≤ m * d * steps := Nat.mul_le_mul_right steps le
      _ = m * (d * steps) := Nat.mul_assoc _ _ _

/-- How far a rounded quotient lies from zero; an infinity lies just out of range. -/
def reach (tie : Tie) (n d : Nat) : Nat := min (roundQuanta tie n d) limit

/-- A rounded quotient lies as far from zero as its magnitude says, on the side of its sign. -/
theorem position?_ofQuotient (tie : Tie) (negative : Bool) (n d : Nat) :
    (ofQuotient tie negative n d).position?
      = some (if negative then -(reach tie n d : Int) else reach tie n d) := by
  unfold ofQuotient reach
  dsimp only
  -- Within the limit the place is the rounded number, and beyond it the limit.
  split
  · rename_i within
    rw [Nat.min_eq_left (Nat.le_of_lt within)]
    cases negative <;> simp [position?, signedQuanta]
  · rename_i outside
    rw [Nat.min_eq_right (Nat.not_lt.1 outside)]
    cases negative <;> simp only [position?, Bool.false_eq_true, if_true, if_false]

/-- A rounded quotient is a number. -/
theorem isNaN_ofQuotient (tie : Tie) (negative : Bool) (n d : Nat) :
    (ofQuotient tie negative n d).isNaN = false := by
  unfold ofQuotient
  dsimp only
  split <;> rfl

/-- A larger quotient does not lie closer to zero. -/
theorem reach_mono (tie : Tie) {n m d e : Nat} (positive : 0 < d) (positive' : 0 < e)
    (le : n * e ≤ m * d) : reach tie n d ≤ reach tie m e := by
  have rounding := roundQuanta_mono tie positive positive' le
  unfold reach
  generalize limit = bound
  omega

/-- The double nearest to a signed number of parts of a quantum. -/
def rounded (quanta : Int) (parts : Nat) : Double :=
  ofQuotient .toEven (quanta < 0) quanta.natAbs parts

/-- Rounding keeps the order of quotients. -/
theorem le_rounded {p q : Int} {d e : Nat} (positive : 0 < d) (positive' : 0 < e)
    (le : p * e ≤ q * d) : (rounded p d).le (rounded q e) = true := by
  unfold Double.le rounded
  rw [position?_ofQuotient, position?_ofQuotient]
  dsimp only
  rw [decide_eq_true_eq]
  by_cases left : p < 0 <;> by_cases right :
    q < 0 <;> simp only [left, right, decide_true, decide_false]
  · -- Below zero the smaller number has the larger magnitude.
    have magnitudes : q.natAbs * d ≤ p.natAbs * e := by
      have opposite : -q * d ≤ -p * e := by rw [Int.neg_mul, Int.neg_mul]; omega
      rw [← Int.ofNat_natAbs_of_nonpos (by omega), ← Int.ofNat_natAbs_of_nonpos (by omega)]
        at opposite
      exact_mod_cast opposite
    have further := reach_mono .toEven positive' positive magnitudes
    simp only [if_true]
    omega
  · simp only [if_true, Bool.false_eq_true, if_false]
    omega
  · -- A number that is not below zero is not below one that is.
    have above : 0 ≤ p * e := Int.mul_nonneg (by omega) (by omega)
    have below : q * d < 0 := Int.mul_neg_of_neg_of_pos right (by omega)
    omega
  · have magnitudes : p.natAbs * e ≤ q.natAbs * d := by
      rw [← Int.natAbs_of_nonneg (a := p) (by omega), ← Int.natAbs_of_nonneg (a := q) (by omega)]
        at le
      exact_mod_cast le
    have further := reach_mono .toEven positive positive' magnitudes
    simp only [Bool.false_eq_true, if_false]
    omega

/-- Numbers that are equal but for the sign of a zero lie at the same place. -/
theorem Alike.position? {x y : Double} (alike : x.Alike y) : x.position? = y.position? := by
  rcases alike with rfl | ⟨left, right⟩
  · rfl
  · obtain ⟨s, rfl⟩ := exists_of_isZero left
    obtain ⟨t, rfl⟩ := exists_of_isZero right
    cases s <;> cases t <;> rfl

/-- What is no number has no place, and everything else has one between the infinities. -/
theorem position?_cases (x : Double) :
    x = nan ∨ ∃ p : Int, x.position? = some p ∧ -(limit : Int) ≤ p ∧ p ≤ limit := by
  -- The infinities are at the limit, and what is finite has fewer quanta than it.
  cases x with
  | nan => exact .inl rfl
  | infinite negative =>
    right
    cases negative
    · exact ⟨limit, rfl, by omega, Int.le_refl _⟩
    · exact ⟨-limit, rfl, Int.le_refl _, by omega⟩
  | finite negative quanta fits =>
    have range := fits.1
    refine .inr ⟨(finite negative quanta fits).signedQuanta, rfl, ?_⟩
    cases negative <;> simp only [signedQuanta] <;> omega

/-- What has a place is a number. -/
theorem isNaN_of_position? {x : Double} {p : Int} (place : x.position? = some p) :
    x.isNaN = false := by
  cases x with
  | nan => cases place
  | infinite negative => rfl
  | finite negative quanta fits => rfl

/-- A double that is not above another one, as far as both are numbers. -/
def NotAbove (x y : Double) : Prop :=
  ∀ p q, x.position? = some p → y.position? = some q → p ≤ q

namespace NotAbove

variable {x y z w : Double}

/-- A double that is at most another one is not above it. -/
theorem of_le (le : x.le y = true) : x.NotAbove y := by
  intro p q first second
  unfold Double.le at le
  rw [first, second] at le
  exact of_decide_eq_true le

/-- A number that is not above another one is at most that. -/
theorem le (notAbove : x.NotAbove y) (left : x.isNaN = false) (right : y.isNaN = false) :
    x.le y = true := by
  rcases x.position?_cases with rfl | ⟨p, first, _⟩
  · cases left
  rcases y.position?_cases with rfl | ⟨q, second, _⟩
  · cases right
  unfold Double.le
  rw [first, second]
  exact decide_eq_true (notAbove p q first second)

/-- Of two numbers at different places only one is at most the other. -/
theorem le_eq_false (notAbove : x.NotAbove y) (differ : x.position? ≠ y.position?) :
    y.le x = false := by
  unfold Double.le
  split
  · rename_i q p second first
    have order := notAbove p q first second
    have apart : p ≠ q := fun same => differ (by rw [first, second, same])
    exact decide_eq_false (by omega)
  · rfl

/-- A double below another one is not above it. -/
theorem of_lt (less : x.lt y = true) : x.NotAbove y := by
  intro p q first second
  unfold Double.lt at less
  rw [first, second] at less
  have order := of_decide_eq_true less
  omega

/-- A double that does not have another one below is not above it. -/
theorem of_lt_eq_false (notBelow : y.lt x = false) : x.NotAbove y := by
  intro p q first second
  unfold Double.lt at notBelow
  rw [first, second] at notBelow
  have order := of_decide_eq_false notBelow
  omega

/-- Only the place of a number matters. -/
theorem congr (left : x.Alike z) (right : y.Alike w) (notAbove : x.NotAbove y) : z.NotAbove w := by
  intro p q first second
  rw [← left.position?] at first
  rw [← right.position?] at second
  exact notAbove p q first second

/-- Equal doubles are not above each other. -/
theorem of_alike (alike : x.Alike y) : x.NotAbove y := by
  intro p q first second
  rw [alike.position?, second] at first
  cases first
  exact Int.le_refl _

/-- The order goes on from a number that is between two others. -/
theorem trans (first : x.NotAbove y) (second : y.NotAbove z) (number : y.isNaN = false) :
    x.NotAbove z := by
  intro p r left right
  rcases y.position?_cases with rfl | ⟨q, middle, _⟩
  · cases number
  exact Int.le_trans (first p q left middle) (second q r middle right)

/-- What is no number is not above anything. -/
theorem nan_left (y : Double) : nan.NotAbove y := by
  intro p q first
  cases first

/-- Nothing is above what is no number. -/
theorem nan_right (x : Double) : x.NotAbove nan := by
  intro p q _ second
  cases second

/-- The negative infinity is not above anything. -/
theorem bottom (y : Double) : (infinite true).NotAbove y := by
  intro p q first second
  simp only [position?, Option.some.injEq] at first
  subst first
  rcases y.position?_cases with rfl | ⟨r, place, low, _⟩
  · cases second
  · rw [place] at second
    cases second
    exact low

/-- Nothing is above the positive infinity. -/
theorem top (x : Double) : x.NotAbove (infinite false) := by
  intro p q first second
  simp only [position?, Option.some.injEq] at second
  subst second
  rcases x.position?_cases with rfl | ⟨r, place, _, high⟩
  · cases first
  · rw [place] at first
    cases first
    exact high

/-- Only the positive infinity is not below the positive infinity. -/
theorem eq_top (notAbove : (infinite false).NotAbove y) : y = nan ∨ y = infinite false := by
  -- Every other number has a place below the limit.
  cases y with
  | nan => exact .inl rfl
  | infinite negative =>
    cases negative with
    | false => exact .inr rfl
    | true =>
      have least := notAbove limit (-limit) rfl rfl
      have positive : 0 < limit := twoTo_pos _
      omega
  | finite negative quanta fits =>
    have least := notAbove limit (finite negative quanta fits).signedQuanta rfl rfl
    have range := fits.1
    cases negative <;> simp only [signedQuanta] at least <;> omega

/-- Opposite numbers are in the opposite order. -/
theorem neg (notAbove : x.NotAbove y) : (-y).NotAbove (-x) := by
  -- The opposite number lies at the opposite place.
  have opposite : ∀ z : Double, (-z).position? = z.position?.map (- ·) := by
    intro z
    change z.neg.position? = _
    cases z with
    | nan => rfl
    | infinite negative =>
      cases negative <;>
        simp only [Double.neg, position?, Option.map_some, Bool.not_true,
          Bool.not_false, Int.neg_neg]
    | finite negative quanta fits => cases negative <;> simp [Double.neg, position?, signedQuanta]
  intro p q first second
  rw [opposite, Option.map_eq_some_iff] at first second
  obtain ⟨p, first, rfl⟩ := first
  obtain ⟨q, second, rfl⟩ := second
  have order := notAbove q p second first
  omega

/-- Only the negative infinity is not above the negative infinity. -/
theorem eq_bottom (notAbove : x.NotAbove (infinite true)) : x = nan ∨ x = infinite true := by
  -- Its opposite is not below the positive infinity.
  have opposite := notAbove.neg
  cases x with
  | nan => exact .inl rfl
  | infinite negative =>
    cases negative with
    | false => rcases opposite.eq_top with absurd | absurd <;> cases absurd
    | true => exact .inr rfl
  | finite negative quanta fits => rcases opposite.eq_top with absurd | absurd <;> cases absurd

/-- What leaves the infinities as they are keeps the order if it does so between finite numbers. -/
theorem of_finite (f : Double → Double) (none : f nan = nan)
    (far : ∀ negative, f (infinite negative) = infinite negative) (notAbove : x.NotAbove y)
    (keeps : x.isFinite = true → y.isFinite = true → (f x).NotAbove (f y)) :
    (f x).NotAbove (f y) := by
  -- An infinity is in order with every number only at its own end.
  cases x with
  | nan =>
    rw [none]
    exact nan_left _
  | infinite s =>
    rw [far]
    cases s with
    | true => exact bottom _
    | false =>
      rcases notAbove.eq_top with rfl | rfl
      · rw [none]
        exact nan_right _
      · rw [far]
        exact top _
  | finite s a h =>
    cases y with
    | nan =>
      rw [none]
      exact nan_right _
    | infinite t =>
      rw [far]
      cases t with
      | false => exact top _
      | true => rcases notAbove.eq_bottom with absurd | absurd <;> cases absurd
    | finite t b g => exact keeps rfl rfl

/-- What moves a finite number on its own side of zero keeps the order, if it moves larger
magnitudes at least as far and zeros not at all. -/
theorem of_sides (f : Double → Double) (reach : Double → Nat)
    (side : ∀ z : Double, z.isFinite = true →
      (f z).position? = some (if z.isNegative then -(reach z : Int) else reach z))
    (further : ∀ z w : Double, z.isFinite = true → w.isFinite = true → z.magnitude ≤ w.magnitude →
      reach z ≤ reach w)
    (nothing : ∀ z : Double, z.magnitude = 0 → reach z = 0) (notAbove : x.NotAbove y)
    (left : x.isFinite = true) (right : y.isFinite = true) : (f x).NotAbove (f y) := by
  obtain ⟨s, a, h, rfl⟩ := exists_of_isFinite left
  obtain ⟨t, b, g, rfl⟩ := exists_of_isFinite right
  have order := notAbove _ _ rfl rfl
  have upward : a ≤ b → reach (finite s a h) ≤ reach (finite t b g) :=
    further (finite s a h) (finite t b g) rfl rfl
  have downward : b ≤ a → reach (finite t b g) ≤ reach (finite s a h) :=
    further (finite t b g) (finite s a h) rfl rfl
  -- On one side of zero the magnitudes decide, on different sides the signs do.
  intro p q first second
  rw [side _ rfl] at first second
  cases first
  cases second
  simp only [isNegative]
  cases s <;> cases t <;> simp only [signedQuanta, if_true, Bool.false_eq_true, if_false] at order ⊢
  · have far := upward (by omega)
    omega
  · -- A magnitude that is not below zero is not above one that is, unless both are zero.
    have none := nothing (finite false a h) (show a = 0 by omega)
    have none' := nothing (finite true b g) (show b = 0 by omega)
    omega
  · omega
  · have far := downward (by omega)
    omega

end NotAbove

/-- A rounded quotient with the sign of a number of parts is that number rounded. -/
theorem ofQuotient_alike_rounded {negative : Bool} {n parts : Nat} {quanta : Int}
    (positive : 0 < parts) (magnitude : quanta.natAbs = n)
    (sign : quanta ≠ 0 → decide (quanta < 0) = negative) :
    (ofQuotient .toEven negative n parts).Alike (rounded quanta parts) := by
  unfold rounded
  rw [magnitude]
  by_cases none : quanta = 0
  · -- Only the sign of a zero is left open.
    have nothing : n = 0 := by omega
    rw [nothing, ofQuotient_zero _ _ positive, ofQuotient_zero _ _ positive]
    exact .inr ⟨rfl, rfl⟩
  · rw [sign none]
    exact .refl _

/-- A rounded quotient of a magnitude with a sign is the signed number rounded. -/
theorem ofQuotient_alike_rounded_signed (negative : Bool) (n : Nat) {parts : Nat}
    (positive : 0 < parts) :
    (ofQuotient .toEven negative n parts).Alike
      (rounded (if negative then -(n : Int) else n) parts) := by
  cases negative with
  | false =>
    rw [if_neg Bool.false_ne_true]
    exact ofQuotient_alike_rounded positive (Int.natAbs_natCast n) fun _ => by simp
  | true =>
    rw [if_pos rfl]
    refine ofQuotient_alike_rounded positive
      ((Int.natAbs_neg n).trans (Int.natAbs_natCast n)) fun some => ?_
    exact decide_eq_true (by omega)

section Rounded

variable {s t : Bool} {a b : Nat} (f : Fits a) (g : Fits b)

/-- A finite number is its own quanta, rounded. -/
theorem finite_alike_rounded : (finite s a f).Alike (rounded (finite s a f).signedQuanta 1) := by
  have back := ofQuotient_alike_rounded_signed s a Nat.one_pos
  have exact := ofQuotient_of_fits .toEven s Nat.one_pos f
  rw [Nat.mul_one] at exact
  rw [exact] at back
  cases s <;> exact back

/-- The exact sum of two finite numbers is rounded. -/
theorem add_alike_rounded :
    (finite s a f + finite t b g).Alike
      (rounded ((finite s a f).signedQuanta + (finite t b g).signedQuanta) 1) := by
  rw [add_finite]
  -- The sum has the sign of its quanta, and only where there are none is the sign a matter of its
  -- own.
  refine ofQuotient_alike_rounded Nat.one_pos rfl fun some => ?_
  rw [if_neg some]

/-- The exact product of two finite numbers is rounded. -/
theorem mul_alike_rounded :
    (finite s a f * finite t b g).Alike
      (rounded ((finite s a f).signedQuanta * (finite t b g).signedQuanta) one) := by
  -- The product of the quanta has the sign of the product.
  have product : (finite s a f).signedQuanta * (finite t b g).signedQuanta
      = if s != t then -((a * b : Nat) : Int) else (a * b : Nat) := by
    match s, t with
    | false, false => rfl
    | false, true => exact Int.mul_neg _ _
    | true, false => exact Int.neg_mul _ _
    | true, true => exact Int.neg_mul_neg _ _
  rw [mul_finite, product]
  exact ofQuotient_alike_rounded_signed _ _ (twoTo_pos _)

/-- A number of units times the quanta of a finite number has its sign. -/
theorem signedQuanta_mul (units : Nat) :
    (finite s a f).signedQuanta * units
      = if s then -((a * units : Nat) : Int) else (a * units : Nat) := by
  cases s with
  | false => rfl
  | true => exact Int.neg_mul _ _

/-- The exact quotient of two finite numbers, the second not zero, is rounded. -/
theorem div_alike_rounded (nonzero : b ≠ 0) :
    (finite s a f / finite t b g).Alike
      (rounded ((finite (s != t) a f).signedQuanta * one) b) := by
  rw [div_finite f g nonzero, signedQuanta_mul]
  exact ofQuotient_alike_rounded_signed _ _ (Nat.pos_of_ne_zero nonzero)

end Rounded

/-- What is no number is no number when it is divided. -/
theorem nan_div (x : Double) : nan / x = nan := by
  change Double.div nan x = nan
  cases x <;> rfl

/-- An infinity takes over a sum, unless that is no number. -/
theorem infinite_add (negative : Bool) (y : Double) :
    infinite negative + y = nan ∨ infinite negative + y = infinite negative := by
  change Double.add _ _ = _ ∨ Double.add _ _ = _
  cases y with
  | nan => exact .inl rfl
  | finite t b g => exact .inr rfl
  | infinite t =>
    simp only [Double.add]
    split
    · exact .inr rfl
    · exact .inl rfl

/-- A sum that is finite has finite terms. -/
theorem isFinite_of_add {u v : Double} (isFinite : (u + v).isFinite = true) :
    u.isFinite = true ∧ v.isFinite = true := by
  -- Neither an infinity nor what is no number leads back to a finite sum.
  cases u with
  | nan => cases v <;> cases isFinite
  | infinite s =>
    rcases infinite_add s v with same | same <;> rw [same] at isFinite <;> cases isFinite
  | finite s a f =>
    cases v with
    | nan => cases isFinite
    | infinite t => cases isFinite
    | finite t b g => exact ⟨rfl, rfl⟩

/-- Only opposite infinities, or what is no number, have no number as their sum. -/
theorem of_isNaN_add {x y : Double} (none : (x + y).isNaN = true) :
    x = nan ∨ y = nan ∨ ∃ negative, x = infinite negative ∧ y = infinite !negative := by
  -- A number added to a finite one gives a number, so only two infinities are left.
  cases x with
  | nan => exact .inl rfl
  | infinite s =>
    cases y with
    | nan => exact .inr (.inl rfl)
    | infinite t =>
      refine .inr (.inr ⟨s, rfl, ?_⟩)
      cases s <;> cases t <;> first | rfl | cases none
    | finite t b g => cases none
  | finite s a f =>
    cases y with
    | nan => exact .inr (.inl rfl)
    | infinite t => cases none
    | finite t b g =>
      rw [add_finite, isNaN_ofQuotient] at none
      cases none

namespace NotAbove

variable {x y z w : Double}

/-- A sum with a smaller first term is not above the other one. -/
theorem add_right (notAbove : x.NotAbove y) (z : Double) : (x + z).NotAbove (y + z) := by
  -- An infinity on the outer side settles the order.
  cases x with
  | nan => exact nan_left _
  | infinite negative =>
    rcases infinite_add negative z with same | same <;> rw [same]
    · exact nan_left _
    cases negative with
    | true => exact bottom _
    | false =>
      rcases notAbove.eq_top with rfl | rfl
      · exact nan_right _
      · rw [same]
        exact top _
  | finite s a f =>
    cases y with
    | nan => exact nan_right _
    | infinite negative =>
      rcases infinite_add negative z with same | same <;> rw [same]
      · exact nan_right _
      cases negative with
      | false => exact top _
      | true =>
        -- A finite number is above the negative infinity.
        rcases notAbove.neg.eq_top with absurd | absurd <;> cases absurd
    | finite t b g =>
      cases z with
      | nan => exact nan_left _
      | infinite negative => exact of_alike (.refl _)
      | finite r c h =>
        -- The exact sums are in order, and so they are when they are rounded.
        have order := notAbove _ _ rfl rfl
        have rounding := le_rounded (p := (finite s a f).signedQuanta + (finite r c h).signedQuanta)
          (q := (finite t b g).signedQuanta + (finite r c h).signedQuanta) Nat.one_pos Nat.one_pos
          (by omega)
        exact (of_le rounding).congr (add_alike_rounded f h).symm (add_alike_rounded g h).symm

/-- Sums keep the order of their terms. -/
theorem add (left : x.NotAbove y) (right : z.NotAbove w) : (x + z).NotAbove (y + w) := by
  have first := left.add_right z
  have second := right.add_right y
  rw [add_comm z, add_comm w] at second
  -- The one sum between the two joins them, unless it is no number.
  cases none : (y + z).isNaN with
  | false => exact first.trans second none
  | true =>
    rcases of_isNaN_add none with rfl | rfl | ⟨negative, rfl, rfl⟩
    · exact nan_right _
    · rw [add_comm]
      exact nan_left _
    · -- Opposite infinities in the middle leave an infinity on one of the outer sides.
      cases negative with
      | false =>
        rw [add_comm]
        rcases infinite_add true x with same | same <;> rw [Bool.not_false, same]
        · exact nan_left _
        · exact bottom _
      | true =>
        rcases infinite_add true w with same | same <;> rw [same]
        · exact nan_right _
        · rcases left.eq_bottom with rfl | rfl
          · exact nan_left _
          · exact nan_left _

/-- Magnitudes keep their order when they are multiplied by a magnitude. -/
theorem mul_left (notAbove : x.NotAbove y) (first : x.isNegative = false)
    (second : y.isNegative = false) (factor : z.isNegative = false) : (z * x).NotAbove (z * y) := by
  rcases nonnegative_cases factor with rfl | rfl | ⟨c, h, rfl⟩
  · exact nan_left _
  · -- Times the infinity a magnitude is infinite itself, unless the product is no number.
    have product : ∀ m : Double, m.isNegative = false →
        infinite false * m = nan ∨ infinite false * m = infinite false := by
      intro m magnitude
      rcases nonnegative_cases magnitude with rfl | rfl | ⟨a, f, rfl⟩
      · exact .inl rfl
      · exact .inr rfl
      · change (if a = 0 then nan else infinite false) = nan ∨ _
        split
        · exact .inl rfl
        · exact .inr (if_neg ‹_›)
    rcases product y second with same | same <;> rw [same]
    · exact nan_right _
    · exact top _
  · rcases nonnegative_cases second with rfl | rfl | ⟨b, g, rfl⟩
    · exact nan_right _
    · -- Times an infinity the factor leads to the infinity or to no number.
      change (finite false c h * x).NotAbove (if c = 0 then nan else infinite false)
      split
      · exact nan_right _
      · exact top _
    · rcases nonnegative_cases first with rfl | rfl | ⟨a, f, rfl⟩
      · exact nan_left _
      · rcases notAbove.eq_top with absurd | absurd <;> cases absurd
      · -- Among finite magnitudes the exact products are in order.
        have order := notAbove _ _ rfl rfl
        have rounding :=
          le_rounded (p := (finite false c h).signedQuanta * (finite false a f).signedQuanta)
          (q := (finite false c h).signedQuanta * (finite false b g).signedQuanta)
          (twoTo_pos 1074) (twoTo_pos 1074)
          (Int.mul_le_mul_of_nonneg_right
            (Int.mul_le_mul_of_nonneg_left order (Int.natCast_nonneg c))
            (Int.natCast_nonneg _))
        exact (of_le rounding).congr (mul_alike_rounded h f).symm (mul_alike_rounded h g).symm

/-- Magnitudes keep their order when they are divided by a magnitude. -/
theorem div_right (notAbove : x.NotAbove y) (first : x.isNegative = false)
    (second : y.isNegative = false) (divisor : z.isNegative = false) :
    (x / z).NotAbove (y / z) := by
  rcases nonnegative_cases first with rfl | rfl | ⟨a, f, rfl⟩
  · exact (nan_div z).symm ▸ nan_left _
  · rcases notAbove.eq_top with rfl | rfl
    · exact (nan_div z).symm ▸ nan_right _
    · exact of_alike (.refl _)
  · rcases nonnegative_cases second with rfl | rfl | ⟨b, g, rfl⟩
    · exact (nan_div z).symm ▸ nan_right _
    · -- An infinity divided is infinite, unless the quotient is no number.
      rcases nonnegative_cases divisor with rfl | rfl | ⟨c, h, rfl⟩
      · exact nan_right _
      · exact nan_right _
      · exact top _
    · have order := notAbove _ _ rfl rfl
      rcases nonnegative_cases divisor with rfl | rfl | ⟨c, h, rfl⟩
      · exact nan_right _
      · exact of_alike (.inr ⟨rfl, rfl⟩)
      · by_cases zero : c = 0
        · -- Divided by zero, a magnitude is infinite unless it is zero itself.
          subst zero
          rw [div_zero f, div_zero g]
          split
          · exact nan_left _
          · simp only [signedQuanta] at order
            rw [if_neg (by omega)]
            exact top _
        · -- By a positive magnitude the quotients are in the order of the dividends, and so are the
          -- rounded ones.
          have rounding := le_rounded (p := (finite false a f).signedQuanta * one)
            (q := (finite false b g).signedQuanta * one)
            (Nat.pos_of_ne_zero zero) (Nat.pos_of_ne_zero zero)
            (Int.mul_le_mul_of_nonneg_right
              (Int.mul_le_mul_of_nonneg_right order (Int.natCast_nonneg _)) (Int.natCast_nonneg _))
          exact (of_le rounding).congr (div_alike_rounded f h zero).symm
            (div_alike_rounded g h zero).symm

end NotAbove

end Double

end PlusMinus
