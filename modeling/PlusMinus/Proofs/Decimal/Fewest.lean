import PlusMinus.Proofs.Decimal.Denoting
import PlusMinus.Proofs.Decimal.Nearest

/-! The shortest decimal of a double: no decimal that reads back has fewer digits, and none with as
many is nearer. -/

namespace PlusMinus

open Double

namespace Decimal

variable {d : Decimal} {count : Nat}

/-- Zeros that are moved from a coefficient into the exponent do not change the value. -/
theorem toRat_normalize (d : Decimal) : d.normalize.toRat = d.toRat := by
  fun_induction normalize d with
  | case1 d ends ih =>
    -- The zero that the coefficient loses is a factor of ten that the power gains.
    have whole : d.coefficient = d.coefficient / 10 * 10 := by omega
    rw [ih, toRat_eq, toRat_eq, zpow_add_one₀ (by norm_num)]
    nth_rewrite 2 [whole]
    push_cast
    ring
  | case2 => rfl

/-- They raise the exponent. -/
theorem exponent_le_normalize (d : Decimal) : d.exponent ≤ d.normalize.exponent := by
  fun_induction normalize d with
  | case1 d ends ih =>
    dsimp only at ih
    omega
  | case2 => exact le_rfl

/-- So the coefficient has not more digits than before. -/
theorem digitCount_normalize_le (d : Decimal) :
    digitCount d.normalize.coefficient ≤ digitCount d.coefficient := by
  have leading := d.leading_normalize
  have raised := d.exponent_le_normalize
  unfold Decimal.leading at leading
  omega

/-- Even the power of ten behind the numbers of so many digits has no more digits when its zeros are
moved. -/
theorem digitCount_normalize_le_of_le (some : 0 < count) (few : d.coefficient ≤ tenTo count) :
    digitCount d.normalize.coefficient ≤ count := by
  rcases Nat.lt_or_eq_of_le few with less | same
  · exact (digitCount_normalize_le d).trans ((digitCount_le_iff some).2 less)
  · have zeros : tenTo count = tenTo (count - 1) * 10 := by
      rw [← show tenTo 1 = 10 from rfl, ← tenTo_add, Nat.sub_add_cancel some]
    have positive := tenTo_pos (count - 1)
    -- Already the first zero that is moved makes it small enough.
    rw [normalize, if_pos (by omega)]
    exact (digitCount_normalize_le _).trans ((digitCount_le_iff some).2 (by dsimp only; omega))

end Decimal

namespace Double

variable {x : Double} {d : Decimal} {count : Nat}

/-- The place of the last of so many digits of a magnitude. -/
def lastPlace (x : Double) (count : Nat) : Int := x.leadingExponent - count + 1

/-- A magnitude in units of its last place, as a quotient. -/
def inUnits (x : Double) (count : Nat) :
    Nat × Nat := shiftQuotient x.magnitude one (x.lastPlace count)

/-- The decimal of so many digits next below a magnitude. -/
def digitsBelow (x : Double) (count : Nat) : Decimal :=
  ⟨(x.inUnits count).1 / (x.inUnits count).2, x.lastPlace count⟩

/-- The decimal of so many digits next above a magnitude. -/
def digitsAbove (x : Double) (count : Nat) : Decimal :=
  ⟨(x.inUnits count).1 / (x.inUnits count).2 + 1, x.lastPlace count⟩

theorem inUnits_pos (x : Double) (count : Nat) : 0 < (x.inUnits count).2 :=
  shiftQuotient_pos x.magnitude unit_pos (x.lastPlace count)

/-- A magnitude has the value of its quotient of units. -/
theorem abs_eq_inUnits (x : Double) (count : Nat) :
    x.abs.toRat = ((x.inUnits count).1 : Rat) / (x.inUnits count).2 * 10 ^ x.lastPlace count := by
  have positive := x.inUnits_pos count
  rw [div_mul_eq_mul_div, eq_div_iff (Nat.cast_ne_zero.2 positive.ne')]
  exact (x.shiftQuotient_abs _).symm

theorem toRat_digitsBelow (x : Double) (count : Nat) :
    (x.digitsBelow count).toRat = (x.digitsBelow count).coefficient * 10 ^ x.lastPlace count :=
  Decimal.toRat_eq _

/-- The neighbours are one unit of the last place apart. -/
theorem toRat_digitsAbove (x : Double) (count : Nat) :
    (x.digitsAbove count).toRat = ((x.digitsBelow count).coefficient + 1 : Nat)
      * 10 ^ x.lastPlace count :=
  Decimal.toRat_eq _

/-- A magnitude lies between its neighbours of so many digits. -/
theorem digits_around (x : Double) (count : Nat) :
    (x.digitsBelow count).toRat ≤ x.abs.toRat ∧ x.abs.toRat < (x.digitsAbove count).toRat := by
  have positive := x.inUnits_pos count
  have parts : (0 : Rat) < (x.inUnits count).2 := Nat.cast_pos.2 positive
  have unit : (0 : Rat) < 10 ^ x.lastPlace count := zpow_pos (by norm_num) _
  -- In units of the last digit the neighbours are the whole numbers around the magnitude.
  rw [Decimal.toRat_eq, Decimal.toRat_eq, x.abs_eq_inUnits count, digitsAbove, digitsBelow]
  constructor
  · refine mul_le_mul_of_nonneg_right ?_ unit.le
    rw [le_div_iff₀ parts]
    exact_mod_cast Nat.div_mul_le_self (x.inUnits count).1 (x.inUnits count).2
  · refine mul_lt_mul_of_pos_right ?_ unit
    rw [div_lt_iff₀ parts]
    exact_mod_cast Nat.lt_mul_of_div_lt (Nat.lt_succ_self _) positive

/-- The neighbour below has exactly so many digits. -/
theorem coefficient_digitsBelow (nonzero : x.magnitude ≠ 0) (some : 0 < count) :
    tenTo (count - 1) ≤ (x.digitsBelow count).coefficient
      ∧ (x.digitsBelow count).coefficient < tenTo count := by
  have positive := x.inUnits_pos count
  have least : tenTo (count - 1) * (x.inUnits count).2 ≤ (x.inUnits count).1 :=
    le_shiftQuotient (Nat.pos_of_ne_zero nonzero) unit_pos some
  have most : (x.inUnits count).1 < tenTo count * (x.inUnits count).2 :=
    shiftQuotient_lt (Nat.pos_of_ne_zero nonzero) unit_pos count
  exact ⟨(Nat.le_div_iff_mul_le positive).2 least, (Nat.div_lt_iff_lt_mul positive).2 most⟩

/-- It is not below the power of ten of the leading digit. -/
theorem power_le_digitsBelow (nonzero : x.magnitude ≠ 0) (some : 0 < count) :
    10 ^ x.leadingExponent ≤ (x.digitsBelow count).toRat := by
  have least := (coefficient_digitsBelow nonzero some).1
  rw [Decimal.toRat_eq, (zpow_eq_units x.leadingExponent some).1]
  exact mul_le_mul_of_nonneg_right (Nat.cast_le.2 least) (zpow_nonneg (by norm_num) _)

/-- A decimal of at most so many digits is not between the neighbours. -/
theorem le_digitsBelow_or (nonzero : x.magnitude ≠ 0) (few : digitCount d.coefficient ≤ count) :
    d.toRat ≤ (x.digitsBelow count).toRat ∨ (x.digitsAbove count).toRat ≤ d.toRat := by
  have some : 0 < count := Nat.lt_of_lt_of_le Nat.length_toDigits_pos few
  have ten : (10 : Rat) ≠ 0 := by norm_num
  rcases lt_or_ge d.exponent (x.lastPlace count) with finer | coarse
  · -- With digits behind the last place it is below the power of ten of the leading digit.
    left
    have most : d.coefficient < tenTo count := (digitCount_le_iff some).1 few
    calc d.toRat = d.coefficient * 10 ^ d.exponent := d.toRat_eq
      _ ≤ tenTo count * 10 ^ d.exponent :=
        mul_le_mul_of_nonneg_right (Nat.cast_le.2 most.le) (zpow_nonneg (by norm_num) _)
      _ = 10 ^ (count + d.exponent) := by rw [cast_tenTo, ← zpow_add₀ ten]
      _ ≤ 10 ^ x.leadingExponent :=
        zpow_le_zpow_right₀ (by norm_num) (by unfold lastPlace at finer; omega)
      _ ≤ _ := power_le_digitsBelow nonzero some
  · -- Otherwise it is a whole number of units, as the neighbours are, and they are next to each
    -- other.
    have places : ((d.exponent - x.lastPlace count).toNat : Int) + x.lastPlace count
      = d.exponent := by omega
    have units :
        d.toRat = ((d.coefficient * tenTo (d.exponent - x.lastPlace count).toNat : Nat) : Rat)
        * 10 ^ x.lastPlace count := by
      rw [d.toRat_eq, Nat.cast_mul, cast_tenTo, mul_assoc, ← zpow_add₀ ten, places]
    have unit : (0 : Rat) ≤ 10 ^ x.lastPlace count := zpow_nonneg (by norm_num) _
    rw [units, toRat_digitsBelow, toRat_digitsAbove]
    rcases Nat.lt_or_ge (x.digitsBelow count).coefficient
      (d.coefficient * tenTo (d.exponent - x.lastPlace count).toNat) with more | fewer
    · exact .inr (mul_le_mul_of_nonneg_right (Nat.cast_le.2 more) unit)
    · exact .inl (mul_le_mul_of_nonneg_right (Nat.cast_le.2 fewer) unit)

/-- If a decimal of at most so many digits reads back, then so does a neighbour that is as near. -/
theorem exists_digits_of_toDouble (isFinite : x.isFinite = true) (nonzero : x.magnitude ≠ 0)
    (few : digitCount d.coefficient ≤ count) (reads : d.toDouble false = x.abs) :
    ∃ e, (e = x.digitsBelow count ∨ e = x.digitsAbove count) ∧ e.toDouble false = x.abs
      ∧ |e.toRat - x.abs.toRat| ≤ |d.toRat - x.abs.toRat| := by
  obtain ⟨low, high⟩ := x.digits_around count
  -- The neighbour on the side of the decimal lies between it and the magnitude, and what is between
  -- two decimals that read back reads back too.
  rcases le_digitsBelow_or nonzero few with below | above
  · refine ⟨_, .inl rfl, Decimal.toDouble_of_between isFinite reads (.inl ⟨below, low⟩), ?_⟩
    rw [abs_of_nonpos (by linarith), abs_of_nonpos (by linarith)]
    linarith
  · refine ⟨_, .inr rfl, Decimal.toDouble_of_between isFinite reads (.inr ⟨high.le, above⟩), ?_⟩
    rw [abs_of_nonneg (by linarith), abs_of_nonneg (by linarith)]
    linarith

/-- With seventeen digits one of the neighbours reads back: it is within half a unit of the last
place. -/
theorem exists_digits_seventeen (isFinite : x.isFinite = true) (nonzero : x.magnitude ≠ 0) :
    (x.digitsBelow 17).toDouble false = x.abs ∨ (x.digitsAbove 17).toDouble false = x.abs := by
  obtain ⟨low, high⟩ := x.digits_around 17
  have least := (power_le_digitsBelow nonzero (by decide : 0 < 17)).trans low
  rw [(zpow_eq_units x.leadingExponent (by decide : 0 < 17)).1] at least
  change (tenTo 16 : Rat) * 10 ^ x.lastPlace 17 ≤ _ at least
  have apart : (x.digitsAbove 17).toRat = (x.digitsBelow 17).toRat + 10 ^ x.lastPlace 17 := by
    rw [toRat_digitsAbove, toRat_digitsBelow, Nat.cast_succ, add_one_mul]
  have scale : (0 : Rat) < tenTo 16 := Nat.cast_pos.2 (tenTo_pos 16)
  -- The magnitude has 10^16 such units, so that half a unit is near enough to read back.
  generalize (10 : Rat) ^ x.lastPlace 17 = unit at least apart
  rcases le_total (2 * (x.abs.toRat - (x.digitsBelow 17).toRat)) unit with near | far
  · refine .inl (Decimal.toDouble_of_near isFinite ?_)
    rw [abs_of_nonpos (by linarith)]
    have scaled := mul_le_mul_of_nonneg_left near scale.le
    linarith
  · refine .inr (Decimal.toDouble_of_near isFinite ?_)
    rw [abs_of_nonneg (by linarith)]
    have scaled := mul_le_mul_of_nonneg_left
      (show 2 * ((x.digitsAbove 17).toRat - x.abs.toRat) ≤ unit by linarith) scale.le
    linarith

/-- The decimal of so many digits that is nearest to a magnitude, a tie going to the even one. -/
def digitsNearest (x : Double) (count : Nat) : Decimal :=
  ⟨roundDiv .toEven (x.inUnits count).1 (x.inUnits count).2, x.lastPlace count⟩

/-- It is the neighbour on the side of the middle where the magnitude is. -/
theorem digitsNearest_cases (x : Double) (count : Nat) :
    x.digitsNearest count = x.digitsBelow count
        ∧ 2 * x.abs.toRat ≤ (x.digitsAbove count).toRat + (x.digitsBelow count).toRat
      ∨ x.digitsNearest count = x.digitsAbove count
        ∧ (x.digitsAbove count).toRat + (x.digitsBelow count).toRat ≤ 2 * x.abs.toRat := by
  have positive := x.inUnits_pos count
  have parts : (0 : Rat) < (x.inUnits count).2 := Nat.cast_pos.2 positive
  have unit : (0 : Rat) ≤ 10 ^ x.lastPlace count := zpow_nonneg (by norm_num) _
  have whole := Nat.div_add_mod' (x.inUnits count).1 (x.inUnits count).2
  rw [toRat_digitsAbove, toRat_digitsBelow, x.abs_eq_inUnits count, ← mul_assoc, ← add_mul]
  unfold digitsNearest digitsBelow digitsAbove
  dsimp only
  -- Counted in units of the last digit, this is how a quotient is rounded to a whole number.
  generalize x.inUnits count = quotient at *
  have both : (quotient.1 / quotient.2 + 1 + quotient.1 / quotient.2) * quotient.2
      = 2 * (quotient.1 / quotient.2 * quotient.2) + quotient.2 := by ring
  rcases roundDiv_cases .toEven quotient.1 quotient.2 with ⟨same, half⟩ | ⟨same, half⟩
  · refine .inl ⟨by rw [same], mul_le_mul_of_nonneg_right ?_ unit⟩
    rw [mul_div_assoc', div_le_iff₀ parts]
    exact_mod_cast (by omega :
      2 * quotient.1 ≤ (quotient.1 / quotient.2 + 1 + quotient.1 / quotient.2) * quotient.2)
  · refine .inr ⟨by rw [same], mul_le_mul_of_nonneg_right ?_ unit⟩
    rw [mul_div_assoc', le_div_iff₀ parts]
    exact_mod_cast (by omega :
      (quotient.1 / quotient.2 + 1 + quotient.1 / quotient.2) * quotient.2 ≤ 2 * quotient.1)

/-- Neither of the neighbours is nearer. -/
theorem digitsNearest_le (x : Double) (count : Nat)
    (isNeighbour : d = x.digitsBelow count ∨ d = x.digitsAbove count) :
    |(x.digitsNearest count).toRat - x.abs.toRat| ≤ |d.toRat - x.abs.toRat| := by
  obtain ⟨low, high⟩ := x.digits_around count
  -- Which neighbour is nearer is decided by the middle between them.
  have middle := NearestAway.middle (z := x.abs.toRat) (low.trans_lt high)
  rcases x.digitsNearest_cases count with ⟨same, half⟩ | ⟨same, half⟩
  · rw [same]
    rcases isNeighbour with rfl | rfl
    exacts [le_rfl, middle.2.2 half]
  · rw [same]
    rcases isNeighbour with rfl | rfl
    exacts [middle.1.2 half, le_rfl]

/-- Of the neighbours that read back the nearest one is taken. -/
theorem neighbour?_eq (x : Double) (count : Nat) :
    x.neighbour? x.leadingExponent count
      = if (x.digitsBelow count).toDouble false = x.abs then
          if (x.digitsAbove count).toDouble false = x.abs then some (x.digitsNearest count)
          else some (x.digitsBelow count)
        else if (x.digitsAbove count).toDouble false = x.abs then some (x.digitsAbove count)
        else none := by
  unfold neighbour? digitsNearest digitsBelow digitsAbove inUnits lastPlace
  dsimp only
  generalize shiftQuotient x.magnitude one (x.leadingExponent - count + 1) = quotient
  -- Which of the neighbours read back makes four cases.
  by_cases below :
    Decimal.toDouble false ⟨quotient.1 / quotient.2, x.leadingExponent - count + 1⟩ = x.abs <;>
    by_cases above : Decimal.toDouble false
      ⟨quotient.1 / quotient.2 + 1, x.leadingExponent - count + 1⟩ = x.abs <;>
    simp only [below, above, decide_true, decide_false, if_true, if_false]

/-- None is taken only if neither reads back. -/
theorem toDouble_ne_of_neighbour? (none : x.neighbour? x.leadingExponent count = none) :
    (x.digitsBelow count).toDouble false ≠ x.abs
      ∧ (x.digitsAbove count).toDouble false ≠ x.abs := by
  rw [neighbour?_eq] at none
  by_cases below : (x.digitsBelow count).toDouble false = x.abs
  · rw [if_pos below] at none
    split at none <;> cases none
  · rw [if_neg below] at none
    split at none
    · cases none
    · rename_i above
      exact ⟨below, above⟩

/-- The neighbour that is taken is as near as each one that reads back. -/
theorem nearest_of_neighbour? (found : x.neighbour? x.leadingExponent count = some d) :
    (d = x.digitsBelow count ∨ d = x.digitsAbove count)
      ∧ ∀ e, (e = x.digitsBelow count ∨ e = x.digitsAbove count) → e.toDouble false = x.abs →
        |d.toRat - x.abs.toRat| ≤ |e.toRat - x.abs.toRat| := by
  rw [neighbour?_eq] at found
  by_cases below : (x.digitsBelow count).toDouble false = x.abs <;>
    by_cases above : (x.digitsAbove count).toDouble false = x.abs
  · rw [if_pos below, if_pos above] at found
    obtain rfl := Option.some.inj found
    exact ⟨(x.digitsNearest_cases count).imp And.left And.left,
      fun e isNeighbour _ => x.digitsNearest_le count isNeighbour⟩
  -- If only one of them reads back, it is the only one to compare with.
  · rw [if_pos below, if_neg above] at found
    obtain rfl := Option.some.inj found
    refine ⟨.inl rfl, ?_⟩
    rintro _ (rfl | rfl) reads
    exacts [le_rfl, absurd reads above]
  · rw [if_neg below, if_pos above] at found
    obtain rfl := Option.some.inj found
    refine ⟨.inr rfl, ?_⟩
    rintro _ (rfl | rfl) reads
    exacts [absurd reads below, le_rfl]
  · rw [if_neg below, if_neg above] at found
    cases found

end Double

/-- The first value that is found in a range is that of the least number that has one. -/
theorem findSome?_range {α : Type} {f : Nat → Option α} {n : Nat} {a : α}
    (found : (List.range n).findSome? f = some a) :
    ∃ i, i < n ∧ f i = some a ∧ ∀ j, j < i → f j = none := by
  obtain ⟨front, i, back, split, value, none⟩ := List.findSome?_eq_some_iff.1 found
  have ordered : (List.range n).Pairwise (· < ·) := List.pairwise_lt_range
  have inside : i < n := List.mem_range.1 (split ▸ List.mem_append_right front List.mem_cons_self)
  refine ⟨i, inside, value, fun j less => none j ?_⟩
  have earlier : j ∈ List.range n := List.mem_range.2 (less.trans inside)
  rw [split] at earlier ordered
  -- What comes behind it in the range is larger.
  have behind : j ∉ i :: back := by
    have later : ∀ k ∈ back, i < k := (List.pairwise_cons.1 (List.pairwise_append.1 ordered).2.1).1
    rw [List.mem_cons]
    rintro (rfl | isLater)
    · omega
    · exact absurd (later j isLater) (by omega)
  exact (List.mem_append.1 earlier).resolve_right behind

/-- A decimal that reads back as a double without a sign has the fewest digits of all that do, and
of those with as many it is nearest to the double. -/
structure Decimal.IsShortest (d : Decimal) (x : Double) : Prop where
  readsBack : d.toDouble false = x
  fewest : ∀ e : Decimal, e.toDouble false = x → digitCount d.coefficient ≤ digitCount e.coefficient
  nearest : ∀ e : Decimal, e.toDouble false = x →
    digitCount e.coefficient = digitCount d.coefficient →
    |d.toRat - x.toRat| ≤ |e.toRat - x.toRat|

namespace Double

variable {x : Double} {d : Decimal} {count : Nat}

/-- Where no neighbour with fewer digits reads back, one that does is shortest. -/
theorem isShortest_of_neighbour? (isFinite : x.isFinite = true)
    (nonzero : x.magnitude ≠ 0) (some : 0 < count)
    (found : x.neighbour? x.leadingExponent count = .some d)
    (none : ∀ fewer, 0 < fewer → fewer < count → x.neighbour? x.leadingExponent fewer = .none) :
    d.normalize.IsShortest x.abs := by
  obtain ⟨neighbour, nearest⟩ := nearest_of_neighbour? found
  have reads := toDouble_neighbour? found
  have digits : digitCount d.normalize.coefficient ≤ count := by
    obtain ⟨_, most⟩ := coefficient_digitsBelow nonzero some
    refine Decimal.digitCount_normalize_le_of_le some ?_
    rcases neighbour with rfl | rfl
    exacts [most.le, most]
  refine
    ⟨by rw [Decimal.toDouble_normalize, reads], fun e same => ?fewest, fun e same many => ?nearest⟩
  case fewest =>
    -- A decimal with fewer digits would have a neighbour that reads back with as many.
    refine digits.trans (Nat.not_lt.1 fun less => ?_)
    obtain ⟨_, rfl | rfl, back, _⟩ := exists_digits_of_toDouble isFinite nonzero le_rfl same
    · exact (toDouble_ne_of_neighbour? (none _ Nat.length_toDigits_pos less)).1 back
    · exact (toDouble_ne_of_neighbour? (none _ Nat.length_toDigits_pos less)).2 back
  case nearest =>
    obtain ⟨other, isNeighbour, back, near⟩ :=
      exists_digits_of_toDouble isFinite nonzero (many.trans_le digits) same
    rw [Decimal.toRat_normalize]
    exact (nearest other isNeighbour back).trans near

/-- The shortest decimal of a finite double has the fewest digits of all that read back as its
magnitude, and of those with as many it is nearest to it. -/
theorem isShortest_shortest (isFinite : x.isFinite = true) : x.shortest.IsShortest x.abs := by
  by_cases zero : x.magnitude = 0
  · have value : x.shortest = ⟨0, 0⟩ := by rw [shortest, if_pos zero]
    have same := toDouble_shortest isFinite
    rw [value] at same ⊢
    refine ⟨same, fun e _ => Nat.length_toDigits_pos, fun e _ _ => ?_⟩
    rw [toRat_abs, zero, Decimal.toRat_eq, Nat.cast_zero, zero_div, zero_mul, sub_zero, abs_zero]
    exact abs_nonneg _
  · unfold shortest
    rw [if_neg zero]
    dsimp only
    -- The lengths are tried in order, so that the first neighbour found has the fewest digits.
    cases found : (List.range 17).findSome? fun i => x.neighbour? x.leadingExponent (i + 1) with
    | none =>
      -- Seventeen digits are always enough.
      have last := toDouble_ne_of_neighbour? (List.findSome?_eq_none_iff.1 found 16 (by decide))
      exact ((exists_digits_seventeen isFinite zero).elim last.1 last.2).elim
    | some d =>
      obtain ⟨i, _, neighbour, none⟩ := findSome?_range found
      refine isShortest_of_neighbour? isFinite zero (Nat.succ_pos i) neighbour
        fun fewer some less => ?_
      rw [← none (fewer - 1) (by omega), Nat.sub_add_cancel some]

end Double

end PlusMinus
