import Mathlib.Data.List.TakeWhile
import PlusMinus.Proofs.Decimal.Fixed

/-! Numbers with a fixed number of significant digits: the text has exactly so many of them and
denotes the number of so many digits that is nearest to the number, with an exponent exactly far
from one. -/

namespace PlusMinus

open Double Numeral Text

section Digits

variable {digits rest : List Char} {c : Char}

/-- The first digit counts as often as the power of ten of the digits behind it. -/
theorem ofDigitChars_cons_eq (c : Char) (rest : List Char) :
    Nat.ofDigitChars 10 (c :: rest) 0
      = tenTo rest.length * (c.toNat - '0'.toNat) + Nat.ofDigitChars 10 rest 0 := by
  rw [Nat.ofDigitChars_cons, Nat.ofDigitChars_eq_ofDigitChars_zero, Nat.mul_zero, Nat.zero_add]
  rfl

/-- Digits denote a number below the power of ten of their count. -/
theorem ofDigitChars_lt (all : ∀ c ∈ digits, c.isDigit = true) :
    Nat.ofDigitChars 10 digits 0 < tenTo digits.length := by
  induction digits with
  | nil => exact Nat.one_pos
  | cons c rest ih =>
    have below := ih fun c member => all c (List.mem_cons_of_mem _ member)
    have digit : c.toNat - '0'.toNat ≤ 9 :=
      Nat.sub_le_sub_right (toNat_of_isDigit (all c List.mem_cons_self)).2 _
    -- The first digit is at most nine, and the others do not make up for one more.
    have first := Nat.mul_le_mul_left (tenTo rest.length) digit
    rw [ofDigitChars_cons_eq, List.length_cons, Nat.add_comm, tenTo_add, show tenTo 1 = 10 from rfl]
    omega

/-- Digits that do not start with a zero denote at least the power of ten of the first one. -/
theorem le_ofDigitChars (digit : c.isDigit = true) (nonzero : c ≠ '0') (rest : List Char) :
    tenTo rest.length ≤ Nat.ofDigitChars 10 (c :: rest) 0 := by
  -- The first digit is at least one.
  have least : 1 ≤ c.toNat - '0'.toNat := by
    have range := (toNat_of_isDigit digit).1
    have other : c.toNat ≠ '0'.toNat := fun same => nonzero (Char.toNat_inj.1 same)
    rw [show '0'.toNat = 0x30 from rfl] at other ⊢
    omega
  rw [ofDigitChars_cons_eq]
  exact Nat.le_add_right_of_le (Nat.le_mul_of_pos_right _ least)

/-- Zeros in front of a number do not change it. -/
theorem ofDigitChars_dropWhile (digits : List Char) :
    Nat.ofDigitChars 10 (digits.dropWhile (· = '0')) 0 = Nat.ofDigitChars 10 digits 0 := by
  induction digits with
  | nil => rfl
  | cons c rest ih =>
    -- A leading zero adds nothing times its power of ten.
    by_cases zero : c = '0'
    · subst zero
      rw [List.dropWhile_cons_of_pos (by decide), ih, ofDigitChars_cons_eq, Nat.sub_self,
        Nat.mul_zero, Nat.zero_add]
    · rw [List.dropWhile_cons_of_neg (by simpa using zero)]

/-- Without the zeros in front a number between two powers of ten has as many digits as the larger
one has zeros. -/
theorem length_dropWhile (all : ∀ c ∈ digits, c.isDigit = true) {count : Nat}
    (low : tenTo (count - 1) ≤ Nat.ofDigitChars 10 digits 0)
    (high : Nat.ofDigitChars 10 digits 0 < tenTo count) :
    (digits.dropWhile (· = '0')).length = count := by
  have ten : 1 < 10 := by decide
  have digit : ∀ c ∈ digits.dropWhile (· = '0'), c.isDigit = true :=
    fun c member => all c ((List.dropWhile_sublist _).mem member)
  have first := List.head?_dropWhile_not (· = '0') digits
  rw [← ofDigitChars_dropWhile] at low high
  generalize digits.dropWhile (· = '0') = significant at *
  cases significant with
  | nil => exact absurd (Nat.lt_of_lt_of_le (tenTo_pos _) low) (Nat.lt_irrefl 0)
  | cons c rest =>
    -- The first digit that is left is not a zero.
    have nonzero : c ≠ '0' := by simpa using first
    have least := le_ofDigitChars (digit c List.mem_cons_self) nonzero rest
    have above := (Nat.pow_lt_pow_iff_right ten).1 (Nat.lt_of_le_of_lt low (ofDigitChars_lt digit))
    have below := (Nat.pow_lt_pow_iff_right ten).1 (Nat.lt_of_le_of_lt least high)
    rw [List.length_cons] at above ⊢
    omega

/-- Digits that are not all zeros denote a number with as many digits as there are from the first
other one on. -/
theorem digitCount_ofDigitChars (all : ∀ c ∈ digits, c.isDigit = true)
    (some : ∃ c ∈ digits, c ≠ '0') :
    0 < Nat.ofDigitChars 10 digits 0
      ∧ digitCount (Nat.ofDigitChars 10 digits 0) = (digits.dropWhile (· = '0')).length := by
  -- Leading zeros count for nothing, and the first other digit makes the number positive.
  have positive : 0 < Nat.ofDigitChars 10 digits 0 := by
    have first := List.head?_dropWhile_not (· = '0') digits
    have nonempty : digits.dropWhile (· = '0') ≠ [] := by simpa using some
    have digit : ∀ c ∈ digits.dropWhile (· = '0'), c.isDigit = true :=
      fun c member => all c ((List.dropWhile_sublist _).mem member)
    rw [← ofDigitChars_dropWhile]
    obtain ⟨c, rest, same⟩ := List.exists_cons_of_ne_nil nonempty
    rw [same] at first digit ⊢
    exact Nat.lt_of_lt_of_le (tenTo_pos _)
      (le_ofDigitChars (digit c List.mem_cons_self) (by simpa using first) rest)
  obtain ⟨low, high⟩ := digitCount_bounds positive
  exact ⟨positive, (length_dropWhile all low high).symm⟩

end Digits

/-- The digits of a number without the zeros in front. -/
def Numeral.Plain.significant (p : Plain) : List Char := (p.whole ++ p.fraction).dropWhile (· = '0')

/-- A number that is written with so many significant digits, with any sign and at any place. -/
def HasDigits (count : Nat) (s : Rat) : Prop :=
  ∃ d : Decimal, tenTo (count - 1) ≤ d.coefficient ∧ d.coefficient < tenTo count ∧ |s| = d.toRat

namespace HasDigits

variable {count : Nat} {s : Rat}

theorem neg_iff : HasDigits count (-s) ↔ HasDigits count s := by
  unfold HasDigits
  rw [abs_neg]

/-- A number of so many digits has no digit behind a place, if it is not below the number of so many
digits that ends there. -/
theorem isUnits_or_lt (has : HasDigits count s) (k : Int) :
    IsUnits (k - count + 1) s ∨ |s| < 10 ^ k := by
  have ten : (10 : Rat) ≠ 0 := by norm_num
  obtain ⟨d, _, few, value⟩ := has
  rw [Decimal.toRat_eq] at value
  rcases Int.lt_or_le d.exponent (k - count + 1) with finer | coarser
  · -- With a finer unit all of the digits are behind the power of ten.
    right
    calc |s| = d.coefficient * 10 ^ d.exponent := value
      _ < tenTo count * 10 ^ d.exponent :=
        mul_lt_mul_of_pos_right (by exact_mod_cast few) (zpow_pos (by norm_num) _)
      _ = 10 ^ (count + d.exponent) := by rw [cast_tenTo, ← zpow_add₀ ten]
      _ ≤ 10 ^ k := zpow_le_zpow_right₀ (by norm_num) (by omega)
  · left
    obtain ⟨j, same⟩ := Int.le.dest coarser
    have units : IsUnits (k - count + 1) |s| := by
      refine ⟨d.coefficient * tenTo j, ?_⟩
      rw [value, ← same, zpow_add₀ ten, ← cast_tenTo j]
      push_cast
      ring
    rcases abs_choice s with same | opposite
    · rwa [same] at units
    · rw [opposite] at units
      exact IsUnits.neg_iff.1 units

end HasDigits

/-- The nearest number of units is nearest among the numbers of any kind that only has finer ones
below some number of units that is not larger than the number. -/
theorem NearestAway.of_units {kind : Rat → Prop} {e : Int} {z r b : Rat}
    (near : NearestAway (IsUnits e) z r)
    (isKind : kind r) (units : IsUnits e b) (le : b ≤ z)
    (coarse : ∀ s, kind s → IsUnits e s ∨ |s| < b) :
    NearestAway kind z r := by
  -- What is below the number of units is further away from the number than that.
  have farther : ∀ s, |s| < b → |r - z| < |s - z| := by
    intro s less
    have inner := near.nearest b units
    rw [abs_of_nonpos (sub_nonpos.2 le)] at inner
    have outer := neg_le_abs (s - z)
    have size := le_abs_self s
    linarith
  refine ⟨isKind, fun s isKind' => ?_, fun s isKind' tie => ?_⟩
  · rcases coarse s isKind' with same | less
    · exact near.nearest s same
    · exact (farther s less).le
  · rcases coarse s isKind' with same | less
    · exact near.away s same tie
    · exact absurd tie (farther s less).ne'

namespace Double

variable {x : Double} {precision : Int}

/-- A zero has as many zeros as there are significant digits. -/
theorem precise_of_zero (isFinite : x.isFinite = true) (none : x.magnitude = 0) :
    x.precise precision = String.ofList (pointed 0 (clampDigits precision - 1)) := by
  unfold precise
  rw [isFinite, Bool.not_true, if_neg Bool.false_ne_true]
  dsimp only
  rw [if_pos none]

/-- An exponent is written in significant digits exactly for a number far from one. -/
theorem mem_precise_iff (isFinite : x.isFinite = true) :
    'e' ∈ (x.precise precision).toList ↔ x.magnitude ≠ 0
      ∧ ((x.toDigits (clampDigits precision)).exponent + clampDigits precision - 1 < -6
        ∨ clampDigits precision ≤ (x.toDigits (clampDigits precision)).exponent
          + clampDigits precision - 1) := by
  by_cases none : x.magnitude = 0
  · rw [precise_of_zero isFinite none, String.toList_ofList]
    exact iff_of_false (unmarked_pointed _ _) fun both => both.1 none
  · unfold precise
    rw [isFinite, Bool.not_true, if_neg Bool.false_ne_true]
    dsimp only
    rw [if_neg none, String.toList_ofList]
    -- Near one the digits have a point among them, and no exponent behind them.
    split
    · rename_i far
      exact iff_of_true (by simp [exponentText]) ⟨none, far⟩
    · rename_i near
      exact iff_of_false (unmarked_signed _ _ _) fun both => near both.2

/-- A number that is rounded to digits has so many of them, also when a carry adds one. -/
theorem toDigits_bounds (nonzero : x.magnitude ≠ 0) {count : Nat} (some : 0 < count) :
    tenTo (count - 1) ≤ (x.toDigits count).coefficient
      ∧ (x.toDigits count).coefficient < tenTo count := by
  obtain ⟨c, rounded, least, most⟩ := exists_toDigits nonzero some
  rw [toDigits_eq rfl rounded]
  split
  · exact ⟨Nat.le_refl _, tenTo_lt (by omega)⟩
  · rename_i other
    exact ⟨least, Nat.lt_of_le_of_ne most other⟩

/-- A number that is rounded to digits is below the power of ten in front of them. -/
theorem toRat_toDigits_lt (nonzero : x.magnitude ≠ 0) {count : Nat} (some : 0 < count) :
    (x.toDigits count).toRat < 10 ^ ((x.toDigits count).exponent + count) := by
  have few := (toDigits_bounds nonzero some).2
  rw [Decimal.toRat_eq, zpow_add₀ (by norm_num), Rat.mul_comm, ← cast_tenTo]
  exact mul_lt_mul_of_pos_left (by exact_mod_cast few) (zpow_pos (by norm_num) _)

/-- A number that is rounded to digits is not below the power of ten of the first one. -/
theorem le_toRat_toDigits (nonzero : x.magnitude ≠ 0) {count : Nat} (some : 0 < count) :
    10 ^ ((x.toDigits count).exponent + count - 1) ≤ (x.toDigits count).toRat := by
  have digits := (toDigits_bounds nonzero some).1
  rw [Decimal.toRat_eq, show (x.toDigits count).exponent + count - 1
    = ((count - 1 : Nat) : Int)
      + (x.toDigits count).exponent by omega, zpow_add₀ (by norm_num), ← cast_tenTo]
  exact mul_le_mul_of_nonneg_right (by exact_mod_cast digits) (zpow_pos (by norm_num) _).le

/-- A magnitude that is rounded to digits is the nearest number of so many digits. -/
theorem nearestAway_toDigits (nonzero : x.magnitude ≠ 0) {count : Nat} (some : 0 < count) :
    NearestAway (HasDigits count) x.abs.toRat (x.toDigits count).toRat := by
  obtain ⟨least, most⟩ := toDigits_bounds nonzero some
  obtain ⟨c, rounded, _⟩ := exists_toDigits nonzero some
  have value : (x.toDigits count).toRat
      = Decimal.units x.abs.toRat (x.leadingExponent - count + 1)
        * 10 ^ (x.leadingExponent - count + 1) := by
    rw [toDigits_eq rfl rounded, Decimal.toRat_carry _ _ some, rounded, Int.cast_natCast]
  have nonnegative : 0 ≤ (x.toDigits count).toRat :=
    (zpow_pos (by norm_num) _).le.trans (le_toRat_toDigits nonzero some)
  have near := Decimal.nearestAway_units (e := x.leadingExponent - count + 1)
    ((zpow_pos (by norm_num) _).le.trans (abs_bounds nonzero).1)
  rw [← value] at near
  -- The power of ten of the leading digit is a number of units, and only numbers below it have
  -- finer ones.
  exact near.of_units ⟨x.toDigits count, least, most, abs_of_nonneg nonnegative⟩
    ⟨tenTo (count - 1), by rw [Int.cast_natCast]; exact (zpow_eq_units _ some).1⟩
      (abs_bounds nonzero).1
    fun s has => has.isUnits_or_lt _

/-- A number other than zero with fixed significant digits has exactly so many of them and denotes
the number of so many digits that is nearest to it, of two the one away from zero; an exponent is
written exactly if the leading digit of that number stands below a millionth or in front of all of
the digits. -/
theorem precise_nearest (isFinite : x.isFinite = true)
    (nonzero : x.magnitude ≠ 0) (precision : Int) :
    ∃ (count : Nat) (p : Plain) (r : Rat) (e : Int), (count : Int) = min (max precision 1) 100
      ∧ (x.precise precision).toList = x.signText ++ p.text ∧ p.significant.length = count
      ∧ denoted? (x.precise precision).toList = some r ∧ NearestAway (HasDigits count) x.toRat r
      ∧ 10 ^ e ≤ |r| ∧ |r| < 10 ^ (e + 1) ∧ (p.exponent ≠ [] ↔ e < -6 ∨ count ≤ e) := by
  have count : (clampDigits precision : Int) = min (max precision 1) 100 := by
    unfold clampDigits
    omega
  have some := clampDigits_pos precision
  have marked := @mem_precise_iff x precision isFinite
  obtain ⟨p, written, value⟩ := exists_plain_precise isFinite nonzero precision
  generalize clampDigits precision = digits at *
  obtain ⟨least, most⟩ := toDigits_bounds nonzero some
  have low := le_toRat_toDigits nonzero some
  have high := toRat_toDigits_lt nonzero some
  have near := nearestAway_toDigits nonzero some
  rw [← value] at least most low high near
  rw [toRat_abs, ← abs_toRat isFinite] at near
  obtain ⟨r, read, size, nearest⟩ := exists_denoted? isFinite p near fun _ => HasDigits.neg_iff
  refine ⟨digits, p, r, p.decimal.exponent + digits - 1, count, written, ?digits,
    written ▸ read, nearest,
    size ▸ low, ?_, ?exponent⟩
  case digits => exact length_dropWhile (fun c member =>
    (List.mem_append.1 member).elim (p.wholeDigits c) (p.fractionDigits c)) least most
  case exponent =>
    -- Only behind the digits there is a mark, and not in the sign.
    have sign : 'e' ∉ x.signText := by
      unfold Double.signText
      split <;> simp
    rw [written, List.mem_append, or_iff_right sign, Plain.mem_text_iff, ← value] at marked
    rw [marked, and_iff_right nonzero]
  rw [size, Int.sub_add_cancel]
  exact high

/-- With two digits -9.96 is carried to -10, which is written without an exponent. -/
theorem precise_nearest_of_carry :
    NearestAway (HasDigits 2) (ofText "-9.96").toRat (-10)
      ∧ ∃ p : Plain, ((ofText "-9.96").precise 2).toList = (ofText "-9.96").signText ++ p.text
        ∧ p.significant.length = 2 ∧ p.exponent = [] := by
  obtain ⟨count, p, r, e, same, written, digits, read, near, low, high, scale⟩ :=
    precise_nearest (x := ofText "-9.96") (by decide +kernel) (by decide +kernel) 2
  obtain rfl : count = 2 := Int.natCast_inj.1 same
  obtain rfl : -10 = r := Option.some_inj.1 (Eq.trans (by decide +kernel) read)
  have ten : (1 : Rat) < 10 := by norm_num
  have size : |(-10 : Rat)| = 10 ^ (1 : Int) := by norm_num
  -- The leading digit of ten stands before the last of the two digits.
  rw [size] at low high
  have least := (zpow_le_zpow_iff_right₀ ten).1 low
  have most := (zpow_lt_zpow_iff_right₀ ten).1 high
  refine ⟨near, p, written, digits, ?_⟩
  by_contra exponent
  have far := scale.1 exponent
  omega

end Double

end PlusMinus
