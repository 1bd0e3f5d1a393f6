import PlusMinus.Proofs.Decimal.Reread

/-! The exact number of a text, and the numbers of a kind that are nearest to a number: on a decimal
grid they are found by counting units, and they are in the order of the numbers that they are
nearest to. -/

namespace PlusMinus

/-- The number that a text in decimal notation denotes exactly, with its sign. -/
def Numeral.denoted? (text : List Char) : Option Rat :=
  let (negative, body) := splitSign text
  (decimal? body).map fun d => if negative then -d.toRat else d.toRat

open Numeral in
/-- A plain number behind a sign denotes its decimal with that sign. -/
theorem Numeral.Plain.denoted?_text (p : Plain) (negative : Bool) :
    denoted? (signText negative ++ p.text)
      = some (if negative then -p.decimal.toRat else p.decimal.toRat) := by
  unfold denoted?
  cases negative with
  | true => exact congrArg (Option.map _) p.decimal?_text
  | false =>
    -- Without a sign the text starts with a digit.
    obtain ⟨c, rest, text, digit⟩ := p.exists_head
    have unsigned : splitSign p.text = (false, p.text) :=
      text ▸ splitSign_cons rest (by rintro rfl; cases digit) (by rintro rfl; cases digit)
    rw [signText, if_neg Bool.false_ne_true, List.nil_append, unsigned]
    exact congrArg (Option.map _) p.decimal?_text

/-- Among the numbers of a kind one that is nearest to a number, and of two that are equally near
the larger one in magnitude. -/
structure NearestAway (kind : Rat → Prop) (z r : Rat) : Prop where
  isKind : kind r
  nearest : ∀ s, kind s → |r - z| ≤ |s - z|
  away : ∀ s, kind s → |s - z| = |r - z| → |s| ≤ |r|

namespace NearestAway

variable {kind : Rat → Prop} {z w r s : Rat}

/-- What is nearest to a number has the opposite of what is nearest to the opposite number. -/
theorem neg (near : NearestAway kind z r) (symmetric : ∀ s, kind (-s) ↔ kind s) :
    NearestAway kind (-z) (-r) := by
  have distance : ∀ s, |s - -z| = |-s - z| := fun s => by rw [← abs_neg, neg_sub', neg_neg]
  -- Turning both numbers round keeps their distance.
  refine ⟨(symmetric r).2 near.isKind, fun s isKind => ?_, fun s isKind tie => ?_⟩
  · rw [distance, distance, neg_neg]
    exact near.nearest (-s) ((symmetric s).2 isKind)
  · rw [distance, distance, neg_neg] at tie
    rw [← abs_neg s, abs_neg r]
    exact near.away (-s) ((symmetric s).2 isKind) tie

/-- Of two numbers the larger one is as near exactly from the middle on, and the smaller one up to
there. -/
theorem middle (less : s < r) :
    (|r - z| ≤ |s - z| ↔ r + s ≤ 2 * z) ∧ (|s - z| ≤ |r - z| ↔ 2 * z ≤ r + s) := by
  have positive : 0 < r - s := sub_pos.2 less
  -- The squares of the distances differ by a multiple of the distance from the middle.
  have squares : (s - z) ^ 2 - (r - z) ^ 2 = (r - s) * (2 * z - (r + s)) := by ring
  constructor
  · rw [← sq_le_sq, ← sub_nonneg, squares, mul_nonneg_iff_of_pos_left positive, sub_nonneg]
  · rw [← sq_le_sq, ← sub_nonpos, squares, mul_nonpos_iff_pos_imp_nonpos, sub_nonpos]
    exact ⟨fun le => le.1 positive, fun le => ⟨fun _ => le, fun _ => positive.le⟩⟩

/-- What is nearest to a larger number is not smaller, if zero is of the kind. -/
theorem mono (first : NearestAway kind z r) (second : NearestAway kind w s)
    (le : z ≤ w) (zero : kind 0) :
    r ≤ s := by
  by_contra above
  have less : s < r := not_le.1 above
  -- Otherwise both numbers are in the middle of the two candidates, and so the candidates are
  -- equally large.
  have left := (middle less).1.1 (first.nearest s second.isKind)
  have right := (middle less).2.1 (second.nearest r first.isKind)
  have tie : 2 * z = r + s := by linarith
  have tie' : 2 * w = r + s := by linarith
  have large :=
    first.away s second.isKind (le_antisymm ((middle less).2.2 tie.le) ((middle less).1.2 tie.ge))
  have large' :=
    second.away r first.isKind (le_antisymm ((middle less).1.2 tie'.ge) ((middle less).2.2 tie'.le))
  rcases abs_eq_abs.1 (le_antisymm large large') with same | opposite
  · exact less.ne same
  · -- Opposite candidates have zero between them, which is nearer.
    have nearer := first.nearest 0 zero
    rw [show z = 0 by linarith, sub_zero, sub_zero, abs_zero, abs_nonpos_iff] at nearer
    linarith

end NearestAway

/-- A whole number of units of a power of ten. -/
def IsUnits (e : Int) (s : Rat) : Prop := ∃ n : Int, s = n * 10 ^ e

theorem IsUnits.zero (e : Int) : IsUnits e 0 := ⟨0, by rw [Int.cast_zero, zero_mul]⟩

theorem IsUnits.neg_iff {e : Int} {s : Rat} : IsUnits e (-s) ↔ IsUnits e s := by
  constructor <;> rintro ⟨n, same⟩ <;> refine ⟨-n, ?_⟩ <;> push_cast <;> linarith

namespace Decimal

variable {z : Rat} {e : Int}

/-- Numbers of units that are not the same are at least one unit apart. -/
theorem units_apart {m n : Int} (fewer : m < n) : m * (10 : Rat) ^ e + 10 ^ e ≤ n * 10 ^ e := by
  have step : ((m + 1 : Int) : Rat) * 10 ^ e ≤ n * 10 ^ e :=
    mul_le_mul_of_nonneg_right (Int.cast_le.2 fewer) (zpow_pos (by norm_num) e).le
  push_cast at step
  linarith

/-- Of the whole numbers of units, the one that a number without a sign is rounded to is nearest to
it. -/
theorem nearestAway_units (nonnegative : 0 ≤ z) (e : Int) :
    NearestAway (IsUnits e) z (units z e * 10 ^ e) := by
  have unit : (0 : Rat) < 10 ^ e := zpow_pos (by norm_num) _
  obtain ⟨low, high⟩ := units_eq_iff.1 (rfl : units z e = _)
  generalize units z e = n at *
  -- Every other number of units is on the far side of the middle between the two.
  have apart : ∀ {m : Int}, m < n ∧ n * (10 : Rat) ^ e + m * 10 ^ e ≤ 2 * z
      ∨ m = n ∨ n < m ∧ 2 * z < n * (10 : Rat) ^ e + m * 10 ^ e := by
    intro m
    rcases lt_trichotomy m n with fewer | same | more
    · exact .inl ⟨fewer, by linarith [units_apart (e := e) fewer]⟩
    · exact .inr (.inl same)
    · exact .inr (.inr ⟨more, by linarith [units_apart (e := e) more]⟩)
  have less : ∀ {a b : Int}, a < b → a * (10 : Rat) ^ e < b * 10 ^ e :=
    fun fewer => mul_lt_mul_of_pos_right (Int.cast_lt.2 fewer) unit
  refine ⟨⟨n, rfl⟩, ?nearest, ?away⟩
  case nearest =>
    rintro _ ⟨m, rfl⟩
    rcases apart (m := m) with ⟨fewer, near⟩ | rfl | ⟨more, near⟩
    · exact (NearestAway.middle (less fewer)).1.2 near
    · exact le_rfl
    · exact (NearestAway.middle (less more)).2.2 (by linarith)
  case away =>
    rintro _ ⟨m, rfl⟩ tie
    rcases apart (m := m) with ⟨fewer, _⟩ | rfl | ⟨more, near⟩
    · -- The middle is not below zero, so that the smaller candidate is not larger in magnitude.
      have middle := (NearestAway.middle (less fewer)).2.1 tie.le
      exact abs_le_abs (less fewer).le (by linarith)
    · exact le_rfl
    · exact absurd ((NearestAway.middle (less more)).1.1 tie.le) (by linarith)

end Decimal

namespace Double

open Numeral

variable {x : Double}

/-- A finite number has the sign that its rounded text starts with. -/
theorem toRat_signed (isFinite : x.isFinite = true) :
    x.toRat = if (x.isNegative && x.magnitude ≠ 0) = true then -|x.toRat| else |x.toRat| := by
  rw [abs_toRat isFinite]
  obtain ⟨negative, quanta, fits, rfl⟩ := exists_of_isFinite isFinite
  rw [toRat_eq, signedQuanta_finite]
  generalize one = unit
  by_cases zero : quanta = 0 <;> cases negative <;> simp [isNegative, magnitude, zero, neg_div]

/-- What is written behind the sign of a number denotes what is nearest to it, if that is nearest to
its magnitude. -/
theorem exists_denoted? {kind : Rat → Prop} (isFinite : x.isFinite = true) (p : Plain)
    (near : NearestAway kind |x.toRat| p.decimal.toRat) (symmetric : ∀ s, kind (-s) ↔ kind s) :
    ∃ r, denoted? (x.signText ++ p.text) = some r ∧ |r| = p.decimal.toRat
      ∧ NearestAway kind x.toRat r := by
  have size : |p.decimal.toRat| = p.decimal.toRat := abs_of_nonneg p.decimal.toRat_nonneg
  refine ⟨_, p.denoted?_text (x.isNegative && x.magnitude ≠ 0), ?_⟩
  have sign := toRat_signed isFinite
  -- A sign is written just for what is below zero, and the grid is as fine on both sides of it.
  split at sign
  · rename_i negative
    rw [if_pos negative, sign, abs_neg]
    exact ⟨size, near.neg symmetric⟩
  · rename_i nonnegative
    rw [if_neg nonnegative, sign]
    exact ⟨size, near⟩

end Double

end PlusMinus
