import PlusMinus.Measure.Entered
import PlusMinus.Proofs.Decimal.Fewest
import PlusMinus.Proofs.Double.LogarithmOrder

/-! The decimal place that an uncertainty decides: it is that of the leading digit of its shortest
decimal, and so a larger uncertainty does not decide a finer place. -/

namespace PlusMinus

namespace Decimal

/-- A decimal with one digit before the point denotes a number from one to ten. -/
theorem toDouble_between {d : Decimal} (nonzero : d.coefficient ≠ 0) (unit : d.leading = 1) :
    ∃ quanta fits, d.toDouble false = .finite false quanta fits
      ∧ Double.one ≤ quanta ∧ quanta ≤ 10 * Double.one := by
  obtain ⟨quanta, fits, same, least⟩ := exists_toDouble_of_leading nonzero unit
  -- Ten is the next power of ten, and it is denoted without rounding.
  refine ⟨quanta, fits, same, least, ?_⟩
  have ten : (power 1).reach = 10 * Double.one := reach_power (n := 1) rfl (by decide)
  have reached := Double.reach_eq_magnitude (x := .finite false quanta fits) rfl same
  rw [← ten, ← show d.reach = quanta from reached]
  refine reach_mono ?_
  rw [toRat_power, ← unit]
  exact (toRat_bounds nonzero).2.le

end Decimal

namespace Double

/-- A whole number to which at most one quarter is added is rounded back to it. -/
theorem roundHalfUp_ofInt_add {n : Int} {x : Double} (few : n.natAbs ≤ twoTo 50)
    (within : x.Within 14)
    (small : |x.toRat| ≤ 1 / 4) : (ofInt n + x).roundHalfUp = ofInt n := by
  have bits : twoTo 53 = 8 * twoTo 50 := rfl
  have positive := twoTo_pos 50
  have whole : (ofInt n).Within 50 := within_ofInt (by decide) few
  have sum := (whole.add (within.mono (by decide)) (by decide)).isFinite
  obtain ⟨lower, upper⟩ := abs_le.1 small
  -- The numbers one quarter away from the whole number are doubles, and nothing is rounded across
  -- them.
  have unit : (one : Rat) = 4 * twoTo 1072 := by
    have bits : twoTo (2 + 1072) = twoTo 2 * twoTo 1072 := twoTo_add 2 1072
    rw [one, bits, Nat.cast_mul]
    rfl
  have divided : ∀ m : Int, (m * twoTo 1072 / one : Rat) = m / 4 := by
    have some : (twoTo 1072 : Rat) ≠ 0 := Nat.cast_ne_zero.2 (twoTo_pos 1072).ne'
    intro m
    rw [unit, mul_div_mul_right _ _ some]
  obtain ⟨a, left, below⟩ := exists_of_few (n := 4 * n - 1) (by omega) (by decide : 1072 < 2045)
  obtain ⟨b, right, above⟩ := exists_of_few (n := 4 * n + 1) (by omega) (by decide : 1072 < 2045)
  rw [divided] at below above
  push_cast at below above
  have exact : Operator.add.exact (ofInt n).toRat x.toRat = n + x.toRat := by
    rw [toRat_ofInt (by omega)]
    rfl
  have least : a.toRat ≤ (ofInt n + x).toRat :=
    (Operator.add.compute_between whole.isFinite within.isFinite (by simp) sum left).1 (by linarith)
  have most : (ofInt n + x).toRat ≤ b.toRat :=
    (Operator.add.compute_between whole.isFinite within.isFinite (by simp) sum right).2
      (by linarith)
  exact roundHalfUp_of_near sum (by linarith) (by linarith)

/-- A positive number is its own magnitude. -/
theorem abs_of_positive {u : Double} (isFinite : u.isFinite = true) (positive : zero.lt u = true) :
    u.abs = u := by
  obtain ⟨negative, quanta, fits, rfl⟩ := exists_of_isFinite isFinite
  cases negative with
  | false => rfl
  | true =>
    have below : (quanta : Int) < 0 := by simpa [lt, position?, signedQuanta, zero] using positive
    omega

/-- What making the shortest digits of a number whole, with the point behind the first of them,
changes in their logarithm. -/
def orderCorrection (u : Double) : Double :=
  let coefficient :=
    Decimal.toDouble false ⟨u.shortest.coefficient, u.shortest.exponent - (u.shortest.leading - 1)⟩
  coefficient.log10 - coefficient.roundHalfUp.log10

/-- The order of an uncertainty is that of its leading digit, corrected and rounded. -/
theorem roundedOrder_eq_corrected (u : Double) :
    u.roundedOrder = (ofInt (u.shortest.leading - 1) + u.orderCorrection).roundHalfUp.floor := rfl

/-- The correction is one quarter at most, of either sign. -/
theorem orderCorrection_small {u : Double} (isFinite : u.isFinite = true)
    (nonzero : u.isZero = false) :
    u.orderCorrection.Within 14 ∧ |u.orderCorrection.toRat| ≤ 1 / 4 := by
  obtain ⟨coefficient, _, _⟩ := shortest_inside isFinite nonzero
  unfold orderCorrection
  generalize u.shortest = decimal at coefficient
  dsimp only
  -- The digits with a point behind the first denote a number between one and ten.
  have unit :
      Decimal.leading ⟨decimal.coefficient, decimal.exponent - (decimal.leading - 1)⟩ = 1 := by
    unfold Decimal.leading
    dsimp only
    omega
  obtain ⟨quanta, fits, digits, least, most⟩ := Decimal.toDouble_between
    (d := ⟨decimal.coefficient, decimal.exponent - (decimal.leading - 1)⟩) coefficient unit
  have value : (Double.finite false quanta fits).toRat = quanta / one := by
    rw [toRat_eq, signedQuanta_finite, if_neg Bool.false_ne_true, Int.cast_natCast]
  have positive : (0 : Rat) < one := Nat.cast_pos.2 unit_pos
  have first : 1 ≤ (Double.finite false quanta fits).toRat := by
    rw [value, one_le_div positive]
    exact Nat.cast_le.2 least
  have last : (Double.finite false quanta fits).toRat ≤ 10 := by
    rw [value, div_le_iff₀ positive]
    exact_mod_cast most
  rw [digits]
  exact ⟨(within_log10 rfl).sub (within_log10 (isFinite_roundHalfUp rfl)) (by decide),
    abs_correction_le rfl first last⟩

/-- What the correction adds to the order is rounded away again. -/
theorem roundHalfUp_corrected {u : Double} (isFinite : u.isFinite = true)
    (nonzero : u.isZero = false) :
    (ofInt (u.shortest.leading - 1) + u.orderCorrection).roundHalfUp
      = ofInt (u.shortest.leading - 1) := by
  obtain ⟨_, low, high⟩ := shortest_inside isFinite nonzero
  obtain ⟨within, size⟩ := orderCorrection_small isFinite nonzero
  have few : (u.shortest.leading - 1).natAbs ≤ 331 := by omega
  exact roundHalfUp_ofInt_add (Nat.le_trans few (by decide)) within size

/-- The order of an uncertainty is that of the leading digit of its shortest decimal: what rounding
to one digit changes in the logarithm is rounded away again. -/
theorem roundedOrder_eq {u : Double} (isFinite : u.isFinite = true) (nonzero : u.isZero = false) :
    u.roundedOrder = u.shortest.leading - 1 := by
  obtain ⟨_, low, high⟩ := shortest_inside isFinite nonzero
  have few : (u.shortest.leading - 1).natAbs ≤ 331 := by omega
  rw [roundedOrder_eq_corrected, roundHalfUp_corrected isFinite nonzero,
    floor_ofInt (Nat.le_trans few (by decide))]

/-- A larger uncertainty is not of a smaller order. -/
theorem roundedOrder_mono {u v : Double} (left : u.isFinite = true) (right : v.isFinite = true)
    (nonzero : u.isZero = false) (le : u.magnitude ≤ v.magnitude) :
    u.roundedOrder ≤ v.roundedOrder := by
  have some : v.isZero = false := by
    obtain ⟨s, a, f, rfl⟩ := exists_of_isFinite left
    obtain ⟨t, b, g, rfl⟩ := exists_of_isFinite right
    have positive : a ≠ 0 := beq_eq_false_iff_ne.1 nonzero
    change a ≤ b at le
    exact beq_eq_false_iff_ne.2 (by omega)
  -- Both orders are those of leading digits, which move up with the number.
  have leading := leading_shortest_mono left right nonzero le
  rw [roundedOrder_eq left nonzero, roundedOrder_eq right some]
  omega

/-- What is not less than a positive number is positive, and of no smaller order. -/
theorem roundedOrder_le_of_le {u v : Double} (left : u.isFinite = true) (right : v.isFinite = true)
    (positive : zero.lt u = true) (le : u.toRat ≤ v.toRat) :
    zero.lt v = true ∧ u.roundedOrder ≤ v.roundedOrder := by
  have above := (zero_lt_iff left).1.1 positive
  exact ⟨(zero_lt_iff right).1.2 (above.trans_le le),
    roundedOrder_mono left right (isZero_of_lt positive) (magnitude_le left right above.le le)⟩

end Double

/-- A written text of a number is not empty. -/
theorem Double.text_ne_empty (x : Double) : x.text ≠ "" := by
  intro empty
  have signed := x.isSigned_text
  rw [empty] at signed
  cases signed with
  | unsigned grammar => exact grammar.ne_nil rfl

/-- An uncertainty that decides the place of its measure: it is written, and positive. -/
def Figure.Decides (u : Figure) : Prop := u.digits ≠ "" ∧ Double.zero.lt u.magnitude = true

/-- An uncertainty that decides a place and is finite decides that of its order. -/
theorem Figure.place?_of_decides {u : Figure} (decides : u.Decides)
    (isFinite : u.magnitude.isFinite = true) :
    u.place? = some (-u.magnitude.roundedOrder) := by
  obtain ⟨written, positive⟩ := decides
  unfold place?
  rw [if_pos ⟨written, positive⟩, if_pos isFinite]

/-- It does so whatever the value is. -/
theorem decimalPlace_of_decides {value u : Figure} (decides : u.Decides)
    (isFinite : u.magnitude.isFinite = true) :
    decimalPlace value (some u) = -u.magnitude.roundedOrder := by
  unfold decimalPlace
  rw [Option.bind_some, Figure.place?_of_decides decides isFinite, Option.getD_some]

/-- The same of the uncertainty of a measure. -/
theorem Measure.decimalPlace_of_decides {m : Measure} (decides : m.uncertainty.Decides)
    (isFinite : m.uncertainty.magnitude.isFinite = true) :
    m.decimalPlace = -m.uncertainty.magnitude.roundedOrder :=
  PlusMinus.decimalPlace_of_decides decides isFinite

namespace Entry

variable {u : Double}

/-- A number as an uncertainty is written, so that it decides the place of any value if it is
positive. -/
theorem decimalPlace_number (isFinite : u.isFinite = true)
    (positive : Double.zero.lt u = true) (value : Entry) :
    value.decimalPlace (.number u) = .ok (-u.roundedOrder) := by
  have entered : (Entry.number u).toFigure? = .ok (some (Figure.ofDouble u)) := rfl
  have decides : (Figure.ofDouble u).Decides := ⟨u.text_ne_empty, positive⟩
  unfold decimalPlace
  rw [entered, Fault.ok_bind, Option.bind_some, Figure.place?_of_decides decides isFinite]
  rfl

/-- A positive uncertainty decides the place of the leading digit of its shortest decimal for any
value: the correction by the logarithm is less than one half and is rounded away. So a larger
uncertainty does not decide a finer place. -/
theorem decimalPlace_eq_leading (isFinite : u.isFinite = true)
    (positive : Double.zero.lt u = true) :
    ∃ order : Int,
      (u.shortest.IsShortest u ∧ 10 ^ order ≤ u.shortest.toRat
        ∧ u.shortest.toRat < 10 ^ (order + 1))
        ∧ (|u.orderCorrection.toRat| < 1 / 2
          ∧ (Double.ofInt order + u.orderCorrection).roundHalfUp = .ofInt order)
        ∧ (∀ value : Entry, value.decimalPlace (.number u) = .ok (-order))
        ∧ ∀ (value : Entry) (w : Double), w.isFinite = true → u.toRat ≤ w.toRat →
          ∃ place, value.decimalPlace (.number w) = .ok place ∧ place ≤ -order := by
  have nonzero := Double.isZero_of_lt positive
  -- The rounded order is that of the leading digit, and it grows with the number.
  have order := Double.roundedOrder_eq isFinite nonzero
  obtain ⟨some, _, _⟩ := Double.shortest_inside isFinite nonzero
  obtain ⟨least, most⟩ := Decimal.toRat_bounds some
  obtain ⟨_, size⟩ := Double.orderCorrection_small isFinite nonzero
  refine ⟨u.shortest.leading - 1, ⟨?_, least, ?_⟩, ⟨size.trans_lt (by norm_num),
    Double.roundHalfUp_corrected isFinite nonzero⟩, fun value => ?_, fun value w range le => ?_⟩
  · have shortest := Double.isShortest_shortest isFinite
    rwa [Double.abs_of_positive isFinite positive] at shortest
  · rwa [Int.sub_add_cancel]
  · rw [decimalPlace_number isFinite positive, order]
  · obtain ⟨positive', greater⟩ := Double.roundedOrder_le_of_le isFinite range positive le
    exact ⟨_, decimalPlace_number range positive' value, by omega⟩

/-- The digits of 0.0095 are rounded to ten, and yet it decides the place of its first digit. -/
theorem decimalPlace_carried :
    (∀ value : Entry, value.decimalPlace (.number (.ofText "0.0095")) = .ok 3)
      ∧ ∀ (value : Entry) (w : Double), w.isFinite = true →
        (Double.ofText "0.0095").toRat ≤ w.toRat →
        ∃ place, value.decimalPlace (.number w) = .ok place ∧ place ≤ 3 := by
  obtain ⟨order, _, _, place, coarser⟩ :=
    decimalPlace_eq_leading (u := .ofText "0.0095") (by decide +kernel)
    (by decide +kernel)
  -- The place for one value tells the order, and with it the place for every value.
  have here : Entry.missing.decimalPlace (.number (.ofText "0.0095")) = .ok 3 := by decide +kernel
  have third : -order = 3 := Except.ok.inj ((place .missing).symm.trans here)
  rw [third] at place coarser
  exact ⟨place, coarser⟩

end Entry

end PlusMinus
