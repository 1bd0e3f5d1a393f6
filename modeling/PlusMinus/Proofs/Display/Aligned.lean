import PlusMinus.Proofs.Display.Figures
import PlusMinus.Proofs.Double.Scale

/-! Results beside a positive uncertainty: below ten both texts have the decimal places of its
leading digit, and the text of the uncertainty is near it at every place that is written. -/

namespace PlusMinus

open Double Numeral

/-- The place of an uncertainty is that of the leading digit of its shortest decimal. -/
theorem Figure.Decides.place {u : Figure} (decides : u.Decides)
    (range : u.magnitude.isFinite = true) :
    decimalPlace u (some u) = 1 - u.magnitude.shortest.leading := by
  rw [decimalPlace_of_decides decides range, roundedOrder_eq range (isZero_of_lt decides.2)]
  omega

/-- The leading digit of an uncertainty stands behind the point, or at the ones place, exactly below
ten. -/
theorem Figure.Decides.behind_iff {u : Figure} (decides : u.Decides)
    (range : u.magnitude.isFinite = true) :
    0 ≤ decimalPlace u (some u) ↔ u.magnitude.toRat < 10 := by
  rw [decimalPlace_of_decides decides range, Int.neg_nonneg, ← not_lt,
    roundedOrder_pos_iff range decides.2, not_le]

/-- A value below 10^21 beside an uncertainty below ten: at every precision both have the places of
the leading digit of the uncertainty, at most a hundred, and are rounded to them. -/
theorem roundEntries_aligned {value uncertainty : Entry} {v u : Figure}
    (first : value.toFigure = .ok v)
    (second : uncertainty.toFigure = .ok u) (isFinite : v.magnitude.isFinite = true)
    (small : |v.magnitude.toRat| < 10 ^ 21) (decides : u.Decides)
    (range : u.magnitude.isFinite = true) (below : u.magnitude.toRat < 10) :
    ∃ pair, (∀ precision, roundEntries value uncertainty precision false = .ok pair)
      ∧ v.magnitude.IsFixed (min 100 (1 - u.magnitude.shortest.leading)).toNat pair.value
      ∧ u.magnitude.IsFixed (min 100 (1 - u.magnitude.shortest.leading)).toNat
        pair.uncertainty := by
  have behind := (decides.behind_iff range).2 below
  have positive := (zero_lt_iff range).1.1 decides.2
  -- No place before the point is among those that are served.
  have places : (min 100 (1 - u.magnitude.shortest.leading)).toNat
      = clampPlaces (decimalPlace u (some u)) := by
    rw [decides.place range] at behind ⊢
    unfold clampPlaces
    omega
  rw [places]
  -- Whatever the precision made of the value, it is aligned in the end.
  refine
    ⟨⟨v.magnitude.fixed (decimalPlace u (some u)), u.magnitude.fixed (decimalPlace u (some u))⟩,
    fun precision => ?_, ?_, ?_⟩
  · rw [roundEntries_eq_ok first second, roundResult, if_neg Bool.false_ne_true,
      roundToFigures_of_place isFinite u precision behind]
  · exact isFixed_fixed isFinite (lt_fixedLimit_of_toRat isFinite small) _
  · refine isFixed_fixed range (lt_fixedLimit_of_toRat range ?_) _
    rw [abs_of_pos positive]
    linarith

/-- The value 12.3456 beside 0.078: both have two places, at any precision. -/
theorem roundEntries_aligned_hundredths :
    ∃ pair, (∀ precision,
        roundEntries (.number (ofText "12.3456")) (.number (ofText "0.078")) precision false
          = .ok pair)
      ∧ (ofText "12.3456").IsFixed 2 pair.value ∧ (ofText "0.078").IsFixed 2 pair.uncertainty := by
  have places : (min 100 (1 - (ofText "0.078").shortest.leading)).toNat = 2 := by decide +kernel
  have isFinite : (ofText "12.3456").isFinite = true := by decide +kernel
  have small : |(ofText "12.3456").toRat| < 10 ^ 21 := by decide +kernel
  have range : (ofText "0.078").isFinite = true := by decide +kernel
  have positive : zero.lt (ofText "0.078") = true := by decide +kernel
  have below : (ofText "0.078").toRat < 10 := by decide +kernel
  -- Neither number has to be looked at any more.
  generalize ofText "12.3456" = x at isFinite small ⊢
  generalize ofText "0.078" = w at places range positive below ⊢
  rw [← places]
  exact roundEntries_aligned (v := .ofDouble x) (u := .ofDouble w) rfl rfl isFinite small
    ⟨text_ne_empty _, positive⟩ range below

/-- A text that shows a number to a unit: a decimal at most half a unit away from the number, which
is read as the double nearest to it. -/
structure Double.ShownTo (x : Double) (unit : Rat) (text : String) (d : Decimal) : Prop where
  denotes : decimal? text.toList = some d
  reads : ofText text = d.toDouble false
  range : (ofText text).isFinite = true
  near : |d.toRat - x.toRat| ≤ unit / 2

/-- A plain number without a sign is read as its decimal, and as the double of that. -/
theorem Numeral.Plain.reads {p : Plain} {text : String}
    (written : text.toList = Numeral.signText false ++ p.text) :
    decimal? text.toList = some p.decimal ∧ Double.ofText text = p.decimal.toDouble false := by
  refine ⟨?_, Double.ofText_plain p written⟩
  rw [written]
  exact p.decimal?_text

namespace Double

variable {x : Double}

/-- A number above zero is the value of its magnitude. -/
theorem toRat_abs_of_pos (isFinite : x.isFinite = true) (positive : zero.lt x = true) :
    x.abs.toRat = x.toRat := by
  rw [toRat_abs, ← abs_toRat isFinite, abs_of_pos ((zero_lt_iff isFinite).1.1 positive)]

/-- A number above zero is not below it. -/
theorem lt_zero_of_pos (isFinite : x.isFinite = true) (positive : zero.lt x = true) :
    x.lt zero = false :=
  eq_false_of_ne_true fun below =>
    absurd ((zero_lt_iff isFinite).2.1 below) (not_lt.2 ((zero_lt_iff isFinite).1.1 positive).le)

/-- A number that is shown with its leading digit at a power of ten lies between half of that and
twice the next one. -/
theorem shortest_leading_bounds (isFinite : x.isFinite = true) (positive : zero.lt x = true)
    (low : -300 < x.shortest.leading) :
    10 ^ (x.shortest.leading - 1) / 2 ≤ x.toRat ∧ x.toRat ≤ 2 * 10 ^ x.shortest.leading := by
  obtain ⟨coefficient, _, _⟩ := shortest_inside isFinite (isZero_of_lt positive)
  obtain ⟨least, most⟩ := Decimal.toRat_bounds coefficient
  have unit : (0 : Rat) < 10 ^ (x.shortest.leading - 1) := zpow_pos (by norm_num) _
  -- The shortest decimal lies between the two powers, and the number is near it.
  have tiny : (10 : Rat) ^ (-300 : Int) ≤ 10 ^ (x.shortest.leading - 1) :=
    zpow_le_zpow_right₀ (by norm_num) (by omega)
  have near := Decimal.abs_sub_shortest_le isFinite (tiny.trans least)
  rw [toRat_abs_of_pos isFinite positive] at near
  obtain ⟨below, above⟩ := abs_le.1 near
  constructor <;> linarith

/-- A positive number below 10^21 with its places fixed is shown to a unit of the last place, and
vanishes exactly below half of that. -/
theorem shownTo_fixed (isFinite : x.isFinite = true) (positive : zero.lt x = true)
    (small : x.magnitude < fixedLimit) (places : Int) :
    ∃ d : Decimal, x.ShownTo (10 ^ (-(clampPlaces places : Int))) (x.fixed places) d
      ∧ (0 < d.toRat ↔ 10 ^ (-(clampPlaces places : Int)) / 2 ≤ x.toRat)
      ∧ (zero.lt (ofText (x.fixed places)) = true ↔ 0 < d.toRat) := by
  have few := clampPlaces_le places
  obtain ⟨p, written, denoted⟩ := exists_plain_fixed isFinite small places
  rw [signText_of_nonneg isFinite (lt_zero_of_pos isFinite positive)] at written
  obtain ⟨denotes, reads⟩ := Plain.reads written
  -- The decimal is the number of units that is nearest to the number.
  obtain ⟨range, _⟩ := toDouble_toPlaces isFinite small (clampPlaces places)
  have count := (toPlaces_eq x (clampPlaces places)).symm
  rw [toRat_abs_of_pos isFinite positive, Decimal.units_eq_iff, Int.cast_natCast] at count
  rw [denoted] at denotes reads
  have exponent : (x.toPlaces (clampPlaces places)).exponent = -(clampPlaces places : Int) := rfl
  generalize x.toPlaces (clampPlaces places) = d at denotes reads range count exponent
  generalize clampPlaces places = q at few count exponent
  have value := d.toRat_eq
  have least := Decimal.power_le_toRat (d := d)
  rw [exponent] at value least
  rw [← value] at count
  have unit : (0 : Rat) < 10 ^ (-(q : Int)) := zpow_pos (by norm_num) _
  refine ⟨d, ⟨denotes, reads, by rw [reads, range], abs_le.2 ⟨by linarith, by linarith⟩⟩, ?_, ?_⟩
  · -- Below half a unit none is nearest, and otherwise there is one at least.
    constructor
    · intro some
      linarith [least (Decimal.toRat_pos_iff.1 some)]
    · intro half
      linarith
  · rw [reads]
    exact Decimal.zero_lt_toDouble_iff (by omega) range

/-- A positive number from ten on that is made whole is shown to a unit of its leading digit, as a
positive one. -/
theorem shownTo_whole (isFinite : x.isFinite = true) (positive : zero.lt x = true)
    (least : 10 ≤ x.toRat) :
    ∃ d : Decimal, x.ShownTo (10 ^ (x.shortest.leading - 1)) x.roundHalfUp.text d
      ∧ 0 < d.toRat ∧ zero.lt (ofText x.roundHalfUp.text) = true := by
  have whole := isFinite_roundHalfUp isFinite
  have least' := ten_le_roundHalfUp isFinite least
  have positive' : zero.lt x.roundHalfUp = true := (zero_lt_iff whole).1.2 (by linarith)
  obtain ⟨p, shown, written⟩ := exists_plain_text whole
  rw [if_neg (by rw [lt_zero_of_pos whole positive']; exact Bool.false_ne_true)] at written
  obtain ⟨denotes, reads⟩ := Plain.reads written
  -- The text denotes the whole number, so that its decimal is near that.
  have same := toDouble_shown whole shown
  have range : (p.decimal.toDouble false).isFinite = true := by rw [same, isFinite_abs, whole]
  -- A decimal that is read as ten or more is not below one.
  have above : 1 < p.decimal.toRat := by
    by_contra below
    have one : (ofInt 1).toRat = 1 := toRat_ofInt (by decide)
    rw [Decimal.toDouble_eq_nearest] at same range
    have most := (nearest_between (x := ofInt 1) (isFinite_ofInt (by decide)) range).2 (by linarith)
    rw [same, toRat_abs_of_pos whole positive'] at most
    linarith
  have tiny := zpow_le_tenth
  obtain ⟨low, high⟩ := abs_le.1 (Decimal.abs_toDouble_sub_le_of_isFinite (by linarith) range)
  rw [same, toRat_abs_of_pos whole positive'] at low high
  refine ⟨p.decimal, ⟨denotes, reads, by rw [reads, range], ?_⟩, by linarith, ?_⟩
  · -- Half a one and what the decimal is off by are less than half a unit, which is five at least.
    obtain ⟨less, more⟩ := abs_le.1 (abs_roundHalfUp_sub_le isFinite).1
    have leading : 1 < x.shortest.leading := by
      have order := (roundedOrder_pos_iff isFinite positive).2 least
      rw [roundedOrder_eq isFinite (isZero_of_lt positive)] at order
      omega
    obtain ⟨_, bound⟩ := shortest_leading_bounds isFinite positive (by omega)
    have next : (10 : Rat) ^ x.shortest.leading = 10 * 10 ^ (x.shortest.leading - 1) := by
      rw [← zpow_one_add₀ (by norm_num), show 1 + (x.shortest.leading - 1)
        = x.shortest.leading by omega]
    have ten : (10 : Rat) ^ (1 : Int) ≤ 10 ^ (x.shortest.leading - 1) :=
      zpow_le_zpow_right₀ (by norm_num) (by omega)
    rw [zpow_one] at ten
    rw [next] at bound
    exact abs_le.2 ⟨by linarith, by linarith⟩
  · rw [reads, (zero_lt_iff range).1, same, toRat_abs_of_pos whole positive']
    linarith

/-- A positive number is not below half a unit of its last written place exactly when it is not
below half a unit of the hundredth decimal place. -/
theorem half_unit_le_iff (isFinite : x.isFinite = true) (positive : zero.lt x = true) :
    10 ^ max (x.shortest.leading - 1) (-100) / 2 ≤ x.toRat ↔ 10 ^ (-100 : Int) / 2 ≤ x.toRat := by
  rcases Int.le_total (x.shortest.leading - 1) (-100) with far | near
  · rw [Int.max_eq_right far]
  · -- A leading digit that is written is half a unit at least.
    rw [Int.max_eq_left near]
    have least := (shortest_leading_bounds isFinite positive (by omega)).1
    have order : (10 : Rat) ^ (-100 : Int) ≤ 10 ^ (x.shortest.leading - 1) :=
      zpow_le_zpow_right₀ (by norm_num) near
    exact iff_of_true least ((div_le_div_of_nonneg_right order (by norm_num)).trans least)

/-- At the place of its leading digit a positive number is shown to a unit of that place, or of the
hundredth decimal place if that is coarser; it vanishes exactly below half a unit of the latter. -/
theorem shownTo_atPlace (isFinite : x.isFinite = true) (positive : zero.lt x = true) :
    ∃ d : Decimal, x.ShownTo (10 ^ max (x.shortest.leading - 1) (-100))
      (x.atPlace (1 - x.shortest.leading)) d
      ∧ (0 < d.toRat ↔ 10 ^ (-100 : Int) / 2 ≤ x.toRat)
      ∧ (zero.lt (ofText (x.atPlace (1 - x.shortest.leading))) = true
        ↔ 10 ^ (-100 : Int) / 2 ≤ x.toRat) := by
  have before_iff := roundedOrder_pos_iff isFinite positive
  have served := half_unit_le_iff isFinite positive
  rw [roundedOrder_eq isFinite (isZero_of_lt positive)] at before_iff
  rcases lt_or_ge x.toRat 10 with below | least
  · -- Behind the point at most a hundred places are written.
    have behind := mt before_iff.1 (not_le.2 below)
    have small : x.magnitude < fixedLimit := by
      refine lt_fixedLimit_of_toRat isFinite ?_
      rw [abs_of_pos ((zero_lt_iff isFinite).1.1 positive)]
      linarith
    obtain ⟨d, shown, vanishes, reads⟩ :=
      shownTo_fixed isFinite positive small (1 - x.shortest.leading)
    have unit : -(clampPlaces (1 - x.shortest.leading) : Int)
        = max (x.shortest.leading - 1) (-100) := by
      unfold clampPlaces
      omega
    rw [unit] at shown vanishes
    rw [atPlace, if_neg (by omega)]
    exact ⟨d, shown, vanishes.trans served, reads.trans (vanishes.trans served)⟩
  · -- Before the point the number is far above the last place that could be written.
    have before := before_iff.2 least
    have far : (10 : Rat) ^ (-100 : Int) ≤ 1 := zpow_le_one_of_nonpos₀ (by norm_num) (by norm_num)
    have half : (10 : Rat) ^ (-100 : Int) / 2 ≤ x.toRat := by linarith
    obtain ⟨d, shown, some, reads⟩ := shownTo_whole isFinite positive least
    rw [atPlace, if_pos (by omega), Int.max_eq_left (by omega)]
    exact ⟨d, shown, iff_of_true some half, iff_of_true reads half⟩

end Double

/-- Beside every value, at every precision, a positive uncertainty is shown to a unit of its leading
digit, or of the hundredth decimal place if that is coarser; it vanishes exactly below half a unit
of that place. -/
theorem roundEntries_uncertainty {value uncertainty : Entry} {v u : Figure}
    (first : value.toFigure = .ok v)
    (second : uncertainty.toFigure = .ok u) (decides : u.Decides)
    (range : u.magnitude.isFinite = true) :
    ∃ text d,
      (∀ precision, ∃ shown, roundEntries value uncertainty precision false = .ok ⟨shown, text⟩)
      ∧ u.magnitude.ShownTo (10 ^ max (u.magnitude.shortest.leading - 1) (-100)) text d
      ∧ (0 < d.toRat ↔ 10 ^ (-100 : Int) / 2 ≤ u.magnitude.toRat)
      ∧ (zero.lt (ofText text) = true ↔ 10 ^ (-100 : Int) / 2 ≤ u.magnitude.toRat) := by
  obtain ⟨d, shown, vanishes, reads⟩ := shownTo_atPlace range decides.2
  -- The text of the uncertainty is made from its place alone, whatever the value and the precision.
  rw [← decides.place range] at shown reads
  exact ⟨_, d, fun precision => ⟨_, roundEntries_eq_ok first second precision false⟩,
    shown, vanishes, reads⟩

/-- The uncertainty 0.00078 is shown to a unit of its fourth decimal place, beside the value 12. -/
theorem roundEntries_uncertainty_fourth :
    ∃ text d, (∀ precision, ∃ shown,
        roundEntries (.text "12") (.number (ofText "0.00078")) precision false = .ok ⟨shown, text⟩)
      ∧ (ofText "0.00078").ShownTo (10 ^ (-4 : Int)) text d ∧ 0 < d.toRat
      ∧ zero.lt (ofText text) = true := by
  have unit : max ((ofText "0.00078").shortest.leading - 1) (-100) = -4 := by decide +kernel
  have range : (ofText "0.00078").isFinite = true := by decide +kernel
  have positive : zero.lt (ofText "0.00078") = true := by decide +kernel
  have served : 10 ^ (-100 : Int) / 2 ≤ (ofText "0.00078").toRat := by decide +kernel
  -- The number does not have to be looked at any more.
  generalize ofText "0.00078" = x at unit range positive served ⊢
  have first : (Entry.text "12").toFigure = .ok (.ofText "12") := rfl
  have second : (Entry.number x).toFigure = .ok (.ofDouble x) := rfl
  obtain ⟨text, d, rounded, shown, some, reads⟩ :=
    roundEntries_uncertainty first second ⟨text_ne_empty _, positive⟩ range
  exact ⟨text, d, rounded, unit ▸ shown, some.2 served, reads.2 served⟩

/-- At 10^-200 the leading digit is behind the hundred places that are written, so that the
uncertainty vanishes; and at 0.75 the text is half a unit away, and is read as a double that is
further away than that. -/
theorem roundEntries_uncertainty_far :
    (∃ pair, roundEntries (.number zero) (.number (ofText "1e-200")) 3 false = .ok pair
        ∧ (ofText pair.uncertainty).isZero = true)
      ∧ ∃ pair, roundEntries (.number zero) (.number (ofText "0.75")) 3 false = .ok pair
        ∧ (ofText "0.75").shortest.leading = 0
        ∧ 10 ^ (-1 : Int) / 2 < |(ofText pair.uncertainty).toRat - (ofText "0.75").toRat| :=
  ⟨⟨_, rfl, by decide +kernel⟩, ⟨_, rfl, by decide +kernel, by decide +kernel⟩⟩

end PlusMinus
