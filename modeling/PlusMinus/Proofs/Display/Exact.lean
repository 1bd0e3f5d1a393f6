import PlusMinus.Proofs.Display.Figures

/-! Exact values beside a zero uncertainty: the text reads back as the value where the zero is not
written with places behind the point, or is written with enough of them. -/

namespace PlusMinus

open Double Numeral

namespace Double

variable {x : Double} {places : Nat}

/-- The sign of a decimal is apart from the magnitude of its double. -/
theorem abs_toDouble_signed (negative : Bool) (d : Decimal) :
    (d.toDouble negative).abs = d.toDouble false := by
  cases negative with
  | false => exact abs_toDouble d
  | true =>
    rw [Decimal.toDouble_true, ← abs_toDouble d]
    cases d.toDouble false <;> rfl

/-- The sign of a zero does not matter for its magnitude. -/
theorem abs_withoutZeroSign (x : Double) : x.withoutZeroSign.abs = x.abs := by
  unfold withoutZeroSign
  split
  · rename_i none
    obtain ⟨negative, rfl⟩ := exists_of_isZero none
    rfl
  · rfl

/-- A number whose digits all stand before a decimal place, as far as they are written: it has no
place behind the point, or it is large, or it is the double nearest to its units at the place. -/
def Spared (x : Double) (place : Int) : Prop :=
  place < 0 ∨ fixedLimit ≤ x.magnitude ∨ (x.toPlaces (clampPlaces place)).toDouble false = x.abs

instance (x : Double) (place : Int) :
    Decidable (x.Spared place) := inferInstanceAs (Decidable (_ ∨ _))

/-- A number with its places fixed reads back exactly when it is large or is the double nearest to
its units. -/
theorem ofText_fixed_iff (isFinite : x.isFinite = true) (place : Int) :
    ofText (x.fixed place) = x.withoutZeroSign
      ↔ fixedLimit ≤ x.magnitude ∨ (x.toPlaces (clampPlaces place)).toDouble false = x.abs := by
  rcases Nat.lt_or_ge x.magnitude fixedLimit with small | large
  · rw [or_iff_right (Nat.not_le.2 small)]
    obtain ⟨p, written, value⟩ := exists_plain_fixed isFinite small place
    rw [signText_eq] at written
    rw [ofText_plain p written, value]
    -- Both magnitudes and, but for a zero, both signs are the same.
    constructor
    · intro same
      rw [← abs_withoutZeroSign, ← same, abs_toDouble_signed]
    · exact signed_abs isFinite
  · rw [fixed_of_large large, ofText_text]
    exact iff_of_true rfl (.inl large)

end Double

/-- An exact value beside a zero reads back exactly when it is spared at the last written place of
the zero; and below a thousand it is always a plain number without an exponent. -/
theorem roundEntries_exact {value uncertainty : Entry} {v u : Figure}
    (first : value.toFigure = .ok v)
    (second : uncertainty.toFigure = .ok u) (isFinite : v.magnitude.isFinite = true)
    (none : u.magnitude.isZero = true) {precision : Int} (exact : exactFigures ≤ precision) :
    ∃ pair, roundEntries value uncertainty precision false = .ok pair
      ∧ (ofText pair.value = v.magnitude.withoutZeroSign
        ↔ v.magnitude.Spared (Written.lastPlace u.digits))
      ∧ (|v.magnitude.toRat| < 1000 →
        ∃ p : Plain, p.scale = .none ∧ pair.value.toList = v.magnitude.signText ++ p.text) := by
  have place := decimalPlace_of_isZero u none
  refine ⟨_, roundEntries_eq_ok first second precision false, ?_⟩
  rw [roundResult, if_neg Bool.false_ne_true]
  generalize v.magnitude = x at *
  rcases Int.lt_or_le (decimalPlace u (some u)) 0 with before | behind
  · -- Without a place behind the point the shortest digits are written.
    rw [roundToFigures_of_whole x u precision before, none]
    obtain ⟨p, written, denoted, plain⟩ := exists_plain_inWhole isFinite exact
    refine ⟨?_, fun small => ⟨p, plain ?_, written⟩⟩
    · rw [signText_eq] at written
      rw [ofText_plain p written]
      exact iff_of_true (signed_abs isFinite denoted) (.inl (place ▸ before))
    · rw [abs_toRat isFinite, div_lt_iff₀ (Nat.cast_pos.2 unit_pos)] at small
      exact_mod_cast small
  · -- Otherwise the value is cut off at the place.
    rw [roundToFigures_of_place isFinite u precision behind]
    refine ⟨?_, fun small => ?_⟩
    · rw [ofText_fixed_iff isFinite, Spared, ← place, or_iff_right (Int.not_lt.2 behind)]
    · obtain ⟨p, fixes, written⟩ :=
        isFixed_fixed isFinite (lt_fixedLimit_of_toRat isFinite (by linarith))
          (decimalPlace u (some u))
      exact ⟨p, fixes.scale, written⟩

/-- Beside 0 the value 0.0000001 reads back and has no exponent, and beside 0.00 the value 2.5 reads
back. -/
theorem roundEntries_exact_tiny :
    (∃ pair, roundEntries (.number (ofText "1e-7")) (.text "0") 999 false = .ok pair
        ∧ ofText pair.value = ofText "1e-7" ∧ ∃ p : Plain, p.scale = none
          ∧ pair.value.toList = p.text)
      ∧ ∃ pair, roundEntries (.text "2.5") (.text "0.00") 999 false = .ok pair
        ∧ ofText pair.value = ofText "2.5" := by
  constructor
  · have isFinite : (ofText "1e-7").isFinite = true := by decide +kernel
    have small : |(ofText "1e-7").toRat| < 1000 := by decide +kernel
    have spared : (ofText "1e-7").Spared (Written.lastPlace (Figure.ofText "0").digits) := by
      decide +kernel
    have same : (ofText "1e-7").withoutZeroSign = ofText "1e-7" := by decide +kernel
    have unsigned : (ofText "1e-7").signText = [] := by decide +kernel
    -- The number does not have to be looked at any more.
    generalize ofText "1e-7" = x at isFinite small spared same unsigned ⊢
    have first : (Entry.number x).toFigure = .ok (.ofDouble x) := rfl
    have second : (Entry.text "0").toFigure = .ok (.ofText "0") := rfl
    obtain ⟨pair, rounded, reads, plain⟩ :=
      roundEntries_exact first second isFinite (by decide +kernel) (by decide : exactFigures ≤ 999)
    obtain ⟨p, scale, written⟩ := plain small
    exact ⟨pair, rounded, (reads.2 spared).trans same, p, scale,
      written.trans (congrArg (· ++ p.text) unsigned)⟩
  · have first : (Entry.text "2.5").toFigure = .ok (.ofText "2.5") := rfl
    have second : (Entry.text "0.00").toFigure = .ok (.ofText "0.00") := rfl
    obtain ⟨pair, rounded, reads, _⟩ :=
      roundEntries_exact first second (by decide +kernel) (by decide +kernel)
        (by decide : exactFigures ≤ 999)
    have same : (Figure.ofText "2.5").magnitude.withoutZeroSign = ofText "2.5" := by decide +kernel
    exact ⟨pair, rounded, (reads.2 (by decide +kernel)).trans same⟩

/-- Beside 0.0 the value 0.001 is cut off at the tenths, although it is exact. -/
theorem roundEntries_exact_cut :
    roundEntries (.number (ofText "0.001")) (.text "0.0") 999 false = .ok ⟨"0.0", "0.0"⟩
      ∧ ofText "0.0" ≠ ofText "0.001" := by
  decide +kernel

end PlusMinus
