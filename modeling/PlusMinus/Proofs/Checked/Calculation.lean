import PlusMinus.Calculation
import PlusMinus.Proofs.Checked.Display
import PlusMinus.Proofs.Checked.Explanation
import PlusMinus.Proofs.Checked.Propagation
import PlusMinus.Proofs.Stream.Rows
import PlusMinus.Proofs.Text.LowerCase

/-! Calculations are refused for their rows, for the name of their mode and for a whole number that
has too many digits to be written, and for nothing else. -/

namespace PlusMinus

namespace Mode

/-- The mode that a text names in any case and between blanks. -/
theorem ofText?_eq_some (mode : Mode) {before word after : List Char}
    (blankBefore : ∀ c ∈ before, Text.isBlank c = true)
    (blankAfter : ∀ c ∈ after, Text.isBlank c = true)
    (named : word.map Char.toLower = mode.name.toList) :
    ofText? (String.ofList (before ++ (word ++ after))) = some mode := by
  -- The names are in ASCII, where a small letter has one character.
  have ascii : ∀ c ∈ mode.name.toList, c.toNat < 0x80 ∧ Text.isBlank c = false := by
    have names : mode.name.toList.all (fun c => c.toNat < 0x80 && !Text.isBlank c) = true := by
      cases mode <;> decide
    intro c member
    simpa using List.all_eq_true.1 names c member
  unfold ofText?
  rw [String.toList_ofList, Text.lower_strip blankBefore blankAfter named ascii,
    String.ofList_toList]
  cases mode <;> decide

end Mode

namespace Calculation

/-- The whole numbers that are written in a calculation: in the labels of the rules that the
result may be rounded by and, with a propagated uncertainty, the number of the rule that it is
rounded by. -/
def wholeNumbers (config : Config) (mode : Mode) (given : Option Override) (stream : Stream) :
    List Int :=
  let used := (solve config stream.render).result
  used.labelNumbers config given stream.operands
    ++ match mode with
      | .uncertainty => [(used.precision config given stream.operands).precision]
      | .actual => []

/-- A calculation with a stream of operands and operators is only refused for a whole number that
cannot be written, whatever the settings, the mode and the forced rule are, and whether or not the
brackets are balanced. -/
theorem checked_eq (config : Config) (mode : Mode) (given : Option Override) {stream : Stream}
    (regular : stream = [] ∨ stream.Alternates) :
    checked config mode given stream
      = writing (wholeNumbers config mode given stream) (ofStream config mode given stream) := by
  unfold checked wholeNumbers ofStream
  dsimp only
  rw [checkedSolve_eq_ok, Fault.ok_bind, stream.checkedExtremes_eq_ok config regular, Fault.ok_bind,
    Propagated.checkedPrecision_eq]
  -- The modes differ in what they round and in the account they give of it.
  cases mode with
  | uncertainty =>
    refine writing_bind ?_
    dsimp only
    rw [checkedRoundResult_eq_ok, Fault.ok_bind, Explanation.checkedPropagation_eq]
    exact writing_bind_ok rfl
  | actual =>
    dsimp only
    rw [List.append_nil]
    refine writing_bind_ok ?_
    rw [checkedRoundRange_eq_ok, Fault.ok_bind, Explanation.checkedRange_eq_ok, Fault.ok_bind]
    rfl

end Calculation

/-- A calculation in a mode that is named in any case and between blanks is only refused for a whole
number that has too many digits to be written, and with rows if they are refused when they are read,
whatever the settings and the forced rule are. -/
theorem calculate_eq_ofStream (config : Config) (given : Option Override) (mode : Mode)
    {before word after : List Char} (blankBefore : ∀ c ∈ before, Text.isBlank c = true)
    (blankAfter : ∀ c ∈ after, Text.isBlank c = true)
    (named : word.map Char.toLower = mode.name.toList) :
    (∀ text, calculate config (.text text) (some (String.ofList (before ++ (word ++ after)))) given
        = if ∀ n ∈ Calculation.wholeNumbers config mode given (Stream.scan text), Numeral.Writable n
          then .ok (Calculation.ofStream config mode given (Stream.scan text))
          else .error .unwritable)
      ∧ ∀ rows, calculate config (.rows rows)
        (some (String.ofList (before ++ (word ++ after)))) given
        = Stream.ofRows rows >>= fun stream =>
          if ∀ n ∈ Calculation.wholeNumbers config mode given stream, Numeral.Writable n
          then .ok (Calculation.ofStream config mode given stream)
          else .error .unwritable := by
  have known := mode.ofText?_eq_some blankBefore blankAfter named
  constructor
  · intro text
    have regular := (Stream.canonical_scan text).imp_right Stream.Canonical.alternates
    simp only [calculate, Option.getD_some, known, Source.stream, Fault.ok_bind,
      Calculation.checked_eq config mode given regular]
    rfl
  · intro rows
    simp only [calculate, Option.getD_some, known, Source.stream]
    -- Whatever stream rows are accepted as is one of operands and operators.
    cases accepted : Stream.ofRows rows with
    | error fault => rfl
    | ok stream =>
      exact Calculation.checked_eq config mode given (Stream.alternates_ofRows accepted)

/-- A text with a division by zero, a bound that is no number and an open bracket, and rows that are
refused, in a mode with capitals between blanks. -/
theorem calculate_eq_ofStream_actual :
    (∀ c ∈ [' '], Text.isBlank c = true) ∧ (∀ c ∈ ['\t'], Text.isBlank c = true)
      ∧ "AcTUal".toList.map Char.toLower = Mode.actual.name.toList
      ∧ calculate {} (.text "(1±nan/0") (some " AcTUal\t") none
        = .ok (Calculation.ofStream {} .actual none (Stream.scan "(1±nan/0"))
      ∧ calculate {} (.rows [.operator "+"]) (some " AcTUal\t") none
        = .error (.leadingOperator "+") := by
  have before : ∀ c ∈ [' '], Text.isBlank c = true := List.forall_mem_singleton.2 (by decide)
  have after : ∀ c ∈ ['\t'], Text.isBlank c = true := List.forall_mem_singleton.2 (by decide)
  have named : "AcTUal".toList.map Char.toLower = Mode.actual.name.toList := by decide
  obtain ⟨text, rows⟩ := calculate_eq_ofStream {} none .actual before after named
  -- All the numbers that the text leads to are short, and the rows are refused before there are
  -- any.
  have written : ∀ n ∈ Calculation.wholeNumbers {} .actual none (Stream.scan "(1±nan/0"),
      Numeral.Writable n := by decide +kernel
  have refused : Stream.ofRows [.operator "+"] = .error (.leadingOperator "+") := rfl
  refine ⟨before, after, named, (text "(1±nan/0").trans (if_pos written), ?_⟩
  have last := rows [.operator "+"]
  rw [refused] at last
  exact last

end PlusMinus
