import Mathlib.Data.List.Forall2
import PlusMinus.Proofs.Double.Sign
import PlusMinus.Proofs.Fault
import PlusMinus.Stream.Rows

/-! Which rows of a form are accepted, what becomes of each of them, and which fault the others are
refused for. -/

namespace PlusMinus

/-- A text of blanks is no number. -/
theorem Entry.isNaN_of_isBlank {entry : Entry} (blank : entry.isBlank = true) {f : Figure}
    (read : entry.toFigure = .ok f) : f.magnitude.isNaN = true := by
  cases entry with
  | text written =>
    -- Nothing is left without the blanks.
    have empty : Text.strip written.toList = [] := List.isEmpty_iff.1 blank
    cases read
    rw [Figure.ofText, empty]
    decide +kernel
  | _ => cases blank

namespace ValueRow

/-- The bound of a value row; a blank or missing one is that of an exact value. -/
def bound (row : ValueRow) : Except Fault Figure :=
  if row.uncertainty = .missing ∨ row.uncertainty.isBlank then .ok .exact
    else row.uncertainty.toFigure

/-- A value row that describes an operand: its value is a number, its bound is not below zero, and
it does not count fewer than no brackets. -/
structure WellFormed (row : ValueRow) : Prop where
  value : ∃ f, row.value.toFigure = .ok f ∧ f.magnitude.isNaN = false
  bound : ∃ f, row.bound = .ok f ∧ Double.zero.le f.magnitude = true
  openBrackets : ∃ n, row.openBrackets.toInt = .ok n ∧ 0 ≤ n
  closeBrackets : ∃ n, row.closeBrackets.toInt = .ok n ∧ 0 ≤ n

/-- The operand that a value row describes, field by field. -/
structure Describes (row : ValueRow) (o : Operand) : Prop where
  value : row.value.toFigure = .ok o.value
  bound : row.bound = .ok o.uncertainty
  openBrackets : row.openBrackets.toInt = .ok o.openBrackets
  closeBrackets : row.closeBrackets.toInt = .ok o.closeBrackets

/-- All that is wrong with a value row, in the order in which it matters. -/
def faults (row : ValueRow) : List Fault :=
  let value := row.value.toFigure
  let bound := row.bound
  let openBrackets := row.openBrackets.toInt
  let closeBrackets := row.closeBrackets.toInt
  [ Fault.ofCheck openBrackets,
    Fault.ofCheck closeBrackets,
    Fault.given row.value.isBlank .valueRequired,
    Fault.ofCheck value,
    Fault.given (value.toOption.any (·.magnitude.isNaN)) (.invalidValue row.value),
    Fault.ofCheck bound,
    Fault.given (bound.toOption.any (·.magnitude.isNaN)) (.invalidBound row.uncertainty),
    Fault.given (bound.toOption.any (·.magnitude.lt .zero)) .negativeBound,
    Fault.given (openBrackets.toOption.any (· < 0)
      ∨ closeBrackets.toOption.any (· < 0)) .negativeBrackets ].flatten

variable {row : ValueRow}

/-- The checks of an operand, with its bound as one of them. -/
theorem toOperand_eq (row : ValueRow) :
    row.toOperand = (do
      let openBrackets ← row.openBrackets.toInt
      let closeBrackets ← row.closeBrackets.toInt
      if row.value.isBlank then throw .valueRequired
      let v ← row.value.toFigure
      if v.magnitude.isNaN then throw (.invalidValue row.value)
      let u ← row.bound
      if u.magnitude.isNaN then throw (.invalidBound row.uncertainty)
      if u.magnitude.lt .zero then throw .negativeBound
      if openBrackets < 0 ∨ closeBrackets < 0 then throw .negativeBrackets
      pure { value := v, uncertainty := u, openBrackets, closeBrackets }) := by
  unfold toOperand Operand.ofEntries bound
  split <;> rfl

/-- Nothing is wrong with a value row exactly if it is well-formed. -/
theorem faults_eq_nil_iff : row.faults = [] ↔ row.WellFormed := by
  simp only [faults, List.flatten_eq_nil_iff, List.forall_mem_cons, Fault.ofCheck_eq_nil_iff,
    Fault.given_eq_nil_iff]
  -- Each check is passed exactly if what it reads of the row is well-formed; a blank value is not,
  -- since it is read as no number.
  constructor
  · rintro ⟨⟨m, opened⟩, ⟨n, closed⟩, _, ⟨v, value⟩, isNumber, ⟨u, bound⟩, isNumber',
      notBelow, counts, _⟩
    simp only [opened, closed, value, bound, Except.toOption,
      Option.any_some, Bool.not_eq_true, decide_eq_true_eq, not_or, Int.not_lt]
      at isNumber isNumber' notBelow counts
    exact ⟨⟨v, value, isNumber⟩, ⟨u, bound, u.magnitude.zero_le_iff.2 ⟨isNumber', notBelow⟩⟩,
      ⟨m, opened, counts.1⟩,
      ⟨n, closed, counts.2⟩⟩
  · rintro ⟨⟨v, value, isNumber⟩, ⟨u, bound, nonnegative⟩, ⟨m, opened, least⟩, ⟨n, closed, least'⟩⟩
    obtain ⟨isNumber', notBelow⟩ := u.magnitude.zero_le_iff.1 nonnegative
    have written : ¬row.value.isBlank = true := fun blank => by
      rw [Entry.isNaN_of_isBlank blank value] at isNumber
      cases isNumber
    simp [opened, closed, value, bound, written, isNumber, isNumber', notBelow, least,
      least', Except.toOption]

/-- A well-formed value row is read as the operand that it describes. -/
theorem toOperand_of_wellFormed (wellFormed : row.WellFormed) :
    ∃ o, row.toOperand = .ok o ∧ row.Describes o := by
  obtain ⟨⟨v, value, isNumber⟩, ⟨u, bound, nonnegative⟩, ⟨m, opened, least⟩, ⟨n, closed, least'⟩⟩ :=
    wellFormed
  obtain ⟨isNumber', notBelow⟩ := u.magnitude.zero_le_iff.1 nonnegative
  -- A blank value would have been read as no number.
  have written : row.value.isBlank = false := by
    by_contra blank
    rw [Entry.isNaN_of_isBlank (Bool.not_eq_false _ ▸ blank) value] at isNumber
    cases isNumber
  refine ⟨{ value := v, uncertainty := u, openBrackets := m, closeBrackets := n }, ?_, value,
    bound, opened, closed⟩
  have counts : ¬(m < 0 ∨ n < 0) := by omega
  simp only [toOperand_eq, opened, closed, value,
    bound, written, isNumber, isNumber', notBelow, counts, Fault.ok_bind,
    Bool.false_eq_true, if_false]
  rfl

/-- A value row is refused for the first thing that is wrong with it. -/
theorem toOperand_of_faults {fault : Fault} (first : row.faults.head? = some fault) :
    row.toOperand = .error fault := by
  rw [toOperand_eq]
  simp only [faults, List.flatten_cons, List.flatten_nil] at first
  -- The checks are made in the order of the list, and each of them is about what the ones before
  -- have read.
  refine Fault.bind_of_head first fun m opened first =>
    Fault.bind_of_head first fun n closed first => ?_
  refine Fault.refused_of_head first fun _ first => Fault.bind_of_head first fun v value first => ?_
  rw [value] at first
  refine Fault.refused_of_head first fun _ first => Fault.bind_of_head first fun u bound first => ?_
  rw [bound] at first
  refine Fault.refused_of_head first fun _ first => Fault.refused_of_head first fun _ first => ?_
  simp only [opened, closed, Except.toOption, Option.any_some, decide_eq_true_eq] at first
  exact Fault.refused_of_head first fun _ none => nomatch none

end ValueRow

/-- A text that is one of the signs of the operations, but for blanks around it. -/
def IsSign (text : String) : Prop :=
  ∃ c ∈ ['+', '-', '*', '/', '×', '÷'], Text.strip text.toList = [c]

/-- The plain sign of an operation. -/
def plainSign (c : Char) : Char := if c = '×' then '*' else if c = '÷' then '/' else c

namespace Row

instance (text : String) : Decidable (IsSign text) := List.decidableBEx _ _

/-- A row that gives a value: a well-formed value row in fields or in four cells, or a ready-made
operand. -/
inductive IsValue : Row → Prop
  | fields {row : ValueRow} (wellFormed : row.WellFormed) : IsValue (.fields row)
  | cells {value uncertainty openBrackets closeBrackets : Entry}
      (wellFormed : ValueRow.WellFormed { value, uncertainty, openBrackets, closeBrackets }) :
      IsValue (.cells [openBrackets, value, uncertainty, closeBrackets])
  | operand (o : Operand) : IsValue (.operand o)

/-- A row that names an operation. -/
inductive IsOperator : Row → Prop
  | sign {text : String} (isSign : IsSign text) : IsOperator (.operator text)

/-- What a row becomes: the operation with its plain sign, or the operand that it describes. -/
inductive Gives : Row → Token → Prop
  | sign {text : String} {c : Char} {operator : Operator} (written : Text.strip text.toList = [c])
      (same : operator.symbol = plainSign c) : Gives (.operator text) (.operator operator)
  | fields {row : ValueRow} {o : Operand} (describes : row.Describes o) :
    Gives (.fields row) (.operand o)
  | cells {value uncertainty openBrackets closeBrackets : Entry} {o : Operand}
      (describes : ValueRow.Describes { value, uncertainty, openBrackets, closeBrackets } o) :
      Gives (.cells [openBrackets, value, uncertainty, closeBrackets]) (.operand o)
  | operand (o : Operand) : Gives (.operand o) (.operand o)

/-- A row that may come next: an operation behind an operand, and else a value. -/
def Fits (row : Row) (afterOperand : Bool) :
    Prop := if afterOperand then row.IsOperator else row.IsValue

/-- All that is wrong with a row wherever it stands, in the order in which it matters. -/
def ownFaults : Row → List Fault
  | .operator text => Fault.given (¬IsSign text) (.unknownRowOperator text)
  | .fields row => row.faults
  | .cells [openBrackets, value, uncertainty, closeBrackets] =>
    ValueRow.faults { value, uncertainty, openBrackets, closeBrackets }
  | .cells _ => [.rowLength]
  | .operand _ => []
  | .unsupported entry => [.unsupportedRow entry]

/-- What is wrong with the place of a row. -/
def placeFaults (afterOperand : Bool) : Row → List Fault
  | .operator text => Fault.given (afterOperand = false) (.leadingOperator text)
  | _ => Fault.given (afterOperand = true) .missingOperator

/-- All that is wrong with a row; its own faults count before that of its place. -/
def faults (row : Row) (afterOperand : Bool) :
    List Fault := row.ownFaults ++ row.placeFaults afterOperand

variable {row : Row} {afterOperand : Bool}

/-- A text names an operation, whose symbol is its plain sign, or it is no sign. -/
theorem operator?_cases (text : String) :
    (¬IsSign text ∧ operator? text = none)
      ∨ ∃ c operator, Text.strip text.toList = [c] ∧ IsSign text ∧ operator? text = some operator
        ∧ operator.symbol = plainSign c := by
  by_cases sign : IsSign text
  · obtain ⟨c, listed, written⟩ := sign
    have named : ∀ c ∈ ['+', '-', '*', '/', '×', '÷'],
        (Operator.ofChar? c).map Operator.symbol = some (plainSign c) := by
      simp [Operator.ofChar?, Operator.symbol, plainSign]
    obtain ⟨operator, name, same⟩ := Option.map_eq_some_iff.1 (named c listed)
    refine .inr ⟨c, operator, written, ⟨c, listed, written⟩, ?_, same⟩
    rw [operator?, written]
    exact name
  · refine .inl ⟨sign, ?_⟩
    unfold operator?
    split
    · -- Every character that names an operation is one of the signs.
      rename_i c written
      unfold Operator.ofChar?
      split <;> first | rfl | exact absurd ⟨_, by decide, written⟩ sign
    · rfl

section Length

variable {cells : List Entry} (other : ¬∃ a v u c, cells = [a, v, u, c])

include other

/-- Cells that are not four are no value row. -/
theorem ownFaults_of_length : ownFaults (.cells cells) = [.rowLength] := by
  unfold ownFaults
  split <;> first | rfl | simp_all

/-- Cells that are not four are refused wherever they stand. -/
theorem toToken_of_length (afterOperand : Bool) :
    toToken (.cells cells) afterOperand = .error .rowLength := by
  unfold toToken
  dsimp only
  split <;> first | rfl | simp_all

end Length

section Kinds

variable {valueRow : ValueRow} {text : String}
    {entry openBrackets value uncertainty closeBrackets : Entry}
  {o : Operand}

theorem isOperator_operator_iff : IsOperator (.operator text) ↔ IsSign text :=
  ⟨fun isOperator => by cases isOperator; assumption, .sign⟩

theorem isValue_fields_iff : IsValue (.fields valueRow) ↔ valueRow.WellFormed :=
  ⟨fun isValue => by cases isValue; assumption, .fields⟩

theorem isValue_cells_iff : IsValue (.cells [openBrackets, value, uncertainty, closeBrackets])
    ↔ ValueRow.WellFormed { value, uncertainty, openBrackets, closeBrackets } :=
  ⟨fun isValue => by cases isValue; assumption, .cells⟩

/-- Only the text of an operation names one. -/
theorem exists_of_isOperator (isOperator : row.IsOperator) : ∃ text, row = .operator text := by
  cases isOperator with
  | @sign text _ => exact ⟨text, rfl⟩

/-- The text of an operation is no value. -/
theorem not_isValue_operator : ¬IsValue (.operator text) := fun isValue => by cases isValue

/-- What is no row at all is no value. -/
theorem not_isValue_unsupported : ¬IsValue (.unsupported entry) := fun isValue => by cases isValue

/-- Cells that are not four are no value. -/
theorem not_isValue_cells {cells : List Entry} (other : ¬∃ a v u c, cells = [a, v, u, c]) :
    ¬IsValue (.cells cells) := by
  intro isValue
  cases isValue
  exact other ⟨_, _, _, _, rfl⟩

end Kinds

/-- Nothing is wrong with a row other than an operation exactly if it is a value and none stands
before it. -/
theorem faults_eq_nil_of_value (noOperator : ∀ text, row ≠ .operator text)
    (own : row.ownFaults = [] ↔ row.IsValue)
    (place : row.placeFaults afterOperand = Fault.given (afterOperand = true) .missingOperator) :
    row.faults afterOperand = [] ↔ row.Fits afterOperand := by
  have operator : ¬row.IsOperator := fun isOperator =>
    (exists_of_isOperator isOperator).elim noOperator
  unfold faults Fits
  rw [place, List.append_eq_nil_iff, Fault.given_eq_nil_iff, own]
  cases afterOperand <;> simp [operator]

/-- Nothing is wrong with a row exactly if it may come next. -/
theorem faults_eq_nil_iff : row.faults afterOperand = [] ↔ row.Fits afterOperand := by
  -- Operators have faults of their own and of their place; all other rows are values or nothing
  -- that fits.
  cases row with
  | operator text =>
    unfold faults Fits ownFaults placeFaults
    rw [List.append_eq_nil_iff, Fault.given_eq_nil_iff, Fault.given_eq_nil_iff, not_not,
      isOperator_operator_iff]
    cases afterOperand <;> simp [not_isValue_operator]
  | fields valueRow =>
    exact faults_eq_nil_of_value (fun _ same => by cases same)
      (ValueRow.faults_eq_nil_iff.trans isValue_fields_iff.symm) rfl
  | cells cells =>
    refine faults_eq_nil_of_value (fun _ same => by cases same) ?_ rfl
    by_cases four : ∃ a v u c, cells = [a, v, u, c]
    · obtain ⟨_, _, _, _, rfl⟩ := four
      exact ValueRow.faults_eq_nil_iff.trans isValue_cells_iff.symm
    · rw [ownFaults_of_length four]
      exact iff_of_false (List.cons_ne_nil _ _) (not_isValue_cells four)
  | operand o =>
    exact faults_eq_nil_of_value (fun _ same => by cases same) (iff_of_true rfl (.operand o)) rfl
  | unsupported entry =>
    exact faults_eq_nil_of_value (fun _ same => by cases same)
      (iff_of_false (List.cons_ne_nil _ _) not_isValue_unsupported) rfl

/-- An operand that is read stands as a token where none is before it. -/
def placed (read : Except Fault Operand) (afterOperand : Bool) : Except Fault Token := do
  let operand ← read
  if afterOperand then throw .missingOperator
  pure (.operand operand)

theorem toToken_fields (row : ValueRow) :
    toToken (.fields row) afterOperand = placed row.toOperand afterOperand := rfl

theorem toToken_cells (openBrackets value uncertainty closeBrackets : Entry) :
    toToken (.cells [openBrackets, value, uncertainty, closeBrackets]) afterOperand
      = placed
        (ValueRow.toOperand { value, uncertainty, openBrackets, closeBrackets }) afterOperand := rfl

/-- A row that may come next becomes its token, which is an operand exactly if none stands before
it. -/
theorem toToken_of_fits (fits : row.Fits afterOperand) :
    ∃ token, row.toToken afterOperand = .ok token ∧ row.Gives token
      ∧ token.isOperand = !afterOperand := by
  unfold Fits at fits
  -- Behind an operand a row that fits is an operator, and elsewhere it is one of the forms of a
  -- value.
  cases afterOperand with
  | true =>
    rw [if_pos rfl] at fits
    obtain ⟨sign⟩ := fits
    rename_i text
    rcases operator?_cases text with ⟨other, _⟩ | ⟨c, operator, written, _, named, same⟩
    · exact absurd sign other
    · refine ⟨.operator operator, ?_, .sign written same, rfl⟩
      simp only [toToken, named, if_true]
      rfl
  | false =>
    rw [if_neg Bool.false_ne_true] at fits
    cases fits with
    | fields wellFormed =>
      obtain ⟨o, read, describes⟩ := ValueRow.toOperand_of_wellFormed wellFormed
      exact ⟨.operand o, by rw [toToken_fields, read]; rfl, .fields describes, rfl⟩
    | cells wellFormed =>
      obtain ⟨o, read, describes⟩ := ValueRow.toOperand_of_wellFormed wellFormed
      exact ⟨.operand o, by rw [toToken_cells, read]; rfl, .cells describes, rfl⟩
    | operand o => exact ⟨.operand o, rfl, .operand o, rfl⟩

/-- A value that is not read, or that stands behind an operand, is refused for the first of these
faults. -/
theorem placed_of_faults {read : Except Fault Operand} {own : List Fault} {fault : Fault}
    (first : (own ++ Fault.given (afterOperand = true) .missingOperator).head? = some fault)
    (refused : ∀ {fault}, own.head? = some fault → read = .error fault)
    (accepted : own = [] → ∃ o, read = .ok o) :
    placed read afterOperand = .error fault := by
  -- The first fault is one of the value, or else that of its place.
  cases own with
  | nil =>
    obtain ⟨o, rfl⟩ := accepted rfl
    rw [List.nil_append, ← List.append_nil (Fault.given _ _)] at first
    exact Fault.refused_of_head first fun _ none => nomatch none
  | cons other rest =>
    rw [refused rfl]
    cases first
    rfl

/-- A value row is placed or refused for the first of its own faults and that of its place. -/
theorem placed_toOperand {row : ValueRow} {fault : Fault}
    (first : (row.faults ++ Fault.given (afterOperand = true) .missingOperator).head?
      = some fault) :
    placed row.toOperand afterOperand = .error fault :=
  placed_of_faults first ValueRow.toOperand_of_faults fun none =>
    (ValueRow.toOperand_of_wellFormed (ValueRow.faults_eq_nil_iff.1 none)).imp fun _ => And.left

/-- A row that may not come next is refused for the first thing that is wrong with it. -/
theorem toToken_of_faults {fault : Fault} (first : (row.faults afterOperand).head? = some fault) :
    row.toToken afterOperand = .error fault := by
  unfold faults at first
  -- An operator is refused for its text before its place; a value row for what it says, and only
  -- then for its place.
  cases row with
  | operator text =>
    rcases operator?_cases text with ⟨other, unnamed⟩ | ⟨_, _, _, sign, named, _⟩
    · simp only [ownFaults, Fault.given,
        other, not_false_eq_true, if_true, List.cons_append, List.head?_cons,
        Option.some.injEq] at first
      simp only [toToken, unnamed, ← first]
      rfl
    · cases afterOperand with
      | true => simp [ownFaults, placeFaults, Fault.given, sign] at first
      | false =>
        simp only [ownFaults, placeFaults, Fault.given, sign,
          not_true_eq_false, if_false, if_true, List.nil_append, List.head?_cons,
          Option.some.injEq] at first
        simp only [toToken, named, ← first, Bool.false_eq_true, if_false]
        rfl
  | fields row => exact placed_toOperand first
  | cells cells =>
    by_cases four : ∃ a v u c, cells = [a, v, u, c]
    · obtain ⟨_, _, _, _, rfl⟩ := four
      exact placed_toOperand first
    · rw [ownFaults_of_length four] at first
      cases first
      exact toToken_of_length four afterOperand
  | operand o => exact placed_of_faults first nofun fun _ => ⟨o, rfl⟩
  | unsupported entry =>
    cases first
    rfl

/-- Rows each of which may come next, the first of them behind an operand or not. -/
def Alternating (afterOperand : Bool) : List Row → Prop
  | [] => True
  | row :: rows => row.Fits afterOperand ∧ Alternating (!afterOperand) rows

/-- Whether an operand stands before what comes behind so many alternating rows. -/
def behind (afterOperand : Bool) (count : Nat) : Bool := afterOperand != decide (count % 2 = 1)

theorem behind_succ (afterOperand : Bool) (count : Nat) :
    behind afterOperand (count + 1) = behind (!afterOperand) count := by
  unfold behind
  rcases Nat.mod_two_eq_zero_or_one count with even | odd
  · cases afterOperand <;> simp [even, Nat.add_mod]
  · cases afterOperand <;> simp [odd, Nat.add_mod]

/-- Alternating rows go on with a row that fits behind them. -/
theorem alternating_concat_iff {rows : List Row} :
    Alternating afterOperand (rows ++ [row])
      ↔ Alternating afterOperand rows ∧ row.Fits (behind afterOperand rows.length) := by
  induction rows generalizing afterOperand with
  | nil => simp [Alternating, behind]
  | cons first rest ih =>
    rw [List.cons_append, Alternating, ih, Alternating, List.length_cons, behind_succ, and_assoc]

/-- Rows alternate, or there is a first one that has a fault where it stands. -/
theorem alternating_or_fault (afterOperand : Bool) (rows : List Row) :
    Alternating afterOperand rows ∨ ∃ before row after fault, rows = before ++ row :: after
      ∧ Alternating afterOperand before
      ∧ (row.faults (behind afterOperand before.length)).head? = some fault := by
  -- Either the first row has a fault, or the rest of the rows, read from where that row leaves off,
  -- has the first one.
  induction rows generalizing afterOperand with
  | nil => exact .inl trivial
  | cons first rest ih =>
    cases first_faults : first.faults afterOperand with
    | cons fault faults =>
      exact .inr ⟨[], first, rest, fault, rfl, trivial, by simp [behind, first_faults]⟩
    | nil =>
      have fits := faults_eq_nil_iff.1 first_faults
      rcases ih (!afterOperand) with all | ⟨before, row, after, fault, rfl, front, refused⟩
      · exact .inl ⟨fits, all⟩
      · exact .inr ⟨first :: before, row, after, fault, rfl, ⟨fits, front⟩, by
          rwa [List.length_cons, behind_succ]⟩

end Row

namespace Stream

open Row

variable {rows before after : List Row} {row : Row} {last : Option Token} {fault : Fault}

/-- A row that fits is read first, and the others are read behind its token. -/
theorem ofRowsAfter_of_fits (fits : row.Fits (last.any (·.isOperand))) :
    ∃ token, row.Gives token ∧ Option.any (·.isOperand) (some token) = !last.any (·.isOperand)
      ∧ ∀ rows, ofRowsAfter last (row :: rows) = (do
        let tokens ← ofRowsAfter (some token) rows
        pure (token :: tokens)) := by
  obtain ⟨token, read, gives, turn⟩ := toToken_of_fits fits
  exact ⟨token, gives, turn, fun rows => by rw [ofRowsAfter, read, Fault.ok_bind]⟩

/-- Alternating rows that end in a value, or that are none at all, are read as the tokens that they
give. -/
theorem ofRowsAfter_of_alternating (alternating : Alternating (last.any (·.isOperand)) rows)
    (finished : (last = none ∧ rows = []) ∨ behind (last.any (·.isOperand)) rows.length = true) :
    ∃ stream, ofRowsAfter last rows = .ok stream ∧ List.Forall₂ Gives rows stream := by
  induction rows generalizing last with
  | nil =>
    refine ⟨[], if_neg ?_, .nil⟩
    -- The token read last is an operand, if there is one.
    cases last with
    | none => exact Bool.false_ne_true
    | some token => simpa [behind] using finished
  | cons row rows ih =>
    obtain ⟨token, gives, turn, step⟩ := ofRowsAfter_of_fits alternating.1
    have ahead := finished.resolve_left (nomatch ·.2)
    rw [List.length_cons, behind_succ, ← turn] at ahead
    obtain ⟨stream, read, all⟩ := ih (turn ▸ alternating.2) (.inr ahead)
    exact ⟨token :: stream, by rw [step, read]; rfl, .cons gives all⟩

/-- Rows are refused for the first fault of a row that has alternating rows before it. -/
theorem ofRowsAfter_of_fault (alternating : Alternating (last.any (·.isOperand)) before)
    (first : (row.faults (behind (last.any (·.isOperand)) before.length)).head? = some fault) :
    ofRowsAfter last (before ++ row :: after) = .error fault := by
  -- Each row before the faulty one becomes its token, and the reading goes on behind it.
  induction before generalizing last with
  | nil =>
    have refused := toToken_of_faults first
    rw [show behind (last.any (·.isOperand)) [].length = last.any (·.isOperand) from
      Bool.bne_false _] at refused
    rw [List.nil_append, ofRowsAfter, refused]
    rfl
  | cons fitting before ih =>
    obtain ⟨token, _, turn, step⟩ := ofRowsAfter_of_fits alternating.1
    rw [List.length_cons, behind_succ, ← turn] at first
    rw [List.cons_append, step, ih (turn ▸ alternating.2) first]
    rfl

/-- Alternating rows that end in an operation are refused for that. -/
theorem ofRowsAfter_of_trailing (alternating : Alternating (last.any (·.isOperand)) rows)
    (some : last.isSome ∨ rows ≠ [])
    (trailing : behind (last.any (·.isOperand)) rows.length = false) :
    ofRowsAfter last rows = .error .trailingOperator := by
  induction rows generalizing last with
  | nil =>
    -- There is a token read last, and it is no operand.
    obtain ⟨token, rfl⟩ := Option.isSome_iff_exists.1 (some.resolve_right (absurd rfl))
    exact if_pos (by simpa [behind] using trailing)
  | cons row rows ih =>
    obtain ⟨token, _, turn, step⟩ := ofRowsAfter_of_fits alternating.1
    rw [List.length_cons, behind_succ, ← turn] at trailing
    rw [step, ih (turn ▸ alternating.2) (.inl rfl) trailing]
    rfl

/-- What rows are refused for: the first fault of the first row that cannot stand behind the rows
before it, or the operation that they end in. -/
def RefusedFor (rows : List Row) (fault : Fault) : Prop :=
  (∃ before row after, rows = before ++ row :: after ∧ Alternating false before
    ∧ ¬Alternating false (before ++ [row])
      ∧ (row.faults (before.length % 2 = 1)).head? = some fault)
  ∨ Alternating false rows ∧ rows ≠ [] ∧ rows.length % 2 = 0 ∧ fault = .trailingOperator

/-- The place behind rows from the start on is told by their number. -/
theorem behind_start (count : Nat) :
    behind ((none : Option Token).any (·.isOperand)) count = decide (count % 2 = 1) :=
  Bool.false_bne _

/-- Rows are refused for what they can be refused for. -/
theorem ofRows_of_refusedFor (refused : RefusedFor rows fault) : ofRows rows = .error fault := by
  rcases refused with
    ⟨before, row, after, rfl, alternating, _, first⟩ | ⟨alternating, some, even, rfl⟩
  · exact ofRowsAfter_of_fault alternating (by rwa [behind_start])
  · exact ofRowsAfter_of_trailing alternating (.inr some)
      (by rw [behind_start, decide_eq_false (by omega)])

/-- Rows that are none or alternate from a value to a value are read as the tokens that they
give. -/
theorem ofRows_of_alternating (alternating : Alternating false rows)
    (finished : rows = [] ∨ rows.length % 2 = 1) :
    ∃ stream, ofRows rows = .ok stream ∧ List.Forall₂ Gives rows stream :=
  ofRowsAfter_of_alternating alternating
    (finished.imp (⟨rfl, ·⟩) fun odd => by rw [behind_start, decide_eq_true odd])

/-- Rows that do not alternate, or do not end in a value, are refused for something. -/
theorem alternating_or_refused (rows : List Row) :
    (Alternating false rows ∧ (rows = [] ∨ rows.length % 2 = 1))
      ∨ ∃ fault, RefusedFor rows fault := by
  rcases alternating_or_fault false rows with
    alternating | ⟨before, row, after, fault, split, front, first⟩
  · by_cases finished : rows = [] ∨ rows.length % 2 = 1
    · exact .inl ⟨alternating, finished⟩
    · rw [not_or] at finished
      exact .inr ⟨_, .inr ⟨alternating, finished.1, by omega, rfl⟩⟩
  · -- A row with a fault does not fit.
    have misfit : ¬Alternating false (before ++ [row]) := fun alternating => by
      rw [faults_eq_nil_iff.2 (alternating_concat_iff.1 alternating).2] at first
      cases first
    exact .inr ⟨fault, .inl ⟨before, row, after, split, front, misfit, by rwa [← behind_start]⟩⟩

/-- Rows are accepted exactly if they are none or alternate from a value to a value. Each of them
then becomes its token, and otherwise they are refused for the first fault of the first row that
cannot stand where it stands, or for the operation that they end in. -/
theorem ofRows_accepts (rows : List Row) :
    ((∃ stream, ofRows rows = .ok stream)
      ↔ Alternating false rows ∧ (rows = [] ∨ rows.length % 2 = 1))
      ∧ (∀ stream, ofRows rows = .ok stream → List.Forall₂ Gives rows stream)
      ∧ ∀ fault, ofRows rows = .error fault ↔ RefusedFor rows fault := by
  -- Rows are either accepted or refused, so that each of the two is decided by the other.
  have accepted : ∀ stream, ofRows rows = .ok stream → Alternating false rows
      ∧ (rows = [] ∨ rows.length % 2 = 1) := by
    intro stream read
    refine (alternating_or_refused rows).resolve_right fun ⟨fault, refused⟩ => ?_
    cases read.symm.trans (ofRows_of_refusedFor refused)
  refine ⟨⟨fun ⟨stream, read⟩ => accepted stream read, fun ⟨alternating, finished⟩ => ?_⟩,
    fun stream read => ?_,
    fun fault => ⟨fun read => ?_, ofRows_of_refusedFor⟩⟩
  · obtain ⟨stream, read, _⟩ := ofRows_of_alternating alternating finished
    exact ⟨stream, read⟩
  · obtain ⟨alternating, finished⟩ := accepted stream read
    obtain ⟨other, again, all⟩ := ofRows_of_alternating alternating finished
    exact Except.ok.inj (again.symm.trans read) ▸ all
  · rcases alternating_or_refused rows with ⟨alternating, finished⟩ | ⟨other, refused⟩
    · obtain ⟨stream, again, _⟩ := ofRows_of_alternating alternating finished
      cases read.symm.trans again
    · exact Except.error.inj ((ofRows_of_refusedFor refused).symm.trans read) ▸ refused

/-- A ready-made operand is a value as it is, even if its number is none. -/
theorem ofRows_ready_made :
    (Figure.ofText "NaN").magnitude.isNaN = true
      ∧ ofRows [.operand { value := .ofText "NaN", uncertainty := .exact }]
        = .ok [.operand { value := .ofText "NaN", uncertainty := .exact }] :=
  ⟨by decide +kernel, rfl⟩

-- A value row is looked at before the place where it stands.
example :
    ofRows [.fields { value := .text "1" }, .cells [.integer 0, .text "2", .text "-1", .integer 0]]
    = .error .negativeBound := by decide +kernel

end Stream

end PlusMinus
