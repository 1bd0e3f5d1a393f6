import PlusMinus.Proofs.Double.Order
import PlusMinus.Proofs.Propagation.Remainder

/-! What uncertainties have an influence on: never the value that an expression comes to, and its
uncertainty only in their own direction. -/

namespace PlusMinus

open PlusMinus.Stream

/-- A token with an exact value in the place of an uncertain one. -/
def Token.certain : Token → Token
  | .operand o => .operand { o with uncertainty := .exact }
  | token => token

namespace Operator

/-- The uncertainty of a product or quotient is as large a part of it as those of its operands
together are of them. -/
theorem uncertainty_outcome_product {operator : Operator} (product : operator.isProduct = true)
    (left right : Measure) :
    (operator.apply left right).outcome.uncertainty.magnitude
      = (operator.compute left.value.magnitude right.value.magnitude).abs
        * (left.uncertainty.magnitude / left.value.magnitude.abs
          + right.uncertainty.magnitude / right.value.magnitude.abs) := by
  rw [apply, if_pos product]
  rfl

/-- The uncertainty of a sum or difference is the sum of the uncertainties. -/
theorem uncertainty_outcome_sum {operator : Operator} (sum : operator.isProduct = false)
    (left right : Measure) :
    (operator.apply left right).outcome.uncertainty.magnitude
      = left.uncertainty.magnitude + right.uncertainty.magnitude := by
  rw [apply, if_neg (by simp [sum])]
  rfl

end Operator

/-- Operations and brackets pass on equal values, whatever their uncertainties are. -/
theorem measures_value_related : measures.Related measures fun m n => m.value = n.value where
  step := by
    intro operator a b x y left right
    change (operator.apply a b).outcome.value = (operator.apply x y).outcome.value
    rw [operator.value_outcome, operator.value_outcome, left, right]
  bracket := by
    intro a x same
    change Figure.ofText a.value.digits = Figure.ofText x.value.digits
    rw [same]

namespace Measure

/-- Two written measures with the same value, the first not with the larger uncertainty. -/
structure NoLessCertain (m n : Measure) : Prop where
  first : m.Written
  second : n.Written
  value : m.value = n.value
  uncertainty : m.uncertainty.magnitude.NotAbove n.uncertainty.magnitude

end Measure

/-- Operations and brackets pass on the order of uncertainties. -/
theorem measures_noLessCertain_related : measures.Related measures Measure.NoLessCertain where
  step := by
    intro operator a b x y left right
    refine ⟨operator.written_outcome left.first.nonnegative right.first.nonnegative,
      operator.written_outcome left.second.nonnegative right.second.nonnegative,
      measures_value_related.step operator left.value right.value, ?_⟩
    change (operator.apply a b).outcome.uncertainty.magnitude.NotAbove
      (operator.apply x y).outcome.uncertainty.magnitude
    cases kind : operator.isProduct with
    | true =>
      -- The relative uncertainties are in order, and so are their sum and its part of the same
      -- total.
      rw [Operator.uncertainty_outcome_product kind, Operator.uncertainty_outcome_product kind,
        left.value, right.value]
      have before := left.uncertainty.div_right left.first.nonnegative left.second.nonnegative
        (Double.isNegative_abs x.value.magnitude)
      have behind := right.uncertainty.div_right right.first.nonnegative right.second.nonnegative
        (Double.isNegative_abs y.value.magnitude)
      have parts (m n : Measure) (written : m.Written) :
          (m.uncertainty.magnitude / n.value.magnitude.abs).isNegative = false :=
        Double.isNegative_div written.nonnegative (Double.isNegative_abs _)
      exact (before.add behind).mul_left
        (Double.isNegative_add (parts a x left.first) (parts b y right.first))
        (Double.isNegative_add (parts x x left.second) (parts y y right.second))
        (Double.isNegative_abs _)
    | false =>
      rw [Operator.uncertainty_outcome_sum kind, Operator.uncertainty_outcome_sum kind]
      exact left.uncertainty.add right.uncertainty
  bracket := by
    intro a x related
    -- What is read again has the same digits, and is the same but for the signs of zeros.
    refine ⟨related.first.canonical_reread.written, related.second.canonical_reread.written,
      measures_value_related.bracket related.value, ?_⟩
    exact related.uncertainty.congr related.first.reread_alike.uncertainty.symm
      related.second.reread_alike.uncertainty.symm

namespace Stream

/-- Operands that agree but for their uncertainties have the same value and the same brackets. -/
theorem agree_of_certain {o p : Operand}
    (same : (Token.operand o).certain = (Token.operand p).certain) :
    o.value = p.value ∧ o.openBrackets = p.openBrackets ∧ o.closeBrackets = p.closeBrackets := by
  obtain ⟨⟨v, u⟩, opens, closes⟩ := o
  obtain ⟨⟨w, t⟩, opens', closes'⟩ := p
  simp only [Token.certain, Token.operand.injEq, Operand.mk.injEq, Measure.mk.injEq] at same
  exact ⟨same.1.1, same.2⟩

/-- Tokens that agree but for their uncertainties are two operands, or one and the same token. -/
theorem certain_cases {a b : Token} (same : a.certain = b.certain) :
    (∃ o p, a = .operand o ∧ b = .operand p) ∨ (a = b ∧ a.isOperand = false) := by
  -- Only operands lose something, so tokens of different kinds do not agree.
  cases a with
  | operand o =>
    cases b with
    | operand p => exact .inl ⟨o, p, rfl, rfl⟩
    | operator operator => cases same
    | word text => cases same
  | operator operator =>
    cases b with
    | operand p => cases same
    | operator operator' => exact .inr ⟨same, rfl⟩
    | word text => cases same
  | word text =>
    cases b with
    | operand p => cases same
    | operator operator => cases same
    | word text' => exact .inr ⟨same, rfl⟩

/-- Streams that agree but for their uncertainties are spelled alike when the operands of the first
stand for the measures of the second. -/
theorem spell_of_certain {first second : Stream}
    (same : first.map Token.certain = second.map Token.certain)
    (measure : Nat → Operand → Measure) (index : Nat)
    (stand : ∀ place p, second.operands[place]? = some p →
      ∀ o, measure (index + place) o = p.toMeasure) :
    first.spell (.ofMeasures measure) index = second.spell .written index := by
  -- The two are read side by side, and only operands count on.
  induction first generalizing second index with
  | nil =>
    cases second with
    | nil => rfl
    | cons => simp at same
  | cons token rest ih =>
    cases second with
    | nil => simp at same
    | cons token' rest' =>
      simp only [List.map_cons, List.cons.injEq] at same
      obtain ⟨front, later⟩ := same
      obtain ⟨o, p, rfl, rfl⟩ | ⟨rfl, other⟩ := certain_cases front
      · obtain ⟨_, opens, closes⟩ := agree_of_certain front
        have here : measure index o = p.toMeasure := stand 0 p rfl o
        have behind := ih later (index + 1) fun place q found r => by
          rw [Nat.add_right_comm, Nat.add_assoc]
          exact stand (place + 1) q (by simpa using found) r
        simp only [spell, behind]
        simp only [Spelling.ofMeasures, Spelling.written, Spelling.bracketed_characters,
          here, opens, closes]
      · cases token with
        | operand o => cases other
        | operator operator =>
          simp only [spell, ih later index stand]
          rfl
        | word text => exact ih later index stand

/-- Streams that agree but for their uncertainties have operands with the same values in the same
places. -/
theorem exists_operand_of_certain {first second : Stream}
    (same : first.map Token.certain = second.map Token.certain) {place : Nat} {o : Operand}
    (found : first.operands[place]? = some o) :
    ∃ p, second.operands[place]? = some p ∧ o.value = p.value := by
  -- Making a token exact keeps whether it is an operand, and its value.
  have values (stream : Stream) :
      (operands (stream.map Token.certain)).map (·.value) = stream.operands.map (·.value) := by
    induction stream with
    | nil => rfl
    | cons token rest ih =>
      cases token with
      | operand o => exact congrArg (o.value :: ·) ih
      | operator operator => exact ih
      | word text => exact ih
  have listed : (first.operands.map (·.value))[place]? = some o.value := by simp [found]
  rw [← values, same, values, List.getElem?_map, Option.map_eq_some_iff] at listed
  obtain ⟨p, member, value⟩ := listed
  exact ⟨p, member, value.symm⟩

/-- The measure of the operand at an index of a stream. -/
def measureAt (stream : Stream) (index : Nat) (o : Operand) : Measure :=
  (stream.operands[index]?.getD o).toMeasure

/-- An operand that is there is the one whose measure is taken. -/
theorem measureAt_of_getElem? {stream : Stream} {index : Nat} {p : Operand}
    (found : stream.operands[index]? = some p) (o : Operand) :
    stream.measureAt index o = p.toMeasure := by
  rw [measureAt, found, Option.getD_some]

/-- Solving two streams that agree but for their uncertainties leads to related measures. -/
theorem measure_solve_related {R : Measure → Measure → Prop} (related : measures.Related measures R)
    {first second : Stream} (canonical : first.Canonical) (canonical' : second.Canonical)
    (same : first.map Token.certain = second.map Token.certain) (balanced : first.Balanced)
    (pairs : ∀ (place : Nat) (o p : Operand), first.operands[place]? = some o →
      second.operands[place]? = some p → o.value = p.value → R o.toMeasure p.toMeasure)
    (config : Config) :
    R (solve config first.render).result.measure (solve config second.render).result.measure := by
  -- The tree of the first stream serves for both, with the measures of the second at its leaves.
  obtain ⟨tree, found⟩ := exists_tree? canonical.alternates balanced
  have operand : ∀ leaf ∈ tree.leaves, ∃ p, first.operands[leaf.1]? = some leaf.2
      ∧ second.operands[leaf.1]? = some p ∧ leaf.2.value = p.value := by
    intro leaf member
    rw [Chain.leaves, spell_tree? .leaves found] at member
    obtain ⟨place, index, listed⟩ := getElem?_of_mem_leaves member
    rw [Nat.zero_add] at index
    subst index
    -- The operand at the same place of the second stream differs in its uncertainty only.
    obtain ⟨p, other, value⟩ := exists_operand_of_certain same listed
    exact ⟨p, listed, other, value⟩
  have ours : AllStandFor (fun _ o => o.toMeasure) tree.leaves := by
    intro leaf member
    obtain ⟨p, listed, _, _⟩ := operand leaf member
    exact (canonical.operands leaf.2 (mem_operands.1 (List.mem_of_getElem? listed))).measure
  have theirs : AllStandFor second.measureAt tree.leaves := by
    intro leaf member
    obtain ⟨p, _, listed, _⟩ := operand leaf member
    rw [measureAt_of_getElem? listed]
    exact (canonical'.operands p (mem_operands.1 (List.mem_of_getElem? listed))).measure
  have agree : ∀ leaf ∈ tree.leaves, R leaf.2.toMeasure (second.measureAt leaf.1 leaf.2) := by
    intro leaf member
    obtain ⟨p, listed, other, value⟩ := operand leaf member
    rw [measureAt_of_getElem? other]
    exact pairs _ _ _ listed other value
  -- Both expressions are spellings of the tree.
  have left : first.render = String.ofList (tree.spell .written) := by
    rw [spell_tree? .written found, ← toList_render canonical.alternates, String.ofList_toList]
  have right : second.render = String.ofList (tree.spell (.ofMeasures second.measureAt)) := by
    have spelled := spell_of_certain same second.measureAt 0 fun place p listed o => by
      rw [Nat.zero_add, measureAt_of_getElem? listed]
    rw [spell_tree? _ found, spelled, ← toList_render canonical'.alternates, String.ofList_toList]
  -- The same brackets are resolved in both, and what is left folds to related measures.
  have remainders := tree.remainder_related (fun _ o => o.toMeasure) second.measureAt related agree
    config.maxBracketIterations.toNat
  have solved := tree.measure_solve_spell ours config
  have solved' := tree.measure_solve_spell theirs config
  rw [left, right]
  exact solved.symm ▸ solved'.symm ▸ related.step.fold remainders.first remainders.rest

/-- For two texts that are read alike but for their uncertainties, solving leads to the same value;
and to an uncertainty that is not larger when none of those of the operands is, unless one of the
two is no number. -/
theorem solve_uncertainty (config : Config) (first second : String)
    (same : (scan first).map Token.certain = (scan second).map Token.certain)
    (balanced : (scan first).Balanced) :
    let m := (solve config (scan first).render).result.measure
    let n := (solve config (scan second).render).result.measure
    m.value = n.value
      ∧ ((∀ pair ∈ (scan first).operands.zip (scan second).operands,
            pair.1.error.le pair.2.error = true) →
          m.uncertainty.magnitude.isNaN = false → n.uncertainty.magnitude.isNaN = false →
          m.uncertainty.magnitude.le n.uncertainty.magnitude = true) := by
  dsimp only
  rcases canonical_scan first with nothing | canonical
  · -- Texts without operands are both solved as the empty expression.
    have nothing' : scan second = [] := by
      rw [nothing] at same
      exact List.map_eq_nil_iff.1 same.symm
    rw [nothing, nothing']
    exact ⟨rfl, fun _ left right => (Double.NotAbove.of_alike (.refl _)).le left right⟩
  · -- The second text has operands where the first has them.
    have canonical' := (canonical_scan second).resolve_left fun nothing => by
      rw [nothing] at same
      have none := List.map_eq_nil_iff.1 same
      have alternates := canonical.alternates
      rw [none] at alternates
      cases alternates
    -- The same run is related twice: by its values, and by the order of its uncertainties.
    refine ⟨measure_solve_related measures_value_related canonical canonical' same balanced
      (fun _ _ _ _ _ value => value) config, fun ordered left right => ?_⟩
    have order := measure_solve_related measures_noLessCertain_related canonical canonical' same
      balanced (fun place o p found other value => ?_) config
    · exact order.uncertainty.le left right
    · have member : (o, p) ∈ (scan first).operands.zip (scan second).operands :=
        List.mem_of_getElem? (i := place) (by simp [List.getElem?_zip_eq_some, found, other])
      exact ⟨(canonical.operands o (mem_operands.1 (List.mem_of_getElem? found))).measure.written,
        (canonical'.operands p (mem_operands.1 (List.mem_of_getElem? other))).measure.written,
        value, .of_le (ordered (o, p) member)⟩

/-- More uncertain factors and divisors, in a bracket and outside of it. -/
theorem solve_uncertainty_nested :
    let first := "(2±0.1-3)*4±0.2/(5±0)"
    let second := "(2±0.3-3±1)*4±0.2/(5±2)"
    let m := (solve default (scan first).render).result.measure
    let n := (solve default (scan second).render).result.measure
    (scan first).map Token.certain = (scan second).map Token.certain ∧ (scan first).Balanced
      ∧ m.value = n.value ∧ m.uncertainty.magnitude.le n.uncertainty.magnitude = true := by
  have same : (scan "(2±0.1-3)*4±0.2/(5±0)").map Token.certain
      = (scan "(2±0.3-3±1)*4±0.2/(5±2)").map Token.certain := by decide +kernel
  have balanced : (scan "(2±0.1-3)*4±0.2/(5±0)").Balanced := by decide +kernel
  have solved := solve_uncertainty default _ _ same balanced
  exact ⟨same, balanced, solved.1,
    solved.2 (by decide +kernel) (by decide +kernel) (by decide +kernel)⟩

end Stream

end PlusMinus
