import PlusMinus.Proofs.Double.Undefined
import PlusMinus.Proofs.Measure.Place
import PlusMinus.Proofs.Propagation.Terms

/-! What the last of a chain of operations of one kind says about precision, compared with what the
operands of the chain say. -/

namespace PlusMinus

open Double

namespace Arithmetic

variable {σ α : Type} (A : Arithmetic σ α)

/-- A line without products and quotients is folded from the left. -/
theorem fold_of_sums {line : Line α}
    (sums : ∀ operator ∈ line.operators, operator.isProduct = false) :
    A.fold line = ⟨[], (A.sums line.first line.rest).1, (A.sums line.first line.rest).2⟩ := by
  have none : A.products line.first line.rest = ([], line) := by
    obtain ⟨first, rest⟩ := line
    dsimp only
    -- No operator is a product, so that the line passes through unchanged.
    induction rest generalizing first with
    | nil => rfl
    | cons pair rest ih =>
      obtain ⟨operator, next⟩ := pair
      have sum : operator.isProduct = false := sums operator (by simp [Line.operators])
      have later := ih next fun op member => sums op (by
        simp only [Line.operators, List.map_cons, List.mem_cons] at member ⊢
        exact .inr member)
      simp only [products, sum, later, Bool.false_eq_true, if_false]
  unfold fold
  rw [none]

/-- A line without sums and differences is folded from the left. -/
theorem fold_of_products {line : Line α}
    (all : ∀ operator ∈ line.operators, operator.isProduct = true) :
    A.fold line = ⟨(A.sums line.first line.rest).1, [], (A.sums line.first line.rest).2⟩ := by
  have done : A.products line.first line.rest
      = ((A.sums line.first line.rest).1, ⟨(A.sums line.first line.rest).2, []⟩) := by
    obtain ⟨first, rest⟩ := line
    dsimp only
    -- Every operator is a product, so that each outcome is the first value of what is left.
    induction rest generalizing first with
    | nil => rfl
    | cons pair rest ih =>
      obtain ⟨operator, next⟩ := pair
      have product : operator.isProduct = true := all operator (by simp [Line.operators])
      have later := ih (A.outcome (A.step operator first next)) fun op member => all op (by
        simp only [Line.operators, List.map_cons, List.mem_cons] at member ⊢
        exact .inr member)
      simp only [products, sums, product, later, if_true]
  unfold fold
  rw [done]
  rfl

end Arithmetic

section Place

/-- Uncertainties that are not negative are not larger than a finite sum of them. -/
theorem Double.le_add {u v : Double} (first : u.lt zero = false) (second : v.lt zero = false)
    (isFinite : (u + v).isFinite = true) :
    (0 ≤ u.toRat ∧ u.toRat ≤ (u + v).toRat) ∧ 0 ≤ v.toRat ∧ v.toRat ≤ (u + v).toRat := by
  obtain ⟨left, right⟩ := isFinite_of_add isFinite
  have nonnegative : ∀ {x : Double}, x.isFinite = true → x.lt zero = false → 0 ≤ x.toRat := by
    intro x isFinite sign
    refine not_lt.1 fun below => ?_
    rw [(zero_lt_iff isFinite).2.2 below] at sign
    cases sign
  have least := nonnegative left first
  have least' := nonnegative right second
  -- A sum is not rounded across either of its terms.
  have bound : ∀ {z : Double}, z.isFinite = true → z.toRat ≤ u.toRat + v.toRat →
      z.toRat ≤ (u + v).toRat :=
    fun third => (Operator.add.compute_between left right (by simp) isFinite third).1
  exact ⟨⟨least, bound left (le_add_of_nonneg_right least')⟩, least',
    bound right (le_add_of_nonneg_left least)⟩

/-- The measures of which the uncertainty decides the place have no finer one than a given
measure. -/
def Measure.Covers (m : Measure) (seen : List Measure) : Prop :=
  ∀ n ∈ seen, n.uncertainty.Decides → m.uncertainty.Decides ∧ m.decimalPlace ≤ n.decimalPlace

variable {m n : Measure} {seen : List Measure}

/-- A sum is known no better than any of the terms that went into it, nor than the measures that
went into those. -/
theorem Measure.Covers.sum (covers : m.Covers seen) (operator : Operator)
    (first : m.uncertainty.magnitude.lt zero = false)
    (second : n.uncertainty.magnitude.lt zero = false)
    (isFinite : (m.uncertainty.magnitude + n.uncertainty.magnitude).isFinite = true) :
    (operator.applySum m n).outcome.Covers (seen ++ [n]) := by
  obtain ⟨left, right⟩ := isFinite_of_add isFinite
  obtain ⟨⟨_, least⟩, _, least'⟩ := le_add first second isFinite
  -- The uncertainty of the outcome is written, and it is the sum.
  have grows : ∀ {u : Double}, u.isFinite = true → u.toRat ≤ (m.uncertainty.magnitude
      + n.uncertainty.magnitude).toRat → zero.lt u = true →
      (operator.applySum m n).outcome.uncertainty.Decides
        ∧ (operator.applySum m n).outcome.decimalPlace ≤ -u.roundedOrder := by
    intro u range le positive
    obtain ⟨above, order⟩ := roundedOrder_le_of_le range isFinite positive le
    have decides : (operator.applySum m n).outcome.uncertainty.Decides := ⟨text_ne_empty _, above⟩
    rw [Measure.decimalPlace_of_decides decides isFinite]
    exact ⟨decides, Int.neg_le_neg order⟩
  intro o member decides
  rcases List.mem_append.1 member with member | member
  · obtain ⟨known, place⟩ := covers o member decides
    obtain ⟨outcome, finer⟩ := grows left least known.2
    rw [Measure.decimalPlace_of_decides known left] at place
    exact ⟨outcome, finer.trans place⟩
  · obtain rfl := List.mem_singleton.1 member
    rw [Measure.decimalPlace_of_decides decides right]
    exact grows right least' decides.2

/-- The place of a sum is no finer than those of the terms that decide one, nor than those of the
measures that went into them. -/
theorem Measure.Covers.sumPlace_le (covers : m.Covers seen) {o : Measure} (member : o ∈ seen ++ [n])
    (decides : o.uncertainty.Decides) : Operator.sumPlace m n ≤ o.decimalPlace := by
  -- A term without uncertainty is passed over only beside one that has some.
  have exact : ∀ {u : Figure}, u.Decides → u.magnitude.isZero = false := fun known =>
    isZero_of_lt known.2
  unfold Operator.sumPlace
  rcases List.mem_append.1 member with member | member
  · obtain ⟨known, place⟩ := covers o member decides
    simp only [exact known, Bool.false_eq_true, false_and, if_false]
    split
    · exact place
    · exact (min_le_left _ _).trans place
  · obtain rfl := List.mem_singleton.1 member
    simp only [exact decides, Bool.false_eq_true, false_and, if_false]
    split
    · exact le_rfl
    · exact min_le_right _ _

/-- The sum of uncertainties that are not negative is not negative. -/
theorem Double.lt_zero_add {u v : Double} (first : u.lt zero = false) (second : v.lt zero = false)
    (isFinite : (u + v).isFinite = true) : (u + v).lt zero = false := by
  obtain ⟨⟨least, le⟩, _⟩ := le_add first second isFinite
  refine eq_false_of_ne_true fun below => ?_
  exact absurd ((zero_lt_iff isFinite).2.1 below) (not_lt.2 (least.trans le))

/-- A step at a sum or difference follows the rule of sums. -/
theorem step_of_sum {operator : Operator} (sum : operator.isProduct = false) (m n : Measure) :
    measures.step operator m n = operator.applySum m n :=
  congrFun (congrFun (Operator.apply_sum sum) m) n

/-- A chain of sums that comes to a finite uncertainty starts with one. -/
theorem isFinite_of_sums {rest : List (Operator × Measure)}
    (sums : ∀ pair ∈ rest, pair.1.isProduct = false)
    (isFinite : (measures.sums m rest).2.uncertainty.magnitude.isFinite = true) :
    m.uncertainty.magnitude.isFinite = true := by
  induction rest generalizing m with
  | nil => exact isFinite
  | cons pair rest ih =>
    -- What is left starts with the first sum, which is finite only if its terms are.
    obtain ⟨operator, next⟩ := pair
    have later := ih (fun pair member => sums pair (List.mem_cons_of_mem _ member)) isFinite
    have sum := step_of_sum (sums (operator, next) (by simp)) m next
    rw [sum] at later
    exact (isFinite_of_add later).1

/-- The last of a chain of sums is known no better than any of the terms that decide a place. -/
theorem exists_place_of_sums {rest : List (Operator × Measure)} (some : rest ≠ [])
    (sums : ∀ pair ∈ rest, pair.1.isProduct = false)
    (first : m.uncertainty.magnitude.lt zero = false)
    (bounds : ∀ pair ∈ rest, pair.2.uncertainty.magnitude.lt zero = false)
    (isFinite : (measures.sums m rest).2.uncertainty.magnitude.isFinite = true)
    (covers : m.Covers seen) :
    ∃ step place, (measures.sums m rest).1.getLast? = .some step ∧ step.decimalPlace = .some place
      ∧ ∀ o ∈ seen ++ rest.map (·.2), o.uncertainty.Decides → place ≤ o.decimalPlace := by
  -- The outcome of each sum covers its terms, and goes into the next one.
  induction rest generalizing m seen with
  | nil => exact absurd rfl some
  | cons pair rest ih =>
    obtain ⟨operator, next⟩ := pair
    have sum := step_of_sum (sums (operator, next) (by simp)) m next
    have behind : ∀ pair ∈ rest, pair.1.isProduct = false :=
      fun pair member => sums pair (List.mem_cons_of_mem _ member)
    have range : (m.uncertainty.magnitude + next.uncertainty.magnitude).isFinite = true := by
      have outcome := isFinite_of_sums behind isFinite
      rw [sum] at outcome
      exact outcome
    have second := bounds (operator, next) (by simp)
    have unfolded : (measures.sums m ((operator, next) :: rest)).1
        = operator.applySum m next
          :: (measures.sums (operator.applySum m next).outcome rest).1 := by
      simp only [Arithmetic.sums, sum]
      rfl
    rw [unfolded]
    -- The last operation decides, and it covers all operands before it.
    by_cases last : rest = []
    · subst last
      refine ⟨operator.applySum m next, Operator.sumPlace m next, rfl, rfl, fun o member => ?_⟩
      exact covers.sumPlace_le (by simpa using member)
    · obtain ⟨step, place, found, known, all⟩ := ih last behind
        (m := (operator.applySum m next).outcome) (lt_zero_add first second range)
        (fun pair member => bounds pair (List.mem_cons_of_mem _ member)) (sum ▸ isFinite)
        (covers.sum operator first second range)
      refine ⟨step, place, ?_, known, by simpa using all⟩
      rw [List.getLast?_cons, found, Option.getD_some]

end Place

namespace Stream

/-- A chain of sums and differences with a finite total uncertainty is not reported to be known
better than any of its operands that has a positive uncertainty, wherever the exact ones stand. No
uncertainty is below zero, as none of a canonical measure is. -/
theorem place_le_of_uncertain {stream : Stream} (alternates : stream.Alternates)
    (sums : ∀ operator ∈ stream.operators, operator.isProduct = false)
    (some : stream.operators ≠ [])
    (bounds : ∀ o ∈ stream.operands, o.error.lt zero = false)
    (isFinite : stream.fold.result.measure.uncertainty.magnitude.isFinite = true) :
    ∃ place, stream.fold.result.decimalPlace = .some place
      ∧ ∀ o ∈ stream.operands, o.uncertainty.Decides → place ≤ o.decimalPlace := by
  obtain ⟨line, found, bare, operators, _⟩ := alternates.exists_line
  have values := values_of_line? found
  rw [← operators] at sums some
  rw [result_of_bare bare, measures.fold_of_sums sums] at isFinite ⊢
  have measure : ∀ n ∈ line.first :: line.rest.map (·.2),
      n.uncertainty.magnitude.lt zero = false := by
    intro n member
    rw [values] at member
    obtain ⟨o, listed, rfl⟩ := List.mem_map.1 member
    exact bounds o listed
  -- The first operand covers itself, and every sum after it covers what went into it.
  have covers : line.first.Covers [line.first] := fun n member decides => by
    obtain rfl := List.mem_singleton.1 member
    exact ⟨decides, le_rfl⟩
  have bounds : ∀ pair ∈ line.rest, pair.2.uncertainty.magnitude.lt zero = false :=
    fun pair member => measure _ (List.mem_cons_of_mem _ (List.mem_map_of_mem member))
  obtain ⟨step, place, last, known, all⟩ := exists_place_of_sums
    (fun empty => some (by simp [Line.operators, empty]))
    (fun pair member => sums _ (List.mem_map_of_mem member))
      (measure _ (by simp)) bounds isFinite covers
  refine ⟨place, ?_, fun o member decides => ?_⟩
  · simp only [Folded.propagated, last, Option.bind_some, known]
  · refine all o.toMeasure ?_ decides
    rw [List.singleton_append, values]
    exact List.mem_map_of_mem member

/-- Exact operands in front of uncertain ones, between them and behind them. -/
theorem place_le_of_uncertain_mixed :
    ∃ place, (scan "100-2±0.03+5±2-1").fold.result.decimalPlace = .some place
      ∧ ∀ o ∈ (scan "100-2±0.03+5±2-1").operands, o.uncertainty.Decides →
        place ≤ o.decimalPlace := by
  have canonical := (canonical_scan "100-2±0.03+5±2-1").resolve_left (by decide +kernel)
  exact place_le_of_uncertain canonical.alternates (by decide +kernel) (by decide +kernel)
    (fun o member =>
      lt_zero_of_nonnegative
        (canonical.operands o (mem_operands.1 member)).measure.written.nonnegative)
    (by decide +kernel)

end Stream

namespace Arithmetic

variable {σ α : Type} {A : Arithmetic σ α} (kept : α → Prop) (figures : α → Int)
    (count : σ → Option Int)

/-- In a chain in which every operation counts as many figures as the lesser of its values, the last
one counts no more than a value does, if no outcome from that value on, but for the last, counts
more than the operation that led to it. -/
theorem exists_count_of_sums {first : α} {rest : List (Operator × α)} (some : rest ≠ [])
    (least : ∀ pair ∈ rest, ∀ a b, kept a → kept b →
      count (A.step pair.1 a b) = .some (min (figures a) (figures b))
        ∧ kept (A.outcome (A.step pair.1 a b)))
    (all : Line.All kept ⟨first, rest⟩) {place : Nat} {a : α}
    (found : (first :: rest.map (·.2))[place]? = .some a)
    (honest : ∀ step ∈ ((A.sums first rest).1.drop (place - 1)).dropLast, ∀ n,
      count step = .some n → figures (A.outcome step) ≤ n) :
    ∃ step n, (A.sums first rest).1.getLast? = .some step ∧ count step = .some n
      ∧ n ≤ figures a := by
  -- The first two values go into the first operation, and its outcome is the first value of what is
  -- left.
  induction rest generalizing first place a with
  | nil => exact absurd rfl some
  | cons pair rest ih =>
    obtain ⟨operator, next⟩ := pair
    obtain ⟨known, outcome⟩ := least (operator, next) (by simp) first next all.first
      (all.rest (operator, next) (by simp))
    have unfolded : (A.sums first ((operator, next) :: rest)).1
        = A.step operator first next :: (A.sums (A.outcome (A.step operator first next)) rest).1 :=
          rfl
    rw [unfolded] at honest ⊢
    have early : place < 2 → min (figures first) (figures next) ≤ figures a := by
      intro early
      rcases place with _ | _ | place
      · cases found
        exact min_le_left _ _
      · cases found
        exact min_le_right _ _
      · omega
    by_cases last : rest = []
    · -- The only operation counts no more than either of its two values.
      subst last
      exact ⟨_, _, rfl, known, early (List.getElem?_eq_some_iff.1 found).1⟩
    · have later := @ih (A.outcome (A.step operator first next)) last
        (fun pair member => least pair (List.mem_cons_of_mem _ member))
        ⟨outcome, fun pair member => all.rest pair (List.mem_cons_of_mem _ member)⟩
      have some' : (A.sums (A.outcome (A.step operator first next)) rest).1 ≠ [] := by
        obtain ⟨pair, rest, rfl⟩ := List.exists_cons_of_ne_nil last
        simp [sums]
      rw [List.getLast?_cons_of_ne_nil some']
      rcases Nat.lt_or_ge place 2 with front | late
      · -- The first operation counts no more than the value, and its outcome no more than the
        -- operation.
        rw [show place - 1 = 0 by omega, List.drop_zero, List.dropLast_cons_of_ne_nil some']
          at honest
        simp only [List.mem_cons, forall_eq_or_imp] at honest
        obtain ⟨step, n, found, counted, bound⟩ := @later 0 _ rfl honest.2
        exact ⟨step, n, found, counted, (bound.trans (honest.1 _ known)).trans (early front)⟩
      · obtain ⟨place, rfl⟩ := Nat.exists_eq_add_of_le' late
        exact @later (place + 1) _ found (by simpa using honest)

end Arithmetic

/-- A sum of exact measures counts as many decimal places as the lesser of its terms, and is
exact. -/
theorem Operator.applySum_exact (operator : Operator) {m n : Measure}
    (first : m.uncertainty.magnitude.isZero = true)
    (second : n.uncertainty.magnitude.isZero = true) :
    (operator.applySum m n).decimalPlace = some (min m.decimalPlace n.decimalPlace)
      ∧ (operator.applySum m n).outcome.uncertainty.magnitude.isZero = true := by
  have none : ∀ {u : Double}, u.isZero = true → zero.lt u = false := fun nothing =>
    eq_false_of_ne_true fun above => by simp [isZero_of_lt above] at nothing
  constructor
  · simp [applySum, sumPlace, none first, none second]
  · exact isZero_add first second

namespace Stream

/-- A chain of operations of one kind, of sums without uncertainty or of products, is not reported
to be known better than an operand, if no intermediate result from that operand on is written as if
it were known better than the operation that led to it. -/
theorem precision_le_of_honest {stream : Stream} (alternates : stream.Alternates)
    (some : stream.operators ≠ []) {place : Nat} {o : Operand}
    (found : stream.operands[place]? = .some o) :
    ((∀ operator ∈ stream.operators, operator.isProduct = true) →
        (∀ step ∈ (stream.fold.products.drop (place - 1)).dropLast, ∀ n,
          step.significantFigures = .some n → step.outcome.significantFigures ≤ n) →
        ∃ n, stream.fold.result.significantFigures = .some n ∧ n ≤ o.significantFigures)
      ∧ ((∀ operator ∈ stream.operators, operator.isProduct = false) →
        (∀ p ∈ stream.operands, p.isExact = true) →
        (∀ step ∈ (stream.fold.sums.drop (place - 1)).dropLast, ∀ n,
          step.decimalPlace = .some n → step.outcome.decimalPlace ≤ n) →
        ∃ n, stream.fold.result.decimalPlace = .some n ∧ n ≤ o.decimalPlace) := by
  obtain ⟨line, listed, bare, operators, all⟩ := alternates.exists_line
  -- Only the place of the operand in the line matters from here on.
  have value : (line.first :: line.rest.map (·.2))[place]? = .some o.toMeasure := by
    rw [values_of_line? listed, List.getElem?_map, found, Option.map_some]
  have some' : line.rest ≠ [] := fun empty => some (by simp [← operators, Line.operators, empty])
  obtain ⟨products, sums, _⟩ := fold_of_bare bare
  rw [result_of_bare bare, products, sums, ← operators]
  refine ⟨fun kind honest => ?_, fun kind exact honest => ?_⟩
  · -- A product counts as many figures as the lesser of its factors.
    rw [measures.fold_of_products kind] at honest ⊢
    obtain ⟨step, n, last, counted, le⟩ := Arithmetic.exists_count_of_sums (fun _ => True)
      Measure.significantFigures Operation.significantFigures some'
      (fun pair member a b _ _ => ⟨by
        have product := kind pair.1 (List.mem_map_of_mem member)
        change (pair.1.apply a b).significantFigures = _
        rw [Operator.apply_product product]
        rfl, trivial⟩)
      ⟨trivial, fun _ _ => trivial⟩ value honest
    exact ⟨n, by simp only [Folded.propagated, last, Option.bind_some, counted], le⟩
  · -- A sum of exact terms counts as many decimal places as the lesser of them.
    rw [measures.fold_of_sums kind] at honest ⊢
    obtain ⟨step, n, last, counted, le⟩ := Arithmetic.exists_count_of_sums
      (fun m => m.uncertainty.magnitude.isZero = true) Measure.decimalPlace
        Operation.decimalPlace some'
      (fun pair member a b first second => by
        rw [step_of_sum (kind pair.1 (List.mem_map_of_mem member))]
        exact pair.1.applySum_exact first second)
      (all _ fun p member => exact p (mem_operands.2 member)) value honest
    exact ⟨n, by simp only [Folded.propagated, last, Option.bind_some, counted], le⟩

/-- The first of three uncertain factors, whose product with the second one is as uncertain as they
are. -/
theorem precision_le_of_honest_products :
    ∃ n, (scan "4±2*2±1*3.00").fold.result.significantFigures = .some n
      ∧ n ≤ (Operand.mk ⟨.ofText "4", .ofText "2"⟩ 0 0).significantFigures := by
  have alternates : (scan "4±2*2±1*3.00").Alternates :=
    ((canonical_scan _).resolve_left (by decide +kernel)).alternates
  have found : (scan "4±2*2±1*3.00").operands[0]? = .some (.mk ⟨.ofText "4", .ofText "2"⟩ 0 0) := by
    decide +kernel
  exact (precision_le_of_honest alternates (by decide +kernel) found).1 (by decide +kernel)
    (by decide +kernel)

/-- An intermediate result is written anew and forgets the zeros and the point of its operands: the
chain counts more significant figures, or more decimal places, than one of its operands. -/
theorem precision_above_operand :
    ((scan "2.0*3*4").Alternates
      ∧ (∀ operator ∈ (scan "2.0*3*4").operators, operator.isProduct = true)
        ∧ (∀ o ∈ (scan "2.0*3*4").operands, o.nominal.isFinite = true ∧ o.nominal.isZero = false
          ∧ o.error.isFinite = true)
        ∧ (scan "2.0*3*4").fold.result.significantFigures = .some 999
        ∧ ∃ o ∈ (scan "2.0*3*4").operands, o.significantFigures = 2)
      ∧ (scan "0.1+0.2+0.25").Alternates
        ∧ (∀ operator ∈ (scan "0.1+0.2+0.25").operators, operator.isProduct = false)
        ∧ (∀ o ∈ (scan "0.1+0.2+0.25").operands, o.isExact = true)
        ∧ (scan "0.1+0.2+0.25").fold.result.decimalPlace = .some 2
        ∧ ∃ o ∈ (scan "0.1+0.2+0.25").operands, o.decimalPlace = 1 := by
  have products := ((canonical_scan "2.0*3*4").resolve_left (by decide +kernel)).alternates
  have sums := ((canonical_scan "0.1+0.2+0.25").resolve_left (by decide +kernel)).alternates
  exact ⟨⟨products, by decide +kernel⟩, sums, by decide +kernel⟩

end Stream

end PlusMinus
