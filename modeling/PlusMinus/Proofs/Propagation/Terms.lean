import PlusMinus.Proofs.Propagation.Line

/-! Folding an expression term by term: the stream is split at its sums and differences, each term
is multiplied out from the left, and the terms are added up from the left. -/

namespace PlusMinus

namespace Line

variable {α β : Type}

/-- The values of a line in reading order. -/
def values (line : Line α) : List α := line.first :: line.rest.map (·.2)

/-- A line with a function applied to each of its values. -/
def map (f : α → β) (line : Line α) : Line β :=
  ⟨f line.first, line.rest.map fun (operator, a) => (operator, f a)⟩

/-- The terms of a line that starts with a value: a product goes on with the first term, and
anything else starts another one. -/
def termsFrom (first : α) : List (Operator × α) → Line (Line α)
  | [] => ⟨⟨first, []⟩, []⟩
  | (operator, next) :: rest =>
    let later := termsFrom next rest
    if operator.isProduct then ⟨⟨first, (operator, next) :: later.first.rest⟩, later.rest⟩
    else ⟨⟨first, []⟩, (operator, later.first) :: later.rest⟩

/-- A line split at its sums and differences. -/
def terms (line : Line α) : Line (Line α) := termsFrom line.first line.rest

/-- Applies a rule along a line from the left: the operations in the order in which they are done,
and the measure that the last of them leads to. -/
def fromLeft (rule : Operator → Measure → Measure → Operation) (line : Line Measure) :
    List Operation × Measure :=
  line.rest.foldl (fun (steps, m) (operator, next) =>
    let step := rule operator m next
    (steps ++ [step], step.outcome)) ([], line.first)

/-- The products and quotients of a line, each term from the left. -/
def productSteps (line : Line Measure) : List Operation :=
  line.terms.values.flatMap fun term => (term.fromLeft Operator.applyProduct).1

/-- What the terms of a line come to. -/
def outcomes (line : Line Measure) : Line Measure :=
  line.terms.map fun term => (term.fromLeft Operator.applyProduct).2

/-- The sums and differences of what the terms of a line come to, from the left. -/
def sumSteps (line : Line Measure) : List Operation := (line.outcomes.fromLeft Operator.applySum).1

/-- What a line comes to, term by term. -/
def total (line : Line Measure) : Measure := (line.outcomes.fromLeft Operator.applySum).2

end Line

namespace Stream

/-- Does the first product or quotient of neighbouring operands, if there is one. -/
def firstProduct? : Stream → Option (Operation × Stream)
  | [] => none
  | token :: rest =>
    let later := (firstProduct? rest).map fun (step, tokens) => (step, token :: tokens)
    match token, rest with
    | .operand left, .operator operator :: .operand right :: behind =>
      if operator.isProduct then
        let step := operator.apply left.toMeasure right.toMeasure
        some (step, .operand { toMeasure := step.outcome } :: behind)
      else later
    | _, _ => later

/-- A product takes the place of two operands and the operator between them. -/
theorem split_firstProduct? {stream tokens : Stream} {step : Operation}
    (found : stream.firstProduct? = some (step, tokens)) :
    ∃ (front : Stream) (left right : Operand) (operator : Operator) (behind : Stream),
      stream = front ++ .operand left :: .operator operator :: .operand right :: behind
        ∧ tokens = front ++ .operand { toMeasure := step.outcome } :: behind := by
  induction stream generalizing tokens with
  | nil => cases found
  | cons token rest ih =>
    -- A product further behind keeps the first token in front of it.
    have later : (firstProduct? rest).map (fun (step, tokens) => (step, token :: tokens))
        = some (step, tokens) → ∃ (front : Stream) (left right : Operand) (operator : Operator)
          (behind : Stream),
          token :: rest = front ++ .operand left :: .operator operator :: .operand right :: behind
            ∧ tokens = front ++ .operand { toMeasure := step.outcome } :: behind := by
      intro found
      obtain ⟨⟨_, changed⟩, product, same⟩ := Option.map_eq_some_iff.1 found
      cases same
      obtain ⟨front, left, right, operator, behind, rfl, rfl⟩ := ih product
      exact ⟨token :: front, left, right, operator, behind, rfl, rfl⟩
    rw [firstProduct?.eq_def] at found
    dsimp only at found
    split at found
    · split at found
      · cases found
        exact ⟨[], _, _, _, _, rfl, rfl⟩
      · exact later found
    · exact later found

/-- Doing a product makes a stream shorter. -/
theorem length_firstProduct? {stream tokens : Stream} {step : Operation}
    (found : stream.firstProduct? = some (step, tokens)) : tokens.length < stream.length := by
  obtain ⟨front, left, right, operator, behind, rfl, rfl⟩ := split_firstProduct? found
  simp only [List.length_append, List.length_cons]
  omega

/-- Does one product after the other, each time the first one of all that are left. -/
def restartProducts (stream : Stream) : List Operation × Stream :=
  match found : stream.firstProduct? with
  | none => ([], stream)
  | some (step, tokens) =>
    have := length_firstProduct? found
    let (steps, left) := restartProducts tokens
    (step :: steps, left)
termination_by stream.length

end Stream

namespace Line

variable {α : Type}

/-- The first value of a line has no influence on where it is split. -/
theorem termsFrom_first (a b : α) (rest : List (Operator × α)) :
    termsFrom b rest = ⟨⟨b, (termsFrom a rest).first.rest⟩, (termsFrom a rest).rest⟩ := by
  cases rest with
  | nil => rfl
  | cons pair rest =>
    simp only [termsFrom]
    split <;> rfl

/-- A line is folded from the left by its first operation and then by the others. -/
theorem fromLeft_cons (rule : Operator → Measure → Measure → Operation) (first : Measure)
    (operator : Operator) (next : Measure) (rest : List (Operator × Measure)) :
    fromLeft rule ⟨first, (operator, next) :: rest⟩
      = (rule operator first next
            :: (fromLeft rule ⟨(rule operator first next).outcome, rest⟩).1,
          (fromLeft rule ⟨(rule operator first next).outcome, rest⟩).2) := by
  -- What was done before only stands in front of what is done later.
  have behind : ∀ (rest : List (Operator × Measure)) (steps : List Operation) (m : Measure),
      rest.foldl (fun (steps, m) (operator, next) =>
          (steps ++ [rule operator m next], (rule operator m next).outcome)) (steps, m)
        = (steps ++ (fromLeft rule ⟨m, rest⟩).1, (fromLeft rule ⟨m, rest⟩).2) := by
    intro rest
    induction rest with
    | nil => simp [fromLeft]
    | cons pair rest ih =>
      intro steps m
      have front := ih [rule pair.1 m pair.2] (rule pair.1 m pair.2).outcome
      simp only [fromLeft, List.foldl_cons, List.nil_append] at ih front ⊢
      rw [ih, front]
      simp
  exact behind rest [rule operator first next] (rule operator first next).outcome

/-- The operations along a line are those of its operators. -/
theorem operators_fromLeft {rule : Operator → Measure → Measure → Operation}
    (named : ∀ operator m n, (rule operator m n).operator = operator) (line : Line Measure) :
    (line.fromLeft rule).1.map (·.operator) = line.operators := by
  obtain ⟨first, rest⟩ := line
  induction rest generalizing first with
  | nil => rfl
  | cons pair rest ih =>
    rw [fromLeft_cons, List.map_cons, named, ih]
    rfl

/-- The terms of a line hold its products and quotients, in order. -/
theorem operators_terms (line : Line α) :
    line.terms.values.flatMap operators = line.operators.filter (·.isProduct) := by
  obtain ⟨first, rest⟩ := line
  simp only [terms, operators]
  induction rest generalizing first with
  | nil => rfl
  | cons pair rest ih =>
    obtain ⟨operator, next⟩ := pair
    have later := ih next
    -- A product goes on with the first of the later terms, a sum starts a term before it.
    cases kind : operator.isProduct with
    | true => simpa [termsFrom, values, operators, kind] using later
    | false => simpa [termsFrom, values, operators, kind] using later

/-- Between the terms of a line stand its sums and differences, in order. -/
theorem operators_between_terms (line : Line α) :
    line.terms.operators = line.operators.filter (!·.isProduct) := by
  obtain ⟨first, rest⟩ := line
  simp only [terms, operators]
  -- A product stays within its term, and a sum starts the next one.
  induction rest generalizing first with
  | nil => rfl
  | cons pair rest ih =>
    obtain ⟨operator, next⟩ := pair
    have later := ih next
    cases kind : operator.isProduct with
    | true => simpa [termsFrom, kind] using later
    | false => simpa [termsFrom, kind] using later

end Line

namespace Operator

/-- A product or quotient follows the rule of products. -/
theorem apply_product {operator : Operator} (product : operator.isProduct = true) :
    operator.apply = operator.applyProduct := by
  funext left right
  rw [apply, if_pos product]

/-- A sum or difference follows the rule of sums. -/
theorem apply_sum {operator : Operator} (sum : operator.isProduct = false) :
    operator.apply = operator.applySum := by
  funext left right
  rw [apply, if_neg (by simp [sum])]

end Operator

open Line

/-- The products of a line are done term by term, and their outcomes are left to be added up. -/
theorem products_eq_terms (line : Line Measure) :
    measures.products line.first line.rest = (line.productSteps, line.outcomes) := by
  obtain ⟨first, rest⟩ := line
  simp only [productSteps, outcomes, terms]
  -- The outcome of a product is the first value of what is left of its term.
  induction rest generalizing first with
  | nil => rfl
  | cons pair rest ih =>
    obtain ⟨operator, next⟩ := pair
    cases kind : operator.isProduct with
    | true =>
      have later := ih (operator.applyProduct first next).outcome
      rw [termsFrom_first next] at later
      have step : measures.step operator first next = operator.applyProduct first next :=
        congrFun (congrFun (Operator.apply_product kind) first) next
      simp only [Arithmetic.products, termsFrom, kind, if_true, step]
      simp only [measures, Line.values, Line.map, List.flatMap_cons, fromLeft_cons] at later ⊢
      rw [later]
      rfl
    | false =>
      have later := ih next
      simp only [Arithmetic.products, termsFrom, kind]
      rw [later]
      rfl

/-- Sums and differences are done from the left. -/
theorem sums_eq_fromLeft (line : Line Measure)
    (sums : ∀ operator ∈ line.operators, operator.isProduct = false) :
    measures.sums line.first line.rest = line.fromLeft Operator.applySum := by
  obtain ⟨first, rest⟩ := line
  -- Where every operator is a sum or a difference, a step of the measures is one of these.
  induction rest generalizing first with
  | nil => rfl
  | cons pair rest ih =>
    obtain ⟨operator, next⟩ := pair
    have sum : operator.isProduct = false := sums operator (by simp [operators])
    have step : measures.step operator first next = operator.applySum first next :=
      congrFun (congrFun (Operator.apply_sum sum) first) next
    have later := ih (operator.applySum first next).outcome fun op member =>
      sums op (by simp [operators] at member ⊢; exact .inr member)
    simp only [Arithmetic.sums, fromLeft_cons, step]
    rw [← later]
    rfl

/-- Only sums and differences are left between what the terms of a line come to. -/
theorem operators_outcomes (line : Line Measure) :
    line.outcomes.operators = line.operators.filter (!·.isProduct) := by
  rw [← operators_between_terms]
  simp [outcomes, operators, Line.map]

/-- Folding a line adds up what its terms come to. -/
theorem fold_eq_total (line : Line Measure) :
    measures.fold line = ⟨line.productSteps, line.sumSteps, line.total⟩ := by
  -- Between the terms there are only sums, so that what the terms come to is added from the left.
  have sums := sums_eq_fromLeft line.outcomes fun operator member => by
    rw [operators_outcomes] at member
    simpa using (List.mem_filter.1 member).2
  unfold Arithmetic.fold
  rw [products_eq_terms]
  dsimp only
  rw [sums]
  rfl

namespace Line

/-- The products of a line are those of its operators, in order. -/
theorem operators_productSteps (line : Line Measure) :
    line.productSteps.map (·.operator) = line.operators.filter (·.isProduct) := by
  -- Each term holds products only.
  rw [← operators_terms line, productSteps, List.map_flatMap]
  exact congrArg line.terms.values.flatMap (funext (operators_fromLeft fun _ _ _ => rfl))

/-- The sums of a line are those of its operators, in order. -/
theorem operators_sumSteps (line : Line Measure) :
    line.sumSteps.map (·.operator) = line.operators.filter (!·.isProduct) := by
  rw [← operators_outcomes, sumSteps, operators_fromLeft fun _ _ _ => rfl]

end Line

namespace Stream

/-- The products of an alternating stream are those of its operators, and so are the sums. -/
theorem Alternates.operators_fold {stream : Stream} (alternates : stream.Alternates) :
    stream.fold.products.map (·.operator) = stream.operators.filter (·.isProduct)
      ∧ stream.fold.sums.map (·.operator) = stream.operators.filter (!·.isProduct) := by
  obtain ⟨line, _, bare, operators, _⟩ := alternates.exists_line
  obtain ⟨products, sums, _⟩ := fold_of_bare bare
  rw [products, sums, fold_eq_total, ← operators]
  exact ⟨line.operators_productSteps, line.operators_sumSteps⟩

/-- Where no product stands in front, the first one is behind the first token. -/
theorem firstProduct?_cons {token : Token} {rest : Stream}
    (other : ∀ left operator right behind, token = .operand left →
      rest = .operator operator :: .operand right :: behind → operator.isProduct = false) :
    firstProduct? (token :: rest)
      = (firstProduct? rest).map fun (step, tokens) => (step, token :: tokens) := by
  rw [firstProduct?.eq_def]
  dsimp only
  split
  · rename_i left operator right behind
    rw [if_neg (by simp [other left operator right behind rfl rfl])]
  · rfl

/-- Doing the first product changes nothing about whether one stands in front of it. -/
theorem exists_front_of_firstProduct? {stream : Stream} {step : Operation} {operator : Operator}
    {o : Operand} {behind : Stream}
    (found : stream.firstProduct? = some (step, .operator operator :: .operand o :: behind)) :
    ∃ right rest, stream = .operator operator :: .operand right :: rest := by
  obtain ⟨front, left, right, inner, rest, rfl, same⟩ := split_firstProduct? found
  -- The product is the first operand, or it is behind that and leaves it as it is.
  match front, same with
  | [_], same =>
    cases same
    exact ⟨left, _, rfl⟩
  | _ :: _ :: _, same =>
    cases same
    exact ⟨o, _, rfl⟩

/-- Where no product stands in front, the fold passes over the first token. -/
theorem foldProducts_cons {token : Token} {rest : Stream}
    (other : ∀ left operator right behind, token = .operand left →
      rest = .operator operator :: .operand right :: behind → operator.isProduct = false) :
    foldProducts (token :: rest) = ((foldProducts rest).1, token :: (foldProducts rest).2) := by
  by_cases front : ∃ left operator right behind,
      token = .operand left ∧ rest = .operator operator :: .operand right :: behind
  · -- A sum in front is passed over together with its operator.
    obtain ⟨left, operator, right, behind, rfl, rfl⟩ := front
    have sum := other left operator right behind rfl rfl
    have next : foldProducts (.operator operator :: .operand right :: behind)
        = ((foldProducts (.operand right :: behind)).1,
          .operator operator :: (foldProducts (.operand right :: behind)).2) := by
      rw [foldProducts]
      rintro _ _ _ _ ⟨⟩
    rw [foldProducts, if_neg (by simp [sum]), next]
  · rw [foldProducts]
    intro left operator right behind first second
    exact front ⟨left, operator, right, behind, first, second⟩

/-- A fold of products starts with the first one, and goes on with what it leaves. -/
theorem foldProducts_eq_firstProduct? (stream : Stream) :
    stream.foldProducts = match stream.firstProduct? with
      | none => ([], stream)
      | some (step, tokens) => (step :: tokens.foldProducts.1, tokens.foldProducts.2) := by
  induction stream with
  | nil => rw [foldProducts, firstProduct?]
  | cons token rest ih =>
    -- Either the stream starts with a product, or its first token stays and the rest has the first
    -- one.
    by_cases front : ∃ left operator right behind, token = .operand left
        ∧ rest = .operator operator :: .operand right :: behind ∧ operator.isProduct = true
    · obtain ⟨left, operator, right, behind, rfl, rfl, product⟩ := front
      rw [foldProducts, firstProduct?.eq_def]
      dsimp only
      rw [if_pos product, if_pos product]
    · have other : ∀ left operator right behind, token = .operand left →
          rest = .operator operator :: .operand right :: behind → operator.isProduct = false :=
        fun left operator right behind first second =>
          eq_false_of_ne_true fun product =>
            front ⟨left, operator, right, behind, first, second, product⟩
      rw [foldProducts_cons other, firstProduct?_cons other, ih]
      cases found : firstProduct? rest with
      | none => rfl
      | some pair =>
        obtain ⟨step, changed⟩ := pair
        -- No product comes to the front by what is done behind it.
        have still : ∀ left operator right behind, token = .operand left →
            changed = .operator operator :: .operand right :: behind →
              operator.isProduct = false := by
          rintro left operator right behind first rfl
          obtain ⟨right, rest, rfl⟩ := exists_front_of_firstProduct? found
          exact other left operator right rest first rfl
        simp only [Option.map_some]
        rw [foldProducts_cons still]

/-- Starting again from the front after each product does the same operations in the same order. -/
theorem restartProducts_eq (stream : Stream) : stream.restartProducts = stream.foldProducts := by
  -- Each start does the first product of what the one before it left.
  fun_induction restartProducts stream with
  | case1 stream found => rw [foldProducts_eq_firstProduct?, found]
  | case2 stream step tokens found shorter steps left result ih =>
    rw [foldProducts_eq_firstProduct?, found]
    dsimp only
    rw [← ih, result]

/-- An alternating stream is folded term by term: it has a line of measures, which is split into
terms at its sums and differences; each term is multiplied out from the left by the rule of
products, and what the terms come to is added up from the left by the rule of sums. All products and
quotients are done before the sums and differences, each in reading order, with one operation for
each operator; and it makes no difference whether the search for the next product starts again at
the front of the stream. -/
theorem fold_alternating {stream : Stream} (alternates : stream.Alternates) :
    ∃ line, stream.line? = some line
      ∧ stream.fold.result = {
          measure := line.total
          usedProduct := stream.operators.any (·.isProduct)
          usedSum := stream.operators.any (!·.isProduct)
          significantFigures := line.productSteps.getLast?.bind (·.significantFigures)
          decimalPlace := line.sumSteps.getLast?.bind (·.decimalPlace)
          operations := stream.operators.length }
      ∧ stream.fold.steps = line.productSteps ++ line.sumSteps
      ∧ line.productSteps.map (·.operator) = stream.operators.filter (·.isProduct)
      ∧ line.sumSteps.map (·.operator) = stream.operators.filter (!·.isProduct)
      ∧ stream.restartProducts = stream.foldProducts := by
  obtain ⟨line, found, bare, _, _⟩ := alternates.exists_line
  have folded := fold_eq_total line
  obtain ⟨products, sums, _⟩ := fold_of_bare bare
  rw [folded] at products sums
  obtain ⟨inside, between⟩ := alternates.operators_fold
  rw [products] at inside
  rw [sums] at between
  -- There are operations of a kind just when there are operators of that kind.
  have used : ∀ {steps : List Operation} {kind : Operator → Bool},
      steps.map (·.operator) = stream.operators.filter kind →
        (!steps.isEmpty) = stream.operators.any kind := by
    intro steps kind same
    have none : steps.isEmpty = (stream.operators.filter kind).isEmpty := by
      rw [← same, List.isEmpty_map]
    rw [none, Bool.eq_iff_iff]
    simp
  have count : line.productSteps.length + line.sumSteps.length = stream.operators.length := by
    -- Every operator is one of a product or one of a sum.
    have parted := (List.filter_append_perm (·.isProduct) stream.operators).length_eq
    rw [← parted, List.length_append, ← inside, ← between, List.length_map, List.length_map]
  refine ⟨line, found, ?_, by rw [Folding.steps, products, sums], inside, between,
    restartProducts_eq stream⟩
  rw [result_of_bare bare, folded, ← used inside, ← used between, ← count]
  rfl

/-- Quotients and products on both sides of a difference. -/
theorem fold_alternating_quotients :
    (scan "8±0.4/2*3±0.1-5±1/2").Alternates
      ∧ ∃ line, (scan "8±0.4/2*3±0.1-5±1/2").line? = some line
        ∧ (scan "8±0.4/2*3±0.1-5±1/2").fold.result = {
            measure := line.total
            usedProduct := true
            usedSum := true
            significantFigures := line.productSteps.getLast?.bind (·.significantFigures)
            decimalPlace := line.sumSteps.getLast?.bind (·.decimalPlace)
            operations := 4 }
        ∧ (scan "8±0.4/2*3±0.1-5±1/2").fold.steps = line.productSteps ++ line.sumSteps
        ∧ line.productSteps.map (·.operator) = [.div, .mul, .div]
        ∧ line.sumSteps.map (·.operator) = [.sub]
        ∧ (scan "8±0.4/2*3±0.1-5±1/2").restartProducts
          = (scan "8±0.4/2*3±0.1-5±1/2").foldProducts := by
  have alternates : (scan "8±0.4/2*3±0.1-5±1/2").Alternates :=
    ((canonical_scan _).resolve_left (by decide +kernel)).alternates
  have operators : (scan "8±0.4/2*3±0.1-5±1/2").operators = [.div, .mul, .sub, .div] := by
    decide +kernel
  -- Its four operators are the ones that the steps are counted by.
  have folded := fold_alternating alternates
  rw [operators] at folded
  exact ⟨alternates, folded⟩

end Stream

end PlusMinus
