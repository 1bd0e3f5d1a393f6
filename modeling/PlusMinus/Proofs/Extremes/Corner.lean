import Mathlib.Data.List.Nodup
import PlusMinus.Proofs.Decimal.Order
import PlusMinus.Proofs.Expression.Chosen
import PlusMinus.Proofs.Extremes.Range
import PlusMinus.Proofs.Stream.RoundTrip

/-! The range of sums and differences: each operand moves them in one direction only, so that no
choice of bounds leads out of the range that is found by trying one operand after the other. -/

namespace PlusMinus

open PlusMinus.Stream

/-- Whether an operation takes its second operand away. -/
def Operator.subtracts : Operator → Bool
  | .sub => true
  | _ => false

/-- An operand of an expression with its index, and whether it is subtracted in the end. -/
structure Signed where
  subtracted : Bool
  index : Nat
  operand : Operand

/-- An operand with its index alone. -/
def Signed.leaf (s : Signed) : Nat × Operand := (s.index, s.operand)

mutual

/-- The operands of a part, each with whether it is subtracted in the end. -/
def Part.signed (subtracted : Bool) : Part → List Signed
  | .operand index o => [⟨subtracted, index, o⟩]
  | .bracket inside => inside.signed subtracted subtracted

/-- The operands of a chain, each with whether it is subtracted in the end, where the chain as a
whole and its first part may be subtracted themselves. -/
def Chain.signed (whole front : Bool) : Chain → List Signed
  | .last part => part.signed front
  | .more part operator rest => part.signed front ++ rest.signed whole (whole != operator.subtracts)

end

/-- The operators alone. -/
def Spelling.operators : Spelling Operator where
  opening := []
  closing := []
  operand _ _ := []
  sign operator := [operator]

mutual

/-- The operands of a part with signs are its operands. -/
theorem Part.map_signed : ∀ (part : Part) (subtracted : Bool),
    (part.signed subtracted).map Signed.leaf = part.spell .leaves
  | .operand index o, subtracted => rfl
  | .bracket inside, subtracted => by
    simp [Part.signed, Part.spell, Spelling.leaves, inside.map_signed subtracted subtracted]

/-- The operands of a chain with signs are its operands. -/
theorem Chain.map_signed : ∀ (chain : Chain) (whole front : Bool),
    (chain.signed whole front).map Signed.leaf = chain.spell .leaves
  | .last part, whole, front => part.map_signed front
  | .more part operator rest, whole, front => by
    rw [Chain.signed, List.map_append, part.map_signed, rest.map_signed, Chain.spell]
    simp [Spelling.leaves]

end

namespace Double

/-- The order of doubles or the opposite order, as far as both are numbers. -/
def Ordered : Bool → Double → Double → Prop
  | false, x, y => x.NotAbove y
  | true, x, y => y.NotAbove x

namespace Ordered

variable {swapped : Bool} {x y z w : Double}

/-- Doubles that are alike are in either order. -/
theorem of_alike (alike : x.Alike y) : Ordered swapped x y := by
  cases swapped with
  | false => exact .of_alike alike
  | true => exact .of_alike alike.symm

/-- A sum or difference is in the order of its operands, where a subtracted one is in the opposite
order. -/
theorem compute {operator : Operator} (sum : operator.isProduct = false)
    (left : Ordered swapped x y)
    (right : Ordered (swapped != operator.subtracts) z w) :
    Ordered swapped (operator.compute x z) (operator.compute y w) := by
  cases operator with
  | add => cases swapped <;> exact NotAbove.add left right
  | sub => cases swapped <;> exact NotAbove.add left (NotAbove.neg right)
  | mul => cases sum
  | div => cases sum

end Ordered

end Double

open Double

/-- Lines of sums and differences with the same operators between values that are in order. -/
inductive RestOrdered (swapped : Bool) : List (Operator × Double) → List (Operator × Double) → Prop
  | nil : RestOrdered swapped [] []
  | cons {operator : Operator} {x y : Double} {xs ys : List (Operator × Double)}
      (sum : operator.isProduct = false) (head : Ordered (swapped != operator.subtracts) x y)
      (tail : RestOrdered swapped xs ys) :
      RestOrdered swapped ((operator, x) :: xs) ((operator, y) :: ys)

namespace RestOrdered

variable {swapped : Bool} {xs ys : List (Operator × Double)} {f g : Nat → Operand → Double}

/-- A line without products is left as it is when the products are done. -/
theorem products (rest : RestOrdered swapped xs ys) (x y : Double) :
    ((doubles f).products x xs).2 = ⟨x, xs⟩ ∧ ((doubles g).products y ys).2 = ⟨y, ys⟩ := by
  induction rest generalizing x y with
  | nil => exact ⟨rfl, rfl⟩
  | @cons operator next next' _ _ sum _ _ ih =>
    obtain ⟨left, right⟩ := ih next next'
    simp only [Arithmetic.products, sum, Bool.false_eq_true, if_false, left, right, and_self]

/-- The sums of lines that are in order are in order. -/
theorem sums (rest : RestOrdered swapped xs ys) {x y : Double} (first : Ordered swapped x y) :
    Ordered swapped ((doubles f).sums x xs).2 ((doubles g).sums y ys).2 := by
  -- The value so far stays in order while the rest gets shorter.
  induction rest generalizing x y with
  | nil => exact first
  | cons sum next _ ih => exact ih (first.compute sum next)

/-- Lines of sums and differences that are in order fold to values that are. -/
theorem fold {l m : Line Double} (first : Ordered swapped l.first m.first)
    (rest : RestOrdered swapped l.rest m.rest) :
    Ordered swapped ((doubles f).fold l).value ((doubles g).fold m).value := by
  obtain ⟨left, right⟩ := rest.products (f := f) (g := g) l.first m.first
  simp only [Arithmetic.fold, left, right]
  exact rest.sums first

end RestOrdered

section Ordered

variable {f g : Nat → Operand → Double}

/-- Two assignments of numbers to operands are in order, the opposite one where an operand is
subtracted. -/
def AllOrdered (f g : Nat → Operand → Double) (leaves : List Signed) : Prop :=
  ∀ leaf ∈ leaves, Ordered leaf.subtracted (f leaf.index leaf.operand) (g leaf.index leaf.operand)

mutual

/-- A part of sums and differences is in the order of its operands. -/
theorem Part.value_ordered : ∀ (part : Part) (subtracted : Bool),
    (∀ operator ∈ part.spell .operators, operator.isProduct = false) →
    AllOrdered f g (part.signed subtracted) →
    Ordered subtracted (part.value (doubles f)) (part.value (doubles g))
  | .operand index o, subtracted, sums, ordered =>
    ordered ⟨subtracted, index, o⟩ (List.mem_singleton.2 rfl)
  | .bracket inside, subtracted, sums, ordered => by
    -- Inside a bracket everything is as it is for the bracket as a whole.
    obtain ⟨first, rest⟩ := inside.line_ordered subtracted subtracted
      (fun operator member => sums operator (by simp [Part.spell, member])) ordered
    exact rest.fold first

/-- The line of a chain of sums and differences is in the order of its operands. -/
theorem Chain.line_ordered : ∀ (chain : Chain) (whole front : Bool),
    (∀ operator ∈ chain.spell .operators, operator.isProduct = false) →
    AllOrdered f g (chain.signed whole front) →
    Ordered front (chain.line (doubles f)).first (chain.line (doubles g)).first
      ∧ RestOrdered whole (chain.line (doubles f)).rest (chain.line (doubles g)).rest
  | .last part, whole, front, sums, ordered => ⟨part.value_ordered front sums ordered, .nil⟩
  | .more part operator rest, whole, front, sums, ordered => by
    -- The first part has the sign in front of it, and the rest that of the operator behind.
    have head := part.value_ordered front
      (fun operator member => sums operator (by simp [Chain.spell, member]))
      fun leaf member => ordered leaf (by simp [Chain.signed, member])
    obtain ⟨first, later⟩ := rest.line_ordered whole (whole != operator.subtracts)
      (fun operator member => sums operator (by simp [Chain.spell, member]))
      fun leaf member => ordered leaf (by simp [Chain.signed, member])
    have sum := sums operator (by simp [Chain.spell, Spelling.operators])
    exact ⟨head, .cons sum first later⟩

end

/-- A chain of sums and differences is in the order of its operands. -/
theorem Chain.value_ordered (chain : Chain)
    (sums : ∀ operator ∈ chain.spell .operators, operator.isProduct = false)
    (ordered : AllOrdered f g (chain.signed false false)) :
    (chain.value (doubles f)).NotAbove (chain.value (doubles g)) := by
  obtain ⟨first, rest⟩ := chain.line_ordered false false sums ordered
  exact rest.fold first

end Ordered

namespace Double

variable {x y : Double}

/-- What is read back keeps the order. -/
theorem NotAbove.readBack (notAbove : x.NotAbove y) : x.readBack.NotAbove y.readBack := by
  unfold Double.readBack
  -- An infinity is read as no number, and everything else as itself.
  split
  · split
    · exact notAbove.congr x.withoutZeroSign_alike.symm y.withoutZeroSign_alike.symm
    · exact nan_right _
  · exact nan_left _

/-- What is read back of numbers in order is in that order. -/
theorem Ordered.readBack_roundDigits {swapped : Bool}
    (ordered : Ordered swapped x y) (digits : Int) :
    Ordered swapped (x.roundDigits digits).readBack (y.roundDigits digits).readBack := by
  cases swapped <;> exact (NotAbove.roundDigits ordered digits).readBack

/-- Adding a zero leads to the same number but for the sign of a zero. -/
theorem alike_add_zero (x : Double) {z : Double} (zero : z.isZero = true) : (x + z).Alike x := by
  obtain ⟨t, rfl⟩ := exists_of_isZero zero
  -- Nothing is added to the quanta, so that the sum is rounded to the number itself.
  cases x with
  | nan => exact .refl _
  | infinite s => exact .refl _
  | finite s a f =>
    have nothing : (finite t 0 fits_zero).signedQuanta = 0 := by cases t <;> rfl
    have same := add_alike_rounded f fits_zero (s := s) (t := t)
    rw [nothing, Int.add_zero] at same
    exact same.trans (finite_alike_rounded f).symm

end Double

namespace Operand

variable {o : Operand}

/-- An exact operand is the same at its bounds. -/
theorem chosen_alike (exact : o.spread.isZero = true) (choice : Option Bool) :
    (o.chosen choice).Alike o.nominal := by
  -- The high bound adds a zero and the low one its opposite.
  match choice with
  | none => exact .refl _
  | some true => exact alike_add_zero _ exact
  | some false =>
    refine alike_add_zero o.nominal (z := -o.spread) ?_
    obtain ⟨s, same⟩ := exists_of_isZero exact
    rw [same]
    rfl

open NotAbove in
/-- No bound of an operand lies outside of the other one. -/
theorem chosen_ordered (nonnegative : o.spread.isNegative = false) (subtracted bound : Bool) :
    Ordered subtracted (o.chosen (some subtracted)) (o.chosen (some bound))
      ∧ Ordered subtracted (o.chosen (some bound)) (o.chosen (some !subtracted)) := by
  -- What is not negative is not below its opposite.
  have opposite : (-o.spread).NotAbove o.spread := by
    rcases nonnegative_cases nonnegative with same | same | ⟨a, f, same⟩ <;> rw [same]
    · exact nan_right _
    · exact top _
    · intro p q first second
      change some (-(a : Int)) = some p at first
      change some (a : Int) = some q at second
      cases first
      cases second
      omega
  have low : (o.chosen (some false)).NotAbove (o.chosen (some true)) :=
    NotAbove.add (.of_alike (.refl _)) opposite
  have same : ∀ choice, (o.chosen choice).NotAbove (o.chosen choice) :=
    fun choice => .of_alike (.refl _)
  cases subtracted <;> cases bound <;> first
    | exact ⟨low, same _⟩
    | exact ⟨same _, low⟩

end Operand

namespace Spelling

/-- The operators that a stream is spelled with are among its tokens. -/
theorem mem_operators {stream : Stream} {operator : Operator} {index : Nat}
    (member : operator ∈ stream.spell .operators index) : .operator operator ∈ stream := by
  -- Operands spell no operators, whatever their brackets.
  induction stream generalizing index with
  | nil => cases member
  | cons token rest ih =>
    cases token with
    | operand o =>
      have none : Spelling.operators.bracketed index o = [] := by
        simp [Spelling.bracketed, Spelling.operators]
      rw [spell, none] at member
      exact List.mem_cons_of_mem _ (ih member)
    | operator sign =>
      rcases List.mem_cons.1 member with rfl | member
      · exact List.mem_cons_self
      · exact List.mem_cons_of_mem _ (ih member)
    | word text => exact List.mem_cons_of_mem _ (ih member)

/-- The operands of a stream are counted one after the other. -/
theorem map_leaves (stream : Stream) (index : Nat) :
    (stream.spell .leaves index).map Prod.fst = List.range' index stream.operands.length := by
  -- Only operands are counted, and the index goes on behind each of them.
  induction stream generalizing index with
  | nil => rfl
  | cons token rest ih =>
    cases token with
    | operand o =>
      have single : Spelling.leaves.bracketed index o = [(index, o)] := by
        simp [Spelling.bracketed, Spelling.leaves]
      rw [spell, single, operands_operand, List.length_cons, List.range'_succ, ← ih]
      rfl
    | operator sign => exact ih index
    | word text => exact ih index

end Spelling

namespace Stream

variable {stream : Stream} {digits : Int} {limit : Nat}

/-- The operands of a stream, each with whether it is subtracted in the end. -/
def signed (stream : Stream) : List Signed :=
  (stream.tree?.map (·.signed false false)).getD []

/-- A stream without products and quotients. -/
def SumsOnly (stream : Stream) : Prop :=
  ∀ operator, .operator operator ∈ stream → operator.isProduct = false

/-- Every uncertain operand was tried with numbers on both sides, and with different ones if it is
subtracted. -/
def Tried (digits : Int) (limit : Nat) (stream : Stream) : Prop :=
  ∀ leaf ∈ stream.signed, leaf.operand.spread.isZero = false →
    let trial := stream.direction digits leaf.index leaf.operand limit
    trial.highValue.isNaN = false ∧ trial.lowValue.isNaN = false
      ∧ (leaf.subtracted = true → trial.highValue.position? ≠ trial.lowValue.position?)

instance (digits : Int) (limit : Nat) (stream : Stream) : Decidable (stream.Tried digits limit) :=
  inferInstanceAs (Decidable (∀ leaf ∈ _, _))

/-- The operands with signs are those at their indices. -/
theorem getElem?_of_mem_signed {leaf : Signed} (member : leaf ∈ stream.signed) :
    stream.operands[leaf.index]? = some leaf.operand := by
  unfold signed at member
  cases found : stream.tree? with
  | none => simp [found] at member
  | some tree =>
    rw [found] at member
    -- Without their signs the leaves of the tree are those that the stream spells.
    have listed : leaf.leaf ∈ stream.spell .leaves 0 := by
      rw [← spell_tree? .leaves found, ← tree.map_signed false false]
      exact List.mem_map_of_mem member
    obtain ⟨place, index, operand⟩ := getElem?_of_mem_leaves listed
    rw [Nat.zero_add] at index
    subst index
    exact operand

/-- An operand is subtracted or not, but not both. -/
theorem eq_of_mem_signed {first second : Signed} (left : first ∈ stream.signed)
    (right : second ∈ stream.signed) (same : first.index = second.index) : first = second := by
  unfold signed at left right
  cases found : stream.tree? with
  | none => simp [found] at left
  | some tree =>
    rw [found] at left right
    -- The indices of the operands are all different.
    have indices : ((tree.signed false false).map (·.index)).Nodup := by
      have listed := congrArg (List.map Prod.fst) (tree.map_signed false false)
      rw [List.map_map, spell_tree? .leaves found, Spelling.map_leaves] at listed
      exact listed ▸ List.nodup_range'
    exact List.inj_on_of_nodup_map indices left right same

/-- The values of sums and differences for two choices are in the order of the bounds that were
chosen. -/
theorem evaluate_notAbove (alternates : stream.Alternates) (sums : stream.SumsOnly)
    {first second : Nat → Option Bool}
    (ordered : ∀ leaf ∈ stream.signed,
      Ordered leaf.subtracted (leaf.operand.chosen (first leaf.index))
        (leaf.operand.chosen (second leaf.index))) :
    (Expression.evaluate (stream.chosenText digits first) limit).NotAbove
      (Expression.evaluate (stream.chosenText digits second) limit) := by
  -- What has no value is not above anything, nor anything above it.
  rcases Expression.evaluate_cases (stream.chosenText digits first) limit with none | left
  · rw [none]
    exact NotAbove.nan_left _
  rcases Expression.evaluate_cases (stream.chosenText digits second) limit with none | right
  · rw [none]
    exact NotAbove.nan_right _
  rw [left, right, value_chosenText digits first alternates,
    value_chosenText digits second alternates]
  split
  · cases found : stream.tree? with
    | none => exact .of_alike (.refl _)
    | some tree =>
      -- What is written of numbers in order is in order, leaf by leaf.
      refine tree.value_ordered (fun operator member => ?_) fun leaf member => ?_
      · rw [spell_tree? .operators found] at member
        exact sums operator (Spelling.mem_operators member)
      · have listed : leaf ∈ stream.signed := by
          rw [signed, found]
          exact member
        exact (ordered leaf listed).readBack_roundDigits digits
  · exact .of_alike (.refl _)

/-- The uncertainties of a text that is read are not negative, and so are what is varied of them. -/
theorem isNegative_spread (canonical : stream.Canonical) {leaf : Signed}
    (member : leaf ∈ stream.signed) : leaf.operand.spread.isNegative = false := by
  have operand := List.mem_of_getElem? (getElem?_of_mem_signed member)
  unfold Operand.spread
  split
  · rfl
  · exact (canonical.operands _ (mem_operands.1 operand)).measure.written.nonnegative

/-- An uncertain operand of a sum that was tried is found to raise the sum, or to lower it where it
is subtracted. -/
theorem pickHigh_of_tried (canonical : stream.Canonical) (sums : stream.SumsOnly)
    (tried : stream.Tried digits limit) {leaf : Signed} (member : leaf ∈ stream.signed)
    (uncertain : leaf.operand.spread.isZero = false) :
    (stream.direction digits leaf.index leaf.operand limit).pickHigh = some (!leaf.subtracted) := by
  obtain ⟨highNumber, lowNumber, differ⟩ := tried leaf member uncertain
  -- The trial at the bound that lowers the sum is not above the other one.
  have order : (Expression.evaluate
      (stream.chosenText digits (single leaf.index leaf.subtracted)) limit).NotAbove
        (Expression.evaluate
          (stream.chosenText digits (single leaf.index !leaf.subtracted)) limit) := by
    refine evaluate_notAbove canonical.alternates sums fun other listed => ?_
    unfold single
    split
    · rename_i here
      have same := eq_of_mem_signed listed member here
      subst same
      exact (Operand.chosen_ordered (isNegative_spread canonical listed) _ _).2
    · exact .of_alike (.refl _)
  obtain ⟨subtracted, index, o⟩ := leaf
  dsimp only at *
  unfold direction at highNumber lowNumber differ ⊢
  rw [if_neg (by simp [uncertain])] at highNumber lowNumber differ ⊢
  dsimp only at *
  rw [if_neg (by simp [highNumber, lowNumber])]
  cases subtracted with
  | false => exact congrArg some (order.le lowNumber highNumber)
  | true =>
    -- In the opposite order only numbers at the same place would be in this one too.
    exact congrArg some (order.le_eq_false (differ rfl))

/-- The bounds that are picked for the minimum and for the maximum are on both sides of every other
choice. -/
theorem chosen_between (canonical : stream.Canonical) (sums : stream.SumsOnly)
    (tried : stream.Tried digits limit) {leaf : Signed} (member : leaf ∈ stream.signed)
    {bound : Option Bool} (some : leaf.operand.spread.isZero = false → bound.isSome = true) :
    let pick := (stream.direction digits leaf.index leaf.operand limit).pickHigh
    Ordered leaf.subtracted (leaf.operand.chosen (pick.map (!·))) (leaf.operand.chosen bound)
      ∧ Ordered leaf.subtracted (leaf.operand.chosen bound) (leaf.operand.chosen pick) := by
  dsimp only
  cases uncertain : leaf.operand.spread.isZero with
  | true =>
    -- An exact operand is the same everywhere.
    have same := Operand.chosen_alike uncertain
    exact ⟨.of_alike ((same _).trans (same _).symm), .of_alike ((same _).trans (same _).symm)⟩
  | false =>
    obtain ⟨high, rfl⟩ := Option.isSome_iff_exists.1 (some uncertain)
    rw [pickHigh_of_tried canonical sums tried member uncertain, Option.map_some, Bool.not_not]
    exact Operand.chosen_ordered (isNegative_spread canonical member) leaf.subtracted high

/-- For sums and differences whose uncertain operands were tried, no choice of bounds leads out of
the range that is found. -/
theorem corner_between_extremes (config : Config) (limits : Expression.WalkLimits) (text : String)
    (sums : (scan text).SumsOnly) (tried : (scan text).Tried config.debugDigits limits.values)
    (choice : Nat → Option Bool)
    (chosen : ∀ index o, (scan text).operands[index]? = some o → o.spread.isZero = false →
      (choice index).isSome = true) :
    let value :=
      Expression.evaluate ((scan text).chosenText config.debugDigits choice) limits.values
    let extremes := (scan text).extremes config limits
    value.isNaN = false → extremes.min.isNaN = false → extremes.max.isNaN = false →
      extremes.min.le value = true ∧ value.le extremes.max = true := by
  intro value extremes number known _
  rcases canonical_scan text with nothing | canonical
  · -- A text without operands has no value.
    have none : value = .nan := by
      have empty : Expression.ofWritten? "" = none := by decide +kernel
      simp only [value, nothing]
      change Expression.evaluate "" limits.values = .nan
      rw [Expression.evaluate, empty]
      rfl
    rw [none] at number
    cases number
  · -- Each operand is between its two picks, and so is the value between those that they lead to.
    have sides : ∀ leaf ∈ (scan text).signed, _ := fun leaf member =>
      chosen_between canonical sums tried member
        (chosen leaf.index leaf.operand (getElem?_of_mem_signed member))
    -- The two values are the ends of the range in one order or the other.
    have sorted := sorted_extremes known
    have lower : extremes.minValue.NotAbove value := by
      rw [minValue_extremes]
      refine evaluate_notAbove canonical.alternates sums fun leaf member => ?_
      rw [oppositePicks, picks_of_getElem? (getElem?_of_mem_signed member)]
      exact (sides leaf member).1
    have upper : value.NotAbove extremes.maxValue := by
      rw [maxValue_extremes]
      refine evaluate_notAbove canonical.alternates sums fun leaf member => ?_
      rw [picks_of_getElem? (getElem?_of_mem_signed member)]
      exact (sides leaf member).2
    exact ⟨(sorted.min_notAbove.1.trans lower sorted.minNumber).le known number,
      (upper.trans sorted.notAbove_max.2 sorted.maxNumber).le number sorted.isNaN_max⟩

/-- A corner of a difference from a difference, between the ends of the range. -/
theorem corner_between_extremes_nested :
    let stream := scan "7-(2±0.5-1±0.25)"
    let choice := fun _ => some true
    let value := Expression.evaluate (stream.chosenText (default : Config).debugDigits choice)
    let extremes := stream.extremes default
    stream.SumsOnly ∧ stream.Tried (default : Config).debugDigits (Expression.WalkLimits.values {})
      ∧ extremes.min.le value = true ∧ value.le extremes.max = true := by
  have sums : (scan "7-(2±0.5-1±0.25)").SumsOnly := by
    intro operator
    cases operator <;> decide +kernel
  -- All trials are numbers, and those of the subtracted operands differ.
  have tried : (scan "7-(2±0.5-1±0.25)").Tried (default : Config).debugDigits
      (Expression.WalkLimits.values {}) := by
    decide +kernel
  obtain ⟨number, least, most⟩ :
      (Expression.evaluate ((scan "7-(2±0.5-1±0.25)").chosenText (default : Config).debugDigits
          fun _ => some true)).isNaN = false
        ∧ ((scan "7-(2±0.5-1±0.25)").extremes default).min.isNaN = false
        ∧ ((scan "7-(2±0.5-1±0.25)").extremes default).max.isNaN = false := by
    decide +kernel
  exact ⟨sums, tried,
    corner_between_extremes default {} _ sums tried _ (fun _ _ _ _ => rfl) number least most⟩

/-- Where the trial of a subtracted operand is lost in rounding, it is taken for one that raises the
difference, and a corner lies below the range; and so it does where a trial is out of range. -/
theorem corner_outside_extremes :
    let outside := fun text : String =>
      let stream := scan text
      let choice := fun index => some (index == 1)
      let value := Expression.evaluate (stream.chosenText (default : Config).debugDigits choice)
      let extremes := stream.extremes default
      stream.SumsOnly ∧ stream.Balanced
        ∧ (∀ o ∈ stream.operands, o.nominal.isFinite = true ∧ o.error.isFinite = true)
        ∧ value.isNaN = false ∧ extremes.min.isNaN = false ∧ extremes.max.isNaN = false
        ∧ extremes.min.le value = false
    outside "1e20±1e20-1±0.1" ∧ outside "1e308±1e308" := by
  -- The first is lost below the last bit of 10^20, the second is beyond the largest double.
  have rounded : (scan "1e20±1e20-1±0.1").SumsOnly := by
    intro operator
    cases operator <;> decide +kernel
  have single : (scan "1e308±1e308").SumsOnly := by
    intro operator
    cases operator <;> decide +kernel
  exact ⟨⟨rounded, by decide +kernel⟩, single, by decide +kernel⟩

end Stream

end PlusMinus
