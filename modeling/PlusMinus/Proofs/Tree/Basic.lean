import PlusMinus.Proofs.Stream.Spelling

/-! The tree of brackets that a stream of operands and operators stands for. -/

namespace PlusMinus

mutual

/-- A part of an expression: an operand with its index, or a chain in brackets. -/
inductive Part where
  | operand (index : Nat) (operand : Operand)
  | bracket (inside : Chain)

/-- Parts joined by operators, in reading order. -/
inductive Chain where
  | last (part : Part)
  | more (part : Part) (operator : Operator) (rest : Chain)

end

mutual

/-- The symbols of a part. -/
def Part.spell {β : Type} (s : Spelling β) : Part → List β
  | .operand index o => s.operand index o
  | .bracket inside => s.opening ++ inside.spell s ++ s.closing

/-- The symbols of a chain. -/
def Chain.spell {β : Type} (s : Spelling β) : Chain → List β
  | .last part => part.spell s
  | .more part operator rest => part.spell s ++ s.sign operator ++ rest.spell s

end

namespace Spelling

/-- The operands alone, with their indices. -/
def leaves : Spelling (Nat × Operand) where
  opening := []
  closing := []
  operand index o := [(index, o)]
  sign _ := []

/-- One mark for each pair of brackets. -/
def brackets : Spelling Unit where
  opening := [()]
  closing := []
  operand _ _ := []
  sign _ := []

end Spelling

namespace Chain

/-- The operands of a chain and of all its brackets. -/
def leaves (chain : Chain) : List (Nat × Operand) := chain.spell .leaves

/-- The number of bracket pairs in a chain. -/
def bracketCount (chain : Chain) : Nat := (chain.spell .brackets).length

/-- A chain behind parts that were read before it, the newest of them first. -/
def behind (chain : Chain) (earlier : List (Part × Operator)) : Chain :=
  earlier.foldl (fun chain (part, operator) => .more part operator chain) chain

end Chain

/-- What is read of a chain and of the chains around its bracket, the newest parts first. -/
structure Nesting where
  level : List (Part × Operator) := []
  outer : List (List (Part × Operator)) := []

namespace Nesting

/-- Opens brackets, each with a chain of its own. -/
def opened (n : Nesting) : Nat → Nesting
  | 0 => n
  | count + 1 => opened { outer := n.level :: n.outer } count

/-- Closes brackets behind a part, each of which makes the chain in it a part of the chain
around. -/
def closed? (n : Nesting) (part : Part) : Nat → Option (Part × Nesting)
  | 0 => some (part, n)
  | count + 1 => match n.outer with
    | parent :: outer =>
      closed? { level := parent, outer } (.bracket ((Chain.last part).behind n.level)) count
    | [] => none

/-- Reads an operand with its brackets. -/
def read? (n : Nesting) (index : Nat) (o : Operand) : Option (Part × Nesting) :=
  (n.opened o.openBrackets.toNat).closed? (.operand index o) o.closeBrackets.toNat

end Nesting

namespace Stream

/-- The tree of a stream behind what was read before it. -/
def treeFrom? (n : Nesting) (index : Nat) : Stream → Option Chain
  | .operand o :: rest => match n.read? index o, rest with
    | some (part, n), .operator operator :: rest =>
      treeFrom? { n with level := (part, operator) :: n.level } (index + 1) rest
    | some (part, ⟨level, []⟩), [] => some ((Chain.last part).behind level)
    | _, _ => none
  | _ => none

/-- The tree of a stream, if its operands and operators alternate and its brackets are balanced. -/
def tree? (stream : Stream) : Option Chain := stream.treeFrom? {} 0

/-- The depth behind operands, from a depth on, if no bracket is closed that is not open. -/
def depthFrom? (depth : Nat) : List Operand → Option Nat
  | [] => some depth
  | o :: rest =>
    if o.closeBrackets.toNat ≤ depth + o.openBrackets.toNat then
      depthFrom? (depth + o.openBrackets.toNat - o.closeBrackets.toNat) rest
    else none

/-- Every closing bracket has an opening one before it, and none stays open. -/
def Balanced (stream : Stream) : Prop := depthFrom? 0 stream.operands = some 0

instance (stream : Stream) : Decidable stream.Balanced := inferInstanceAs (Decidable (_ = _))

/-- The number of opening brackets. -/
def openings (stream : Stream) : Nat :=
  stream.operands.foldr (fun o count => o.openBrackets.toNat + count) 0

end Stream

namespace Nesting

variable {β : Type} (s : Spelling β)

/-- The symbols of the parts of a chain that was not read to its end. -/
def spellLevel : List (Part × Operator) → List β
  | [] => []
  | (part, operator) :: older => spellLevel older ++ part.spell s ++ s.sign operator

/-- The symbols of all that was read. -/
def spellOuter : List (List (Part × Operator)) → List β
  | [] => []
  | level :: outer => spellOuter outer ++ spellLevel s level ++ s.opening

/-- The symbols of what was read, up to where the reader stands. -/
def spell (n : Nesting) : List β := spellOuter s n.outer ++ spellLevel s n.level

/-- A chain behind earlier parts is spelled behind them. -/
theorem spell_behind (chain : Chain) (earlier : List (Part × Operator)) :
    (chain.behind earlier).spell s = spellLevel s earlier ++ chain.spell s := by
  -- The newest part is spelled right before the chain.
  induction earlier generalizing chain with
  | nil => rfl
  | cons newest older ih =>
    rw [show chain.behind (newest :: older) = (Chain.more newest.1 newest.2 chain).behind older
      from rfl, ih]
    simp [spellLevel, Chain.spell]

/-- Opened brackets are spelled behind what was read. -/
theorem spell_opened (n : Nesting) (count : Nat) :
    (n.opened count).spell s = n.spell s ++ (List.replicate count s.opening).flatten := by
  -- Each bracket puts the current level away and starts a new one.
  induction count generalizing n with
  | zero => simp [opened]
  | succ count ih =>
    rw [opened, ih]
    simp [spell, spellOuter, spellLevel, List.replicate_succ]

/-- Closing brackets are spelled behind the part that they close around. -/
theorem spell_closed? {n m : Nesting} {part whole : Part} {count : Nat}
    (found : n.closed? part count = some (whole, m)) :
    m.spell s ++ whole.spell s
      = n.spell s ++ part.spell s ++ (List.replicate count s.closing).flatten := by
  -- Each bracket turns what is on the current level into a part of the level around it.
  induction count generalizing n part with
  | zero =>
    cases found
    simp
  | succ count ih =>
    obtain ⟨level, outer⟩ := n
    cases outer with
    | nil => cases found
    | cons parent outer =>
      rw [ih found, Part.spell, spell_behind, List.replicate_succ, List.flatten_cons]
      simp [spell, spellOuter, Chain.spell]

/-- An operand that is read is spelled with its brackets behind what was read. -/
theorem spell_read? {n m : Nesting} {index : Nat} {o : Operand} {whole : Part}
    (found : n.read? index o = some (whole, m)) :
    m.spell s ++ whole.spell s = n.spell s ++ s.bracketed index o := by
  rw [spell_closed? s found, spell_opened, Part.spell]
  simp [Spelling.bracketed]

/-- Opening brackets makes the nesting that much deeper. -/
theorem length_outer_opened (n : Nesting) (count : Nat) :
    (n.opened count).outer.length = n.outer.length + count := by
  induction count generalizing n with
  | zero => rfl
  | succ count ih =>
    rw [opened, ih, List.length_cons]
    omega

/-- As many brackets can be closed as are open. -/
theorem exists_closed? (n : Nesting) (part : Part) {count : Nat}
    (enough : count ≤ n.outer.length) :
    ∃ whole m, n.closed? part count = some (whole, m)
      ∧ m.outer.length = n.outer.length - count := by
  -- As long as a level is around the current one, a bracket can be closed.
  induction count generalizing n part with
  | zero => exact ⟨part, n, rfl, rfl⟩
  | succ count ih =>
    obtain ⟨level, outer⟩ := n
    cases outer with
    | nil => cases enough
    | cons parent outer =>
      simp only [List.length_cons] at enough ⊢
      obtain ⟨whole, m, closed, depth⟩ :=
        ih { level := parent, outer } (.bracket ((Chain.last part).behind level)) (by
          dsimp only; omega)
      exact ⟨whole, m, closed, by dsimp only at depth; omega⟩

/-- An operand can be read when it closes no more brackets than are open behind it. -/
theorem exists_read? (n : Nesting) (index : Nat) {o : Operand}
    (enough : o.closeBrackets.toNat ≤ n.outer.length + o.openBrackets.toNat) :
    ∃ whole m, n.read? index o = some (whole, m)
      ∧ m.outer.length = n.outer.length + o.openBrackets.toNat - o.closeBrackets.toNat := by
  rw [← length_outer_opened] at enough ⊢
  exact exists_closed? _ _ enough

end Nesting

namespace Stream

/-- The tree of a stream is spelled like the stream, behind what was read before. -/
theorem spell_treeFrom? {β : Type} (s : Spelling β) {n : Nesting} {index : Nat}
    {stream : Stream} {chain : Chain} (found : stream.treeFrom? n index = some chain) :
    chain.spell s = n.spell s ++ stream.spell s index := by
  -- Each round reads an operand, and the operator behind it unless the stream ends.
  fun_induction treeFrom? n index stream with
  | case1 n index o part m operator rest read ih =>
    rw [ih found]
    have step := Nesting.spell_read? s read
    simp only [Nesting.spell, Nesting.spellLevel, spell] at step ⊢
    simp only [← List.append_assoc] at step ⊢
    rw [step]
  | case2 n index o part level read =>
    cases found
    rw [Nesting.spell_behind]
    have step := Nesting.spell_read? s read
    simpa [Nesting.spell, Nesting.spellOuter, spell, Chain.spell] using step
  | case3 => cases found
  | case4 => cases found

/-- The tree of a stream is spelled like the stream. -/
theorem spell_tree? {β : Type} (s : Spelling β) {stream : Stream} {chain : Chain}
    (found : stream.tree? = some chain) : chain.spell s = stream.spell s 0 := by
  rw [spell_treeFrom? s found]
  rfl

/-- A stream has a tree behind a nesting whose brackets it closes. -/
theorem exists_treeFrom? {stream : Stream} (alternates : stream.Alternates) (n : Nesting)
    (index : Nat) (closes : depthFrom? n.outer.length stream.operands = some 0) :
    ∃ chain, stream.treeFrom? n index = some chain := by
  -- The depth that the brackets are counted to is the number of levels around the current one.
  induction alternates generalizing n index with
  | last o =>
    simp only [operands_operand, operands_nil, depthFrom?] at closes
    split at closes
    · rename_i enough
      -- Behind the last operand every bracket has to be closed.
      obtain ⟨whole, ⟨level, outer⟩, read, depth⟩ := n.exists_read? index enough
      have flat : outer = [] := List.length_eq_zero_iff.1 (depth.trans (Option.some.inj closes))
      subst flat
      exact ⟨_, by unfold treeFrom?; rw [read]⟩
    · cases closes
  | @more o operator rest alternates ih =>
    simp only [operands_operand, operands_operator, depthFrom?] at closes
    split at closes
    · rename_i enough
      obtain ⟨whole, m, read, depth⟩ := n.exists_read? index enough
      rw [← depth] at closes
      obtain ⟨chain, found⟩ :=
        ih { m with level := (whole, operator) :: m.level } (index + 1) closes
      exact ⟨chain, by unfold treeFrom?; rw [read]; exact found⟩
    · cases closes

/-- An alternating stream with balanced brackets has a tree. -/
theorem exists_tree? {stream : Stream} (alternates : stream.Alternates)
    (balanced : stream.Balanced) : ∃ chain, stream.tree? = some chain :=
  exists_treeFrom? alternates {} 0 balanced

/-- The brackets of a stream are spelled with one mark for each opening sign. -/
theorem length_spell_brackets (stream : Stream) (index : Nat) :
    (stream.spell .brackets index).length = stream.openings := by
  -- Only operands carry brackets.
  induction stream generalizing index with
  | nil => rfl
  | cons token rest ih =>
    cases token with
    | operand o =>
      have marks : (Spelling.brackets.bracketed index o).length = o.openBrackets.toNat := by
        simp [Spelling.bracketed, Spelling.brackets]
      simp only [spell, List.length_append, marks, ih, openings, operands_operand, List.foldr_cons]
    | operator operator => exact ih index
    | word text => exact ih index

/-- The operands of a stream are those among its tokens. -/
theorem mem_operands {stream : Stream} {o : Operand} :
    o ∈ stream.operands ↔ .operand o ∈ stream := by
  induction stream with
  | nil => simp
  | cons token rest ih => cases token <;> simp [operands, Token.operand?, ← ih]

/-- The operands that are spelled are those of the stream at their indices. -/
theorem getElem?_of_mem_leaves {stream : Stream} {index : Nat} {leaf : Nat × Operand}
    (member : leaf ∈ stream.spell .leaves index) :
    ∃ place, leaf.1 = index + place ∧ stream.operands[place]? = some leaf.2 := by
  -- The index counts on with every operand, and with nothing else.
  induction stream generalizing index with
  | nil => cases member
  | cons token rest ih =>
    cases token with
    | operand o =>
      rcases List.mem_append.1 member with member | member
      · have same : leaf = (index, o) := by
          simpa [Spelling.bracketed, Spelling.leaves] using member
        exact ⟨0, by simp [same]⟩
      · obtain ⟨place, later, found⟩ := ih member
        exact ⟨place + 1, by omega, by simpa using found⟩
    | operator operator => exact ih member
    | word text => exact ih member

/-- The operands that are spelled are operands of the stream. -/
theorem mem_spell_leaves {stream : Stream} {index : Nat} {leaf : Nat × Operand}
    (member : leaf ∈ stream.spell .leaves index) : leaf.2 ∈ stream.operands := by
  obtain ⟨_, _, found⟩ := getElem?_of_mem_leaves member
  exact List.mem_of_getElem? found

end Stream

end PlusMinus
