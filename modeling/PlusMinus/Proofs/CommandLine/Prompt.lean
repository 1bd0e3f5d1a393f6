import Mathlib.Data.List.Basic
import Mathlib.Logic.Function.Iterate
import PlusMinus.CommandLine.Prompt

/-! The prompt as a fold over runs of one expression each: the lines before count through the number
of expressions among them, the last mode that they choose, and how often they switch the steps. -/

namespace PlusMinus.CommandLine

/-- Arguments that are flags for the mode and for the steps, in any number and order. -/
def OnlyFlags (arguments : List String) : Prop := ∀ a ∈ arguments, a = "--actual" ∨ a = "--steps"

/-- What is asked for by arguments that are flags alone. -/
def Options.ofFlags (arguments : List String) : Options :=
  { actual := decide ("--actual" ∈ arguments), steps := decide ("--steps" ∈ arguments) }

/-- Each of the two flags asks for its own option. -/
theorem Request.read_flag (options : Options) (rest : List String) :
    read options .before false ("--actual" :: rest)
      = read { options with actual := true } .before false rest
      ∧ read options .before false ("--steps" :: rest)
        = read { options with steps := true } .before false rest := by
  have actual : Argument.ofText "--actual".toList = .flag .actual := by decide
  have steps : Argument.ofText "--steps".toList = .flag .steps := by decide
  constructor
  · rw [read, actual]
    · rfl
    · decide
  · rw [read, steps]
    · rfl
    · decide

namespace OnlyFlags

variable {arguments : List String}

/-- Flags are read one by one, and what follows them is read with what they ask for. -/
theorem read_append (only : OnlyFlags arguments) (rest : List String) (options : Options) :
    Request.read options .before false (arguments ++ rest)
      = Request.read { options with
          actual := options.actual || decide ("--actual" ∈ arguments)
          steps := options.steps || decide ("--steps" ∈ arguments) } .before false rest := by
  induction arguments generalizing options with
  | nil => simp
  | cons a later ih =>
    have continued := ih fun b member => only b (List.mem_cons_of_mem a member)
    obtain ⟨actual, steps⟩ := Request.read_flag options (later ++ rest)
    -- Either flag is read as its own option, and a second one changes nothing.
    rcases only a List.mem_cons_self with rfl | rfl
    · rw [List.cons_append, actual, continued]
      simp
    · rw [List.cons_append, steps, continued]
      simp

/-- Behind flags nothing but the double dash or the end decides what is asked for. -/
theorem ofArguments_append (only : OnlyFlags arguments) {rest : List String}
    (ends : rest.takeWhile (· ≠ "--") = []) :
    Request.ofArguments (arguments ++ rest)
      = Request.read (.ofFlags arguments) .before false rest := by
  have flags : ∀ a ∈ arguments, decide (a ≠ "--") = true := by
    intro a member
    rcases only a member with rfl | rfl <;> decide
  -- Both flags are known by their full names, so that none of them is ambiguous.
  have clear :
      arguments.any (fun text => decide (Argument.ofText text.toList = .ambiguous)) = false := by
    rw [List.any_eq_false]
    intro a member
    rcases only a member with rfl | rfl <;> decide
  have front : (arguments ++ rest).takeWhile (· ≠ "--") = arguments := by
    rw [List.takeWhile_append_of_pos flags, ends, List.append_nil]
  unfold Request.ofArguments
  dsimp only
  rw [front, clear, if_neg Bool.false_ne_true, only.read_append]
  simp [Options.ofFlags]

end OnlyFlags

/-- The flags that ask for a mode and for the steps. -/
def flagsFor (mode : Mode) (steps : Bool) : List String :=
  (if mode = .actual then ["--actual"] else []) ++ (if steps then ["--steps"] else [])

/-- What a run shows for one expression; the double dash keeps it from being taken for a flag. -/
def oneShot (config : Config) (mode : Mode) (steps : Bool) (expression : String) : String :=
  (run config (flagsFor mode steps ++ ["--", expression]) "").shown.text

/-- A run of one expression shows the answer to it. -/
theorem oneShot_eq (config : Config) (mode : Mode) (steps : Bool) (expression : String) :
    oneShot config mode steps expression = (answer config mode steps expression).text ++ "\n" := by
  have only : OnlyFlags (flagsFor mode steps) := by
    cases mode <;> cases steps <;> simp [OnlyFlags, flagsFor]
  -- Behind the double dash the expression is a word, whatever it starts with.
  have request : Request.ofArguments (flagsFor mode steps ++ ["--", expression])
      = .run { words := [expression], actual := decide (mode = .actual), steps } := by
    rw [only.ofArguments_append (by rfl)]
    cases mode <;> cases steps <;> rfl
  unfold oneShot run
  rw [request]
  cases mode <;> rfl

/-- A line without the blanks around it. -/
def stripped (line : String) : String := String.ofList (Text.strip line.toList)

namespace Prompt

/-- Whether a line leaves the prompt. -/
def leaves (text : String) : Bool := text = "exit" || text = "quit"

/-- What a line says behind the word for a mode, if it begins with that. -/
def choice? (text : String) : Option String :=
  if ":mode".toList.isPrefixOf text.toList then some (String.ofList (text.toList.drop 5)) else none

/-- Whether a line is calculated with. -/
def isExpression (text : String) : Bool :=
  text ≠ "" && !leaves text && (choice? text).isNone && text ≠ ":steps"

/-- The number of the expression that comes next after some lines. -/
def numberAfter (earlier : List String) : Nat := 1 + earlier.countP isExpression

/-- The mode after some lines: the last one that they choose, or else that of the flags. -/
def modeAfter (flag : Mode) (earlier : List String) : Mode :=
  (earlier.filterMap fun text => (choice? text).bind Mode.ofText?).getLast?.getD flag

/-- Whether steps are shown after some lines: each line for the steps turns round what the flags
say. -/
def stepsAfter (flag : Bool) (earlier : List String) : Bool := not^[earlier.count ":steps"] flag

/-- What is shown for a line that is not calculated with. -/
def note (steps : Bool) (text : String) : String :=
  match choice? text with
  | some choice => match Mode.ofText? choice with
    | some mode => s!"mode: {mode.name}\n"
    | none => Fault.unknownModeText (String.ofList (Text.lower (Text.strip choice.toList))) ++ "\n"
  | none => if text = ":steps" then "steps: " ++ (if !steps then "on" else "off") ++ "\n" else ""

/-- What is shown for a line after some others, which have been read since the flags. -/
def turn (config : Config) (mode : Mode) (steps : Bool) (earlier : List String)
    (text : String) : String :=
  s!"In [{numberAfter earlier}]: " ++
    if isExpression text then
      s!"Out [{numberAfter earlier}]: "
        ++ oneShot config (modeAfter mode earlier) (stepsAfter steps earlier) text
    else note (stepsAfter steps earlier) text

/-- What the prompt remembers after some lines. -/
def State.after (mode : Mode) (steps : Bool) (earlier : List String) : State :=
  ⟨modeAfter mode earlier, stepsAfter steps earlier, numberAfter earlier⟩

section After

variable (mode : Mode) (steps : Bool) (earlier : List String) (text : String)

/-- One more line counts exactly if it is an expression. -/
theorem numberAfter_concat :
    numberAfter (earlier ++ [text]) = numberAfter earlier + if isExpression text then 1 else 0 := by
  rw [numberAfter, List.countP_append, List.countP_singleton, ← Nat.add_assoc]
  rfl

/-- One more line changes the mode exactly if it chooses one. -/
theorem modeAfter_concat :
    modeAfter mode (earlier ++ [text])
      = ((choice? text).bind Mode.ofText?).getD (modeAfter mode earlier) := by
  unfold modeAfter
  rw [List.filterMap_append, List.getLast?_append]
  cases chosen : (choice? text).bind Mode.ofText? <;> simp [chosen]

/-- One more line turns the steps round exactly if it is the one for them. -/
theorem stepsAfter_concat :
    stepsAfter steps (earlier ++ [text])
      = if text = ":steps" then !stepsAfter steps earlier else stepsAfter steps earlier := by
  unfold stepsAfter
  rw [List.count_append, List.count_singleton]
  by_cases switched : text = ":steps"
  · simp [switched, Function.iterate_succ_apply']
  · simp [switched]

end After

/-- The kinds of line that stay in the prompt, each with its command. -/
inductive Stays : String → Command → Prop
  | blank : Stays "" .nothing
  | mode {text choice : String} (chosen : choice? text = some choice) :
      Stays text (.mode (String.ofList (Text.lower (Text.strip choice.toList))))
  | steps : Stays ":steps" .steps
  | expression {text : String} (isExpression : isExpression text = true) :
    Stays text (.expression text)

section Run

variable (config : Config) (mode : Mode) (steps : Bool)

/-- A line that stays in the prompt is answered as its turn says, and then is one of the earlier
lines. -/
theorem Stays.obey {text : String} {command : Command} (stays : Stays text command)
    (earlier : List String) :
    ∃ shown, obey config (.after mode steps earlier) command
        = (some (.after mode steps (earlier ++ [text])), shown)
      ∧ (State.after mode steps earlier).ask ++ shown.text
        = turn config mode steps earlier text := by
  have next : State.after mode steps (earlier ++ [text])
      = ⟨((choice? text).bind Mode.ofText?).getD (modeAfter mode earlier),
        if text = ":steps" then !stepsAfter steps earlier else stepsAfter steps earlier,
        numberAfter earlier + if isExpression text then 1 else 0⟩ := by
    rw [State.after, numberAfter_concat, modeAfter_concat, stepsAfter_concat]
  -- Each kind of line changes one part of the state at most, and shows what its turn shows.
  cases stays with
  | blank => exact ⟨⟨"", []⟩, by rw [next]; rfl, rfl⟩
  | @mode text choice chosen =>
    have other : isExpression text = false := by simp [isExpression, chosen]
    have unswitched : text ≠ ":steps" := by
      rintro rfl
      cases chosen
    rw [next, turn, note, chosen, if_neg unswitched, other, if_neg Bool.false_ne_true,
      if_neg Bool.false_ne_true, Option.bind_some]
    dsimp only
    -- The choice is looked up as it stands, without its blanks and in small letters.
    cases named : Mode.ofText? choice with
    | none =>
      have unknown : Mode.ofName? (String.ofList (Text.lower (Text.strip choice.toList))) = none :=
        named
      simp only [Prompt.obey, unknown]
      exact ⟨_, rfl, rfl⟩
    | some chosen =>
      have known : Mode.ofName? (String.ofList (Text.lower (Text.strip choice.toList)))
        = some chosen := named
      simp only [Prompt.obey, known]
      exact ⟨_, rfl, rfl⟩
  | steps => exact ⟨_, by rw [next]; rfl, by rw [turn]; rfl⟩
  | expression isExpression =>
    -- An expression is no choice of a mode and does not switch the steps.
    have unchosen : choice? text = none := by
      simp [Prompt.isExpression] at isExpression
      simp [isExpression]
    have unswitched : text ≠ ":steps" := by
      rintro rfl
      cases isExpression
    rw [next, turn, unchosen, if_neg unswitched, if_pos isExpression,
      if_pos isExpression, oneShot_eq]
    refine ⟨_, rfl, congrArg ((State.after mode steps earlier).ask ++ ·) ?_⟩
    exact String.append_assoc

end Run

end Prompt

section Console

namespace Shown

/-- What is shown first and what is shown after it. -/
def append (first second : Shown) : Shown :=
  ⟨first.text ++ second.text, first.warnings ++ second.warnings⟩

theorem append_assoc (first second third : Shown) :
    (first.append second).append third = first.append (second.append third) := by
  unfold append
  rw [String.append_assoc, List.append_assoc]

end Shown

/-- A console with the lines that are still to come and with what has been shown on it. -/
structure Console where
  lines : List String
  shown : Shown := ⟨"", []⟩

namespace Console

/-- Takes the next line, if there is one. -/
def readLine : StateM Console (Option String) := fun console =>
  (console.lines.head?, { console with lines := console.lines.tail })

/-- Shows something behind what has been shown. -/
def display (shown : Shown) : StateM Console Unit := fun console =>
  ((), { console with shown := console.shown.append shown })

/-- One turn of the prompt on a console. -/
theorem converse_cons (config : Config) (turns : Nat) (state : Prompt.State) (line : String)
    (rest : List String) (before : Shown) :
    Prompt.converse readLine display config (turns + 1) state ⟨line :: rest, before⟩
      = let obeyed := Prompt.obey config state (.ofLine line)
        let console : Console := ⟨rest, (before.append ⟨state.ask, []⟩).append obeyed.2⟩
        obeyed.1.elim ((), console) fun next =>
          Prompt.converse readLine display config turns next console := by
  rw [Prompt.converse]
  dsimp only [bind, StateT.bind, readLine, display, List.head?_cons, List.tail_cons]
  cases (Prompt.obey config state (.ofLine line)).1 with
  | none => rfl
  | some next => rfl

/-- The prompt shows on a console what it shows over the lines, if it has a turn for each of them
and one for their end. -/
theorem shown_converse (config : Config) {turns : Nat} {lines : List String}
    (enough : lines.length < turns) (state : Prompt.State) (before : Shown) :
    (Prompt.converse readLine display config turns state ⟨lines, before⟩).2.shown
      = before.append (Prompt.run config state lines) := by
  induction lines generalizing turns state before with
  | nil =>
    obtain ⟨left, rfl⟩ := Nat.exists_eq_succ_of_ne_zero (Nat.ne_of_gt enough)
    change (before.append ⟨state.ask, []⟩).append ⟨"\n", []⟩ = _
    rw [Shown.append_assoc]
    rfl
  | cons line rest ih =>
    obtain ⟨left, rfl⟩ := Nat.exists_eq_succ_of_ne_zero (Nat.ne_of_gt (Nat.zero_lt_of_lt enough))
    -- A line is obeyed once in both, and the prompt goes on unless the line leaves it.
    rw [converse_cons, Prompt.run]
    rcases Prompt.obey config state (.ofLine line) with ⟨_ | next, shown⟩
    · exact Shown.append_assoc before _ _
    · dsimp only [Option.elim]
      rw [ih (Nat.lt_of_succ_lt_succ enough), Shown.append_assoc, Shown.append_assoc]
      simp [Shown.append, String.append_assoc]

/-- On a console the program ends with the exit code of a run over the lines and has shown what the
run shows, if it has a turn for each line and one for their end. -/
theorem perform_eq_run (config : Config) (arguments : List String) (input : String) {turns : Nat}
    (enough : (linesOf input).length < turns) :
    let ended :=
      perform readLine display config turns (.ofArguments arguments) { lines := linesOf input }
    ended.1 = (run config arguments input).code
      ∧ ended.2.shown = (run config arguments input).shown := by
  unfold perform run
  cases Request.ofArguments arguments with
  | usage => exact ⟨rfl, rfl⟩
  | help => exact ⟨rfl, rfl⟩
  | run options =>
    -- With words they are calculated with, and without them the prompt follows the greeting.
    cases words : options.words.isEmpty with
    | true =>
      simp only [words, if_true]
      refine ⟨rfl, (shown_converse config enough _ _).trans ?_⟩
      simp [Shown.append]
    | false =>
      simp only [words, Bool.false_eq_true, if_false]
      refine ⟨rfl, ?_⟩
      change Shown.append ⟨"", []⟩ _ = _
      simp [Shown.append]

end Console

end Console

end PlusMinus.CommandLine
