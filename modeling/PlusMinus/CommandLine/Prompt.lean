import PlusMinus.Calculation
import PlusMinus.CommandLine.Options

/-! One calculation on the command line, and the prompt that takes one line after the other. -/

namespace PlusMinus.CommandLine

/-- Text that is shown, with the warnings on the way. -/
structure Shown where
  text : String
  warnings : List Warning := []

/-- The answer to an expression: the result, the range in actual mode, and the steps on request. -/
def answer (config : Config) (mode : Mode) (steps : Bool) (expression : String) : Shown :=
  let calculation := Calculation.ofStream config mode none (Stream.scan expression)
  let range := match calculation.outcome with
    | .propagated _ => ""
    | .ranged range => s!"  (range {range.min.value} to {range.max.value})"
  let explanation := if steps then "\n" ++ Explanation.text calculation.blocks else ""
  { text := calculation.text ++ range ++ explanation, warnings := calculation.warnings }

namespace Prompt

/-- What the prompt says before the first line. -/
def greeting : String :=
  "Enter an expression such as 4.5±0.3 + 2±0.1 (× and ÷ also work).\n" ++
  "  :mode uncertainty|actual   switch calculation mode\n" ++
  "  :steps                     toggle the step-by-step explanation\n" ++
  "  exit                       quit\n"

/-- What the prompt remembers from line to line. -/
structure State where
  mode : Mode := .uncertainty
  steps : Bool := false
  /-- The number of the next expression. -/
  count : Nat := 1
deriving DecidableEq

namespace State

/-- The text that asks for a line. -/
def ask (state : State) : String := s!"In [{state.count}]: "

end State

/-- What a line asks for. -/
inductive Command where
  | nothing
  | leave
  | mode (choice : String)
  | steps
  | expression (text : String)
deriving DecidableEq

/-- The command of a line; blanks around it do not count. -/
def Command.ofLine (line : String) : Command :=
  let text := Text.strip line.toList
  if text.isEmpty then .nothing
  else if text = "exit".toList ∨ text = "quit".toList then .leave
  else if ":mode".toList.isPrefixOf text then
    .mode (String.ofList (Text.lower (Text.strip (text.drop 5))))
  else if text = ":steps".toList then .steps
  else .expression (String.ofList text)

/-- Carries out a command; without a new state the prompt ends. -/
def obey (config : Config) (state : State) : Command → Option State × Shown
  | .nothing => (some state, ⟨"", []⟩)
  | .leave => (none, ⟨"", []⟩)
  | .mode choice => match Mode.ofName? choice with
    | some mode => (some { state with mode }, ⟨s!"mode: {mode.name}\n", []⟩)
    | none => (some state, ⟨Fault.unknownModeText choice ++ "\n", []⟩)
  | .steps =>
    let state := { state with steps := !state.steps }
    (some state, ⟨"steps: " ++ (if state.steps then "on" else "off") ++ "\n", []⟩)
  | .expression text =>
    let shown := answer config state.mode state.steps text
    (some { state with count := state.count + 1 },
      ⟨s!"Out [{state.count}]: {shown.text}\n", shown.warnings⟩)

/-- Takes one line after the other until the prompt is left or the lines end, for a number of turns
at most. -/
def converse {m : Type → Type} [Monad m] (readLine : m (Option String)) (display : Shown → m Unit)
    (config : Config) : Nat → State → m Unit
  | 0, _ => pure ()
  | turns + 1, state => do
    display ⟨state.ask, []⟩
    match ← readLine with
    | none => display ⟨"\n", []⟩
    | some line =>
      let (next, shown) := obey config state (.ofLine line)
      display shown
      match next with
      | none => pure ()
      | some state => converse readLine display config turns state

/-- What the prompt shows over some lines; the end of the lines is shown by an empty one. -/
def run (config : Config) (state : State) : List String → Shown
  | [] => ⟨state.ask ++ "\n", []⟩
  | line :: rest =>
    match obey config state (.ofLine line) with
    | (none, shown) => ⟨state.ask ++ shown.text, shown.warnings⟩
    | (some state', shown) =>
      let next := run config state' rest
      ⟨state.ask ++ shown.text ++ next.text, shown.warnings ++ next.warnings⟩

end Prompt

/-- The lines of a text; a line feed ends a line and does not begin one. -/
def linesOf (text : String) : List String :=
  let pieces := (text.toList.splitOn '\n').map String.ofList
  if pieces.getLast? = some "" then pieces.dropLast else pieces

/-- The exit code of a run and what it shows. -/
structure Exit where
  code : Nat
  shown : Shown

/-- Carries out what the arguments ask for and gives the exit code; the texts for help and usage are
left to the caller. -/
def perform {m : Type → Type} [Monad m] (readLine : m (Option String)) (display : Shown → m Unit)
    (config : Config) (turns : Nat) : Request → m Nat
  | .usage => pure 2
  | .help => pure 0
  | .run options => do
    let mode : Mode := if options.actual then .actual else .uncertainty
    if options.words.isEmpty then
      display ⟨Prompt.greeting, []⟩
      Prompt.converse readLine display config turns { mode, steps := options.steps }
    else
      let shown := answer config mode options.steps (" ".intercalate options.words)
      display { shown with text := shown.text ++ "\n" }
    pure 0

/-- Runs the command line over the text of the standard input; the texts for help and usage are
left to the caller. -/
def run (config : Config) (arguments : List String) (input : String) : Exit :=
  match Request.ofArguments arguments with
  | .usage => ⟨2, ⟨"", []⟩⟩
  | .help => ⟨0, ⟨"", []⟩⟩
  | .run options =>
    let mode : Mode := if options.actual then .actual else .uncertainty
    if options.words.isEmpty then
      let shown := Prompt.run config { mode, steps := options.steps } (linesOf input)
      ⟨0, { shown with text := Prompt.greeting ++ shown.text }⟩
    else
      let shown := answer config mode options.steps (" ".intercalate options.words)
      ⟨0, { shown with text := shown.text ++ "\n" }⟩

end PlusMinus.CommandLine
