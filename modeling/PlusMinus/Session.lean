import PlusMinus.CommandLine.Prompt

/-! A session: one request after the other, over settings that live on from each to the next. -/

namespace PlusMinus

/-- Work over the settings that can be refused; what it has set until then stays set. -/
abbrev Session := ExceptT Fault (StateM Config)

namespace Session

/-- What is asked for in a session: other settings, or work that reads them. -/
inductive Request where
  | change (change : Config.Change)
  | reset
  | calculate (source : Source) (mode : Option String) (given : Option Override)
  | solve (expression : Option String) (stream : Stream)
  | extremes (stream : Stream)
  /-- A number as it stands in running text. -/
  | trim (number : Entry)
  /-- The rounding rule that the settings ask for. -/
  | rule
  | commandLine (arguments : List String) (input : String)

/-- What a request is answered with. -/
inductive Answer where
  | settings (config : Config)
  | calculation (calculation : Calculation)
  | solution (solution : Solution)
  | extremes (extremes : Extremes)
  | text (text : String)
  | rule (rule : Override)
  | exit (exit : CommandLine.Exit)

/-- Work that only reads the settings. -/
def reading {α : Type} (work : Config → Except Fault α) : Session α := do
  let config ← get
  work config

/-- Puts other settings in place. -/
def replace (config : Config) : Session Answer := do
  set config
  pure (.settings config)

/-- Answers a request. -/
def answer : Request → Session Answer
  -- No setting is replaced before the whole change has been accepted.
  | .change change => do replace (← reading (·.update change))
  | .reset => replace {}
  | .calculate source mode given => reading fun config =>
    (PlusMinus.calculate config source mode given).map .calculation
  | .solve expression stream => reading fun config =>
    (checkedSolve config (chosenExpression expression stream)).map .solution
  | .extremes stream => reading fun config => (stream.extremes? config).map .extremes
  | .trim number => reading fun config =>
    number.toDouble.map fun x => .text (x.trimmed config.debugDigits)
  | .rule => reading fun config => (Override.checkedConfig config).map .rule
  | .commandLine arguments input => reading fun config =>
    pure (.exit (CommandLine.run config arguments input))

/-- The answer to a request under some settings, or its refusal, and the settings that are left. -/
def respond (config : Config) (request : Request) : Except Fault Answer × Config :=
  (answer request).run config

/-- The settings in force after some requests, of which the first finds the defaults. -/
def settingsAfter (requests : List Request) : Config :=
  requests.foldl (fun config request => (respond config request).2) {}

end Session

end PlusMinus
