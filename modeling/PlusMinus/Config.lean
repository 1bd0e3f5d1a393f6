import PlusMinus.Fault

/-! The settings of the calculator, and changes to them that are accepted whole or not at all. -/

namespace PlusMinus

/-- How results are rounded when no rule is forced. -/
inductive RoundingMode where
  | auto
  | significant
  | places
deriving DecidableEq

namespace RoundingMode

/-- The name of a rounding mode in the settings. -/
def name : RoundingMode → String
  | .auto => "auto"
  | .significant => "sigfig"
  | .places => "decimals"

/-- The rounding mode of a name. -/
def ofName? (name : String) : Option RoundingMode :=
  [auto, significant, places].find? (·.name = name)

end RoundingMode

/-- The settings that every calculation reads. -/
structure Config where
  /-- How many brackets are resolved before an expression is given up. -/
  maxBracketIterations : Int := 50
  /-- The significant digits of numbers in running text. -/
  debugDigits : Int := 10
  roundingMode : RoundingMode := .auto
  roundingDigits : Option Int := none
  /-- Whether the worst-case enclosure is computed beside the range. -/
  intervalBound : Bool := true
  /-- Whether a result that is not a number is warned about. -/
  warnOnNaN : Bool := true
deriving DecidableEq

instance : Inhabited Config := ⟨{}⟩

/-- The settings that a change names; the others stay. -/
structure Config.Change where
  maxBracketIterations : Option Int := none
  debugDigits : Option Int := none
  roundingMode : Option String := none
  roundingDigits : Option Int := none
  intervalBound : Option Bool := none
  warnOnNaN : Option Bool := none

namespace Config

/-- The rounding mode after a change, if the name it gives is one. -/
def Change.mode (change : Change) (before : RoundingMode) : Except Fault RoundingMode :=
  match change.roundingMode with
  | none => .ok before
  | some name => match RoundingMode.ofName? name with
    | some mode => .ok mode
    | none => .error (.unknownRounding name)

/-- The settings after a change, if every value it names is in range. -/
def update (config : Config) (change : Change) : Except Fault Config := do
  if change.maxBracketIterations.any (· < 1) then throw .bracketIterations
  if change.debugDigits.any (fun n => n < 1 ∨ 17 < n) then throw .debugDigits
  let mode ← change.mode config.roundingMode
  if change.roundingDigits.any (· < 0) then throw .roundingDigits
  pure {
    maxBracketIterations := change.maxBracketIterations.getD config.maxBracketIterations
    debugDigits := change.debugDigits.getD config.debugDigits
    roundingMode := mode
    roundingDigits := change.roundingDigits.or config.roundingDigits
    intervalBound := change.intervalBound.getD config.intervalBound
    warnOnNaN := change.warnOnNaN.getD config.warnOnNaN }

/-- What a request does to the settings: most only read them. -/
inductive Request where
  | change (change : Change)
  | reset
  | read

/-- The settings after a request; a refused change leaves them as they were. -/
def after (config : Config) : Request → Config
  | .change fields => match config.update fields with
    | .ok changed => changed
    | .error _ => config
  | .reset => {}
  | .read => config

/-- The settings after a sequence of requests, which starts from the defaults. -/
def afterAll (requests : List Request) : Config := requests.foldl after {}

end Config

end PlusMinus
