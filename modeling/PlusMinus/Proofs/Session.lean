import PlusMinus.Proofs.Checked.Propagation
import PlusMinus.Proofs.Fault
import PlusMinus.Session

/-! Settings in a session: they stay in range whatever is asked for, a change of them is made whole
or not at all, and nothing else touches them. -/

namespace PlusMinus

namespace RoundingMode

/-- The names of the rounding modes. -/
def names : List String := ["auto", "sigfig", "decimals"]

theorem mem_names {name : String} : name ∈ names ↔ ∃ mode : RoundingMode, mode.name = name := by
  constructor
  · -- The names are listed in the order of the modes.
    intro known
    simp only [names, List.mem_cons, List.not_mem_nil, or_false] at known
    rcases known with rfl | rfl | rfl
    · exact ⟨.auto, rfl⟩
    · exact ⟨.significant, rfl⟩
    · exact ⟨.places, rfl⟩
  · rintro ⟨mode, rfl⟩
    cases mode <;> decide

theorem name_injective : Function.Injective name := by
  intro mode other same
  cases mode <;> cases other <;> first | rfl | exact absurd same (by decide)

/-- A rounding mode is what its name finds. -/
theorem ofName?_eq_some {name : String} {mode : RoundingMode} :
    ofName? name = some mode ↔ mode.name = name := by
  constructor
  · intro found
    simpa using List.find?_some found
  · rintro rfl
    cases mode <;> decide

theorem ofName?_eq_none {name : String} : ofName? name = none ↔ name ∉ names := by
  simp only [Option.eq_none_iff_forall_ne_some, Ne, ofName?_eq_some, mem_names, not_exists]

end RoundingMode

namespace Config

/-- Settings in range. -/
structure InRange (config : Config) : Prop where
  maxBracketIterations : 1 ≤ config.maxBracketIterations
  debugDigits : 1 ≤ config.debugDigits ∧ config.debugDigits ≤ 17
  roundingMode : config.roundingMode.name ∈ RoundingMode.names
  roundingDigits : ∀ n ∈ config.roundingDigits, 0 ≤ n

namespace Change

/-- A change whose values are in range, as far as it gives any. -/
structure InRange (change : Change) : Prop where
  maxBracketIterations : ∀ n ∈ change.maxBracketIterations, 1 ≤ n
  debugDigits : ∀ n ∈ change.debugDigits, 1 ≤ n ∧ n ≤ 17
  roundingMode : ∀ name ∈ change.roundingMode, name ∈ RoundingMode.names
  roundingDigits : ∀ n ∈ change.roundingDigits, 0 ≤ n

/-- Settings that differ from earlier ones in the fields that a change gives, and in no others. -/
structure Made (change : Change) (before after : Config) : Prop where
  maxBracketIterations :
    after.maxBracketIterations = change.maxBracketIterations.getD before.maxBracketIterations
  debugDigits : after.debugDigits = change.debugDigits.getD before.debugDigits
  roundingMode : after.roundingMode.name = change.roundingMode.getD before.roundingMode.name
  roundingDigits : after.roundingDigits = change.roundingDigits.or before.roundingDigits
  intervalBound : after.intervalBound = change.intervalBound.getD before.intervalBound
  warnOnNaN : after.warnOnNaN = change.warnOnNaN.getD before.warnOnNaN

variable {config : Config} {change : Change}

/-- The mode after a change has the name that was given, or else stays. -/
theorem mode_eq_ok {before mode : RoundingMode} :
    change.mode before = .ok mode ↔
      (∀ name ∈ change.roundingMode, name ∈ RoundingMode.names)
        ∧ mode.name = change.roundingMode.getD before.name := by
  -- A name that is given is looked up, and no two modes share one.
  unfold Change.mode
  cases change.roundingMode with
  | none => simp [RoundingMode.name_injective.eq_iff, eq_comm]
  | some name =>
    dsimp only
    cases found : RoundingMode.ofName? name with
    | none => simp [RoundingMode.ofName?_eq_none.1 found]
    | some chosen =>
      have named := RoundingMode.ofName?_eq_some.1 found
      subst named
      simp [RoundingMode.mem_names, RoundingMode.name_injective.eq_iff, eq_comm]

end Change

variable {config after : Config} {change : Change}

/-- A change is accepted exactly if all its values are in range, and is made whole then. -/
theorem update_eq_ok :
    config.update change = .ok after ↔ change.InRange ∧ change.Made config after := by
  -- One condition for each check that is made in turn, and one for the settings made at the end.
  unfold update
  dsimp only
  simp only [Fault.refused_eq_ok, Fault.bind_eq_ok, Change.mode_eq_ok, Bool.not_eq_true,
    Option.any_eq_false]
  constructor
  · rintro ⟨iterations, digits, mode, ⟨named, chosen⟩, places, done⟩
    cases done
    exact ⟨⟨by simpa using iterations, by simpa using digits, named, by simpa using places⟩,
      ⟨rfl, rfl, chosen, rfl, rfl, rfl⟩⟩
  · rintro ⟨range, made⟩
    refine ⟨by simpa using range.maxBracketIterations, by simpa using range.debugDigits,
      after.roundingMode, ⟨range.roundingMode, made.roundingMode⟩,
      by simpa using range.roundingDigits, ?_⟩
    -- Every field is the one that is given or the one before.
    rw [← made.maxBracketIterations, ← made.debugDigits, ← made.roundingDigits,
      ← made.intervalBound, ← made.warnOnNaN]
    rfl

/-- A change whose values are in range can be made. -/
theorem Change.InRange.exists_made (range : change.InRange) (config : Config) :
    ∃ after, config.update change = .ok after := by
  -- Only the mode is looked up; the other values are taken as they are.
  obtain ⟨mode, named⟩ : ∃ mode : RoundingMode,
      mode.name = change.roundingMode.getD config.roundingMode.name := by
    cases given : change.roundingMode with
    | none => exact ⟨config.roundingMode, rfl⟩
    | some name => exact RoundingMode.mem_names.1 (range.roundingMode name given)
  refine ⟨⟨_, _, mode, _, _, _⟩, update_eq_ok.2 ⟨range, ⟨rfl, rfl, named, rfl, rfl, rfl⟩⟩⟩

/-- A change with a value out of range is refused. -/
theorem not_inRange_of_refused {fault : Fault} (refused : config.update change = .error fault) :
    ¬change.InRange := by
  intro range
  obtain ⟨after, made⟩ := range.exists_made config
  rw [refused] at made
  cases made

/-- A change in range keeps settings in range. -/
theorem InRange.of_made (before : config.InRange) (given : change.InRange)
    (made : change.Made config after) : after.InRange where
  -- A field that the change gives is in range as the change is, and any other one is as before.
  maxBracketIterations := by
    rw [made.maxBracketIterations]
    cases value : change.maxBracketIterations with
    | none => exact before.maxBracketIterations
    | some n => exact given.maxBracketIterations n value
  debugDigits := by
    rw [made.debugDigits]
    cases value : change.debugDigits with
    | none => exact before.debugDigits
    | some n => exact given.debugDigits n value
  roundingMode := RoundingMode.mem_names.2 ⟨after.roundingMode, rfl⟩
  roundingDigits := by
    rw [made.roundingDigits]
    cases value : change.roundingDigits with
    | none => exact before.roundingDigits
    | some n => exact fun m same => given.roundingDigits m (value.trans same)

theorem inRange_default : InRange {} where
  maxBracketIterations := by decide
  debugDigits := by decide
  roundingMode := by decide
  roundingDigits := nofun

/-- One request keeps the settings in range. -/
theorem InRange.after_request (before : config.InRange) (request : Request) :
    (config.after request).InRange := by
  -- A change leaves the settings that it was accepted with, or those before it.
  cases request with
  | change change =>
    unfold Config.after
    dsimp only
    cases answer : config.update change with
    | error fault => exact before
    | ok after =>
      obtain ⟨given, made⟩ := update_eq_ok.1 answer
      exact before.of_made given made
  | reset => exact inRange_default
  | read => exact before

/-- So do any number of them. -/
theorem inRange_afterAll (requests : List Request) : (afterAll requests).InRange :=
  List.foldlRecOn requests Config.after inRange_default
    fun _ range request _ => range.after_request request

/-- Settings whose rounding digits can be written, and so can the label of the rule that they ask
for. -/
def Writable (config : Config) : Prop := ∀ n ∈ config.roundingDigits, Numeral.Writable n

/-- The label of the rule that the settings ask for can be written if the rounding digits can. -/
theorem Writable.labelNumbers (writable : config.Writable) :
    ∀ n ∈ Override.labelNumbers config, Numeral.Writable n := by
  intro n member
  -- The number in the label is that of the settings, or one where none or fewer are asked for.
  unfold Override.labelNumbers at member
  split at member
  · rename_i digits _ given
    rw [List.mem_singleton.1 member]
    rcases max_choice 1 digits with same | same <;> rw [same]
    · exact (by decide +kernel : Numeral.Writable 1)
    · exact writable digits given
  · rename_i digits _ given
    rw [List.mem_singleton.1 member]
    exact writable digits given
  · cases member

/-- So can they after a request, if a change gives digits like that. -/
theorem Writable.after_request (writable : config.Writable) {request : Request}
    (given : ∀ change, request = .change change →
      ∀ n ∈ change.roundingDigits, Numeral.Writable n) :
    (config.after request).Writable := by
  -- A request leaves the digits as they are, gives others or takes them away.
  cases request with
  | change change =>
    unfold Config.after
    dsimp only
    cases answer : config.update change with
    | error fault => exact writable
    | ok after =>
      intro n digits
      rw [(update_eq_ok.1 answer).2.roundingDigits] at digits
      rcases Option.or_eq_some_iff.1 digits with chosen | ⟨_, kept⟩
      · exact given change rfl n chosen
      · exact writable n kept
  | reset => exact nofun
  | read => exact writable

/-- Requests whose changes give rounding digits that can be written lead to settings like that. -/
theorem writable_afterAll {requests : List Request}
    (given : ∀ change, .change change ∈ requests →
      ∀ n ∈ change.roundingDigits, Numeral.Writable n) :
    (afterAll requests).Writable :=
  List.foldlRecOn requests Config.after (nofun : Writable {})
    fun _ writable request member => writable.after_request fun change same =>
      given change (by rwa [← same])

end Config

namespace Session

/-- What a request does to the settings. -/
def Request.effect : Request → Config.Request
  | .change fields => .change fields
  | .reset => .reset
  | _ => .read

/-- What a request is answered with, and the settings it may leave. -/
def Request.Leaves (before : Config) (outcome : Except Fault Answer × Config) : Request → Prop
  | .change fields => match outcome.1 with
    | .ok _ => fields.InRange ∧ fields.Made before outcome.2
    | .error _ => ¬fields.InRange ∧ outcome.2 = before
  | .reset => outcome.2 = {}
  | _ => outcome.2 = before

variable (config : Config) (request : Request)

/-- Work that only reads the settings leaves them, whether it is refused or not. -/
theorem run_reading {α : Type} (work : Config → Except Fault α) :
    (reading work).run config = (work config, config) := by
  change ExceptT.run (liftM (work config) : Session α) config = _
  cases work config <;> rfl

/-- What is accepted leads on with the settings that it leaves, and what is refused ends with
them. -/
theorem run_bind {α β : Type} (work : Session α) (next : α → Session β) :
    (work >>= next).run config = match work.run config with
      | (.ok value, after) => (next value).run after
      | (.error fault, after) => (.error fault, after) := by
  simp only [ExceptT.run, bind, ExceptT.bind, ExceptT.mk, StateT.bind, ExceptT.bindCont]
  rcases work config with ⟨fault | value, after⟩
  · rfl
  · rfl

/-- A change is accepted with the settings that it makes, or refused with those before it. -/
theorem respond_change (change : Config.Change) :
    respond config (.change change)
      = ((config.update change).map .settings, config.after (.change change)) := by
  unfold respond answer Config.after
  rw [run_bind, run_reading]
  dsimp only
  cases config.update change with
  | error fault => rfl
  | ok after => rfl

theorem respond_effect : (respond config request).2 = config.after request.effect := by
  cases request with
  | change change => exact congrArg Prod.snd (respond_change config change)
  | reset => rfl
  | _ =>
    unfold respond answer
    rw [run_reading]
    rfl

/-- The settings in a session are those that the effects of its requests lead to. -/
theorem settingsAfter_eq (requests : List Request) :
    settingsAfter requests = Config.afterAll (requests.map Request.effect) := by
  simp only [settingsAfter, Config.afterAll, respond_effect, List.foldl_map]

theorem respond_leaves : request.Leaves config (respond config request) := by
  cases request with
  | change change =>
    -- An accepted change was in range and is made, and a refused one was not and is left out.
    rw [respond_change]
    unfold Config.after Request.Leaves
    dsimp only
    cases answer : config.update change with
    | error fault => exact ⟨Config.not_inRange_of_refused answer, rfl⟩
    | ok after => exact Config.update_eq_ok.1 answer
  | reset => exact rfl
  | _ => exact respond_effect config _

/-- Whatever is asked for, the settings stay in range. A change is made whole in the fields it
gives, or refused and the settings stay; nothing but a change and a reset touches them. The rule
that the settings ask for is only refused for rounding digits that are too many to be written, and
so it never is where the changes give digits that could be read from a text in the first place,
since the limit is the same. -/
theorem settings_inRange (requests : List Request) (request : Request) :
    (settingsAfter requests).InRange
      ∧ request.Leaves (settingsAfter requests) (respond (settingsAfter requests) request)
      ∧ Override.checkedConfig (settingsAfter requests)
        = (if ∀ n ∈ Override.labelNumbers (settingsAfter requests), Numeral.Writable n
          then .ok (.ofConfig (settingsAfter requests)) else .error .unwritable)
      ∧ ((∀ change, .change change ∈ requests → ∀ n ∈ change.roundingDigits, Numeral.Writable n) →
        Override.checkedConfig (settingsAfter requests)
          = .ok (.ofConfig (settingsAfter requests))) := by
  have rule := Override.checkedConfig_eq (settingsAfter requests)
  refine ⟨?_, respond_leaves _ request, rule, fun given => rule.trans (if_pos ?_)⟩
  · rw [settingsAfter_eq]
    exact Config.inRange_afterAll _
  · rw [settingsAfter_eq]
    refine (Config.writable_afterAll fun change member => ?_).labelNumbers
    -- Only a change has the effect of one.
    obtain ⟨request, asked, effect⟩ := List.mem_map.1 member
    cases request with
    | change fields =>
      cases effect
      exact given change asked
    | _ => cases effect

/-- Three decimal places are asked for, and a change that is refused asks for more. -/
theorem settings_inRange_places :
    let places : Config.Change := { roundingMode := some "decimals", roundingDigits := some 3 }
    let refused : Config.Change := { debugDigits := some 0, roundingDigits := some 4 }
    Override.checkedConfig (settingsAfter [.change places]) = .ok (.places 3)
      ∧ settingsAfter [.change places, .change refused] = settingsAfter [.change places] := by
  intro places refused
  -- Three is written with one digit.
  have few : ∀ change, .change change ∈ [Request.change places] →
      ∀ n ∈ change.roundingDigits, Numeral.Writable n := by
    intro change member
    cases List.mem_singleton.1 member
    intro n given
    cases given
    decide
  obtain ⟨_, _, _, written⟩ := settings_inRange [.change places] (.change refused)
  exact ⟨(written few).trans rfl, by decide +kernel⟩

/-- A change to a number of decimal places that has 4301 digits itself is accepted, and the rule
that the settings ask for is refused then. Rounding digits given once are not taken away by a
change to none, which counts as not giving any. -/
theorem config_refused_of_many_digits :
    let places : Config.Change :=
      { roundingMode := some "decimals", roundingDigits := some (10 ^ 4300) }
    (Config.update {} places).isOk = true
      ∧ Override.checkedConfig (settingsAfter [.change places]) = .error .unwritable
      ∧ (settingsAfter [.change places, .change { roundingDigits := none }]).roundingDigits
        = some (10 ^ 4300) := by
  intro places
  -- The label of the rule holds the number itself.
  have many : ¬∀ n ∈ Override.labelNumbers (settingsAfter [.change places]),
      Numeral.Writable n := by
    decide +kernel
  exact ⟨by decide +kernel, (Override.checkedConfig_eq _).trans (if_neg many), by decide +kernel⟩

end Session

end PlusMinus
