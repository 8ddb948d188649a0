import WsprryPico.Hardware.Devices

/-!
# The saved hardware configuration

`validate_rf_configuration` and the hardware checks of `parse_config` in
`standalone/config.cpp`, and what `Store` of `standalone/storage.cpp` does with the
configuration and the filter settings. A document is what the parsers make of the text
in the journal; whether a text fits and a journal takes it are answers of the calls.
-/

namespace WsprryPico.Standalone

open Hardware

/-- The members of `Config` that the validators and the saves read. -/
structure RfConfig where
  pins : PinPlan := {}
  si5351 : Option Si5351Settings := none
  gps : Option GpsSettings := none
  enabled : Bool := false
  deriving DecidableEq

/-- Automatic calibration without a qualified receiver. -/
def calibrationUnserved (si : Si5351Settings) (gps : Option GpsSettings) : Bool :=
  si.automaticCalibration && !gps.any fun g => g.enabled && g.pairingQualified

/-- The part of `validate_rf_configuration` about the engine. -/
def validateEngine (config : RfConfig) (filters : FilterSettings) : Option String :=
  match config.pins.engine, config.si5351 with
  | .direct, _ => none
  | .i2c, none => some "si5351_configuration_required"
  | .i2c, some si =>
    let allocation := validateSi5351 config.pins si 0 filters
    if !allocation.valid then allocation.error.or allocation.pins.error
    else if calibrationUnserved si config.gps then some "gps_required"
    else none

def validateRfConfiguration (config : RfConfig) (filters : FilterSettings) : Option String :=
  if !config.pins.operational then some "invalid_hardware_allocation"
  else
    (config.si5351.bind validateSi5351Settings).or <|
    (validateEngine config filters).or <|
    (config.gps.bind fun gps => validateGps config.pins config.si5351 gps filters).or <|
    validateFilters filters config.pins

/-! ## Documents -/

/-- The hardware members of a configuration text, each as its parser read it. -/
structure ConfigRecord where
  pins : Option PinPlan := none
  si5351 : Option Si5351Settings := none
  gps : Option GpsSettings := none
  enabled : Bool := false

/-- The hardware checks of `parse_config`; those of the other members have passed. -/
def parseConfig (record : ConfigRecord) : Option RfConfig :=
  let pins := record.pins.getD {}
  if !record.pins.all PinPlan.operational then none
  else if (record.si5351.bind validateSi5351Settings).isSome then none
  else if (record.gps.bind fun gps => validateGps pins record.si5351 gps {}).isSome then none
  else if record.si5351.any (calibrationUnserved · record.gps) then none
  else if pins.engine = .i2c &&
      !record.si5351.any fun si => (validateSi5351 pins si 0 {}).valid then none
  else some ⟨pins, record.si5351, record.gps, record.enabled⟩

/-- A state record; a member that is present but does not parse is `some none`. -/
structure StateRecord where
  fieldsValid : Bool := true
  /-- The schema is `standalone-state/4`. -/
  logs : Bool := true
  filters : Option (Option FilterSettings) := none
  loggingValid : Bool := true
  config : Option (Option ConfigRecord) := none
  /-- The message schedule: whether it is enabled. -/
  message : Option (Option Bool) := none

inductive Document where
  | empty
  | malformed
  | legacy (config : Option ConfigRecord)
  | state (record : StateRecord)

/-! ## The store -/

structure ConfigStore where
  healthy : Bool := false
  current : Option RfConfig := none
  filters : FilterSettings := {}
  message : Option Bool := none

namespace ConfigStore

/-- What `load` and `save_filters` check filters against: the plan of a device without a
configuration is the default one. -/
def validateState (current : Option RfConfig) (filters : FilterSettings) : Option String :=
  match current with
  | some config => validateRfConfiguration config filters
  | none => validateFilters filters {}

def loadState (r : StateRecord) : Bool × ConfigStore :=
  if !r.fieldsValid then (false, {})
  else if r.filters = some none then (false, {})
  else
    let s : ConfigStore := { filters := r.filters.join.getD {} }
    if !r.loggingValid then (false, s)
    else
      let config := r.config.map (·.bind parseConfig)
      if config = some none then (false, s)
      else
        let s := { s with current := config.join }
        if (validateState s.current s.filters).isSome then (false, s)
        else
          match r.message with
          | none => (r.logs, s)
          | some none => (false, s)
          | some (some enabled) =>
            (!(s.current.any (·.enabled) && enabled), { s with message := some enabled })

def loadDocument : Document → Bool × ConfigStore
  | .empty => (true, {})
  | .malformed => (false, {})
  | .legacy config =>
    match config.bind parseConfig with
    | none => (false, {})
    | some config => (true, { current := some config })
  | .state r => loadState r

def load (journals : Bool) (document : Document) (cursorValid : Bool) : Bool × ConfigStore :=
  if !journals then (false, {})
  else
    match loadDocument document with
    | (false, s) => (false, s)
    | (true, s) => if cursorValid then (true, { s with healthy := true }) else (false, s)

/-- What the rest of the device answers to a save. -/
structure Answers where
  /-- The progress store is healthy. -/
  progress : Bool
  /-- The texts are within their bounds, and those parsed again are accepted. -/
  encoded : Bool
  appended : Bool

def save (config : RfConfig) (a : Answers) (s : ConfigStore) : Bool × ConfigStore :=
  if !(s.healthy && a.progress) || !a.encoded ||
      (validateRfConfiguration config s.filters).isSome ||
      (config.enabled && s.message = some true) then (false, s)
  else if !a.appended then (false, { s with healthy := false })
  else (true, { s with current := some config })

def saveFilters (settings : FilterSettings) (a : Answers) (s : ConfigStore) : Bool × ConfigStore :=
  if !(s.healthy && a.progress) || (validateState s.current settings).isSome || !a.encoded then
    (false, s)
  else if !a.appended then (false, { s with healthy := false })
  else (true, { s with filters := settings })

/-- `save_logging`, and the reservations of the cursor: nothing of the hardware changes. -/
def saveOther (a : Answers) (s : ConfigStore) : Bool × ConfigStore :=
  if !(s.healthy && a.progress) || !a.encoded then (false, s)
  else if !a.appended then (false, { s with healthy := false })
  else (true, s)

def saveMessageSchedule (schedule : Option Bool) (a : Answers) (s : ConfigStore) :
    Bool × ConfigStore :=
  if !(s.healthy && a.progress) || !a.encoded ||
      (schedule = some true && s.current.any (·.enabled)) then (false, s)
  else if !a.appended then (false, { s with healthy := false })
  else (true, { s with message := schedule })

/-- The states behind a load that succeeded, as long as no load fails. A purge of the
configuration history ends in a load, or before it with the store not healthy. -/
inductive Reachable : ConfigStore → Prop where
  | load {journals : Bool} {document : Document} {cursorValid : Bool} {s : ConfigStore}
    (h : load journals document cursorValid = (true, s)) : Reachable s
  | save {s : ConfigStore} (config : RfConfig) (a : Answers) (h : Reachable s) :
    Reachable (s.save config a).2
  | saveFilters {s : ConfigStore} (settings : FilterSettings) (a : Answers) (h : Reachable s) :
    Reachable (s.saveFilters settings a).2
  | saveOther {s : ConfigStore} (a : Answers) (h : Reachable s) : Reachable (s.saveOther a).2
  | saveMessageSchedule {s : ConfigStore} (schedule : Option Bool) (a : Answers)
    (h : Reachable s) : Reachable (s.saveMessageSchedule schedule a).2
  | purgeRefused {s : ConfigStore} (h : Reachable s) : Reachable { s with healthy := false }

end ConfigStore

end WsprryPico.Standalone
