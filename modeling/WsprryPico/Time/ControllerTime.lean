import WsprryPico.Time.UtcDiscipline

/-!
# The controller time arbiter

`time/controller_time.cpp`: challenges for controller and browser time, and the
arbitration between the sources of UTC. Identifiers are the bytes of their
strings. A call makes its readings of the raw timer at fixed places of the
source; `Site` names these places and `Readings` is what the timer gave at each.
-/

namespace WsprryPico.Time

open Wtp

def controllerFixedUncertaintyNs : UInt64 := 250000000
def controllerChallengeLifetimeNs : UInt64 := 10000000000
def controllerSourceLifetimeNs : UInt64 := 90000000000
def browserSourceLifetimeNs : UInt64 := 3600000000000
def controllerLocalMarginNs : UInt64 := 1050999
def controllerDriftPpb : UInt64 := 50000
def browserClockUncertaintyNs : UInt64 := 250000000
def browserChallengeMaxAgeNs : UInt64 := 200000000

/-- `sntp.hpp`. -/
def standaloneMaxUncertaintyNs : UInt64 := 500000000
def sntpMinUtcNs : UInt64 := 1735689600000000000
def sntpMaxUtcNs : UInt64 := 4102444800000000000

inductive ControllerTimeCode where
  | ok | invalid | wrongDevice | authenticationRequired | replay | timeout | sourceBusy
  | disagreement | uncertainty
  deriving DecidableEq

inductive ActiveTimeSource where
  | none | sntp | controller | browser | gps | disagreement
  deriving DecidableEq

structure ControllerChallenge where
  code : ControllerTimeCode := .invalid
  nonce : List UInt8 := []
  sampledMonotonicNs : UInt64 := 0

structure LocalFrequencyReference where
  sampledRawNs : UInt64 := 0
  validUntilRawNs : UInt64 := 0
  generation : UInt64 := 0
  ratePpb : Int := 0
  uncertaintyPpb : UInt32 := 0
  deriving DecidableEq

structure Observation where
  source : ObservationSource := .sntp
  utcNs : UInt64 := 0
  monotonicNs : UInt64 := 0
  uncertaintyNs : UInt64 := 0
  principal : List UInt8 := []
  valid : Bool := false
  ratePpb : Int := 0
  rateUncertaintyPpb : UInt32 := 0
  generation : UInt64 := 0

structure Pending where
  principal : List UInt8 := []
  session : List UInt8 := []
  nonce : List UInt8 := []
  startedNs : UInt64 := 0
  live : Bool := false
  responseStarted : Bool := false
  responseDelivered : Bool := false

/-- Where a call reads the raw timer. -/
inductive Site where
  /-- `challenge` -/
  | pending | issued
  /-- `challenge_response_started`, `challenge_response_delivered` -/
  | started | delivered
  /-- `submit` -/
  | submitted
  /-- `observe_model` and `import_model` -/
  | observed
  /-- the reports of the clock they ask for, in the order they ask -/
  | available | availableAgain | browserValid | valid | overlap
  /-- `accept`, and the clock it calls -/
  | accepted | reference | adjusted
  /-- the two readings of the import -/
  | imported | importedLater
  /-- `observe_frequency_reference` and `retire_frequency_reference` -/
  | frequency

abbrev Readings := Site → UInt64

/-- `timer` says whether the timer the constructor was given is there. -/
structure ControllerTimeArbiter where
  timer : Bool := true
  deviceId : List UInt8
  clock : UtcDiscipline
  pending : Pending := {}
  current : Observation := {}
  recovery : Observation := {}
  source : ActiveTimeSource := .none
  importedNtp : Bool := false
  frequencyConflict : Bool := false
  localReference : Option LocalFrequencyReference := none
  referenceWatermarkRawNs : UInt64 := 0
  referenceWatermarkGeneration : UInt64 := 0
  browserReferenceSelected : Bool := false

def boundedIdentifier (value : List UInt8) : Bool :=
  !value.isEmpty && value.length ≤ 64 && value.all fun byte => byte ≥ 33 && byte < 127

namespace Observation

def lifetime (o : Observation) : UInt64 :=
  if o.source = .browser then browserSourceLifetimeNs else controllerSourceLifetimeNs

/-- `interval` of an observation from its own rate: its estimate of the present
and the uncertainty of that. -/
def interval (now : UInt64) (o : Observation) : Option (UInt64 × UInt64) :=
  if ¬ o.valid ∨ now < o.monotonicNs then none
  else
    let age := now - o.monotonicNs
    let anchor : ClockSnapshot :=
      { utcNowNs := o.utcNs, monotonicNowNs := o.monotonicNs, ratePpb := o.ratePpb }
    if age > o.lifetime then none
    else
      match project anchor now with
      | none => none
      | some estimate =>
        match growth age (controllerDriftPpb + o.rateUncertaintyPpb.toUInt64) with
        | none => none
        | some drift => (add o.uncertaintyNs drift).map fun uncertainty => (estimate, uncertainty)

end Observation

/-- Two intervals that have an instant in common. -/
def intervalsMeet (left right : Option (UInt64 × UInt64)) : Bool :=
  match left, right with
  | some (estimate, uncertainty), some (estimate', uncertainty') =>
    match add uncertainty uncertainty' with
    | some total => distance estimate estimate' ≤ total
    | none => false
  | _, _ => false

namespace ControllerTimeArbiter

def label : ObservationSource → ActiveTimeSource
  | .gps => .gps
  | .sntp => .sntp
  | .controller => .controller
  | .browser => .browser

/-- `interval` of the current observation: a browser epoch is the clock's own model. -/
def currentInterval (now reading : UInt64) (a : ControllerTimeArbiter) :
    Option (UInt64 × UInt64) :=
  if ¬ a.current.valid ∨ now < a.current.monotonicNs then none
  else if a.current.source = .browser then
    let model := a.clock.snapshot reading
    if model.state ≠ .unsynchronized ∧ model.syncAgeNs ≤ browserSourceLifetimeNs then
      some (model.utcNowNs, model.uncertaintyNs)
    else none
  else a.current.interval now

def currentValid (now reading : UInt64) (a : ControllerTimeArbiter) : Bool :=
  if a.importedNtp then
    let snapshot := a.clock.snapshot reading
    snapshot.state ≠ .unsynchronized ∧
      (a.current.source = .gps ∨ snapshot.syncAgeNs ≤ controllerSourceLifetimeNs)
  else (a.currentInterval now reading).isSome

def overlaps (now reading : UInt64) (o : Observation) (a : ControllerTimeArbiter) : Bool :=
  intervalsMeet (a.currentInterval now reading) (o.interval now)

def challenge (r : Readings) (principal session device nonce : List UInt8)
    (a : ControllerTimeArbiter) : ControllerChallenge × ControllerTimeArbiter :=
  if ¬ a.timer ∨ ¬ boundedIdentifier principal ∨ ¬ boundedIdentifier session ∨
      ¬ boundedIdentifier nonce then ({ code := .authenticationRequired }, a)
  else if device ≠ a.deviceId then ({ code := .wrongDevice }, a)
  else if a.frequencyConflict then ({ code := .disagreement }, a)
  else
    let now := r .pending
    if a.pending.live ∧ ¬ (now ≥ a.pending.startedNs ∧
        now - a.pending.startedNs > controllerChallengeLifetimeNs) then
      ({ code := .sourceBusy }, a)
    else
      let free : Pending := if a.pending.live then {} else a.pending
      ({ code := .ok, nonce, sampledMonotonicNs := r .issued },
        { a with
          pending := { free with principal, session, nonce, startedNs := r .issued, live := true } })

/-- The pending challenge has this binding. -/
def bound (principal session device nonce : List UInt8) (a : ControllerTimeArbiter) : Bool :=
  principal = a.pending.principal ∧ session = a.pending.session ∧ device = a.deviceId ∧
    nonce = a.pending.nonce

def challengeResponseStarted (r : Readings) (principal session device nonce : List UInt8)
    (a : ControllerTimeArbiter) : Bool × ControllerTimeArbiter :=
  if ¬ a.pending.live ∨ ¬ a.timer ∨ ¬ a.bound principal session device nonce ∨
      a.pending.responseStarted ∨ a.pending.responseDelivered then (false, a)
  else
    (true, { a with
      pending := { a.pending with startedNs := r .started, responseStarted := true } })

def challengeResponseDelivered (r : Readings) (principal session device nonce : List UInt8)
    (a : ControllerTimeArbiter) : Bool × ControllerTimeArbiter :=
  if ¬ a.pending.live ∨ ¬ a.timer ∨ ¬ a.bound principal session device nonce ∨
      ¬ a.pending.responseStarted ∨ a.pending.responseDelivered then (false, a)
  else
    let now := r .delivered
    if now < a.pending.startedNs then (false, a)
    else (true, { a with pending := { a.pending with startedNs := now, responseDelivered := true } })

def cancelChallenge (principal session : List UInt8) (a : ControllerTimeArbiter) :
    ControllerTimeArbiter :=
  if ¬ a.pending.live ∨ principal ≠ a.pending.principal ∨ session ≠ a.pending.session then a
  else { a with pending := {} }

/-- The clock takes an observation over. -/
def observed (r : Readings) (o : Observation) (clock : UtcDiscipline) : Bool × UtcDiscipline :=
  if o.source = .sntp then
    clock.observeRate (r .accepted) o.utcNs o.monotonicNs o.uncertaintyNs o.ratePpb
      o.rateUncertaintyPpb
  else
    clock.observeFrom o.source (r .accepted) o.utcNs o.monotonicNs o.uncertaintyNs .normal none

/-- The trusted rate a new browser epoch starts with. -/
def startingRate (r : Readings) (o : Observation) (a : ControllerTimeArbiter) :
    Option LocalFrequencyReference :=
  a.localReference.filter fun reference =>
    o.source = .browser && !a.frequencyConflict &&
      decide (reference.validUntilRawNs > r .reference) &&
      decide (reference.uncertaintyPpb.toUInt64 < controllerDriftPpb)

def accept (r : Readings) (o : Observation) (a : ControllerTimeArbiter) :
    Bool × ControllerTimeArbiter :=
  match observed r o a.clock with
  | (false, clock) => (false, { a with clock })
  | (true, clock) =>
    let (selected, clock) :=
      match a.startingRate r o with
      | some reference =>
        clock.adjustBrowserRate (r .adjusted) reference.ratePpb reference.uncertaintyPpb
      | none => (false, clock)
    (true, { a with
      clock := clock
      current := o
      browserReferenceSelected := selected
      importedNtp := false
      recovery := {}
      source := label o.source })

def disagree (a : ControllerTimeArbiter) : ControllerTimeArbiter :=
  { a with
    importedNtp := false
    clock := a.clock.invalidate
    recovery := {}
    current := {}
    source := .disagreement }

/-- The arbiter without a current observation. -/
def cleared (a : ControllerTimeArbiter) : ControllerTimeArbiter :=
  { a with current := {}, source := .none, importedNtp := false }

/-- What `observe_model` refuses before it looks at the time. -/
def refuses (o : Observation) (leap : LeapState) (transition : Option UInt64)
    (a : ControllerTimeArbiter) : Bool :=
  a.frequencyConflict || decide (o.source = .gps) || decide (o.ratePpb < -100000) ||
    decide (o.ratePpb > 100000) || decide (o.rateUncertaintyPpb > 200000) || !a.timer ||
    decide (leap ≠ .normal) || transition.isSome ||
    decide (o.uncertaintyNs > if o.source = .browser
      then browserClockUncertaintyNs + browserChallengeMaxAgeNs else standaloneMaxUncertaintyNs) ||
    (decide (o.source = .browser) && decide (o.uncertaintyNs < browserClockUncertaintyNs)) ||
    decide (o.utcNs < sntpMinUtcNs) || decide (o.utcNs ≥ sntpMaxUtcNs) ||
    (decide (o.source = .controller ∨ o.source = .browser) && o.principal.isEmpty) ||
    (decide (o.source = .sntp) && !o.principal.isEmpty)

/-- A browser observation waits for a clock without time, unless the current
epoch is a browser's, and does not take over that of another principal. -/
def browserTurn (r : Readings) (now : UInt64) (o : Observation) (a : ControllerTimeArbiter) :
    Bool × ControllerTimeArbiter :=
  let foreign := a.source ≠ .disagreement ∧ a.current.source ≠ .browser
  if foreign ∧ ¬ a.clock.browserTimeAvailable (r .available) then (false, a)
  else
    let a := if foreign ∧ a.clock.browserTimeAvailable (r .availableAgain) then a.cleared else a
    if a.currentValid now (r .browserValid) ∧ a.current.source = .browser ∧
        a.current.principal ≠ o.principal then (false, a)
    else (true, a)

/-- The observation confirms the last one received since the disagreement. -/
def confirms (now : UInt64) (o : Observation) (a : ControllerTimeArbiter) : Bool :=
  a.recovery.valid && decide (a.recovery.source = o.source) &&
    decide (a.recovery.principal = o.principal) &&
    intervalsMeet (a.recovery.interval now) (o.interval now)

/-- The arbitration of an observation against the current one. -/
def arbitrate (r : Readings) (now : UInt64) (o : Observation) (a : ControllerTimeArbiter) :
    Bool × ControllerTimeArbiter :=
  if a.source = .disagreement then
    if ¬ a.confirms now o then (false, { a with recovery := o })
    else if o.monotonicNs ≤ a.recovery.monotonicNs then (false, a)
    else a.accept r o
  else if ¬ a.currentValid now (r .valid) then a.cleared.accept r o
  else if a.current.source = .browser ∧ o.source ≠ .browser then
    if ¬ a.overlaps now (r .overlap) o then (false, a.disagree) else a.accept r o
  else if o.source = .browser ∧ a.current.source ≠ .browser then (false, a)
  else if (a.current.source = .sntp ∨ a.current.source = .gps) ∧ o.source = .controller then
    (false, a)
  else if a.current.source = .controller ∧ o.source = .controller ∧
      a.current.principal ≠ o.principal then (false, a)
  else if ¬ a.overlaps now (r .overlap) o then (false, a.disagree)
  else a.accept r o

/-- `observe_model`; its arguments are the fields of the observation. -/
def observeModel (r : Readings) (o : Observation) (leap : LeapState)
    (transition : Option UInt64) (a : ControllerTimeArbiter) : Bool × ControllerTimeArbiter :=
  if a.refuses o leap transition then (false, a)
  else
    let now := r .observed
    if (o.interval now).isNone then (false, a)
    else if o.source = .browser then
      match a.browserTurn r now o with
      | (false, a) => (false, a)
      | (true, a) => a.arbitrate r now o
    else a.arbitrate r now o

def observe (r : Readings) (source : ObservationSource) (utcNs sampled uncertaintyNs : UInt64)
    (leap : LeapState) (transition : Option UInt64) (principal : List UInt8)
    (a : ControllerTimeArbiter) : Bool × ControllerTimeArbiter :=
  a.observeModel r
    { source, utcNs, monotonicNs := sampled, uncertaintyNs, principal, valid := true }
    leap transition

def observeRate (r : Readings) (utcNs raw uncertaintyNs : UInt64) (ratePpb : Int)
    (rateUncertaintyPpb : UInt32) (generation : UInt64) (a : ControllerTimeArbiter) :
    Bool × ControllerTimeArbiter :=
  a.observeModel r
    { source := .sntp, utcNs, monotonicNs := raw, uncertaintyNs, valid := true, ratePpb,
      rateUncertaintyPpb, generation } .normal none

/-- The observation a model was imported with. -/
def importedObservation (kind : ObservationSource) (source : RateObservation) : Observation :=
  { source := kind, utcNs := source.utcNs, monotonicNs := source.rawNs,
    uncertaintyNs := source.uncertaintyNs, valid := true, ratePpb := source.ratePpb,
    rateUncertaintyPpb := source.rateUncertaintyPpb, generation := source.generation }

/-- What `import_model` refuses before it looks at the time. -/
def refusesModel (source : RateObservation) (model : ClockSnapshot) (a : ControllerTimeArbiter) :
    Bool :=
  a.frequencyConflict || !a.timer || !consistentImport source model ||
    decide (source.utcNs < sntpMinUtcNs) || decide (source.utcNs ≥ sntpMaxUtcNs) ||
    decide (source.ratePpb < -100000) || decide (source.ratePpb > 100000) ||
    decide (source.rateUncertaintyPpb > utcMaxRateUncertaintyPpb) ||
    decide (model.utcNowNs < sntpMinUtcNs) || decide (model.utcNowNs ≥ sntpMaxUtcNs) ||
    decide (source.generation ≠ model.modelGeneration) ||
    decide (model.syncAgeNs > model.monotonicNowNs) ||
    decide (source.rawNs ≠ model.monotonicNowNs - model.syncAgeNs)

/-- The clock imports the model, and the arbiter follows. -/
def adopt (r : Readings) (kind : ObservationSource) (source : RateObservation)
    (model : ClockSnapshot) (maxClockErrorPpb : UInt32) (a : ControllerTimeArbiter) :
    Bool × ControllerTimeArbiter :=
  match a.clock.importModel kind (r .imported) (r .importedLater) source model
    maxClockErrorPpb with
  | (false, clock) => (false, { a with clock })
  | (true, clock) =>
    (true, { a with
      clock := clock
      current := importedObservation kind source
      recovery := {}
      source := label kind
      importedNtp := true })

def importModel (r : Readings) (kind : ObservationSource) (source : RateObservation)
    (model : ClockSnapshot) (maxClockErrorPpb : UInt32) (a : ControllerTimeArbiter) :
    Bool × ControllerTimeArbiter :=
  if a.refusesModel source model then (false, a)
  else
    let now := r .observed
    let o := importedObservation kind source
    if (o.interval now).isNone then (false, a)
    else if a.source = .disagreement then
      if ¬ (a.recovery.valid ∧ a.recovery.source = kind ∧
          intervalsMeet (a.recovery.interval now) (o.interval now)) then
        (false, { a with recovery := o })
      else if o.monotonicNs ≤ a.recovery.monotonicNs ∨ o.generation ≤ a.recovery.generation then
        (false, a)
      else a.adopt r kind source model maxClockErrorPpb
    else if a.currentValid now (r .valid) ∧
        (a.current.source = .controller ∨ a.current.source = .browser) ∧
        ¬ a.overlaps now (r .overlap) o then (false, a.disagree)
    else a.adopt r kind source model maxClockErrorPpb

def observeNtpModel (r : Readings) (source : RateObservation) (model : ClockSnapshot)
    (maxClockErrorPpb : UInt32) (a : ControllerTimeArbiter) : Bool × ControllerTimeArbiter :=
  a.importModel r .sntp source model maxClockErrorPpb

def observeReferenceModel (r : Readings) (source : RateObservation) (model : ClockSnapshot)
    (maxClockErrorPpb : UInt32) (a : ControllerTimeArbiter) : Bool × ControllerTimeArbiter :=
  a.importModel r .gps source model maxClockErrorPpb

def submittedUncertainty (age : UInt64) : Option UInt64 :=
  (add controllerFixedUncertaintyNs age).bind fun uncertainty =>
    add uncertainty controllerLocalMarginNs

def submit (r : Readings) (principal session device nonce : List UInt8) (utcNs : UInt64)
    (browser : Bool) (a : ControllerTimeArbiter) : ControllerTimeCode × ControllerTimeArbiter :=
  if a.frequencyConflict then (.disagreement, a)
  else if ¬ a.pending.live then (.replay, a)
  else
    let now := r .submitted
    let binding := a.bound principal session device nonce
    let started := a.pending.startedNs
    let a := { a with pending := {} }
    if ¬ binding then
      (if device = a.deviceId then .authenticationRequired else .wrongDevice, a)
    else if now < started ∨ now - started >
        (if browser then browserChallengeMaxAgeNs else controllerChallengeLifetimeNs) then
      (.timeout, a)
    else
      match submittedUncertainty (now - started) with
      | none => (.uncertainty, a)
      | some uncertainty =>
        if uncertainty > standaloneMaxUncertaintyNs ∨ utcNs < sntpMinUtcNs ∨
            utcNs ≥ sntpMaxUtcNs then (.uncertainty, a)
        else
          match a.observe r (if browser then .browser else .controller) utcNs now uncertainty
            .normal none principal with
          | (true, a) => (.ok, a)
          | (false, a) => (if a.source = .disagreement then .disagreement else .sourceBusy, a)

def invalidate (source : ObservationSource) (a : ControllerTimeArbiter) : ControllerTimeArbiter :=
  if a.source = label source ∨ a.source = .disagreement then
    { a with
      clock := a.clock.invalidate
      current := {}
      recovery := {}
      source := .none
      importedNtp := false }
  else a

/-- What `observe_frequency_reference` refuses at a reading. -/
def refusesReference (now : UInt64) (reference : LocalFrequencyReference)
    (a : ControllerTimeArbiter) : Bool :=
  decide (reference.generation = 0) || decide (reference.uncertaintyPpb = 0) ||
    decide (reference.uncertaintyPpb > 200101) || decide (reference.ratePpb < -100000) ||
    decide (reference.ratePpb > 100000) || decide (reference.sampledRawNs > now) ||
    decide (reference.validUntilRawNs ≤ now) ||
    decide (reference.validUntilRawNs ≤ reference.sampledRawNs) ||
    decide (reference.validUntilRawNs - reference.sampledRawNs > 30000000000) ||
    (decide (a.referenceWatermarkGeneration ≠ 0) &&
      (decide (reference.generation < a.referenceWatermarkGeneration) ||
        (a.localReference.isNone &&
          decide (reference.sampledRawNs ≤ a.referenceWatermarkRawNs)))) ||
    a.localReference.any fun held =>
      decide (reference.generation < held.generation) ||
        decide (reference.sampledRawNs < held.sampledRawNs) ||
        (decide (reference.sampledRawNs = held.sampledRawNs) && decide (reference ≠ held))

def observeFrequencyReference (r : Readings) (reference : LocalFrequencyReference) (now : UInt64)
    (a : ControllerTimeArbiter) : Bool × ControllerTimeArbiter :=
  if ¬ a.timer then (false, a)
  else
    let raw := r .frequency
    if now > raw then (false, a)
    else if a.refusesReference raw reference then (false, a)
    else
      let a := { a with
        referenceWatermarkRawNs := reference.sampledRawNs
        referenceWatermarkGeneration := reference.generation
        localReference := some reference }
      if a.frequencyConflict ∨ a.source ≠ .browser then (true, a)
      else if reference.uncertaintyPpb.toUInt64 ≥ controllerDriftPpb then
        (true, { a with browserReferenceSelected := false })
      else
        let (selected, clock) :=
          a.clock.adjustBrowserRate (r .adjusted) reference.ratePpb reference.uncertaintyPpb
        (selected, { a with clock, browserReferenceSelected := selected })

def retireFrequencyReference (r : Readings) (now : UInt64) (removed : Bool)
    (a : ControllerTimeArbiter) : ControllerTimeArbiter :=
  if ¬ removed then
    { a with
      localReference := a.localReference.map fun reference =>
        if now ≥ reference.sampledRawNs then
          { reference with validUntilRawNs := min reference.validUntilRawNs now }
        else reference }
  else
    { a with
      localReference := none
      browserReferenceSelected := false
      clock := (a.clock.adjustBrowserRate (r .adjusted) 0 0).2 }

def frequencyReferenceConflict (conflict : Bool) (a : ControllerTimeArbiter) :
    ControllerTimeArbiter :=
  { a with
    clock := if conflict ∧ ¬ a.frequencyConflict then a.clock.invalidate else a.clock
    frequencyConflict := conflict }

end ControllerTimeArbiter

/-- The calls on the arbiter. -/
inductive ArbiterCall where
  | challenge (principal session device nonce : List UInt8)
  | challengeResponseStarted (principal session device nonce : List UInt8)
  | challengeResponseDelivered (principal session device nonce : List UInt8)
  | cancelChallenge (principal session : List UInt8)
  | submit (principal session device nonce : List UInt8) (utcNs : UInt64) (browser : Bool)
  | observe (source : ObservationSource) (utcNs sampled uncertaintyNs : UInt64) (leap : LeapState)
    (transition : Option UInt64) (principal : List UInt8)
  | observeRate (utcNs raw uncertaintyNs : UInt64) (ratePpb : Int) (rateUncertaintyPpb : UInt32)
    (generation : UInt64)
  | observeNtpModel (source : RateObservation) (model : ClockSnapshot) (maxClockErrorPpb : UInt32)
  | observeReferenceModel (source : RateObservation) (model : ClockSnapshot)
    (maxClockErrorPpb : UInt32)
  | observeFrequencyReference (reference : LocalFrequencyReference) (now : UInt64)
  | retireFrequencyReference (now : UInt64) (removed : Bool)
  | invalidate (source : ObservationSource)
  | frequencyReferenceConflict (conflict : Bool)

namespace ControllerTimeArbiter

/-- The state a call leaves. -/
def after (r : Readings) (call : ArbiterCall) (a : ControllerTimeArbiter) :
    ControllerTimeArbiter :=
  match call with
  | .challenge principal session device nonce => (a.challenge r principal session device nonce).2
  | .challengeResponseStarted principal session device nonce =>
    (a.challengeResponseStarted r principal session device nonce).2
  | .challengeResponseDelivered principal session device nonce =>
    (a.challengeResponseDelivered r principal session device nonce).2
  | .cancelChallenge principal session => a.cancelChallenge principal session
  | .submit principal session device nonce utc browser =>
    (a.submit r principal session device nonce utc browser).2
  | .observe source utc sampled uncertainty leap transition principal =>
    (a.observe r source utc sampled uncertainty leap transition principal).2
  | .observeRate utc raw uncertainty rate rateUncertainty generation =>
    (a.observeRate r utc raw uncertainty rate rateUncertainty generation).2
  | .observeNtpModel source model error => (a.observeNtpModel r source model error).2
  | .observeReferenceModel source model error => (a.observeReferenceModel r source model error).2
  | .observeFrequencyReference reference now => (a.observeFrequencyReference r reference now).2
  | .retireFrequencyReference now removed => a.retireFrequencyReference r now removed
  | .invalidate source => a.invalidate source
  | .frequencyReferenceConflict conflict => a.frequencyReferenceConflict conflict

def run (a : ControllerTimeArbiter) (calls : List (Readings × ArbiterCall)) :
    ControllerTimeArbiter :=
  calls.foldl (fun a step => a.after step.1 step.2) a

end ControllerTimeArbiter

end WsprryPico.Time
