import WsprryPico.Time.Mapping

/-!
# The UTC discipline

`time/utc_discipline.cpp`: one accepted observation, projected to the present
with an uncertainty that grows with its age. Every function takes the raw timer
readings it makes as arguments, in the order it makes them; `config_valid_` is
computed where the source reads it.
-/

namespace WsprryPico.Time

open Wtp

inductive ObservationSource where
  | sntp | controller | browser | gps
  deriving DecidableEq

structure DisciplineConfig where
  synchronizedForNs : UInt64 := 5000000000
  holdoverForNs : UInt64 := 30000000000
  maxObservationAgeNs : UInt64 := 2000000000
  maxUncertaintyNs : UInt64 := 1000000000
  oscillatorDriftPpb : UInt64 := 50000
  maxRateObservationAgeNs : UInt64 := 0
  nonNtpHoldoverForNs : UInt64 := 0
  browserHoldoverForNs : UInt64 := 3600000000000
  gpsSynchronizedForNs : UInt64 := 3000000000
  gpsHoldoverForNs : UInt64 := 3600000000000
  unlimitedNtpHoldover : Bool := false

def DisciplineConfig.valid (config : DisciplineConfig) : Bool :=
  config.synchronizedForNs ≤ config.holdoverForNs ∧
    config.holdoverForNs ≤ 604800000000000 ∧ config.browserHoldoverForNs > 0 ∧
    config.browserHoldoverForNs ≤ 3600000000000 ∧
    config.nonNtpHoldoverForNs ≤ 604800000000000 ∧
    config.gpsSynchronizedForNs ≤ config.gpsHoldoverForNs ∧
    config.gpsHoldoverForNs > 0 ∧ config.gpsHoldoverForNs ≤ 3600000000000 ∧
    config.maxObservationAgeNs ≤ config.holdoverForNs ∧
    config.maxRateObservationAgeNs ≤ config.holdoverForNs ∧
    config.maxUncertaintyNs > 0 ∧ config.oscillatorDriftPpb ≤ 1000000000

/-- `clock` says whether the timer the constructor was given is there. -/
structure UtcDiscipline where
  clock : Bool := true
  config : DisciplineConfig := {}
  valid : Bool := false
  utcNs : UInt64 := 0
  monotonicNs : UInt64 := 0
  uncertaintyNs : UInt64 := 0
  ratePpb : Int := 0
  rateUncertaintyPpb : UInt32 := 0
  generation : UInt64 := 0
  leap : LeapState := .unknown
  leapTransitionUtcNs : Option UInt64 := none
  importedNtp : Bool := false
  browserRateModel : Bool := false
  observationSource : ObservationSource := .sntp
  sourceNs : UInt64 := 0
  importedGeneration : UInt64 := 0
  rateUntilNs : UInt64 := u64Max
  subsequentRatePpb : Int := 0
  importedGrowthPpb : UInt32 := 1000
  validUntilUtcNs : UInt64 := u64Max

/-- The checked sum of two times. -/
def add (left right : UInt64) : Option UInt64 :=
  if right > u64Max - left then none else some (left + right)

namespace Gps

def second : UInt64 := 1000000000

/-- The month of a day of the proleptic Gregorian calendar, days counted from 1970-01-01. -/
def monthOf (days : Nat) : Nat × Nat :=
  let z := days + 719468
  let doe := z % 146097
  let yoe := (doe - doe / 1460 + doe / 36524 - doe / 146096) / 365
  let doy := doe - (365 * yoe + yoe / 4 - yoe / 100)
  let mp := (5 * doy + 2) / 153
  let month := if mp < 10 then mp + 3 else mp - 9
  (yoe + z / 146097 * 400 + (if month ≤ 2 then 1 else 0), month)

/-- The days from 1970-01-01 to the first of a month. -/
def monthStart (year month : Nat) : Nat :=
  let y := if month ≤ 2 then year - 1 else year
  let yoe := y % 400
  let doy := (153 * (if month > 2 then month - 3 else month + 9) + 2) / 5
  y / 400 * 146097 + (yoe * 365 + yoe / 4 - yoe / 100 + doy) - 719468

def nextMonth (year month : Nat) : Nat × Nat :=
  if month = 12 then (year + 1, 1) else (year, month + 1)

/-- Five seconds before the end of the month, unless the instant is within five
seconds of a month boundary. -/
def utcValidUntil (utc : UInt64) : Option UInt64 :=
  if utc < 1735689600 * second ∨ utc ≥ 4102444800 * second then none
  else
    let (year, month) := monthOf (utc / second / 86400).toNat
    let start := UInt64.ofNat (monthStart year month) * 86400 * second
    let (year', month') := nextMonth year month
    let finish := UInt64.ofNat (monthStart year' month') * 86400 * second
    if utc < start + 5 * second ∨ utc ≥ finish - 5 * second then none
    else some (finish - 5 * second)

example : monthOf 20148 = (2025, 3) ∧ monthStart 2025 3 = 20148 := by decide

end Gps

namespace UtcDiscipline

def configValid (d : UtcDiscipline) : Bool := d.clock && d.config.valid

/-- What the model reports when there is no UTC. -/
def unsynchronized (now age : UInt64) (d : UtcDiscipline) : ClockSnapshot :=
  { state := .unsynchronized
    utcNowNs := 0
    monotonicNowNs := now
    uncertaintyNs := u64Max
    syncAgeNs := age
    leap := .unknown
    modelGeneration := d.generation }

/-- The model the present is projected from. -/
def anchor (d : UtcDiscipline) : ClockSnapshot :=
  { utcNowNs := d.utcNs
    monotonicNowNs := d.monotonicNs
    ratePpb := d.ratePpb
    rateUntilMonotonicNs := d.rateUntilNs
    subsequentRatePpb := d.subsequentRatePpb }

def growthPpb (d : UtcDiscipline) : UInt64 :=
  if d.importedNtp then (max d.importedGrowthPpb d.rateUncertaintyPpb).toUInt64
  else d.config.oscillatorDriftPpb + d.rateUncertaintyPpb.toUInt64

/-- The uncertainty that the growth `drift` leaves: the sum with the rounding of
a rate is made before it is checked. -/
def grown (drift : UInt64) (d : UtcDiscipline) : Option UInt64 :=
  add d.uncertaintyNs (drift + if d.ratePpb ≠ 0 then 1 else 0)

def maximumAge (d : UtcDiscipline) : UInt64 :=
  match d.observationSource with
  | .gps => d.config.gpsHoldoverForNs
  | .browser => d.config.browserHoldoverForNs
  | .controller =>
    if d.config.nonNtpHoldoverForNs ≠ 0 then d.config.nonNtpHoldoverForNs
    else d.config.holdoverForNs
  | .sntp => d.config.holdoverForNs

def synchronizedFor (d : UtcDiscipline) : UInt64 :=
  if d.observationSource = .gps then d.config.gpsSynchronizedForNs else d.config.synchronizedForNs

/-- The state at an age of the source. -/
def stateAt (age : UInt64) (d : UtcDiscipline) : ClockState :=
  if age ≤ min d.synchronizedFor d.maximumAge then .synchronized
  else if age ≤ d.maximumAge ∨ (d.config.unlimitedNtpHoldover ∧ d.observationSource = .sntp) then
    .holdover
  else .unsynchronized

def ageAt (now : UInt64) (d : UtcDiscipline) : UInt64 :=
  now - if d.importedNtp || d.browserRateModel then d.sourceNs else d.monotonicNs

/-- The report of a model that has a projection. -/
def report (now utc grown : UInt64) (d : UtcDiscipline) : ClockSnapshot :=
  let validUntil := if d.observationSource = .gps then d.validUntilUtcNs else u64Max
  { state := if utc ≥ validUntil then .unsynchronized else d.stateAt (d.ageAt now)
    utcNowNs := utc
    monotonicNowNs := now
    uncertaintyNs := grown
    syncAgeNs := d.ageAt now
    leap := if utc ≥ validUntil then .unknown else d.leap
    leapTransitionUtcNs := d.leapTransitionUtcNs
    ratePpb := if now ≥ d.rateUntilNs then d.subsequentRatePpb else d.ratePpb
    rateUncertaintyPpb := if d.observationSource = .browser
      then d.rateUncertaintyPpb + d.config.oscillatorDriftPpb.toUInt32 else d.rateUncertaintyPpb
    modelGeneration := d.generation
    rateUntilMonotonicNs := if now ≥ d.rateUntilNs then u64Max else d.rateUntilNs
    subsequentRatePpb := d.subsequentRatePpb
    validUntilUtcNs := validUntil }

def snapshot (now : UInt64) (d : UtcDiscipline) : ClockSnapshot :=
  if ¬ d.configValid then d.unsynchronized 0 u64Max
  else if ¬ d.valid ∨ now < d.monotonicNs then d.unsynchronized now u64Max
  else
    match growth (now - d.monotonicNs) d.growthPpb with
    | none => d.unsynchronized now (d.ageAt now)
    | some drift =>
      match project d.anchor now, d.grown drift with
      | some utc, some grown => d.report now utc grown
      | _, _ => d.unsynchronized now (d.ageAt now)

def browserTimeAvailable (now : UInt64) (d : UtcDiscipline) : Bool :=
  (d.snapshot now).state = .unsynchronized

/-- The observation `accept` takes over. -/
def accepted (utcNs sampled uncertaintyNs : UInt64) (leap : LeapState)
    (transition : Option UInt64) (d : UtcDiscipline) : UtcDiscipline :=
  { d with
    ratePpb := 0
    rateUncertaintyPpb := 0
    importedNtp := false
    browserRateModel := false
    sourceNs := sampled
    observationSource := .sntp
    rateUntilNs := u64Max
    subsequentRatePpb := 0
    generation := d.generation + 1
    valid := true
    utcNs := utcNs
    monotonicNs := sampled
    uncertaintyNs := uncertaintyNs
    leap := leap
    leapTransitionUtcNs := transition }

/-- `accept` refuses the observation. -/
def refuses (now utcNs sampled uncertaintyNs : UInt64) (leap : LeapState)
    (transition : Option UInt64) (maximumAge : UInt64) (d : UtcDiscipline) : Bool :=
  !d.configValid || decide (sampled > now) || (d.valid && decide (sampled ≤ d.monotonicNs)) ||
    decide (now - sampled > maximumAge) || decide (uncertaintyNs > d.config.maxUncertaintyNs) ||
    decide (leap = .unknown) || (decide (leap = .normal) && transition.isSome) ||
    (decide (leap ≠ .normal) && transition.isNone) || (add utcNs (now - sampled)).isNone

def accept (now utcNs sampled uncertaintyNs : UInt64) (leap : LeapState)
    (transition : Option UInt64) (maximumAge : UInt64) (d : UtcDiscipline) :
    Bool × UtcDiscipline :=
  if d.refuses now utcNs sampled uncertaintyNs leap transition maximumAge then (false, d)
  else (true, d.accepted utcNs sampled uncertaintyNs leap transition)

def observe (now utcNs sampled uncertaintyNs : UInt64) (leap : LeapState)
    (transition : Option UInt64) (d : UtcDiscipline) : Bool × UtcDiscipline :=
  d.accept now utcNs sampled uncertaintyNs leap transition d.config.maxObservationAgeNs

/-- `observe` under the name of a source. -/
def observeFrom (source : ObservationSource) (now utcNs sampled uncertaintyNs : UInt64)
    (leap : LeapState) (transition : Option UInt64) (d : UtcDiscipline) : Bool × UtcDiscipline :=
  if source = .gps then (false, d)
  else
    match d.observe now utcNs sampled uncertaintyNs leap transition with
    | (false, d) => (false, d)
    | (true, d) => (true, { d with observationSource := source })

def observeRate (now utcNs sampled uncertaintyNs : UInt64) (ratePpb : Int)
    (rateUncertaintyPpb : UInt32) (d : UtcDiscipline) : Bool × UtcDiscipline :=
  if ¬ rateInRange ratePpb ∨ rateUncertaintyPpb > utcMaxRateUncertaintyPpb then (false, d)
  else
    let maximumAge := if d.config.maxRateObservationAgeNs ≠ 0 then d.config.maxRateObservationAgeNs
      else d.config.maxObservationAgeNs
    match d.accept now utcNs sampled uncertaintyNs .normal none maximumAge with
    | (false, d) => (false, d)
    | (true, d) => (true, { d with ratePpb, rateUncertaintyPpb })

/-- The model moved to the present, at a new rate; the source keeps its age. -/
def reanchored (model : ClockSnapshot) (ratePpb : Int) (uncertaintyPpb : UInt32)
    (d : UtcDiscipline) : UtcDiscipline :=
  { d with
    utcNs := model.utcNowNs
    monotonicNs := model.monotonicNowNs
    uncertaintyNs := model.uncertaintyNs
    ratePpb := ratePpb
    subsequentRatePpb := ratePpb
    rateUntilNs := u64Max
    rateUncertaintyPpb := uncertaintyPpb
    browserRateModel := true
    generation := d.generation + 1 }

def adjustBrowserRate (now : UInt64) (ratePpb : Int) (uncertaintyPpb : UInt32)
    (d : UtcDiscipline) : Bool × UtcDiscipline :=
  if ¬ d.valid ∨ d.observationSource ≠ .browser ∨ ratePpb < -100000 ∨ ratePpb > 100000 ∨
      uncertaintyPpb > 100000 ∨ (ratePpb ≠ 0 ∧ uncertaintyPpb = 0) then (false, d)
  else
    let model := d.snapshot now
    if model.state = .unsynchronized then (false, d)
    else if d.ratePpb = ratePpb ∧ d.rateUncertaintyPpb = uncertaintyPpb then (true, d)
    else (true, d.reanchored model ratePpb uncertaintyPpb)

/-- `import_model` refuses the model; `now` and `later` are its two readings. -/
def refusesModel (now later : UInt64) (source : RateObservation) (model : ClockSnapshot)
    (maxClockErrorPpb : UInt32) (d : UtcDiscipline) : Bool :=
  !d.configValid || !consistentImport source model || decide (model.utcNowNs = 0) ||
    decide (model.syncAgeNs > model.monotonicNowNs) || decide (model.monotonicNowNs > now) ||
    decide (later - model.monotonicNowNs > d.config.maxObservationAgeNs) ||
    decide (model.uncertaintyNs > 3000000000) || !rateInRange model.ratePpb ||
    !rateInRange model.subsequentRatePpb ||
    decide (model.rateUncertaintyPpb > utcMaxRateUncertaintyPpb) ||
    decide (maxClockErrorPpb > utcMaxRateUncertaintyPpb) ||
    decide (model.state = .unsynchronized) || decide (model.leap = .unknown) ||
    (decide (model.leap ≠ .normal) && model.leapTransitionUtcNs.isNone) ||
    (decide (model.leap = .normal) && model.leapTransitionUtcNs.isSome) ||
    decide (model.rateUntilMonotonicNs < model.monotonicNowNs) ||
    decide (model.modelGeneration = 0) || decide (source.generation ≠ model.modelGeneration) ||
    decide (source.rawNs ≠ model.monotonicNowNs - model.syncAgeNs) ||
    (d.importedNtp && decide (model.modelGeneration < d.importedGeneration)) ||
    (d.importedNtp && decide (model.modelGeneration = d.importedGeneration) &&
      decide (model.monotonicNowNs - model.syncAgeNs ≠ d.sourceNs))

def importModel (kind : ObservationSource) (now later : UInt64) (source : RateObservation)
    (model : ClockSnapshot) (maxClockErrorPpb : UInt32) (d : UtcDiscipline) :
    Bool × UtcDiscipline :=
  let horizon := if kind = .gps then Gps.utcValidUntil source.utcNs else some u64Max
  match horizon with
  | none => (false, d)
  | some horizon =>
    if model.utcNowNs ≥ horizon then (false, d)
    else if d.refusesModel now later source model maxClockErrorPpb then (false, d)
    else
      (true, { d with
        generation := if ¬ d.importedNtp ∨ d.importedGeneration ≠ model.modelGeneration
          then d.generation + 1 else d.generation
        importedGeneration := model.modelGeneration
        importedNtp := true
        valid := true
        browserRateModel := false
        observationSource := kind
        validUntilUtcNs := horizon
        utcNs := model.utcNowNs
        monotonicNs := model.monotonicNowNs
        sourceNs := model.monotonicNowNs - model.syncAgeNs
        uncertaintyNs := model.uncertaintyNs
        ratePpb := model.ratePpb
        rateUncertaintyPpb := model.rateUncertaintyPpb
        importedGrowthPpb := maxClockErrorPpb
        rateUntilNs := model.rateUntilMonotonicNs
        subsequentRatePpb := model.subsequentRatePpb
        leap := model.leap
        leapTransitionUtcNs := model.leapTransitionUtcNs })

def invalidate (d : UtcDiscipline) : UtcDiscipline :=
  { d with generation := d.generation + 1, valid := false }

end UtcDiscipline

end WsprryPico.Time
