import WsprryPico.Encoding.Wspr
import WsprryPico.Standalone.RfConfiguration
import WsprryPico.Standalone.Schedules
import WsprryPico.Time.ControllerTime

/-!
# The WSPR scheduler

`Scheduler::poll` and `Scheduler::next_wspr_start` of `standalone/scheduler.cpp`: the slot a poll
reserves and the start that is displayed. What a poll does for a message or for the second frame of
a pair reserves no slot of a schedule and is left out, as is the frame behind the reservation. The
members are those behind `service_.poll()`.
-/

namespace WsprryPico.Standalone

open Hardware Time Wtp

def frameDuration : UInt64 := 110592000000
def slotDuration : UInt64 := 120000000000
def minimumWsprDialHz : UInt32 := 6503
def maximumWsprDialHz : UInt32 := 159998496
def audioOffsetNhz : UInt64 := 1500000000000
def spacingNhz : UInt64 := 1464843750
def centerToTone0Nhz : UInt64 := 2197265625

/-- The members of `Config` that the scheduler reads, as `parse_config` lets them in. -/
structure WsprConfig where
  enabled : Bool := false
  wsprDialFrequencyHz : Option UInt32 := none
  callsign : List UInt8
  locator : List UInt8
  powerDbm : Nat
  /-- Zero is never. -/
  expiresUtcS : UInt64 := 0
  schedules : List Schedule
  gps : Option GpsSettings := none
  dialRange : ∀ f ∈ wsprDialFrequencyHz, minimumWsprDialHz ≤ f ∧ f ≤ maximumWsprDialHz
  expiryRange : expiresUtcS = 0 ∨ 1735689600 ≤ expiresUtcS ∧ expiresUtcS < 4102444800
  wellFormed : ∀ s ∈ schedules, s.WellFormed

def wsprTones (dialHz : UInt64) : Option (List UInt64) :=
  if dialHz = 0 ∨ dialHz > (u64Max - (audioOffsetNhz + centerToTone0Nhz)) / 1000000000 then none
  else
    let tone0 := dialHz * 1000000000 + audioOffsetNhz - centerToTone0Nhz
    some ((List.range 4).map fun k => tone0 + UInt64.ofNat k * spacingNhz)

/-- What `time::gps` makes of a position. -/
structure Gps (π : Type) where
  observedRawNs : π → UInt64
  locator : π → Option (List UInt8)
  daylight : π → UInt64 → Option Bool

/-- `JobService::activity`. -/
structure Activity where
  state : State := .empty
  owned : Bool := false
  outputActive : Bool := false

/-- The members that `poll` and `next_wspr_start` read of the scheduler, its store and the
service. -/
structure Scheduler (π : Type) where
  healthy : Bool := true
  config : Option WsprConfig := none
  watermark : UInt64 := 0
  messageEnabled : Bool := false
  messageInFlight : Bool := false
  clock : ClockSnapshot := {}
  service : ServiceConfig := {}
  maintenance : Bool := false
  activity : Activity := {}
  hardwareApplicationFailed : Bool := false
  rebootRequired : Bool := false
  suspended : Bool := false
  pair : Bool := false
  messageJob : Bool := false
  messagePausePending : Bool := false
  messageRecovery : Bool := false
  gpsPosition : Option π := none
  lastError : ErrorCode := .none

def clockReady (now : ClockSnapshot) (config : ServiceConfig) : Bool :=
  now.state ≠ .unsynchronized ∧ now.leap = .normal ∧
  now.uncertaintyNs ≤ config.maximumArmUncertaintyNs ∧
  (now.state ≠ .holdover ∨
    config.maximumHoldoverAgeNs ≠ 0 ∧ now.syncAgeNs ≤ config.maximumHoldoverAgeNs) ∧
  now.utcNowNs ≥ sntpMinUtcNs ∧ now.utcNowNs < sntpMaxUtcNs

namespace Scheduler

variable {π : Type} (gps : Gps π)

def idle (s : Scheduler π) : Bool :=
  !s.maintenance && !s.hardwareApplicationFailed && !s.activity.owned &&
  !s.activity.outputActive && s.activity.state ≠ .armed && s.activity.state ≠ .running &&
  s.activity.state ≠ .failed

/-- The position is known and not too old. -/
def positionFresh (g : GpsSettings) (raw : UInt64) (position : π) : Bool :=
  g.enabled ∧ ¬ raw < gps.observedRawNs position ∧
  ¬ raw - gps.observedRawNs position > UInt64.ofNat g.positionMaximumAgeS * 1000000000

def stationSnapshot (s : Scheduler π) (saved : WsprConfig) : Option WsprConfig :=
  match saved.gps with
  | none => some saved
  | some g =>
    if g.location = .manual then some saved
    else
      match s.gpsPosition with
      | none => none
      | some position =>
        if !positionFresh gps g s.clock.monotonicNowNs position then none
        else (gps.locator position).map fun locator => { saved with locator := locator }

def daylightAllowed (s : Scheduler π) (utc raw : UInt64) : Bool :=
  match s.config.bind (·.gps) with
  | none => true
  | some g =>
    if g.daylight = .always then true
    else
      match s.gpsPosition with
      | none => false
      | some position =>
        if !positionFresh gps g raw position then false
        else gps.daylight position utc = some (decide (g.daylight = .day))

/-- `wspr_plan` of the station. -/
def plan (station : WsprConfig) : Option Encoding.WsprPlan :=
  Encoding.wsprPlan station.callsign station.locator station.powerDbm

/-! ## `poll` -/

def pollSlot (now : UInt64) (schedule : Schedule) : UInt64 :=
  let period := schedule.periodS.toUInt64 * 1000000000
  let phase := schedule.phaseS.toUInt64 * 1000000000 + 1000000000
  let slot := now / period * period + phase
  if slot ≤ now then slot + period else slot

def pollCandidate (now watermark : UInt64) (schedules : List Schedule) : UInt64 :=
  schedules.foldl
    (fun candidate schedule =>
      let slot := pollSlot now schedule
      if slot > watermark then min candidate slot else candidate)
    u64Max

/-- The last slot of a plan that begins at the candidate, where it may be sent. -/
def pollFinalSlot (now : ClockSnapshot) (expiresUtcS candidate : UInt64) (count : Nat) :
    Option UInt64 :=
  let finalSlot := candidate + UInt64.ofNat (count - 1) * slotDuration
  let expiry := expiresUtcS * 1000000000
  match durationUtcBound frameDuration now with
  | none => none
  | some duration =>
    let requiredTail := duration + if count = 2 then 999999999 else 0
    if expiry ≠ 0 ∧ (finalSlot ≥ expiry ∨ expiry - finalSlot < requiredTail) then none
    else if count = 2 ∧ (finalSlot > sntpMaxUtcNs - requiredTail ∨
        (inverse now (finalSlot + requiredTail)).isNone) then none
    else some finalSlot

structure Selection where
  slot : UInt64
  finalSlot : UInt64
  plan : Encoding.WsprPlan
  tones : List UInt64

/-- The checks on a candidate, with the error that a refusal leaves. -/
def pollStation (s : Scheduler π) (c : WsprConfig) (candidate : UInt64) :
    Except (Option ErrorCode) Selection :=
  match c.wsprDialFrequencyHz.bind fun dial => wsprTones dial.toUInt64 with
  | none => .error (some .frequencyRejected)
  | some tones =>
    match s.stationSnapshot gps c with
    | none => .error none
    | some station =>
      if !s.daylightAllowed gps candidate s.clock.monotonicNowNs then .error none
      else
        match plan station with
        | none => .error (some .unsupportedMode)
        | some plan =>
          match pollFinalSlot s.clock c.expiresUtcS candidate plan.frames.length with
          | none => .error none
          | some finalSlot => .ok ⟨candidate, finalSlot, plan, tones⟩

/-- `poll` before its first request: the slot it selects. -/
def select (s : Scheduler π) : Except (Option ErrorCode) Selection :=
  match s.config with
  | none => .error none
  | some c =>
    if !s.healthy || !c.enabled || s.rebootRequired || s.suspended || !s.idle then .error none
    else if !clockReady s.clock s.service then .error none
    else
      let now := s.clock.utcNowNs
      let candidate := pollCandidate now s.watermark c.schedules
      if candidate ≤ now ∨ candidate - now > 10000000000 ∨ candidate - now < 2000000000 then
        .error none
      else s.pollStation gps c candidate

/-- `message_recovery_required`. -/
def messageRecoveryRequired (s : Scheduler π) : Bool :=
  s.messageRecovery || s.messageInFlight && !s.messageJob

/-- What `poll_message` answers. -/
def pollMessage (s : Scheduler π) : Bool :=
  s.messageJob || s.messagePausePending || s.messageRecoveryRequired || s.messageEnabled

/-- What the service and the flash answer to a poll. -/
structure Answers where
  hello : Bool := true
  claim : Option ErrorCode := none
  durable : Bool := true
  prepared : Bool := true

/-- The reservation and what is set behind it. -/
def reserve (s : Scheduler π) (a : Answers) (selection : Selection) :
    Scheduler π × Option Selection :=
  if !s.healthy || s.messageInFlight || selection.finalSlot ≤ s.watermark then (s, none)
  else if !a.durable then ({ s with healthy := false }, none)
  else
    ({ s with
      watermark := selection.finalSlot
      pair := a.prepared && selection.plan.frames.length = 2 }, some selection)

/-- `poll`, and the selection it reserved. -/
def poll (a : Answers) (s : Scheduler π) : Scheduler π × Option Selection :=
  if s.maintenance || s.pollMessage || s.pair then (s, none)
  else
    match s.select gps with
    | .error none => (s, none)
    | .error (some error) => ({ s with lastError := error }, none)
    | .ok selection =>
      if !a.hello then (s, none)
      else
        match a.claim with
        | some error => ({ s with lastError := error }, none)
        | none => s.reserve a selection

/-! ## `next_wspr_start` -/

def nextSlot (now watermark : UInt64) (schedule : Schedule) : UInt64 :=
  let period := schedule.periodS.toUInt64 * 1000000000
  let phase := schedule.phaseS.toUInt64 * 1000000000 + 1000000000
  let earliest := max (now + 2000000000) (watermark + 1)
  let slot := earliest / period * period + phase
  if slot < earliest then slot + period else slot

def nextCandidate (now watermark : UInt64) (schedules : List Schedule) : UInt64 :=
  schedules.foldl
    (fun candidate schedule =>
      if schedule.periodS.toUInt64 * 1000000000 = 0 then candidate
      else min candidate (nextSlot now watermark schedule))
    u64Max

/-- The last checks on the candidate: the range of the clock and the expiry. -/
def nextAdmits (now : ClockSnapshot) (expiresUtcS candidate : UInt64) (count : Nat) : Bool :=
  if candidate = u64Max then false
  else
    match durationUtcBound frameDuration now with
    | none => false
    | some duration =>
      let tail := UInt64.ofNat (count - 1) * slotDuration + duration +
        if count = 2 then 999999999 else 0
      ¬ (candidate ≥ sntpMaxUtcNs ∨ tail > sntpMaxUtcNs - candidate ∨
        expiresUtcS ≠ 0 ∧
          (candidate ≥ expiresUtcS * 1000000000 ∨ tail > expiresUtcS * 1000000000 - candidate))

def nextWsprStart (s : Scheduler π) : Option UInt64 :=
  match s.config with
  | none => none
  | some c =>
    if !s.healthy || !c.enabled || s.suspended || s.rebootRequired ||
        !clockReady s.clock s.service || !s.idle || s.pair || s.messageEnabled then none
    else if c.wsprDialFrequencyHz.isNone then none
    else
      match (s.stationSnapshot gps c).bind plan with
      | none => none
      | some plan =>
        let candidate := nextCandidate s.clock.utcNowNs s.watermark c.schedules
        if !nextAdmits s.clock c.expiresUtcS candidate plan.frames.length then none
        else if !s.daylightAllowed gps candidate s.clock.monotonicNowNs then none
        else some candidate

end Scheduler

end WsprryPico.Standalone
