import WsprryPico.Rf.Si5351.Engine

/-!
# Si5351 execution

The rest of `rf/si5351_engine.cpp`: preparation, start, the staged chain, the
events of a job and its end; then the engine as a state machine under its
commands. A function that is reached with a plan takes it as an argument.
-/

namespace WsprryPico.Rf.Si5351

open Wtp Lib

variable {ω α : Type}

/-- The points a filter has to cover, with the rounding guard around the realized
frequency. -/
def coverage (tones : List Tone) : List (UInt64 × UInt64) :=
  tones.flatMap fun tone =>
    [(tone.requestedNhz, tone.realizedNhz - 1024), (tone.requestedNhz, tone.realizedNhz + 1024)]

namespace JobPlan

/-- The adjustments of a job, from event `index` on. -/
def adjustments (plan : JobPlan) : Nat → List RfEvent → List FrequencyAdjustment
  | _, [] => []
  | index, event :: rest =>
    match event.rfOn, event.frequencyNhz, plan.tone index with
    | true, some frequency, some tone =>
      if (plan.toneAt tone).realizedNhz ≠ frequency then
        ⟨index, frequency, (plan.toneAt tone).realizedNhz⟩ :: plan.adjustments (index + 1) rest
      else plan.adjustments (index + 1) rest
    | _, _, _ => plan.adjustments (index + 1) rest

/-- The next tone that is keyed on, from event `index` on. -/
def nextTone (plan : JobPlan) (index : Nat) : Option Nat :=
  (plan.events.drop index).findSome? (·.tone)

end JobPlan

/-- `project_start` at snapshot `now`. -/
def projectClock (conditions : LocalStartConditions) (deadlineNs requestedDurationNs : UInt64)
    (now : ClockSnapshot) : Option UInt64 := do
  let window := startWindowNs conditions.startUtcNs
  let synchronized := now.state = .synchronized ∨ (now.state = .holdover ∧
    conditions.maximumHoldoverAgeNs ≠ 0 ∧ now.syncAgeNs ≤ conditions.maximumHoldoverAgeNs)
  if now.monotonicNowNs ≥ deadlineNs ∨ now.uncertaintyNs > conditions.maximumUncertaintyNs ∨
      ¬ synchronized ∨ now.utcNowNs ≥ conditions.startUtcNs + window then none
  let target ← if now.utcNowNs < conditions.startUtcNs then Time.inverse now conditions.startUtcNs
    else some now.monotonicNowNs
  let rounding := (1000 - target % 1000) % 1000
  if target > u64Max - rounding then none
  let target := target + rounding
  let pending := now.leap = .insertPending ∨ now.leap = .deletePending
  let mapped ← Time.project now target
  if mapped ≥ conditions.startUtcNs + window ∨ target ≥ deadlineNs ∨ now.leap = .unknown ∨
      decide pending ≠ now.leapTransitionUtcNs.isSome then none
  let growth ← Time.growth (target - now.monotonicNowNs) now.rateUncertaintyPpb.toUInt64
  let roundingUtc ← Time.elapsedUtc (rounding + if now.ratePpb ≠ 0 then 1 else 0) now.ratePpb true
  if growth > conditions.maximumUncertaintyNs - now.uncertaintyNs ∨
      roundingUtc > conditions.maximumUncertaintyNs - now.uncertaintyNs - growth then none
  let duration ← Time.durationUtcBound requestedDurationNs now
  let latest := conditions.startUtcNs + window - 1
  if latest ≥ now.validUntilUtcNs ∨ duration ≥ now.validUntilUtcNs - latest then none
  match now.leapTransitionUtcNs with
  | none => some target
  | some leap =>
    let low := if leap > 1000000000 then leap - 1000000000 else 0
    let high := addSat leap 1000000000
    if conditions.startUtcNs > high ∨ (latest ≤ u64Max - duration ∧ latest + duration < low)
    then some target else none

namespace Wiring

open EngineM

variable (wiring : Wiring ω)

/-- A call that only some runs need. -/
def ifNeeded (needed : Bool) (call : EngineM ω Bool) : EngineM ω Bool :=
  if needed then call else return true

/-! ## Preparation -/

def setFrequencyCorrectionPpb (value : Int) : EngineM ω Bool := do
  let e ← engine
  if e.state ≠ .idle || e.plan.isSome || e.inhibited || value < -correctionLimitPpb ||
      value > correctionLimitPpb then
    return false
  update fun e => { e with correctionPpb := value }
  return true

/-- `!filters_ || filters_->prepare_frequencies(coverage)`. -/
def coverTones (tones : List Tone) : EngineM ω Bool :=
  match wiring.filters with
  | none => return true
  | some bank => onFilters fun selector w =>
    let (accepted, selector) := selector.prepareFrequencies bank.settings (coverage tones)
    (accepted, selector, w)

/-- The wait for the PLL, of at most `attempts` status reads. -/
def acquireLock (deadline : UInt64) : Nat → EngineM ω Bool
  | 0 => return false
  | attempts + 1 => do
    if (← wiring.nowNs) ≥ deadline then
      return false
    if !(← machine).device.configured then
      return false
    if ← wiring.locked deadline then
      return true
    acquireLock deadline attempts

/-- RF off before the registers of a plan are written. -/
def maskOutput (deadline : UInt64) : EngineM ω Bool := do
  if (← machine).device.configured then
    wiring.transmitEnabled false deadline
  else
    wiring.quiesce deadline

/-- The lock and the prime that end a preparation. -/
def lockAndPrime (deadline : UInt64) : EngineM ω Bool := do
  if !(← wiring.acquireLock deadline 128) then
    return false
  if !(← machine).device.configured then
    return false
  if (← wiring.nowNs) ≥ deadline then
    return false
  wiring.primeTransmit deadline

/-- The hardware preparation of a plan. -/
def program (plan : Plan) : EngineM ω Bool := do
  let deadline := addSat (← wiring.nowNs) preparationBudgetNs
  if !(← wiring.pauseReference deadline) then
    return ← wiring.fail "si5351_prepare_shutdown_failed"
  if !(← wiring.setGate false) then
    return ← wiring.fail "si5351_prepare_shutdown_failed"
  if !(← wiring.maskOutput deadline) then
    return ← wiring.fail "si5351_prepare_shutdown_failed"
  if !(← wiring.configure plan deadline) then
    return ← wiring.fail "si5351_configuration_failed"
  if !(← wiring.lockAndPrime deadline) then
    return ← wiring.fail "si5351_lock_or_prime_failed"
  return true

/-- `prepare` from an admitted plan on. -/
def prepareHardware (candidate : JobPlan) : EngineM ω Bool := do
  if !(← wiring.coverTones candidate.synthesis.tones) then
    update fun e => { e with failure := "filter_coverage_required" }
    return false
  if !(← wiring.initializeEngine) then
    return false
  if !(← wiring.program candidate.synthesis) then
    return false
  update fun e =>
    { e with
      plan := some candidate
      primed := true
      primedTone := some 0
      launchNs := none
      failure := "" }
  return true

def prepare (job : Job) : EngineM ω PrepareResult := do
  let e ← engine
  let allowed := wiring.engineeringAllowed || wiring.ordinaryQualified
  if !allowed || e.inhibited || e.backgroundSuspended || e.state ≠ .idle then
    update fun e =>
      { e with failure := if !allowed then "si5351_engineering_gate" else "si5351_not_idle" }
    return {}
  match planJob wiring.synthesis wiring.configuration job e.correctionPpb minimumTransitionNs with
  | .error error =>
    update fun e => { e with failure := error }
    return {}
  | .ok candidate =>
    if !(← wiring.prepareHardware candidate) then
      return {}
    return { accepted := true, adjustments := candidate.adjustments 0 job.events.events }

/-! ## Start -/

/-- `begin` accepts a job and a start, but for the outputs and the time. -/
def startable (job : Job) (start : UInt64) (e : Engine) : Bool :=
  match e.plan with
  | none => false
  | some plan =>
    e.primed && !e.inhibited && !e.backgroundSuspended && e.state = .idle &&
    plan.digest = jobDigest job && e.epoch ≠ u64Max &&
    start ≤ u64Max - plan.requestedDurationNs - wiring.amplifierTailNs - 1000000

/-- The members a start resets. -/
def started (start : UInt64) (e : Engine) : Engine :=
  { e with
    epoch := e.epoch + 1
    startNs := start
    endNs := start + (e.plan.map (·.spanNs)).getD 0
    releaseNs := none
    selectionNs := none
    enableNs := none
    tailNs := none
    launchNs := none
    enableCommandNs := 0
    disableCommandNs := 0
    event := 0
    observation :=
      { epoch := e.epoch + 1
        configured := wiring.amplifierEnabled
        leadMs := (wiring.amplifierLeadNs / 1000000).toUInt32
        tailMs := (wiring.amplifierTailNs / 1000000).toUInt32 }
    state := .armed
    phase := .waiting }

def begin (job : Job) (start : UInt64) : EngineM ω Bool := do
  if !wiring.startable job start (← engine) then
    return false
  if ← wiring.outputActive then
    return false
  let lead := wiring.amplifierLeadNs + wiring.filterPreparationNs
  if start < lead then
    return false
  if (← wiring.nowNs) > start - lead then
    return false
  if !(← wiring.pauseReference (addSat (← wiring.nowNs) transitionBudgetNs)) then
    return ← wiring.fail "si5351_reference_pause_failed"
  update (wiring.started start)
  return true

def projectStart (plan : JobPlan) : EngineM ω (Option UInt64) := do
  let e ← engine
  if !e.conditions.clock then
    let now ← wiring.nowNs
    return if now < addSat e.startNs 1000000000 then some e.startNs else none
  let now ← onWorld wiring.snapshot
  return projectClock e.conditions e.deadlineNs plan.requestedDurationNs now

/-- The checks of `schedule` that precede its effects. -/
def schedulable (start : UInt64) (conditions : LocalStartConditions) (e : Engine) : Bool :=
  conditions.clock && e.plan.isSome && !e.backgroundSuspended && e.state = .idle &&
  start ≤ u64Max - startWindowNs conditions.startUtcNs

def schedule (job : Job) (start : UInt64) (conditions : LocalStartConditions) :
    EngineM ω Bool := do
  match schedulable start conditions (← engine), (← engine).plan with
  | true, some plan =>
    let adjustment := (1000 - start % 1000) % 1000
    let window := startWindowNs conditions.startUtcNs
    update fun e => { e with conditions := { conditions with startAdjustmentNs := adjustment } }
    if conditions.startUtcNs > u64Max - window then
      return false
    match Time.inverse (← onWorld wiring.snapshot) (conditions.startUtcNs + window) with
    | none => return false
    | some deadline =>
      update fun e => { e with deadlineNs := deadline }
      if (← wiring.projectStart plan).isNone then
        return false
      wiring.begin job (start + adjustment)
  | _, _ => return false

/-! ## Launch -/

/-- `!indicator_ || indicator_->request_launch()`. -/
def requestLaunch : EngineM ω Bool :=
  if wiring.indicated then onIndicator (·.requestLaunch) else return true

/-- `launch` from the verified chain on. -/
def launchOutput (plan : JobPlan) : EngineM ω Bool := do
  let active := (plan.tone 0).isSome
  let deadline := addSat (← wiring.nowNs) transitionBudgetNs
  if !(← ifNeeded active (wiring.requestTransmitEnabled true deadline)) then
    return ← wiring.fail "si5351_launch_write_failed"
  let completed ← wiring.nowNs
  let e ← engine
  if e.conditions.clock && completed ≥ e.deadlineNs then
    return ← wiring.fail "si5351_launch_control_late"
  if !(← wiring.setGate active) then
    return ← wiring.fail "si5351_gate_enable_failed"
  update fun e =>
    { e with
      launchNs := some completed
      startNs := completed
      enableCommandNs := if active then completed else 0
      endNs := addSat completed plan.spanNs }
  if !(← wiring.armCutoff (addSat completed plan.spanNs)) then
    return ← wiring.fail "si5351_cutoff_rejected"
  update fun e =>
    { e with
      observation.rfStartNs := e.enableCommandNs
      state := .running
      phase := .rf }
  wiring.notify (.entered 0 completed) (return ())
  if !(← ifNeeded active (wiring.verifyTransmit (addSat completed transitionBudgetNs))) then
    return ← wiring.fail "si5351_launch_unconfirmed"
  return true

def launch (plan : JobPlan) : EngineM ω Bool := do
  if !(← wiring.requestLaunch) then
    return true
  if !(← wiring.verifyFilters) then
    return ← wiring.fail "si5351_launch_chain_changed"
  if !(← wiring.verifyAmplifier) then
    return ← wiring.fail "si5351_launch_chain_changed"
  wiring.launchOutput plan

/-! ## Events -/

/-- The next tone keyed on, programmed while the output is masked. -/
def prepareGapTone (plan : JobPlan) (index : Nat) (deadline : UInt64) : EngineM ω Bool :=
  match plan.nextTone index with
  | none => return true
  | some tone => do
    if !(← wiring.transmitTone (plan.toneAt tone) deadline) then
      return ← wiring.fail "si5351_gap_tone_preparation_failed"
    if !(← wiring.primeTransmit deadline) then
      return ← wiring.fail "si5351_gap_tone_preparation_failed"
    update fun e => { e with primedTone := some tone }
    return true

/-- `transition` to an off event. -/
def keyOff (plan : JobPlan) (index : Nat) (deadline : UInt64) : EngineM ω Bool := do
  if !(← wiring.setGate false) then
    return ← wiring.fail "si5351_gap_shutdown_failed"
  if !(← wiring.requestTransmitEnabled false deadline) then
    return ← wiring.fail "si5351_gap_shutdown_failed"
  let now ← wiring.nowNs
  update fun e => { e with disableCommandNs := now }
  if !(← wiring.verifyTransmit deadline) then
    return ← wiring.fail "si5351_gap_shutdown_unconfirmed"
  wiring.prepareGapTone plan (index + 1) deadline

/-- The output on again after a gap. -/
def restart (deadline : UInt64) : EngineM ω Bool := do
  if !(← wiring.primeTransmit deadline) then
    return ← wiring.fail "si5351_gap_restart_failed"
  if !(← wiring.requestTransmitEnabled true deadline) then
    return ← wiring.fail "si5351_gap_restart_failed"
  let now ← wiring.nowNs
  update fun e =>
    { e with
      enableCommandNs := now
      observation.rfStartNs :=
        if e.observation.rfStartNs = 0 then now else e.observation.rfStartNs }
  if !(← wiring.setGate true) then
    return ← wiring.fail "si5351_gap_restart_unconfirmed"
  if !(← wiring.verifyTransmit deadline) then
    return ← wiring.fail "si5351_gap_restart_unconfirmed"
  return true

/-- `transition` to tone `next`. -/
def keyOn (plan : JobPlan) (previous : Option Nat) (next : Nat) (deadline : UInt64) :
    EngineM ω Bool := do
  let e ← engine
  if !(← ifNeeded (previous.isSome || e.primedTone ≠ some next)
      (wiring.transmitTone (plan.toneAt next) deadline)) then
    return ← wiring.fail "si5351_symbol_write_failed"
  if !(← ifNeeded previous.isNone (wiring.restart deadline)) then
    return false
  update fun e => { e with primedTone := some next }
  return true

def transition (plan : JobPlan) (index : Nat) : EngineM ω Bool := do
  let deadline := addSat (← wiring.nowNs) transitionBudgetNs
  if plan.tone index = plan.tone (index - 1) then
    return true
  match plan.tone index with
  | none => wiring.keyOff plan index deadline
  | some next => wiring.keyOn plan (plan.tone (index - 1)) next deadline

/-! ## The end -/

/-- The final off request, where the register is not off already. -/
def requestFinalOff : EngineM ω Bool := do
  let m ← machine
  if m.device.transmitState = .registerDisabled then
    return true
  if !(← wiring.requestTransmitEnabled false (addSat m.engine.endNs transitionBudgetNs)) then
    return false
  let now ← wiring.nowNs
  update fun e => { e with disableCommandNs := now }
  return true

/-- The amplifier tail of a finished job. -/
def startTail : EngineM ω Bool := do
  if !(← wiring.verifyTransmit (addSat (← wiring.nowNs) transitionBudgetNs)) then
    return ← wiring.fail "si5351_final_shutdown_unconfirmed"
  let now ← wiring.nowNs
  update fun e =>
    { e with
      observation.rfOffNs := now
      observation.normalRfCompletion := true
      tailNs := some (addSat now wiring.amplifierTailNs)
      phase := .tail }
  return true

def finishRf : EngineM ω Bool := do
  if !(← wiring.setGate false) then
    return ← wiring.fail "si5351_final_gate_failed"
  if !(← wiring.requestFinalOff) then
    return ← wiring.fail "si5351_final_shutdown_request_failed"
  let e ← engine
  if e.disableCommandNs > addSat e.endNs transitionBudgetNs then
    return ← wiring.fail "si5351_final_shutdown_late"
  if wiring.amplifierTailNs = 0 then
    update fun e => { e with state := .complete }
    return true
  wiring.startTail

/-! ## Poll -/

def releaseFilters (now : UInt64) : EngineM ω Bool := do
  let e ← engine
  let due := e.startNs - min e.startNs (wiring.amplifierLeadNs + wiring.filterPreparationNs)
  if e.releaseNs.isSome || now < due then
    return true
  if !(← wiring.deactivateFilters) then
    return ← wiring.fail "filter_release_failed"
  let released ← wiring.nowNs
  update fun e => { e with releaseNs := some released, phase := .selecting }
  return true

/-- Their selection, when they were released long enough. -/
def selectFilters (now : UInt64) : EngineM ω Bool := do
  match (← engine).releaseNs, (← engine).selectionNs with
  | some release, none =>
    if now < addSat release wiring.filterReleaseNs then
      return true
    if !(← wiring.activateFilters) then
      return ← wiring.fail "filter_activation_failed"
    let selected ← wiring.nowNs
    update fun e => { e with selectionNs := some selected }
    return true
  | _, _ => return true

/-- The filters of an armed job; true when they are settled. -/
def settleFilters (now : UInt64) : EngineM ω Bool := do
  if !wiring.filtersRequired then
    return true
  if !(← wiring.releaseFilters now) then
    return false
  if !(← wiring.selectFilters now) then
    return false
  match (← engine).selectionNs with
  | none => return false
  | some selected => return now ≥ addSat selected wiring.filterSettleNs

/-- The activation of the amplifier, when it is due. -/
def enableAmplifier (now : UInt64) : EngineM ω Bool := do
  let e ← engine
  let due := e.startNs - min e.startNs (wiring.amplifierLeadNs + chainServiceMarginNs)
  if e.enableNs.isSome || now < due then
    return true
  if !(← wiring.activateAmplifier) then
    return ← wiring.fail "amplifier_activation_failed"
  let enabled ← wiring.nowNs
  update fun e =>
    { e with
      enableNs := some enabled
      observation.enableNs := enabled
      phase := .lead }
  return true

/-- The amplifier of an armed job; true when the start keeps its lead. -/
def leadAmplifier (now : UInt64) : EngineM ω Bool := do
  if !wiring.amplifierEnabled then
    return true
  if !(← wiring.enableAmplifier now) then
    return false
  let e ← engine
  if e.enableNs.any fun enabled => addSat enabled wiring.amplifierLeadNs ≤ e.startNs then
    return true
  if now ≥ e.startNs then
    return ← wiring.fail "shortened_amplifier_lead" .missed
  return false

/-- `poll` of an armed job. -/
def pollArmed (plan : JobPlan) : EngineM ω Unit := do
  let _ ← wiring.nowNs
  match ← wiring.projectStart plan with
  | none => let _ ← wiring.fail "si5351_launch_clock_rejected" .missed
  | some projected =>
    update fun e => { e with startNs := projected }
    let now ← wiring.nowNs
    if !(← wiring.settleFilters now) then
      return
    if !(← wiring.leadAmplifier now) then
      return
    if now ≥ projected then
      let _ ← wiring.launch plan

/-- The chain off after the tail. -/
def releaseChain : EngineM ω Bool := do
  if !(← wiring.deactivateAmplifier) then
    return false
  wiring.deactivateFilters

/-- `poll` in the amplifier tail. -/
def pollTail : EngineM ω Unit := do
  let now ← wiring.nowNs
  if (← engine).tailNs.any (now ≥ ·) then
    if !(← wiring.releaseChain) then
      let _ ← wiring.fail "si5351_tail_cleanup_failed"
    else
      let disabled ← wiring.nowNs
      update fun e => { e with observation.disableNs := disabled, state := .complete }

/-- `poll` between the events. -/
def pollRf (plan : JobPlan) : EngineM ω Unit := do
  let now ← wiring.nowNs
  let e ← engine
  let boundary := addSat e.startNs (plan.endNs e.event)
  if now ≥ e.endNs then
    let _ ← wiring.finishRf
  else if now ≥ boundary then
    if now > addSat boundary transitionBudgetNs || e.event + 1 ≥ plan.count then
      let _ ← wiring.fail "si5351_transition_deadline"
    else if ← wiring.transition plan (e.event + 1) then
      wiring.notify (.entered (e.event + 1) now) (return ())
      update fun e => { e with event := e.event + 1 }

/-- `poll` of an idle engine. -/
def pollIdle : EngineM ω Unit := do
  let e ← engine
  wiring.serviceReference <|
    e.initialized && e.plan.isNone && (wiring.engineeringAllowed || wiring.ordinaryQualified) &&
      !e.inhibited && !e.backgroundSuspended

/-- `poll` before its report. -/
def advance : EngineM ω Unit := do
  let e ← engine
  match e.state, e.plan with
  | .idle, _ => wiring.pollIdle
  | .armed, some plan => wiring.pollArmed plan
  | .running, some plan => if e.phase = .tail then wiring.pollTail else wiring.pollRf plan
  | _, _ => let _ ← wiring.nowNs

def poll : EngineM ω EngineReport := do
  wiring.advance
  wiring.report

/-! ## Inhibition and background work -/

def inhibitOutput : EngineM ω Unit := do
  update fun e => { e with inhibited := true }
  wiring.inhibitReference

/-- `platform_.pause_reference(deadline) && !output_active()`. -/
def quieted (deadline : UInt64) : EngineM ω Bool := do
  if !(← wiring.pauseReference deadline) then
    return false
  return !(← wiring.outputActive)

def suspendBackground (deadline : UInt64) : EngineM ω Bool := do
  let e ← engine
  if e.backgroundSuspended || e.state ≠ .idle then
    return false
  if ← wiring.outputActive then
    return false
  update fun e => { e with backgroundSuspended := true }
  if ← wiring.quieted deadline then
    return true
  update fun e => { e with backgroundSuspended := false }
  return false

def resumeBackground : EngineM ω Unit := update fun e => { e with backgroundSuspended := false }

end Wiring

/-! ## The engine as a state machine -/

/-- A call of the engine, or the world going on by itself: the board and the
acknowledgement of the indicator's owner change in any way. -/
inductive Command (ω : Type) where
  | setFrequencyCorrectionPpb (value : Int)
  | prepare (job : Job)
  | schedule (job : Job) (start : UInt64) (conditions : LocalStartConditions)
  | begin (job : Job) (start : UInt64)
  | poll
  | disable (deadline : UInt64)
  | inhibitOutput
  | suspendBackground (deadline : UInt64)
  | resumeBackground
  | elapse (world : ω) (acknowledged : UInt32)

namespace Wiring

variable (wiring : Wiring ω)

def step (command : Command ω) (m : Machine ω) : Machine ω :=
  match command with
  | .setFrequencyCorrectionPpb value => (setFrequencyCorrectionPpb value m).2
  | .prepare job => (wiring.prepare job m).2
  | .schedule job start conditions => (wiring.schedule job start conditions m).2
  | .begin job start => (wiring.begin job start m).2
  | .poll => (wiring.poll m).2
  | .disable deadline => (wiring.disable deadline m).2
  | .inhibitOutput => (wiring.inhibitOutput m).2
  | .suspendBackground deadline => (wiring.suspendBackground deadline m).2
  | .resumeBackground => (resumeBackground m).2
  | .elapse world acknowledged =>
    { m with world := world, indicator.acknowledged := acknowledged }

def run (m : Machine ω) (commands : List (Command ω)) : Machine ω :=
  commands.foldl (fun m command => wiring.step command m) m

end Wiring

/-- A machine as the engine's constructor leaves it, the objects it drives in any state. -/
structure Machine.Fresh (m : Machine ω) : Prop where
  engine : m.engine = {}
  log : m.log = []

end WsprryPico.Rf.Si5351
