import WsprryPico.Lib.Leaves
import WsprryPico.Rf.FilterSelector

/-!
# The streaming engine

`rf/stream_engine.cpp` over an abstract block sink. `Engine ε` is the engine's
members with the hardware: the filter selector, which the sink also drives,
and the sink's own state `ε`. `StreamM ε` is a computation on it. The texts of
`failure_` are left out: only `diagnostic()` reads them.

The `clock` of the start conditions is the one of the hardware; a launch guard
hands the sink the projection as a function of the snapshot it is given.
-/

namespace WsprryPico.Rf

open Wtp Lib

/-! ## The sink -/

structure LaunchTarget where
  admissible : Bool := false
  monotonicNs : UInt64 := 0

structure LaunchGuard where
  project : ClockSnapshot → LaunchTarget
  deadlineNs : UInt64

structure SinkReport where
  state : EngineState := .idle
  epoch : UInt64 := 0
  completedBlocks : UInt64 := 0
  consumedSamples : UInt64 := 0
  observedMonotonicNs : Option UInt64 := none
  observedOutputActive : Option Bool := none
  launchMonotonicNs : Option UInt64 := none
  chainPhase : ChainPhase := .unspecified
  tailDeadlineMonotonicNs : Option UInt64 := none
  filterSelector : Int := -1

structure Hardware (ε : Type) where
  selector : FilterSelector
  device : ε

structure BlockSink (ε : Type) where
  amplifierLeadNs : ε → UInt64
  amplifierTailNs : ε → UInt64
  schedulesLocally : ε → Bool
  startResolutionNs : ε → UInt64
  stop : UInt64 → Hardware ε → Bool × Hardware ε
  submit : UInt64 → UInt64 → Block → Hardware ε → Bool × Hardware ε
  arm : UInt64 → UInt64 → UInt64 → Option LaunchGuard → Hardware ε → Bool × Hardware ε
  poll : UInt64 → Hardware ε → SinkReport × Hardware ε
  executionStarted : ε → Bool × ε
  outputActive : ε → Bool × ε
  /-- `conditions.clock->snapshot()`. -/
  snapshot : ε → ClockSnapshot × ε

/-! ## The engine -/

/-- The build and wiring of an engine: its sample rate, its sink and the
settings of its filter selector, if it has one. -/
structure Wiring (ε : Type) where
  rate : SampleRate
  sink : BlockSink ε
  filters : Option FilterSettings

structure StreamEngine where
  startConditions : LocalStartConditions := {}
  correctionPpb : Int := 0
  filterObservation : Int := -1
  plan : Plan
  /-- `waveform_.position()`. -/
  position : UInt64 := 0
  job : Option PayloadDigest := none
  /-- The two buffers with their valid samples. -/
  buffers : Block × Block
  state : EngineState := .idle
  epoch : UInt64 := 0
  submitted : UInt64 := 0
  completed : UInt64 := 0
  consumed : UInt64 := 0
  startNs : UInt64 := 0
  endNs : UInt64 := 0
  lastPollNs : UInt64 := 0
  launchDeadlineNs : UInt64 := 0
  launchNs : Option UInt64 := none

structure Engine (ε : Type) where
  stream : StreamEngine
  hardware : Hardware ε

abbrev StreamM (ε : Type) := StateM (Engine ε)

variable {ε α β : Type}

namespace StreamM

def stream : StreamM ε StreamEngine := fun e => (e.stream, e)

def update (f : StreamEngine → StreamEngine) : StreamM ε Unit := fun e =>
  ((), { e with stream := f e.stream })

/-- A call of the hardware. -/
def onHardware (f : Hardware ε → α × Hardware ε) : StreamM ε α := fun e =>
  ((f e.hardware).1, { e with hardware := (f e.hardware).2 })

/-- A call that leaves the filter selector alone. -/
def onDevice (f : ε → α × ε) : StreamM ε α := onHardware fun h =>
  ((f h.device).1, { h with device := (f h.device).2 })

def constant (f : ε → α) : StreamM ε α := fun e => (f e.hardware.device, e)

end StreamM

namespace StreamEngine

/-- `StreamEngine{}`. -/
def initial (rate : SampleRate) : StreamEngine :=
  { plan := rate.noPlan, buffers := (⟨rate.noPlan, 0, 0⟩, ⟨rate.noPlan, 0, 0⟩) }

def buffer (slot : UInt64) (s : StreamEngine) : Block :=
  if slot % 2 = 0 then s.buffers.1 else s.buffers.2

/-- `valid_[slot] = waveform_.render(buffers_[slot])`: the samples that are left, up
to a block. -/
def render (slot : UInt64) (s : StreamEngine) : StreamEngine :=
  let block : Block :=
    { plan := s.plan, first := s.position
      valid := min blockSamples (s.plan.totalSamples - s.position) }
  { s with
    buffers := if slot % 2 = 0 then (block, s.buffers.2) else (s.buffers.1, block)
    position := s.position + block.valid }

def realizedDurationNs (rate : SampleRate) (s : StreamEngine) : UInt64 :=
  (s.plan.totalSamples * 1000 + rate.hz / 1000000 / 2) / (rate.hz / 1000000)

/-- The end of a successful `prepare`. -/
def hold (digest : PayloadDigest) (plan : Plan) (s : StreamEngine) : StreamEngine :=
  ({ s with job := some digest, plan := plan, position := 0 }).render 0 |>.render 1

/-- What a successful `disable` clears. -/
def release (rate : SampleRate) (s : StreamEngine) : StreamEngine :=
  { s with
    state := .idle
    filterObservation := -1
    job := none
    plan := rate.noPlan
    startConditions := {}
    buffers := ({ s.buffers.1 with valid := 0 }, { s.buffers.2 with valid := 0 }) }

end StreamEngine

namespace Wiring

open StreamM

variable (wiring : Wiring ε)

def outputActive : StreamM ε Bool := onDevice wiring.sink.outputActive

def filterPreparationNs : UInt64 :=
  match wiring.filters with
  | some settings => if settings.required then settings.preparationNs + 1 else 0
  | none => 0

def preparationMemoryBytes (job : Job) : Nat :=
  4096 + job.events.size * 16 + (job.events.events.countP (·.rfOn)) * (24 + 2)

/-- `state_ == Idle && !job_ && !output_active() && ppb in range`, and its effect. -/
def setFrequencyCorrectionPpb (ppb : Int) : StreamM ε Bool := do
  let s ← stream
  if s.state ≠ .idle ∨ s.job.isSome then
    return false
  if ← wiring.outputActive then
    return false
  if !correctionInRange ppb then
    return false
  update fun s => { s with correctionPpb := ppb }
  return true

/-- The filter selector takes the plan. -/
def filterAccepts (selector : FilterSelector) (job : Job) (plan : Plan) : Bool :=
  wiring.filters.all fun settings => (selector.prepare wiring.rate settings job plan).1

/-- `!filters_ || filters_->prepare(job, plan)`. -/
def selectFilter (job : Job) (plan : Plan) : StreamM ε Bool :=
  match wiring.filters with
  | none => return true
  | some settings => onHardware fun h =>
    let (accepted, selector) := h.selector.prepare wiring.rate settings job plan
    (accepted, { h with selector := selector })

def prepare (job : Job) : StreamM ε PrepareResult := do
  let s ← stream
  if s.state ≠ .idle then
    return {}
  if ← wiring.outputActive then
    return {}
  match wiring.rate.planJob job s.correctionPpb with
  | none => return {}
  | some candidate =>
    if !(← wiring.selectFilter job candidate) then
      return {}
    update (·.hold (jobDigest job) candidate)
    return { accepted := true
             adjustments := wiring.rate.adjustments 0 job.events.events candidate.segments }

/-! ## Start -/

def submitNext (slot : UInt64) : StreamM ε Bool := do
  let s ← stream
  if (s.buffer slot).valid = 0 then
    return true
  if !(← onHardware (wiring.sink.submit s.epoch s.submitted (s.buffer slot))) then
    return false
  update fun s => { s with submitted := s.submitted + 1 }
  return true

def fail (nowNs : UInt64) : StreamM ε EngineReport := do
  update fun s => { s with state := .failed }
  let stopped ← onHardware (wiring.sink.stop nowNs)
  update fun s => { s with filterObservation := if stopped then -1 else -2 }
  return { state := .failed, outputActive := ← wiring.outputActive }

/-- `!sink_.stop(deadline) || output_active()`. -/
def stopFailed (deadlineNs : UInt64) : StreamM ε Bool := do
  if !(← onHardware (wiring.sink.stop deadlineNs)) then
    return true
  wiring.outputActive

/-- The clock and leap tests of `project_clock`, with the projected target. -/
def projectTarget (conditions : LocalStartConditions) (deadlineNs duration resolution : UInt64)
    (now : ClockSnapshot) : Option LaunchTarget := do
  let window := startWindowNs conditions.startUtcNs
  let target ← if now.utcNowNs < conditions.startUtcNs then Time.inverse now conditions.startUtcNs
    else some now.monotonicNowNs
  if resolution = 0 then none
  let rounding := (resolution - target % resolution) % resolution
  if target > u64Max - rounding then none
  let target := target + rounding
  let realizedUtc ← Time.project now target
  if realizedUtc ≥ conditions.startUtcNs + window then none
  let roundingUtc ← Time.elapsedUtc (rounding + if now.ratePpb ≠ 0 then 1 else 0) now.ratePpb true
  let futureGrowth ← Time.growth (target - now.monotonicNowNs) now.rateUncertaintyPpb.toUInt64
  let pending := now.leap = .insertPending ∨ now.leap = .deletePending
  if target ≥ deadlineNs ∨ futureGrowth > conditions.maximumUncertaintyNs - now.uncertaintyNs ∨
      roundingUtc > conditions.maximumUncertaintyNs - now.uncertaintyNs - futureGrowth ∨
      now.leap = .unknown ∨ decide pending ≠ now.leapTransitionUtcNs.isSome then none
  let utcDuration ← Time.durationUtcBound duration now
  let latest := conditions.startUtcNs + window - 1
  if latest ≥ now.validUntilUtcNs ∨ utcDuration ≥ now.validUntilUtcNs - latest then none
  match now.leapTransitionUtcNs with
  | none => some ⟨true, target⟩
  | some leap =>
    let low := if leap > 1000000000 then leap - 1000000000 else 0
    let high := if leap > u64Max - 1000000000 then u64Max else leap + 1000000000
    if conditions.startUtcNs > high ∨ (latest ≤ u64Max - utcDuration ∧ latest + utcDuration < low)
    then some ⟨true, target⟩ else none

/-- `project_clock` of an engine with a job and these start conditions. -/
def projectClock (conditions : LocalStartConditions) (deadlineNs duration resolution : UInt64)
    (now : ClockSnapshot) : LaunchTarget :=
  let synchronized := now.state = .synchronized ∨ (now.state = .holdover ∧
    conditions.maximumHoldoverAgeNs > 0 ∧ now.syncAgeNs ≤ conditions.maximumHoldoverAgeNs)
  let window := startWindowNs conditions.startUtcNs
  if now.monotonicNowNs ≥ deadlineNs ∨ now.uncertaintyNs > conditions.maximumUncertaintyNs ∨
      ¬ synchronized then {}
  else if conditions.startUtcNs > u64Max - window ∨
      now.utcNowNs ≥ conditions.startUtcNs + window ∨ conditions.startUtcNs > u64Max - duration then
    {}
  else (projectTarget conditions deadlineNs duration resolution now).getD {}

/-- The launch guard of a start: none without a clock. -/
def launchGuard (resolution : UInt64) (s : StreamEngine) : Option LaunchGuard :=
  if s.startConditions.clock then
    some ⟨projectClock s.startConditions s.launchDeadlineNs (s.endNs - s.startNs) resolution,
      s.launchDeadlineNs⟩
  else none

/-- The submissions and the arm of `begin`. -/
def startSink : StreamM ε Bool := do
  if !(← wiring.submitNext 0) then
    return false
  if !(← wiring.submitNext 1) then
    return false
  let s ← stream
  let resolution ← constant wiring.sink.startResolutionNs
  onHardware (wiring.sink.arm s.epoch s.startNs s.plan.totalSamples (launchGuard resolution s))

/-- `begin` accepts a job and a start. -/
def startable (job : Job) (startNs tailNs : UInt64) (s : StreamEngine) : Bool :=
  s.state = .idle && s.job = some (jobDigest job) && s.epoch ≠ u64Max &&
  startNs ≤ u64Max - max job.totalDurationNs (s.realizedDurationNs wiring.rate) - tailNs - 100000

/-- The members a start resets. -/
def started (startNs : UInt64) (s : StreamEngine) : StreamEngine :=
  { s with
    epoch := s.epoch + 1
    submitted := 0
    completed := 0
    consumed := 0
    startNs := startNs
    endNs := startNs + s.realizedDurationNs wiring.rate
    lastPollNs := 0
    launchNs := none }

def begin (job : Job) (startNs : UInt64) : StreamM ε Bool := do
  let s ← stream
  let tail ← constant wiring.sink.amplifierTailNs
  if !wiring.startable job startNs tail s then
    return false
  if ← wiring.stopFailed startNs then
    update fun s => { s with state := .failed, filterObservation := -2 }
    return false
  update (wiring.started startNs)
  if !(← wiring.startSink) then
    let _ ← wiring.fail startNs
    return false
  update fun s => { s with state := .armed }
  return true

/-- The overflow checks of `schedule`. -/
def schedulable (startNs startUtcNs adjustment duration : UInt64) : Bool :=
  let window := startWindowNs startUtcNs
  startNs ≤ u64Max - window && startUtcNs ≤ u64Max - window && adjustment < window &&
  duration ≤ u64Max - (startNs + window) && duration ≤ u64Max - (startUtcNs + window)

/-- The uncertainty budget of `schedule` holds at snapshot `now`. -/
def withinBudget (startNs adjustment maximumUncertaintyNs : UInt64) (now : ClockSnapshot) : Bool :=
  startNs ≥ now.monotonicNowNs &&
  match Time.growth (startNs - now.monotonicNowNs) now.rateUncertaintyPpb.toUInt64,
    Time.elapsedUtc (adjustment + if now.ratePpb ≠ 0 then 1 else 0) now.ratePpb true with
  | some futureGrowth, some roundingUtc =>
    now.uncertaintyNs ≤ maximumUncertaintyNs &&
    futureGrowth ≤ maximumUncertaintyNs - now.uncertaintyNs &&
    roundingUtc ≤ maximumUncertaintyNs - now.uncertaintyNs - futureGrowth
  | _, _ => false

def schedule (job : Job) (startNs : UInt64) (conditions : LocalStartConditions) :
    StreamM ε Bool := do
  let s ← stream
  let locally ← constant wiring.sink.schedulesLocally
  if !locally || !conditions.clock || s.state ≠ .idle then
    return false
  update fun s => { s with startConditions := conditions }
  let resolution ← constant wiring.sink.startResolutionNs
  if resolution = 0 then
    return false
  let adjustment := (resolution - startNs % resolution) % resolution
  update fun s => { s with startConditions := { conditions with startAdjustmentNs := adjustment } }
  if !schedulable startNs conditions.startUtcNs adjustment
      (max job.totalDurationNs (s.realizedDurationNs wiring.rate)) then
    return false
  let now ← onDevice wiring.sink.snapshot
  match Time.inverse now (conditions.startUtcNs + startWindowNs conditions.startUtcNs) with
  | none => return false
  | some deadline =>
    update fun s => { s with launchDeadlineNs := deadline }
    if !withinBudget startNs adjustment conditions.maximumUncertaintyNs now then
      return false
    wiring.begin job (startNs + adjustment)

/-! ## Progress -/

/-- A report's launch time, checked and recorded; `none` is a fault. -/
def observeLaunch (nowNs : UInt64) (report : SinkReport) (s : StreamEngine) :
    Option StreamEngine :=
  match report.launchMonotonicNs with
  | none => some s
  | some launch =>
    if (s.launchNs.isSome ∧ s.launchNs ≠ some launch) ∨ launch > nowNs ∨
        (s.launchNs.isNone ∧ s.startConditions.clock ∧ launch ≥ s.launchDeadlineNs) then none
    else if s.launchNs.isSome then some s
    else
      let duration := s.endNs - s.startNs
      if launch > u64Max - duration then none
      else some { s with launchNs := some launch, startNs := launch, endNs := launch + duration }

def countersOk (nowNs : UInt64) (report : SinkReport) (s : StreamEngine) : Bool :=
  nowNs ≥ s.lastPollNs && report.epoch = s.epoch && report.completedBlocks ≥ s.completed &&
  report.completedBlocks ≤ s.submitted && report.consumedSamples ≥ s.consumed &&
  report.consumedSamples ≤ s.plan.totalSamples &&
  report.consumedSamples ≥ min (report.completedBlocks * blockSamples) s.plan.totalSamples &&
  report.consumedSamples ≤ min ((report.completedBlocks + 1) * blockSamples) s.plan.totalSamples

/-- The completed blocks and samples agree with the time. -/
def timeOk (nowNs : UInt64) (report : SinkReport) (s : StreamEngine) : Bool :=
  let total := s.plan.totalSamples
  let expectedCompleted := report.consumedSamples / blockSamples +
    if report.consumedSamples = total ∧ total % blockSamples ≠ 0 then 1 else 0
  let elapsed := if nowNs > s.startNs then min (nowNs - s.startNs) (s.endNs - s.startNs) else 0
  let expectedSamples := if nowNs ≥ s.endNs then total
    else (elapsed * (wiring.rate.hz / 1000000) + 500) / 1000
  report.completedBlocks = expectedCompleted && report.consumedSamples ≤ expectedSamples

/-- An armed report of a locally scheduled start that has not launched. -/
def prelaunch (report : SinkReport) (active : Bool) (s : StreamEngine) : Bool :=
  report.state = .armed && s.startConditions.clock && report.consumedSamples = 0 &&
  report.completedBlocks = 0 &&
  (!active || report.chainPhase = .lead || report.chainPhase = .selecting)

def completionOk (nowNs : UInt64) (report : SinkReport) (active : Bool) (s : StreamEngine) : Bool :=
  nowNs ≥ s.endNs && report.consumedSamples = s.plan.totalSamples &&
  report.completedBlocks = s.submitted && s.position = s.plan.totalSamples && !active

/-- The amplifier tail after the last sample. -/
def inTail (nowNs tailNs : UInt64) (report : SinkReport) (active : Bool) (s : StreamEngine) : Bool :=
  report.chainPhase = .tail && report.state = .running && s.launchNs.isSome && nowNs ≥ s.endNs &&
  (report.tailDeadlineMonotonicNs.any fun deadline => deadline > nowNs && deadline - nowNs ≤ tailNs) &&
  report.consumedSamples = s.plan.totalSamples && report.completedBlocks = s.submitted &&
  s.position = s.plan.totalSamples && active

/-- Only the last block is unacknowledged, within its allowance. -/
def awaitingTail (nowNs : UInt64) (report : SinkReport) (s : StreamEngine) : Bool :=
  report.state = .running && s.position = s.plan.totalSamples &&
  s.submitted = (s.plan.totalSamples + blockSamples - 1) / blockSamples &&
  report.consumedSamples ≥ (s.submitted - 1) * blockSamples && nowNs ≥ s.endNs &&
  nowNs - s.endNs ≤ 100000

/-- The final checks of `poll_impl` before it refills the buffers. -/
def refillable (nowNs : UInt64) (report : SinkReport) (active : Bool) (s : StreamEngine) : Bool :=
  !(nowNs < s.startNs && (report.state ≠ .armed || report.consumedSamples ≠ 0 || active)) &&
  !(nowNs ≥ s.startNs && report.state ≠ .running) &&
  !(nowNs ≥ s.endNs && !awaitingTail nowNs report s) && report.completedBlocks ≠ s.submitted

/-- The refill loop, from block `sequence` on: whether the sink took every block. -/
def refill : Nat → UInt64 → StreamM ε Bool
  | 0, _ => return true
  | blocks + 1, sequence => do
    update (·.render sequence)
    if !(← wiring.submitNext sequence) then
      return false
    refill blocks (sequence + 1)

/-- `poll_impl` once the counters and times of the report are accepted. -/
def follow (nowNs : UInt64) (report : SinkReport) (active : Bool) : StreamM ε EngineReport := do
  update fun s => { s with lastPollNs := nowNs }
  let s ← stream
  let tail ← constant wiring.sink.amplifierTailNs
  if report.state = .missed then
    if report.consumedSamples ≠ 0 || active then
      return ← wiring.fail nowNs
    update fun s => { s with state := .missed }
    return { state := .missed, launchMonotonicNs := s.launchNs }
  else if report.state = .complete then
    if !completionOk nowNs report active s then
      return ← wiring.fail nowNs
    update fun s => { s with state := .complete }
    return { state := .complete, launchMonotonicNs := s.launchNs }
  else if inTail nowNs tail report active s then
    update fun s => { s with
      state := .running, completed := report.completedBlocks, consumed := report.consumedSamples }
    return { state := .running, outputActive := true, launchMonotonicNs := s.launchNs
             chainPhase := .tail, tailDeadlineMonotonicNs := report.tailDeadlineMonotonicNs }
  else if !refillable nowNs report active s then
    wiring.fail nowNs
  else if !(← wiring.refill (report.completedBlocks - s.completed).toNat s.completed) then
    wiring.fail nowNs
  else
    update fun s => { s with
      completed := report.completedBlocks, consumed := report.consumedSamples, state := report.state }
    return { state := report.state, outputActive := active, launchMonotonicNs := s.launchNs
             chainPhase := report.chainPhase }

/-- A report before the launch: the job waits, or its second has passed. -/
def await (nowNs : UInt64) (report : SinkReport) (active : Bool) : StreamM ε EngineReport := do
  update fun s => { s with lastPollNs := nowNs }
  let s ← stream
  if nowNs < s.launchDeadlineNs then
    return { state := .armed, outputActive := active, chainPhase := report.chainPhase }
  if ← wiring.stopFailed nowNs then
    return ← wiring.fail nowNs
  update fun s => { s with state := .missed }
  return { state := .missed }

/-- `report.observed_output_active ? … : output_active()`. -/
def observedActive (report : SinkReport) : StreamM ε Bool :=
  match report.observedOutputActive with
  | some active => return active
  | none => wiring.outputActive

/-- `poll_impl` from its launch observation on. -/
def progress (nowNs : UInt64) (report : SinkReport) : StreamM ε EngineReport := do
  match observeLaunch nowNs report (← stream) with
  | none => wiring.fail nowNs
  | some s =>
    update fun _ => s
    let active ← wiring.observedActive report
    if !countersOk nowNs report s then
      wiring.fail nowNs
    else if prelaunch report active s then
      wiring.await nowNs report active
    else if !wiring.timeOk nowNs report s then
      wiring.fail nowNs
    else
      wiring.follow nowNs report active

def pollImpl (nowNs : UInt64) : StreamM ε EngineReport := do
  let s ← stream
  if s.state ≠ .armed ∧ s.state ≠ .running then
    return { state := s.state, outputActive := ← wiring.outputActive }
  let report ← onHardware (wiring.sink.poll nowNs)
  update fun s => { s with filterObservation := report.filterSelector }
  match report.observedMonotonicNs with
  | none => wiring.progress nowNs report
  | some observed =>
    if observed < nowNs then
      wiring.fail nowNs
    else
      wiring.progress observed report

def poll (nowNs : UInt64) : StreamM ε EngineReport := do
  let result ← wiring.pollImpl nowNs
  let s ← stream
  return { result with filterSelector := s.filterObservation }

def disable (deadlineNs : UInt64) : StreamM ε Bool := do
  if ← wiring.stopFailed deadlineNs then
    update fun s => { s with state := .failed, filterObservation := -2 }
    return false
  update (·.release wiring.rate)
  return true

end Wiring

/-! ## What an engine holds -/

/-- The job an engine holds, with its plan, and the correction it was planned at. -/
def Engine.held (e : Engine ε) : Option PayloadDigest × Plan × Int :=
  (e.stream.job, e.stream.plan, e.stream.correctionPpb)

section Leaves

open StreamM

variable {wiring : Wiring ε}

theorem leaves_stream : Leaves Engine.held (stream : StreamM ε StreamEngine) := fun _ => rfl

theorem leaves_constant {f : ε → α} : Leaves Engine.held (constant f) := fun _ => rfl

theorem leaves_onHardware {f : Hardware ε → α × Hardware ε} :
    Leaves Engine.held (onHardware f) := fun _ => rfl

theorem leaves_onDevice {f : ε → α × ε} : Leaves Engine.held (onDevice f) := fun _ => rfl

theorem leaves_update {f : StreamEngine → StreamEngine}
    (h : ∀ s, (f s).job = s.job ∧ (f s).plan = s.plan ∧ (f s).correctionPpb = s.correctionPpb) :
    Leaves Engine.held (update f : StreamM ε Unit) := fun e => by
  obtain ⟨hjob, hplan, hcorrection⟩ := h e.stream
  simp only [Engine.held, update, hjob, hplan, hcorrection]

theorem leaves_fail (nowNs : UInt64) : Leaves Engine.held (wiring.fail nowNs) := by
  refine .bind (leaves_update fun _ => ⟨rfl, rfl, rfl⟩) fun _ => ?_
  refine leaves_onHardware.bind fun stopped => ?_
  refine .bind (leaves_update fun _ => ⟨rfl, rfl, rfl⟩) fun _ => ?_
  exact leaves_onDevice.bind fun _ => .pure _

theorem leaves_stopFailed (deadlineNs : UInt64) :
    Leaves Engine.held (wiring.stopFailed deadlineNs) := by
  exact leaves_onHardware.branch leaves_onDevice (.pure true)

theorem leaves_submitNext (slot : UInt64) : Leaves Engine.held (wiring.submitNext slot) := by
  refine leaves_stream.bind fun s => .ite (.pure true) ?_
  refine leaves_onHardware.branch ?_ (.pure false)
  exact .bind (leaves_update fun _ => ⟨rfl, rfl, rfl⟩) fun _ => .pure true

theorem leaves_startSink : Leaves Engine.held wiring.startSink := by
  refine .branch (leaves_submitNext 0) (.branch (leaves_submitNext 1) ?_ (.pure false)) (.pure false)
  exact leaves_stream.bind fun s => leaves_constant.bind fun _ => leaves_onHardware

theorem leaves_begin (job : Job) (startNs : UInt64) :
    Leaves Engine.held (wiring.begin job startNs) := by
  refine leaves_stream.bind fun s => leaves_constant.bind fun tail => .ite (.pure false) ?_
  refine (leaves_stopFailed startNs).branch ?_ ?_
  · exact .bind (leaves_update fun _ => ⟨rfl, rfl, rfl⟩) fun _ => .pure false
  refine .bind (leaves_update fun _ => ⟨rfl, rfl, rfl⟩) fun _ => leaves_startSink.branch ?_ ?_
  · exact .bind (leaves_update fun _ => ⟨rfl, rfl, rfl⟩) fun _ => .pure true
  · exact (leaves_fail startNs).bind fun _ => .pure false

theorem leaves_schedule (job : Job) (startNs : UInt64) (conditions : LocalStartConditions) :
    Leaves Engine.held (wiring.schedule job startNs conditions) := by
  refine leaves_stream.bind fun s => leaves_constant.bind fun _ => .ite (.pure false) ?_
  refine .bind (leaves_update fun _ => ⟨rfl, rfl, rfl⟩) fun _ => ?_
  refine leaves_constant.bind fun _ => .ite (.pure false) ?_
  refine .bind (leaves_update fun _ => ⟨rfl, rfl, rfl⟩) fun _ => .ite (.pure false) ?_
  refine leaves_onDevice.bind fun now => ?_
  split
  · exact .pure false
  · refine .bind (leaves_update fun _ => ⟨rfl, rfl, rfl⟩) fun _ => .ite (.pure false) ?_
    exact leaves_begin job _

theorem leaves_refill (blocks : Nat) (sequence : UInt64) :
    Leaves Engine.held (wiring.refill blocks sequence) := by
  induction blocks generalizing sequence with
  | zero => exact .pure true
  | succ blocks ih =>
    refine .bind (leaves_update fun _ => ⟨rfl, rfl, rfl⟩) fun _ => ?_
    exact (leaves_submitNext sequence).branch (ih _) (.pure false)

theorem leaves_follow (nowNs : UInt64) (report : SinkReport) (active : Bool) :
    Leaves Engine.held (wiring.follow nowNs report active) := by
  have hupdate : ∀ {f : StreamEngine → StreamEngine} (r : EngineReport),
      (∀ s, (f s).job = s.job ∧ (f s).plan = s.plan ∧ (f s).correctionPpb = s.correctionPpb) →
      Leaves Engine.held (do update f; return r : StreamM ε EngineReport) :=
    fun r h => .bind (leaves_update h) fun _ => .pure r
  have hfail : Leaves Engine.held (wiring.fail nowNs >>= fun r => Pure.pure r) :=
    (leaves_fail nowNs).bind fun r => .pure r
  refine .bind (leaves_update fun _ => ⟨rfl, rfl, rfl⟩) fun _ => ?_
  refine leaves_stream.bind fun s => leaves_constant.bind fun tail => ?_
  refine .ite (.ite hfail (hupdate _ fun _ => ⟨rfl, rfl, rfl⟩)) ?_
  refine .ite (.ite hfail (hupdate _ fun _ => ⟨rfl, rfl, rfl⟩)) ?_
  refine .ite (hupdate _ fun _ => ⟨rfl, rfl, rfl⟩) (.ite (leaves_fail nowNs) ?_)
  exact .branch (leaves_refill _ _) (hupdate _ fun _ => ⟨rfl, rfl, rfl⟩) (leaves_fail nowNs)

theorem leaves_await (nowNs : UInt64) (report : SinkReport) (active : Bool) :
    Leaves Engine.held (wiring.await nowNs report active) := by
  refine .bind (leaves_update fun _ => ⟨rfl, rfl, rfl⟩) fun _ => ?_
  refine leaves_stream.bind fun s => .ite (.pure _) ((leaves_stopFailed nowNs).branch ?_ ?_)
  · exact (leaves_fail nowNs).bind fun r => .pure r
  · exact .bind (leaves_update fun _ => ⟨rfl, rfl, rfl⟩) fun _ => .pure _

theorem observeLaunch_held {nowNs : UInt64} {report : SinkReport} {s s' : StreamEngine}
    (h : Wiring.observeLaunch nowNs report s = some s') :
    s'.job = s.job ∧ s'.plan = s.plan ∧ s'.correctionPpb = s.correctionPpb := by
  unfold Wiring.observeLaunch at h
  split at h
  · cases h
    exact ⟨rfl, rfl, rfl⟩
  · split at h
    · cases h
    · split at h
      · cases h
        exact ⟨rfl, rfl, rfl⟩
      · simp only at h
        split at h
        · cases h
        · cases h
          exact ⟨rfl, rfl, rfl⟩

theorem leaves_progress (nowNs : UInt64) (report : SinkReport) :
    Leaves Engine.held (wiring.progress nowNs report) := by
  intro e
  show Engine.held ((match Wiring.observeLaunch nowNs report e.stream with
    | none => wiring.fail nowNs
    | some s => _ : StreamM ε EngineReport) e).2 = _
  cases hobserve : Wiring.observeLaunch nowNs report e.stream with
  | none => exact leaves_fail nowNs e
  | some s =>
    obtain ⟨hjob, hplan, hcorrection⟩ := observeLaunch_held hobserve
    have hactive : Leaves Engine.held (wiring.observedActive report) := by
      unfold Wiring.observedActive
      split
      · exact .pure _
      · exact leaves_onDevice
    have hrest : Leaves Engine.held (do
        let active ← wiring.observedActive report
        if !Wiring.countersOk nowNs report s then wiring.fail nowNs
        else if Wiring.prelaunch report active s then wiring.await nowNs report active
        else if !wiring.timeOk nowNs report s then wiring.fail nowNs
        else wiring.follow nowNs report active) :=
      hactive.bind fun active => .ite (leaves_fail nowNs) (.ite (leaves_await nowNs report active)
        (.ite (leaves_fail nowNs) (leaves_follow nowNs report active)))
    refine (hrest { e with stream := s }).trans ?_
    simp only [Engine.held, hjob, hplan, hcorrection]

theorem leaves_poll (nowNs : UInt64) : Leaves Engine.held (wiring.poll nowNs) := by
  refine .bind ?_ fun r => leaves_stream.bind fun s => .pure _
  refine leaves_stream.bind fun s => .ite (leaves_onDevice.bind fun _ => .pure _) ?_
  refine leaves_onHardware.bind fun report => ?_
  refine .bind (leaves_update fun _ => ⟨rfl, rfl, rfl⟩) fun _ => ?_
  split
  · exact leaves_progress nowNs report
  · exact .ite (leaves_fail nowNs) (leaves_progress _ report)

end Leaves

/-! ## Preparation and release -/

section

open StreamM

variable {wiring : Wiring ε} {e : Engine ε}

/-- The engine with the device in state `d`. -/
def Engine.withDevice (e : Engine ε) (d : ε) : Engine ε :=
  { e with hardware := { e.hardware with device := d } }

theorem pure_at {σ α : Type} (a : α) (s : σ) : (pure a : StateM σ α) s = (a, s) := rfl

variable (wiring e) in
/-- `prepare` refuses the job and leaves the engine as it was, or it holds the
job with its plan. -/
theorem prepare_cases (job : Job) :
    (∃ d, wiring.prepare job e = ({}, e.withDevice d)) ∨
    ∃ plan selector d, e.stream.state = .idle ∧
      wiring.rate.planJob job e.stream.correctionPpb = some plan ∧
      wiring.filterAccepts e.hardware.selector job plan = true ∧
      wiring.prepare job e =
        ({ accepted := true
           adjustments := wiring.rate.adjustments 0 job.events.events plan.segments },
          ⟨e.stream.hold (jobDigest job) plan, ⟨selector, d⟩⟩) := by
  by_cases hidle : e.stream.state = .idle
  case neg => exact .inl ⟨e.hardware.device, by
    simp [Wiring.prepare, bind, StateT.bind, stream, hidle, Engine.withDevice]; rfl⟩
  rcases hactive : wiring.sink.outputActive e.hardware.device with ⟨active, d⟩
  cases active with
  | true =>
    refine .inl ⟨d, ?_⟩
    simp [Wiring.prepare, bind, StateT.bind, stream, hidle, Wiring.outputActive, onDevice,
      onHardware, hactive, Engine.withDevice]
    rfl
  | false =>
    cases hplan : wiring.rate.planJob job e.stream.correctionPpb with
    | none =>
      refine .inl ⟨d, ?_⟩
      simp [Wiring.prepare, bind, StateT.bind, stream, hidle, Wiring.outputActive, onDevice,
        onHardware, hactive, hplan, Engine.withDevice]
      rfl
    | some plan =>
      cases hfilters : wiring.filters with
      | none =>
        refine .inr ⟨plan, e.hardware.selector, d, hidle, rfl, by
          simp [Wiring.filterAccepts, hfilters], ?_⟩
        simp [Wiring.prepare, bind, StateT.bind, stream, hidle, Wiring.outputActive, onDevice,
          onHardware, hactive, hplan, Wiring.selectFilter, hfilters, update, pure_at]
      | some settings =>
        rcases hselect : e.hardware.selector.prepare wiring.rate settings job plan with
          ⟨accepted, selector⟩
        cases accepted with
        | true =>
          refine .inr ⟨plan, selector, d, hidle, rfl, by
            simp [Wiring.filterAccepts, hfilters, hselect], ?_⟩
          simp [Wiring.prepare, bind, StateT.bind, stream, hidle, Wiring.outputActive, onDevice,
            onHardware, hactive, hplan, Wiring.selectFilter, hfilters, hselect, update, pure_at]
        | false =>
          refine .inl ⟨d, ?_⟩
          have hsame : selector = e.hardware.selector := by
            have h := FilterSelector.prepare_refused (congrArg Prod.fst hselect)
            rwa [hselect] at h
          simp [Wiring.prepare, bind, StateT.bind, stream, hidle, Wiring.outputActive, onDevice,
            onHardware, hactive, hplan, Wiring.selectFilter, hfilters, hselect, hsame,
            Engine.withDevice]
          rfl

variable (wiring e) in
/-- `disable` releases what the engine holds, or marks it failed. -/
theorem disable_cases (deadlineNs : UInt64) : ∃ hardware,
    wiring.disable deadlineNs e = (true, ⟨e.stream.release wiring.rate, hardware⟩) ∨
    wiring.disable deadlineNs e =
      (false, ⟨{ e.stream with state := .failed, filterObservation := -2 }, hardware⟩) := by
  rcases hstop : wiring.sink.stop deadlineNs e.hardware with ⟨stopped, hardware⟩
  cases stopped with
  | false =>
    refine ⟨hardware, .inr ?_⟩
    simp [Wiring.disable, Wiring.stopFailed, bind, StateT.bind, onHardware, hstop, update, pure_at]
  | true =>
    rcases hactive : wiring.sink.outputActive hardware.device with ⟨active, d⟩
    refine ⟨{ hardware with device := d }, ?_⟩
    cases active with
    | true =>
      refine .inr ?_
      simp [Wiring.disable, Wiring.stopFailed, bind, StateT.bind, onHardware, hstop, update,
        pure_at, Wiring.outputActive, onDevice, hactive]
    | false =>
      refine .inl ?_
      simp [Wiring.disable, Wiring.stopFailed, bind, StateT.bind, onHardware, hstop, update,
        pure_at, Wiring.outputActive, onDevice, hactive]

theorem setFrequencyCorrectionPpb_free {ppb : Int} (hidle : e.stream.state = .idle)
    (hjob : e.stream.job = none) (hactive : (wiring.sink.outputActive e.hardware.device).1 = false)
    (hrange : correctionInRange ppb = true) :
    (wiring.setFrequencyCorrectionPpb ppb e).1 = true := by
  simp [Wiring.setFrequencyCorrectionPpb, bind, StateT.bind, stream, hidle, hjob,
    Wiring.outputActive, onDevice, onHardware, hactive, hrange, update, pure_at]

variable (wiring e) in
theorem setFrequencyCorrectionPpb_cases (ppb : Int) : ∃ d,
    wiring.setFrequencyCorrectionPpb ppb e = (false, e.withDevice d) ∨
    (e.stream.job = none ∧ e.stream.state = .idle ∧ wiring.setFrequencyCorrectionPpb ppb e =
      (true, ⟨{ e.stream with correctionPpb := ppb }, { e.hardware with device := d }⟩)) := by
  by_cases hfree : e.stream.state = .idle ∧ e.stream.job = none
  case neg =>
    refine ⟨e.hardware.device, .inl ?_⟩
    have hheld : e.stream.state ≠ .idle ∨ e.stream.job.isSome = true := by
      rw [Classical.not_and_iff_not_or_not] at hfree
      exact hfree.imp id Option.isSome_iff_ne_none.2
    simp [Wiring.setFrequencyCorrectionPpb, bind, StateT.bind, stream, hheld, Engine.withDevice]
    rfl
  obtain ⟨hidle, hjob⟩ := hfree
  rcases hactive : wiring.sink.outputActive e.hardware.device with ⟨active, d⟩
  refine ⟨d, ?_⟩
  by_cases haccept : active = false ∧ correctionInRange ppb = true
  · refine .inr ⟨hjob, hidle, ?_⟩
    simp [Wiring.setFrequencyCorrectionPpb, bind, StateT.bind, stream, hidle, hjob,
      Wiring.outputActive, onDevice, onHardware, hactive, haccept, update, pure_at]
  · refine .inl ?_
    cases active with
    | true =>
      simp [Wiring.setFrequencyCorrectionPpb, bind, StateT.bind, stream, hidle, hjob,
        Wiring.outputActive, onDevice, onHardware, hactive, Engine.withDevice]
      rfl
    | false =>
      have hrange : correctionInRange ppb = false := by simpa using haccept
      simp [Wiring.setFrequencyCorrectionPpb, bind, StateT.bind, stream, hidle, hjob,
        Wiring.outputActive, onDevice, onHardware, hactive, hrange, Engine.withDevice]
      rfl

variable (wiring) in
theorem poll_idle (nowNs : UInt64) (h : e.stream.state = .idle) :
    (wiring.poll nowNs e).2 =
      e.withDevice (wiring.sink.outputActive e.hardware.device).2 := by
  simp [Wiring.poll, Wiring.pollImpl, bind, StateT.bind, stream, h, Wiring.outputActive, onDevice,
    onHardware, Engine.withDevice, pure_at]

end

end WsprryPico.Rf
