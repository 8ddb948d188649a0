import WsprryPico.Rf.Chain
import WsprryPico.Rf.Si5351.Device
import WsprryPico.Rf.Si5351.Job

/-!
# The Si5351 engine

`rf/si5351_engine.cpp` over an arbitrary platform, bus, amplifier output, filter
bank and clock. `Machine ω` is the engine's members with the objects it drives;
`EngineM ω` is a computation on it. A platform may reach the device when it
pauses or services the reference: the production one does.

`Machine.log` records, newest first, the calls the engine makes, each with its
answer, the epoch it was made in and the readings of the timer around it, and
`Machine.accesses` the bus accesses of the device. No function reads them.
-/

namespace WsprryPico.Rf.Si5351

open Wtp Lib

variable {ω α : Type}

/-- `add`: the sum, or the largest value. -/
def addSat (left right : UInt64) : UInt64 :=
  if left > u64Max - right then u64Max else left + right

structure ExecutionPlatform (ω : Type) where
  nowNs : ω → UInt64 × ω
  initializePlatform : ω → Bool × ω
  setGate : Bool → ω → Bool × ω
  gateActiveOrUnknown : ω → Bool × ω
  armCutoff : UInt64 → ω → Bool × ω
  cancelCutoff : ω → ω
  pauseReference : UInt64 → Controller ω → Bool × Controller ω
  serviceReference : Bool → Controller ω → Controller ω
  inhibitReference : ω → ω

/-- The build and wiring of an engine. The indicator gate, the amplifier and the
filter bank may be absent. `time` is the timer as an observer reads it. -/
structure Wiring (ω : Type) where
  synthesis : Synthesis
  configuration : Configuration
  engineeringAllowed : Bool
  ordinaryQualified : Bool
  platform : ExecutionPlatform ω
  bus : Bus ω
  /-- `conditions_.clock->snapshot()`. -/
  snapshot : ω → ClockSnapshot × ω
  indicated : Bool
  amplifier : Option (Amplifier ω)
  filters : Option (FilterBank ω)
  time : ω → UInt64

structure Engine where
  initialized : Bool := false
  inhibited : Bool := false
  primed : Bool := false
  backgroundSuspended : Bool := false
  plan : Option JobPlan := none
  correctionPpb : Int := 0
  state : EngineState := .idle
  phase : ChainPhase := .inactive
  conditions : LocalStartConditions := {}
  epoch : UInt64 := 0
  startNs : UInt64 := 0
  endNs : UInt64 := 0
  deadlineNs : UInt64 := 0
  launchNs : Option UInt64 := none
  releaseNs : Option UInt64 := none
  selectionNs : Option UInt64 := none
  enableNs : Option UInt64 := none
  tailNs : Option UInt64 := none
  enableCommandNs : UInt64 := 0
  disableCommandNs : UInt64 := 0
  observation : AmplifierObservation := {}
  event : Nat := 0
  primedTone : Option Nat := none
  failure : String := "not_initialized"

/-- What the engine calls. `entered` marks the entry of a plan event. -/
inductive Action where
  | initializePlatform | setGate (active : Bool) | armCutoff (endNs : UInt64) | cancelCutoff
  | pauseReference | serviceReference (permitted : Bool) | inhibitReference
  | configure (first : Option Tone) | locked | transmitTone (tone : Tone) | primeTransmit
  | requestTransmitEnabled (value : Bool) | verifyTransmit | transmitEnabled (value : Bool)
  | referenceEnabled (value : Bool) | quiesce
  | amplifier (active : Bool) | verifyAmplifier
  | filters (active : Bool) | verifyFilters
  | entered (index : Nat) (nowNs : UInt64)
  deriving DecidableEq

structure Entry where
  action : Action
  ok : Bool
  epoch : UInt64
  issued : UInt64
  done : UInt64

/-- An access of the bus, with what a read answered. -/
inductive Access where
  | read (reg : Nat) (answer : Option (List UInt8))
  | write (reg : Nat) (bytes : List UInt8)

/-- A world with the accesses made of its bus, newest first. -/
structure Tapped (ω : Type) where
  world : ω
  accesses : List Access

/-- The bus that notes its accesses. -/
def Bus.tapped (bus : Bus ω) : Bus (Tapped ω) where
  read reg count deadline w :=
    let (answer, world) := bus.read reg count deadline w.world
    (answer, ⟨world, .read reg answer :: w.accesses⟩)
  write reg bytes deadline w :=
    let (done, world) := bus.write reg bytes deadline w.world
    (done, ⟨world, .write reg bytes :: w.accesses⟩)

structure Machine (ω : Type) where
  engine : Engine := {}
  device : Device := {}
  amplifier : AmplifierEnable := {}
  filters : FilterSelector := {}
  indicator : IndicatorGate := {}
  world : ω
  accesses : List Access := []
  log : List Entry := []

abbrev EngineM (ω : Type) := StateM (Machine ω)

namespace EngineM

def machine : EngineM ω (Machine ω) := fun m => (m, m)

def engine : EngineM ω Engine := fun m => (m.engine, m)

def update (f : Engine → Engine) : EngineM ω Unit := fun m => ((), { m with engine := f m.engine })

/-! The objects the engine drives, each with the world. -/

def onWorld (f : ω → α × ω) : EngineM ω α := fun m =>
  let (a, world) := f m.world
  (a, { m with world := world })

def onDevice (f : DeviceM (Tapped ω) α) : EngineM ω α := fun m =>
  let (a, c) := f ⟨m.device, ⟨m.world, m.accesses⟩⟩
  (a, { m with device := c.device, world := c.world.world, accesses := c.world.accesses })

def onReference (f : Controller ω → α × Controller ω) : EngineM ω α := fun m =>
  let (a, c) := f ⟨m.device, m.world⟩
  (a, { m with device := c.device, world := c.world })

def onAmplifier (f : AmplifierEnable → ω → α × AmplifierEnable × ω) : EngineM ω α := fun m =>
  let (a, amplifier, world) := f m.amplifier m.world
  (a, { m with amplifier := amplifier, world := world })

def onFilters (f : FilterSelector → ω → α × FilterSelector × ω) : EngineM ω α := fun m =>
  let (a, filters, world) := f m.filters m.world
  (a, { m with filters := filters, world := world })

def onIndicator (f : IndicatorGate → α × IndicatorGate) : EngineM ω α := fun m =>
  let (a, indicator) := f m.indicator
  (a, { m with indicator := indicator })

def onlyIf (needed : Bool) (c : EngineM ω Unit) : EngineM ω Unit := if needed then c else return ()

end EngineM

namespace Wiring

open EngineM

variable (wiring : Wiring ω)

/-- `call` with its entry in the log. -/
def perform (action : Action) (call : EngineM ω Bool) : EngineM ω Bool := fun m =>
  let (ok, after) := call m
  (ok, { after with
    log := ⟨action, ok, m.engine.epoch, wiring.time m.world, wiring.time after.world⟩ :: after.log })

/-! ## The calls -/

def nowNs : EngineM ω UInt64 := onWorld wiring.platform.nowNs

def setGate (active : Bool) : EngineM ω Bool :=
  wiring.perform (.setGate active) (onWorld (wiring.platform.setGate active))

def armCutoff (endNs : UInt64) : EngineM ω Bool :=
  wiring.perform (.armCutoff endNs) (onWorld (wiring.platform.armCutoff endNs))

/-- A call without an answer. -/
def notify (action : Action) (f : EngineM ω Unit) : EngineM ω Unit := do
  let _ ← wiring.perform action do
    f
    return true

def cancelCutoff : EngineM ω Unit :=
  wiring.notify .cancelCutoff (onWorld fun w => ((), wiring.platform.cancelCutoff w))

def pauseReference (deadline : UInt64) : EngineM ω Bool :=
  wiring.perform .pauseReference (onReference (wiring.platform.pauseReference deadline))

def serviceReference (permitted : Bool) : EngineM ω Unit :=
  wiring.notify (.serviceReference permitted)
    (onReference fun c => ((), wiring.platform.serviceReference permitted c))

def inhibitReference : EngineM ω Unit :=
  wiring.notify .inhibitReference (onWorld fun w => ((), wiring.platform.inhibitReference w))

def configure (plan : Plan) (deadline : UInt64) : EngineM ω Bool :=
  wiring.perform (.configure plan.tones.head?)
    (onDevice (wiring.bus.tapped.configure wiring.synthesis wiring.configuration plan deadline))

def locked (deadline : UInt64) : EngineM ω Bool :=
  wiring.perform .locked (onDevice (wiring.bus.tapped.locked deadline))

def transmitTone (tone : Tone) (deadline : UInt64) : EngineM ω Bool :=
  wiring.perform (.transmitTone tone) (onDevice (wiring.bus.tapped.transmitTone tone deadline))

def primeTransmit (deadline : UInt64) : EngineM ω Bool :=
  wiring.perform .primeTransmit (onDevice (wiring.bus.tapped.primeTransmit deadline))

def requestTransmitEnabled (value : Bool) (deadline : UInt64) : EngineM ω Bool :=
  wiring.perform (.requestTransmitEnabled value)
    (onDevice (wiring.bus.tapped.requestTransmitEnabled value deadline))

def verifyTransmit (deadline : UInt64) : EngineM ω Bool :=
  wiring.perform .verifyTransmit (onDevice (wiring.bus.tapped.verifyTransmit deadline))

def transmitEnabled (value : Bool) (deadline : UInt64) : EngineM ω Bool :=
  wiring.perform (.transmitEnabled value)
    (onDevice (wiring.bus.tapped.transmitEnabled value deadline))

def referenceEnabled (value : Bool) (deadline : UInt64) : EngineM ω Bool :=
  wiring.perform (.referenceEnabled value)
    (onDevice (wiring.bus.tapped.referenceEnabled value deadline))

def quiesce (deadline : UInt64) : EngineM ω Bool :=
  wiring.perform .quiesce (onDevice (wiring.bus.tapped.quiesce deadline))

/-- A call of the amplifier, if there is one. -/
def amplifierCall (action : Action)
    (f : Amplifier ω → AmplifierEnable → ω → Bool × AmplifierEnable × ω) : EngineM ω Bool :=
  match wiring.amplifier with
  | none => return true
  | some amplifier => wiring.perform action (onAmplifier (f amplifier))

/-- A call of the filter selector, if there is one. -/
def filterCall (action : Action)
    (f : FilterBank ω → FilterSelector → ω → Bool × FilterSelector × ω) : EngineM ω Bool :=
  match wiring.filters with
  | none => return true
  | some bank => wiring.perform action (onFilters (f bank))

def activateAmplifier : EngineM ω Bool := wiring.amplifierCall (.amplifier true) (·.activate)
def deactivateAmplifier : EngineM ω Bool := wiring.amplifierCall (.amplifier false) (·.deactivate)
def activateFilters : EngineM ω Bool := wiring.filterCall (.filters true) (·.activate)
def deactivateFilters : EngineM ω Bool := wiring.filterCall (.filters false) (·.deactivate)

def verifyFilters : EngineM ω Bool :=
  wiring.filterCall .verifyFilters fun bank selector w =>
    let (verified, w) := bank.verify selector w
    (verified, selector, w)

/-- `!(amplifier_ && amplifier_->enabled()) || amplifier_->verify_active()`. -/
def verifyAmplifier : EngineM ω Bool :=
  match wiring.amplifier with
  | none => return true
  | some amplifier =>
    if !amplifier.enabled then return true
    else
      wiring.perform .verifyAmplifier <| onAmplifier fun a w =>
        let (active, w) := amplifier.verifyActive a w
        (active, a, w)

/-- `indicator_->inactive()`. -/
def indicatorInactive : EngineM ω Unit :=
  if wiring.indicated then onIndicator fun gate => ((), gate.inactive) else return ()

/-! ## Constants and observers -/

def preparationBudgetNs : UInt64 := 60000000
def transitionBudgetNs : UInt64 := 8000000
def minimumTransitionNs : UInt64 := 10000000
def chainServiceMarginNs : UInt64 := 1000000

def amplifierEnabled : Bool := wiring.amplifier.any (·.enabled)

def amplifierLeadNs : UInt64 :=
  match wiring.amplifier with
  | some amplifier => if amplifier.enabled then amplifier.timing.leadNs else 0
  | none => 0

def amplifierTailNs : UInt64 :=
  match wiring.amplifier with
  | some amplifier => if amplifier.enabled then amplifier.timing.tailNs else 0
  | none => 0

def filtersRequired : Bool := wiring.filters.any (·.required)

def filterReleaseNs : UInt64 := (wiring.filters.map (·.settings.releaseNs)).getD 0
def filterSettleNs : UInt64 := (wiring.filters.map (·.settings.settleNs)).getD 0

def filterPreparationNs : UInt64 :=
  (match wiring.filters with
    | some bank => if bank.required then bank.settings.preparationNs else 0
    | none => 0) + chainServiceMarginNs

def preparationMemoryBytes (job : Job) : Nat :=
  4096 + job.events.events.countP (·.rfOn) * (24 + 2)

/-- `output_active`: the gate is asked only where the register is off. -/
def outputActive : EngineM ω Bool := do
  if (← machine).device.transmitState ≠ .registerDisabled then
    return true
  if ← onWorld wiring.platform.gateActiveOrUnknown then
    return true
  let m ← machine
  return wiring.amplifier.any (·.outputActiveOrUnknown m.amplifier) ||
    wiring.filters.any fun _ => !m.filters.inactive

def report : EngineM ω EngineReport := do
  let active ← wiring.outputActive
  let m ← machine
  return {
    state := m.engine.state
    outputActive := active
    launchMonotonicNs := m.engine.launchNs
    chainPhase := m.engine.phase
    tailDeadlineMonotonicNs := m.engine.tailNs
    filterSelector := match wiring.filters with
      | some bank => bank.observation m.filters
      | none => -1 }

/-! ## Shutdown -/

/-- `Engine::initialize`. -/
def initializeEngine : EngineM ω Bool := do
  let opened ← wiring.perform .initializePlatform (onWorld wiring.platform.initializePlatform)
  update fun e =>
    if opened then { e with initialized := true }
    else
      { e with initialized := false, failure := "si5351_platform_unavailable", state := .failed }
  return opened

/-- The clocks off: both outputs of a configured device, or the whole chip. -/
def silenceClocks (deadline : UInt64) : EngineM ω Bool := do
  if (← machine).device.configured then
    let transmit ← wiring.transmitEnabled false deadline
    let reference ← wiring.referenceEnabled false deadline
    if !(transmit && reference) && !(← machine).device.configured then
      wiring.quiesce deadline
    else
      return transmit && reference
  else
    wiring.quiesce deadline

def clocksOff (opened : Bool) (deadline : UInt64) : EngineM ω Bool :=
  if opened then wiring.silenceClocks deadline else return false

/-- `!filters_ || (clocks && filters_->deactivate())`. -/
def filtersOff (clocks : Bool) : EngineM ω Bool :=
  if clocks then wiring.deactivateFilters else return wiring.filters.isNone

/-- The part of `disable` before its verdict. -/
def shutDown (deadline : UInt64) : EngineM ω Bool := do
  let opened ← wiring.initializeEngine
  wiring.cancelCutoff
  let gate ← wiring.setGate false
  let amplifier ← wiring.deactivateAmplifier
  let reference ← wiring.pauseReference deadline
  let clocks ← wiring.clocksOff opened deadline
  let filters ← wiring.filtersOff clocks
  return opened && gate && amplifier && reference && clocks && filters

/-- `shutDown` and the outputs observed off. -/
def stopped (deadline : UInt64) : EngineM ω Bool := do
  if !(← wiring.shutDown deadline) then
    return false
  return !(← wiring.outputActive)

def observeRfOff : EngineM ω Unit := do
  if (← engine).observation.rfOffNs = 0 then
    let now ← wiring.nowNs
    update fun e => { e with observation.rfOffNs := now }

def observeDisable : EngineM ω Unit := do
  if (← engine).observation.disableNs = 0 then
    let now ← wiring.nowNs
    update fun e => { e with observation.disableNs := now }

/-- The observations of a normal completion, where they are still open. -/
def observeCompletion : EngineM ω Unit := do
  wiring.observeRfOff
  update fun e => { e with observation.normalRfCompletion := true }
  wiring.observeDisable

def disable (deadline : UInt64) : EngineM ω Bool := do
  let normalCompletion := (← engine).state = .complete
  if !(← wiring.stopped deadline) then
    update fun e =>
      { e with state := .failed, phase := .fault, failure := "si5351_shutdown_unconfirmed" }
    return false
  wiring.indicatorInactive
  onlyIf normalCompletion wiring.observeCompletion
  update fun e =>
    { e with
      state := .idle
      phase := .inactive
      plan := none
      primed := false
      launchNs := none
      tailNs := none
      conditions := {}
      failure := "" }
  return true

def fail (reason : String) (outcome : EngineState := .failed) : EngineM ω Bool := do
  let stopped ← wiring.disable (addSat (← wiring.nowNs) 10000000)
  update fun e =>
    { e with
      failure := reason
      state := if stopped then outcome else .failed
      phase := .fault }
  return false

end Wiring

end WsprryPico.Rf.Si5351
