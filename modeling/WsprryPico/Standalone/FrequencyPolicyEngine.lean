import WsprryPico.Rf.StreamEngine

/-!
# The frequency policy engine

`standalone/frequency_policy_engine.cpp`: the admission boundary between
`JobService` and the streaming engine, with the band table of
`application/frequency_policy.cpp` and the GPS corrections of
`time/gps_calibration.cpp` it selects from. `Board ε` is the two engines with
the part of the saved configuration they read.

`prepare` checks the requested frequencies before the inner engine prepares the
job and the realized ones after it; `prepare_cases` says where each refusal
leaves the inner engine.
-/

namespace WsprryPico.Standalone

open Wtp Rf Lib

/-! ## Frequencies -/

inductive FrequencyDisposition where
  | ordinaryAmateur | unqualifiedAmateur | nonAmateur

structure Band where
  lowerHz : UInt64
  upperHz : UInt64
  ordinary : Bool

def bands : List Band :=
  [⟨130000, 190000, true⟩, ⟨472000, 479000, true⟩, ⟨1800000, 2000000, true⟩,
   ⟨3500000, 4000000, true⟩, ⟨5250000, 5450000, true⟩, ⟨7000000, 7300000, true⟩,
   ⟨10100000, 10150000, true⟩, ⟨14000000, 14350000, true⟩, ⟨18068000, 18168000, true⟩,
   ⟨21000000, 21450000, true⟩, ⟨24890000, 24990000, true⟩, ⟨28000000, 29700000, true⟩,
   ⟨40000000, 45000000, false⟩, ⟨50000000, 54000000, true⟩, ⟨54000001, 68000000, false⟩,
   ⟨69900000, 70500000, false⟩, ⟨144000000, 148000000, false⟩, ⟨219000000, 225000000, false⟩,
   ⟨420000000, 450000000, false⟩]

def frequencyDisposition (frequencyNhz : UInt64) : FrequencyDisposition :=
  match bands.find? fun band => decide (frequencyNhz ≥ band.lowerHz * 1000000000 ∧
      frequencyNhz ≤ band.upperHz * 1000000000) with
  | some band => if band.ordinary then .ordinaryAmateur else .unqualifiedAmateur
  | none => .nonAmateur

def frequencyAllowed (frequencyNhz : UInt64) (allowUnqualified allowNonAmateur : Bool) : Bool :=
  if frequencyNhz = 0 then false
  else
    match frequencyDisposition frequencyNhz with
    | .ordinaryAmateur => true
    | .unqualifiedAmateur => allowUnqualified
    | .nonAmateur => allowUnqualified && allowNonAmateur

/-! ## GPS corrections -/

structure Calibration where
  oscillatorErrorPpb : Int := 0
  uncertaintyPpb : UInt32 := 0
  observedRawNs : UInt64 := 0
  spanNs : UInt64 := 0
  generation : UInt64 := 0

def gpsSecond : UInt64 := 1000000000

def Calibration.uncertaintyAt (now : UInt64) (c : Calibration) : UInt32 :=
  if now < c.observedRawNs then 0xffffffff
  else
    let age := now - c.observedRawNs
    let hour := 3600 * gpsSecond
    let growth := age / hour * 50000 + (age % hour * 50000 + hour - 1) / hour
    (min 0xffffffff (c.uncertaintyPpb.toUInt64 + growth)).toUInt32

def Calibration.fresh (now maximumAge : UInt64) (c : Calibration) : Bool :=
  c.generation ≠ 0 && c.spanNs ≥ 10 * gpsSecond && c.uncertaintyPpb ≠ 0 &&
  c.uncertaintyAt now ≤ 100001 && now ≥ c.observedRawNs && now - c.observedRawNs ≤ maximumAge

/-- The learned and the manual scale factors composed, rounded once. -/
def composeCorrection (learned manual : Int) : Option Int :=
  if learned.natAbs > 100000 ∨ manual.natAbs > 100000 then none
  else
    let product := learned * manual
    let residual := if product ≥ 0 then (product + 500000000) / 1000000000
      else -((-product + 500000000) / 1000000000)
    let value := learned + manual + residual
    if value.natAbs > 100000 then none else some value

/-! ## The policy -/

/-- `hardware::PinPlan::Engine`. -/
inductive PinEngine where
  | direct | i2c

structure GpsPolicy where
  enabled : Bool := false
  pairingQualified : Bool := false
  automaticRfCalibration : Bool := false
  calibrationMaximumAgeS : UInt32 := 3600

structure Si5351Policy where
  manualCorrectionPpb : Int := 0
  automaticCalibration : Bool := false

/-- The members of `Config` that the policy reads. -/
structure PolicyConfig where
  manualCorrectionPpb : Int := 0
  si5351 : Option Si5351Policy := none
  gps : Option GpsPolicy := none
  allowUnqualifiedFrequency : Bool := false
  allowNonAmateurFrequency : Bool := false

/-- What the policy reads of the store. -/
structure StoreView where
  healthy : Bool := false
  config : Option PolicyConfig := none
  configSequence : UInt64 := 0

/-- The arguments of the last `gps_calibration` call. -/
structure GpsInput where
  calibration : Option Calibration := none
  now : UInt64 := 0
  clockBound : Bool := false
  disagreement : Bool := false

structure Selection where
  ppb : Int := 0
  generation : UInt64 := 0
  valid : Bool := true
  automatic : Bool := false
  observedRawNs : UInt64 := 0
  uncertaintyPpb : UInt32 := 0

structure FrequencyPolicyEngine where
  frozen : Option Selection := none
  pairFrozen : Bool := false
  programmed : Option Int := none
  gps : GpsInput := {}

/-- The engines with the store the policy reads. -/
structure Board (ε : Type) where
  policy : FrequencyPolicyEngine
  engine : Engine ε
  store : StoreView

/-- The inner engine's wiring and the constants of the policy. -/
structure PolicyWiring (ε : Type) where
  inner : Wiring ε
  minimumNhz : UInt64
  maximumNhz : UInt64
  bootFilters : FilterSettings
  bootEngine : PinEngine

abbrev BoardM (ε : Type) := StateM (Board ε)

variable {ε α : Type}

namespace BoardM

def board : BoardM ε (Board ε) := fun b => (b, b)

def onPolicy (f : FrequencyPolicyEngine → FrequencyPolicyEngine) : BoardM ε Unit := fun b =>
  ((), { b with policy := f b.policy })

/-- A call of the inner engine. -/
def onEngine (m : StreamM ε α) : BoardM ε α := fun b =>
  ((m b.engine).1, { b with engine := (m b.engine).2 })

end BoardM

namespace PolicyWiring

open BoardM

variable (wiring : PolicyWiring ε)

/-- `allowed` of `prepare`. -/
def allowed (store : StoreView) (frequency : UInt64) : Bool :=
  let unqualified := store.healthy && store.config.any (·.allowUnqualifiedFrequency)
  let nonAmateur := store.healthy && store.config.any (·.allowNonAmateurFrequency)
  decide (frequency ≥ wiring.minimumNhz ∧ frequency ≤ wiring.maximumNhz) &&
    frequencyAllowed frequency unqualified nonAmateur

/-- The correction saved for the engine in use. -/
def manualPpb (config : PolicyConfig) : Int :=
  match wiring.bootEngine with
  | .direct => config.manualCorrectionPpb
  | .i2c => (config.si5351.map (·.manualCorrectionPpb)).getD 0

/-- The saved configuration selects automatic correction. -/
def automatic (config : PolicyConfig) : Bool :=
  match wiring.bootEngine with
  | .direct => config.gps.any (·.automaticRfCalibration)
  | .i2c => config.si5351.any (·.automaticCalibration)

/-- The GPS calibration that automatic correction may use. -/
def usableCalibration (config : PolicyConfig) (input : GpsInput) : Option Calibration := do
  let gps ← config.gps
  let calibration ← input.calibration
  if gps.enabled && gps.pairingQualified && input.clockBound && !input.disagreement &&
      calibration.fresh input.now (gps.calibrationMaximumAgeS.toUInt64 * gpsSecond) then
    return calibration
  else none

def selection (store : StoreView) (input : GpsInput) : Selection :=
  match store.config with
  | none => {}
  | some config =>
    let manual : Selection :=
      { ppb := wiring.manualPpb config, generation := store.configSequence }
    if !wiring.automatic config then manual
    else
      match usableCalibration config input with
      | none => { manual with automatic := true, valid := false }
      | some calibration =>
        match composeCorrection calibration.oscillatorErrorPpb manual.ppb with
        | none => { manual with automatic := true, valid := false }
        | some ppb =>
          { ppb := ppb
            generation := calibration.generation
            automatic := true
            observedRawNs := calibration.observedRawNs
            uncertaintyPpb := calibration.uncertaintyAt input.now }

/-- `pair_frozen_ && frozen_ ? *frozen_ : selection()`. -/
def selected (b : Board ε) : Selection :=
  if b.policy.pairFrozen then b.policy.frozen.getD (wiring.selection b.store b.policy.gps)
  else wiring.selection b.store b.policy.gps

/-- The store is healthy and every requested frequency is allowed. -/
def requestsAllowed (store : StoreView) (job : Job) : Bool :=
  store.healthy && job.events.events.all fun event =>
    !event.rfOn || event.frequencyNhz.any (wiring.allowed store)

/-- `programmed_ == ppb || engine_.set_frequency_correction_ppb(ppb)`. -/
def program (ppb : Int) : BoardM ε Bool := do
  let b ← board
  if b.policy.programmed = some ppb then
    return true
  if !(← onEngine (wiring.inner.setFrequencyCorrectionPpb ppb)) then
    return false
  onPolicy fun p => { p with programmed := some ppb }
  return true

/-- The programmed frequency of event `index` under `adjustments`. -/
def programmedAt (adjustments : List FrequencyAdjustment) (index : Nat) (nominal : UInt64) :
    UInt64 :=
  ((adjustments.filter (·.eventIndex = index)).getLast?.map (·.realizedFrequencyNhz)).getD nominal

/-- The checks of the realized frequencies. -/
def realizedAllowed (store : StoreView) (job : Job) (adjustments : List FrequencyAdjustment) :
    Bool :=
  (coverEvents wiring.bootFilters (programmedAt adjustments) 0 job.events.events {}).selection
      wiring.bootFilters ≠ -2 &&
    adjustments.all fun adjustment => wiring.allowed store adjustment.realizedFrequencyNhz

/-- The checks of `prepare` before it programs the correction. -/
def admitted (b : Board ε) (job : Job) : Bool :=
  wiring.requestsAllowed b.store job && (wiring.selected b).valid &&
    ((wiring.selected b).ppb = 0 || job.allowFrequencyAdjustment)

def prepare (job : Job) : BoardM ε PrepareResult := do
  let b ← board
  if !wiring.admitted b job then
    return {}
  let selected := wiring.selected b
  if !(← wiring.program selected.ppb) then
    return {}
  let prepared ← onEngine (wiring.inner.prepare job)
  if !prepared.accepted then
    return prepared
  if !wiring.realizedAllowed b.store job prepared.adjustments then
    return {}
  onPolicy fun p => { p with frozen := some selected }
  return prepared

/-! ## The engine of `JobService` -/

/-- A command of the inner engine that needs a healthy store. -/
def whileHealthy (m : StreamM ε Bool) : BoardM ε Bool := do
  if !(← board).store.healthy then
    return false
  onEngine m

def query (f : ε → α × ε) : BoardM ε α := onEngine (StreamM.onDevice f)

def calibrationBoundary (b : Board ε) : Board ε :=
  { b with policy := { b.policy with frozen := none, pairFrozen := false } }

def rfEngine : RfEngine (Board ε) where
  filterPreparationNs _ := wiring.inner.filterPreparationNs
  amplifierLeadNs b := wiring.inner.sink.amplifierLeadNs b.engine.hardware.device
  amplifierTailNs b := wiring.inner.sink.amplifierTailNs b.engine.hardware.device
  startResolutionNs b := wiring.inner.sink.startResolutionNs b.engine.hardware.device
  completionAcknowledgementNs b :=
    if wiring.inner.sink.schedulesLocally b.engine.hardware.device then 100000 else 0
  schedulesLocally b := wiring.inner.sink.schedulesLocally b.engine.hardware.device
  ownsExecutionPlan _ := true
  externallyControlledCompletion _ := false
  preparationMemoryBytes job _ := Wiring.preparationMemoryBytes job
  prepare := wiring.prepare
  schedule job startNs conditions := whileHealthy (wiring.inner.schedule job startNs conditions)
  begin job startNs := whileHealthy (wiring.inner.begin job startNs)
  poll nowNs := onEngine (wiring.inner.poll nowNs)
  disable deadlineNs := onEngine (wiring.inner.disable deadlineNs)
  inhibitOutput := id
  calibrationBoundary := calibrationBoundary
  setFrequencyCorrectionPpb _ b := (false, b)
  executionStarted := query wiring.inner.sink.executionStarted
  outputActive := query wiring.inner.sink.outputActive

end PolicyWiring

/-- The device-side environment of `JobService`: its identity source, its memory
budget and the provenance callback. The clock is the one of the sink. -/
structure Surroundings (ε : Type) where
  newBootId : ε → String × ε
  memoryAdmitted : Nat → ε → Bool × ε
  armObserver : Job → ArmBody → ClockSnapshot → String → ε → ε

def PolicyWiring.env (wiring : PolicyWiring ε) (around : Surroundings ε) : Env (Board ε) where
  engine := wiring.rfEngine
  snapshot := PolicyWiring.query wiring.inner.sink.snapshot
  newBootId := PolicyWiring.query around.newBootId
  memoryAdmitted bytes := PolicyWiring.query (around.memoryAdmitted bytes)
  armObserver job body now principal b :=
    (PolicyWiring.query (fun d => ((), around.armObserver job body now principal d)) b).2

/-! ## What a preparation leaves -/

section

variable {wiring : PolicyWiring ε} {b : Board ε}

/-- The board with the device in state `d`. -/
def Board.withDevice (b : Board ε) (d : ε) : Board ε := { b with engine := b.engine.withDevice d }

/-- The board with correction `ppb` programmed and the device in state `d`. -/
def Board.tuned (b : Board ε) (ppb : Int) (d : ε) : Board ε :=
  { b with
    policy := { b.policy with programmed := some ppb }
    engine := ⟨{ b.engine.stream with correctionPpb := ppb },
      { b.engine.hardware with device := d }⟩ }

/-- The programmed correction is the one the inner engine has. -/
def Board.Tuned (b : Board ε) : Prop :=
  ∀ ppb, b.policy.programmed = some ppb → b.engine.stream.correctionPpb = ppb

/-- The correction may become `ppb`: it is programmed or no job is held. -/
def Board.Tunable (b : Board ε) (ppb : Int) : Prop :=
  b.policy.programmed = some ppb ∨ b.engine.stream.job = none

/-- The inner engine accepts `job`, and the policy refuses what it made of it. -/
structure PolicyWiring.Late (wiring : PolicyWiring ε) (b : Board ε) (job : Job) : Prop where
  admitted : wiring.admitted b job = true
  tunable : b.Tunable (wiring.selected b).ppb
  idle : b.engine.stream.state = .idle
  refused : ∃ plan, wiring.inner.rate.planJob job (wiring.selected b).ppb = some plan ∧
    wiring.inner.filterAccepts b.engine.hardware.selector job plan = true ∧
    wiring.realizedAllowed b.store job
      (wiring.inner.rate.adjustments 0 job.events.events plan.segments) = false

theorem Board.tuned_eq {ppb : Int} {d : ε} (htuned : b.Tuned)
    (h : b.policy.programmed = some ppb) : b.tuned ppb d = b.withDevice d := by
  have hcorrection := htuned ppb h
  obtain ⟨⟨frozen, pairFrozen, programmed, gps⟩, ⟨stream, hardware⟩, store⟩ := b
  simp only at h hcorrection
  subst hcorrection h
  rfl

variable (wiring) in
theorem program_cases (htuned : b.Tuned) (ppb : Int) : ∃ d,
    wiring.program ppb b = (false, b.withDevice d) ∨
    b.Tunable ppb ∧ wiring.program ppb b = (true, b.tuned ppb d) := by
  by_cases hprogrammed : b.policy.programmed = some ppb
  · refine ⟨b.engine.hardware.device, .inr ⟨.inl hprogrammed, ?_⟩⟩
    rw [Board.tuned_eq htuned hprogrammed]
    simp [PolicyWiring.program, bind, StateT.bind, BoardM.board, hprogrammed, Board.withDevice,
      Engine.withDevice]
    rfl
  obtain ⟨d, hset | ⟨hjob, -, hset⟩⟩ :=
    setFrequencyCorrectionPpb_cases wiring.inner b.engine ppb
  · refine ⟨d, .inl ?_⟩
    simp [PolicyWiring.program, bind, StateT.bind, BoardM.board, hprogrammed, BoardM.onEngine, hset,
      Board.withDevice]
    rfl
  · refine ⟨d, .inr ⟨.inr hjob, ?_⟩⟩
    simp [PolicyWiring.program, bind, StateT.bind, BoardM.board, hprogrammed, BoardM.onEngine, hset,
      Board.tuned, BoardM.onPolicy, Rf.pure_at]

/-- What `prepare` leaves when it does not disturb the job the engine holds. -/
def Board.Undisturbed (b b' : Board ε) : Prop :=
  (∃ d, b' = b.withDevice d) ∨ b.engine.stream.job = none ∧ ∃ ppb d, b' = b.tuned ppb d

/-- The board that holds `job` as `plan`, under the selected correction. -/
def PolicyWiring.holding (wiring : PolicyWiring ε) (b : Board ε) (job : Job) (plan : Plan)
    (hardware : Hardware ε) : Board ε :=
  { b with
    policy := { b.policy with
      programmed := some (wiring.selected b).ppb, frozen := some (wiring.selected b) }
    engine := ⟨({ b.engine.stream with correctionPpb := (wiring.selected b).ppb }).hold
      (jobDigest job) plan, hardware⟩ }

variable (wiring) in
theorem PolicyWiring.prepare_cases (htuned : b.Tuned) (job : Job) :
    (∃ b', wiring.prepare job b = ({}, b') ∧ b.Undisturbed b') ∨
    (wiring.Late b job ∧ ∃ b', wiring.prepare job b = ({}, b') ∧ b'.Tuned) ∨
    ∃ plan hardware, wiring.inner.rate.planJob job (wiring.selected b).ppb = some plan ∧
      b.engine.stream.state = .idle ∧ wiring.prepare job b =
        ({ accepted := true
           adjustments := wiring.inner.rate.adjustments 0 job.events.events plan.segments },
          wiring.holding b job plan hardware) := by
  by_cases hadmitted : wiring.admitted b job = true
  case neg =>
    refine .inl ⟨b, ?_, .inl ⟨b.engine.hardware.device, rfl⟩⟩
    simp [PolicyWiring.prepare, bind, StateT.bind, BoardM.board, hadmitted]
    rfl
  obtain ⟨d, hprogram | ⟨htunable, hprogram⟩⟩ :=
    program_cases wiring htuned (wiring.selected b).ppb
  · refine .inl ⟨b.withDevice d, ?_, .inl ⟨d, rfl⟩⟩
    simp [PolicyWiring.prepare, bind, StateT.bind, BoardM.board, hadmitted, hprogram]
    rfl
  obtain ⟨d', hinner⟩ | ⟨plan, selector, d', hidle, hplan, hfilter, hinner⟩ :=
    Rf.prepare_cases wiring.inner (b.tuned (wiring.selected b).ppb d).engine job
  · refine .inl ⟨(b.tuned (wiring.selected b).ppb d).withDevice d', ?_, ?_⟩
    · simp [PolicyWiring.prepare, bind, StateT.bind, BoardM.board, hadmitted, hprogram,
        BoardM.onEngine, hinner, Board.withDevice]
      rfl
    · rcases htunable with hprogrammed | hjob
      · exact .inl ⟨d', by rw [Board.tuned_eq htuned hprogrammed]; rfl⟩
      · exact .inr ⟨hjob, _, d', rfl⟩
  cases hrealized : wiring.realizedAllowed b.store job
      (wiring.inner.rate.adjustments 0 job.events.events plan.segments) with
  | false =>
    refine .inr (.inl ⟨⟨hadmitted, htunable, hidle, plan, hplan, hfilter, hrealized⟩,
      { b.tuned (wiring.selected b).ppb d with
        engine := ⟨(b.tuned (wiring.selected b).ppb d).engine.stream.hold (jobDigest job) plan,
          ⟨selector, d'⟩⟩ }, ?_, fun ppb h => Option.some.inj h⟩)
    simp [PolicyWiring.prepare, bind, StateT.bind, BoardM.board, hadmitted, hprogram,
      BoardM.onEngine, hinner, hrealized]
    rfl
  | true =>
    refine .inr (.inr ⟨plan, ⟨selector, d'⟩, hplan, hidle, ?_⟩)
    simp [PolicyWiring.prepare, bind, StateT.bind, BoardM.board, hadmitted, hprogram,
      BoardM.onEngine, hinner, hrealized, BoardM.onPolicy, PolicyWiring.holding]
    rfl

end

end WsprryPico.Standalone
