import WsprryPico.Wtp.Engine
import WsprryPico.Wtp.Sha256

/-!
# `JobService`

The member functions of `wtp/job_service.cpp` as computations over `AuthM`
(authority state) and `SysM` (with the session table and the replay cache). An
early return of the source is an early return here, and a `||` or `&&` whose
right operand calls the engine or the clock is an early return too.
-/

namespace WsprryPico.Wtp

open Time AuthM SysM

variable {ω : Type} (env : Env ω)

/-! ## Replies and shared steps -/

def reject (code : ErrorCode) : AuthM ω Response := do
  let active ← outputActive env
  let a ← auth
  return { error := code, state := a.state, outputActive := active, bootId := a.bootId }

def success : AuthM ω Response := do
  let active ← outputActive env
  let a ← auth
  return { ok := true, state := a.state, outputActive := active, bootId := a.bootId }

def retainedLoadResponse (a : Authority) (retained : RetainedJob) : Response :=
  { ok := true
    state := .loaded
    bootId := a.bootId
    jobId := retained.jobId
    outputActive := retained.loadOutputActive
    adjustments := retained.adjustments }

def armResponse (a : Authority) (jobId : String) (arm : ArmRecord) : Response :=
  { ok := true
    state := .armed
    bootId := a.bootId
    jobId := jobId
    startMonotonicNs := arm.startMonotonicNs
    startUtcNs := arm.startUtcNs
    clockSnapshot := some arm.clockSnapshot }

/-- `engine_.disable(deadline) && !engine_.output_active()`. -/
def stoppedBy (deadlineNs : UInt64) : AuthM ω Bool := do
  if !(← disable env deadlineNs) then
    return false
  return !(← outputActive env)

def stopped (nowNs : UInt64) : AuthM ω Bool := do
  let a ← auth
  stoppedBy env (saturatingAdd nowNs a.config.outputDisableTimeoutNs)

/-- `owner_.reset(); engine_.calibration_boundary()`. -/
def dropOwner : AuthM ω Unit := do
  modifyAuth fun a => { a with owner := none }
  calibrationBoundary env

/-- `record_terminal` up to the trimming of the history. -/
def pushTerminal (state : State) (error : ErrorCode) (nowNs : UInt64) : AuthM ω Unit := do
  modifyAuth fun a => { a with state := state }
  let a ← auth
  let active ← outputActive env
  let jobId := (a.job.map (·.jobId)).getD ""
  modifyAuth fun a =>
    { a with terminalRecords := ⟨jobId, state, nowNs, active, error⟩ :: a.terminalRecords }
  emit (.terminal jobId state)
  if let some job := a.job then
    let loadActive ← outputActive env
    modifyAuth fun a =>
      { a with
        retainedJobs := ⟨job.jobId, a.jobDigest, a.adjustments, loadActive, a.arm⟩ ::
          a.retainedJobs }
    if state = .complete then
      modifyAuth Authority.clearEvents
  modifyAuth fun a =>
    a.trimTerminals (a.terminalRecords.length - a.config.terminalRecordEntries)

/-- The end of `record_terminal`. -/
def releaseOwner : AuthM ω Unit := do
  if (← auth).owner.any (·.releaseAfterTerminal) then
    dropOwner env

def recordTerminal (state : State) (error : ErrorCode) (nowNs : UInt64) : AuthM ω Unit := do
  pushTerminal env state error nowNs
  releaseOwner env

def releaseExecutionInput : AuthM ω Unit := do
  if ← constant env.engine.ownsExecutionPlan then
    modifyAuth Authority.clearEvents

/-- Stop the engine and record `state`/`error`, or `Failed` when the stop is not
confirmed; whether it was. -/
def halt (state : State) (error : ErrorCode) (nowNs : UInt64) : AuthM ω Bool := do
  if ← stopped env nowNs then
    recordTerminal env state error nowNs
    return true
  else
    recordTerminal env .failed .outputStateUnknown nowNs
    return false

def stopAndRecord (state : State) (error : ErrorCode) (nowNs : UInt64) : AuthM ω Unit := do
  let _ ← halt env state error nowNs

def expireResources (monotonicNowNs : UInt64) : AuthM ω Unit := do
  let a ← auth
  let some owner := a.owner | return
  if monotonicNowNs < owner.expiresMonotonicNs then
    return
  if a.state = .armed ∨ a.state = .running then
    modifyAuth fun a => { a with owner := some { owner with releaseAfterTerminal := true } }
    return
  if a.state = .loaded then
    if !(← halt env .aborted .none monotonicNowNs) then
      dropOwner env
      return
    modifyAuth Authority.clearJob
  dropOwner env

def maintenance : AuthM ω Bool := do
  let a ← auth
  if a.updateVerification then
    return true
  if a.maintenanceDeadlineNs = 0 then
    return false
  return (← snapshot env).monotonicNowNs < a.maintenanceDeadlineNs

def activity : AuthM ω ServiceActivity := do
  let a ← auth
  let active ← outputActive env
  if a.state = .armed && active && a.job.isSome && a.arm.any (·.scheduledLocally) then
    if ← query env.engine.executionStarted then
      return ⟨.running, active, a.owner.isSome⟩
  return ⟨a.state, active, a.owner.isSome⟩

def status (history : Bool := true) : AuthM ω ServiceStatus := do
  let current ← activity env
  let a ← auth
  return {
    bootId := a.bootId
    state := current.state
    outputActive := current.outputActive
    ownerId := a.owner.map (·.ownerId)
    jobId := a.job.map (·.jobId)
    terminalRecords := if history then a.terminalRecords else [] }

/-! ## Dispatch -/

/-- `status_snapshot` of the answer to a read. -/
def statusFor (request : Request) : AuthM ω (Option ServiceStatus) := do
  if request.operation = .status then
    return some (← status env)
  return none

def dispatchRead (request : Request) (now : ClockSnapshot) : AuthM ω Response := do
  let emptyBody := decide (request.body = .monostate)
  let pingToken : Option (Option String) :=
    match request.body with
    | .ping token => some token
    | _ => none
  let validPing := request.operation = .ping && (emptyBody ||
    pingToken.any fun token => token.all (·.utf8ByteSize ≤ 64))
  if request.operation ≠ .hello && request.operation ≠ .ping && !emptyBody then
    return ← reject env .invalidMessage
  if request.operation = .ping && !validPing then
    return ← reject env .invalidMessage
  let response ← success env
  let statusSnapshot ← statusFor env request
  return { response with
    statusSnapshot := statusSnapshot
    clockSnapshot := if request.operation = .getClock then some now else none
    pingToken := pingToken.getD none }

def leaseExpiry (now : ClockSnapshot) (leaseMs : UInt32) : UInt64 :=
  saturatingAdd now.monotonicNowNs (leaseMs.toUInt64 * 1000000)

def leaseInRange (leaseMs : UInt32) : Bool := 5000 ≤ leaseMs ∧ leaseMs ≤ 60000

def dispatchClaim (request : Request) (now : ClockSnapshot) : AuthM ω Response := do
  let .claim ownerId leaseMs := request.body | reject env .invalidMessage
  if !validId ownerId || !leaseInRange leaseMs then
    return ← reject env .invalidMessage
  if (← auth).owner.isSome then
    return ← reject env .busy
  calibrationBoundary env
  let expires := leaseExpiry now leaseMs
  modifyAuth fun a =>
    { a with owner := some ⟨ownerId, request.sessionId, request.principal, expires, false⟩ }
  return { ← success env with
    ownerId := ownerId, grantedLeaseMs := leaseMs, expiresMonotonicNs := expires }

def dispatchRenew (request : Request) (now : ClockSnapshot) (owner : Owner) :
    AuthM ω Response := do
  let .renew ownerId leaseMs := request.body | reject env .invalidMessage
  if !validId ownerId || !leaseInRange leaseMs then
    return ← reject env .invalidMessage
  if ownerId ≠ owner.ownerId then
    return ← reject env .notOwner
  if owner.releaseAfterTerminal then
    return ← reject env .leaseExpired
  let expires := leaseExpiry now leaseMs
  modifyAuth fun a => { a with owner := some { owner with expiresMonotonicNs := expires } }
  return { ← success env with
    ownerId := owner.ownerId, grantedLeaseMs := leaseMs, expiresMonotonicNs := expires }

def dispatchRelease (request : Request) : AuthM ω Response := do
  if request.body ≠ .monostate then
    return ← reject env .invalidMessage
  let a ← auth
  if a.state = .armed ∨ a.state = .running ∨ a.state = .failed then
    return ← reject env .invalidState
  modifyAuth Authority.clearJob
  dropOwner env
  success env

def heldLoadResponse (jobId : String) : AuthM ω Response := do
  let response ← success env
  return { response with state := .loaded, jobId := jobId, adjustments := (← auth).adjustments }

def dispatchLoadReplay (jobId : String) (digest : PayloadDigest) : AuthM ω Response := do
  if (← outputActive env) || (← auth).state = .failed then
    return ← reject env .invalidState
  let a ← auth
  if let some retained := a.findRetained jobId then
    if retained.digest ≠ digest then
      return ← reject env .jobIdConflict
    modifyAuth (·.touchTerminal jobId)
    return retainedLoadResponse a retained
  if a.job.map (·.jobId) ≠ some jobId then
    return ← reject env .invalidState
  if a.jobDigest ≠ digest then
    return ← reject env .jobIdConflict
  heldLoadResponse env jobId

/-- The check LOAD makes of the adjustments an engine returned: each names a
keyed event once, at its requested frequency, with a realized one. -/
def adjustmentsValid (events : List RfEvent) : List FrequencyAdjustment → List FrequencyAdjustment →
    Bool
  | _, [] => true
  | prior, adjustment :: rest =>
    let duplicate := prior.any (·.eventIndex = adjustment.eventIndex)
    if adjustment.eventIndex ≥ events.length ∨
        (events[adjustment.eventIndex]?.bind (·.frequencyNhz)) ≠
          some adjustment.requestedFrequencyNhz ∨
        adjustment.realizedFrequencyNhz = 0 ∨ duplicate then false
    else adjustmentsValid events (prior ++ [adjustment]) rest

/-- The accepted job becomes the held one. Equal adjustment lists are shared
with a retained job, which changes no value. -/
def Authority.load (job : Job) (digest : PayloadDigest) (adjustments : List FrequencyAdjustment)
    (a : Authority) : Authority :=
  { a with
    job := some job
    jobDigest := digest
    adjustments :=
      match a.retainedJobs.find? (·.adjustments = adjustments) with
      | some identical => identical.adjustments
      | none => adjustments
    arm := none
    state := .loaded }

/-- LOAD from the engine's preparation on. -/
def prepareLoad (job : Job) : AuthM ω Response := do
  let preparation ← prepare env job
  if !preparation.accepted then
    return ← reject env .frequencyRejected
  if !job.allowFrequencyAdjustment && !preparation.adjustments.isEmpty then
    return ← reject env .frequencyRejected
  if !adjustmentsValid job.events.events [] preparation.adjustments then
    return ← reject env .deviceFault
  modifyAuth (·.load job (jobDigest job) preparation.adjustments)
  heldLoadResponse env job.jobId

def dispatchLoadJob (job : Job) : AuthM ω Response := do
  if ← outputActive env then
    return ← reject env .invalidState
  let a ← auth
  if a.state = .failed then
    return ← reject env .invalidState
  if let some retained := a.findRetained job.jobId then
    if retained.digest ≠ jobDigest job then
      return ← reject env .jobIdConflict
    modifyAuth (·.touchTerminal job.jobId)
    return retainedLoadResponse a retained
  if a.job.map (·.jobId) = some job.jobId then
    if a.jobDigest = jobDigest job then
      return ← heldLoadResponse env job.jobId
    return ← reject env .jobIdConflict
  if a.state = .armed ∨ a.state = .running then
    return ← reject env .invalidState
  let error := validateJob a.config job
  if error ≠ .none then
    return ← reject env error
  let bytes ← constant (env.engine.preparationMemoryBytes job)
  if !(← query (env.memoryAdmitted bytes)) then
    return ← reject env .internalError
  if !job.events.valid then
    return ← reject env .internalError
  prepareLoad env job

def dispatchLoad (request : Request) : AuthM ω Response :=
  match request.body with
  | .loadReplay jobId digest => dispatchLoadReplay env jobId digest
  | .job job => dispatchLoadJob env job
  | _ => reject env .invalidMessage

/-- `state_ = Armed; arm_ = arm`. -/
def Authority.armWith (arm : ArmRecord) (a : Authority) : Authority :=
  { a with state := .armed, arm := some arm }

/-- `!scheduled || engine_.output_active()`. -/
def scheduleFailed (scheduled : Bool) : AuthM ω Bool := do
  if !scheduled then
    return true
  outputActive env

/-- The start conditions ARM hands to a local engine. -/
def localConditions (config : ServiceConfig) (body : ArmBody) : LocalStartConditions :=
  { clock := true
    startUtcNs := body.startUtcNs
    maximumUncertaintyNs := min body.maxStartUncertaintyNs config.maximumArmUncertaintyNs
    maximumHoldoverAgeNs := config.maximumHoldoverAgeNs }

/-- The end of an ARM the engine did not take. -/
def armFailed (now : ClockSnapshot) : AuthM ω Response := do
  modifyAuth fun a => { a with arm := none }
  let error := if ← stopped env now.monotonicNowNs then ErrorCode.deviceFault
    else .outputStateUnknown
  recordTerminal env .failed error now.monotonicNowNs
  reject env error

/-- The local half of ARM: hand the start to the engine, or fail the job. -/
def armLocally (request : Request) (body : ArmBody) (job : Job) (now : ClockSnapshot)
    (arm : ArmRecord) (response : Response) : AuthM ω Response := do
  let a ← auth
  let scheduled ← schedule env job arm.startMonotonicNs (localConditions a.config body)
  if ← scheduleFailed env scheduled then
    return ← armFailed env now
  query fun w => ((), env.armObserver job body now request.principal w)
  releaseExecutionInput env
  return response

/-- The answer to a repeated ARM of the held job. -/
def Authority.heldArm (a : Authority) (body : ArmBody) : Option (Except ErrorCode Response) :=
  match a.arm with
  | none => none
  | some arm =>
    if a.job.map (·.jobId) ≠ some body.jobId then none
    else if arm.startUtcNs = body.startUtcNs ∧ arm.maxUncertaintyNs = body.maxStartUncertaintyNs then
      some (.ok (armResponse a body.jobId arm))
    else if a.state = .armed ∨ a.state = .running then some (.error .armConflict)
    else none

def armLoaded (request : Request) (body : ArmBody) (now : ClockSnapshot) : AuthM ω Response := do
  let a ← auth
  let some job := a.job | reject env .jobNotFound
  if job.jobId ≠ body.jobId then
    return ← reject env .jobNotFound
  if a.state ≠ .loaded then
    return ← reject env .invalidState
  if ← outputActive env then
    return ← reject env .invalidState
  let resolution ← constant env.engine.startResolutionNs
  match validateArm a.config job resolution body now with
  | .error error => reject env error
  | .ok startMonotonicNs =>
    let locally ← constant env.engine.schedulesLocally
    let arm : ArmRecord :=
      { startUtcNs := body.startUtcNs
        maxUncertaintyNs := body.maxStartUncertaintyNs
        startMonotonicNs := startMonotonicNs
        clockSnapshot := now
        scheduledLocally := locally }
    modifyAuth (Authority.armWith arm)
    let response := armResponse a job.jobId arm
    if locally then
      armLocally env request body job now arm response
    else
      query fun w => ((), env.armObserver job body now request.principal w)
      return response

def dispatchArm (request : Request) (now : ClockSnapshot) : AuthM ω Response := do
  let .arm body := request.body | reject env .invalidMessage
  if !validId body.jobId then
    return ← reject env .invalidMessage
  let a ← auth
  if let some retained := a.findRetained body.jobId then
    let some arm := retained.arm | return ← reject env .invalidState
    if arm.startUtcNs ≠ body.startUtcNs ∨ arm.maxUncertaintyNs ≠ body.maxStartUncertaintyNs then
      return ← reject env .invalidState
    modifyAuth (·.touchTerminal body.jobId)
    return armResponse a retained.jobId arm
  match a.heldArm body with
  | some (.ok response) => return response
  | some (.error error) => reject env error
  | none => armLoaded env request body now

def abortJob (jobId : String) : AuthM ω Response := do
  let now ← snapshot env
  let a ← auth
  if a.job.map (·.jobId) ≠ some jobId then
    return ← reject env .jobNotFound
  if a.state = .aborted then
    emit (.abortAccepted jobId)
    return { ← success env with state := .aborted, jobId := jobId }
  if a.state = .complete ∨ a.state = .missed then
    return ← reject env .invalidState
  if a.state = .failed then
    return ← reject env .outputStateUnknown
  if !(← halt env .aborted .none now.monotonicNowNs) then
    return ← reject env .outputStateUnknown
  emit (.abortAccepted jobId)
  return { ← success env with state := .aborted, jobId := jobId }

def dispatchAbort (request : Request) : AuthM ω Response := do
  let .abort jobId := request.body | reject env .invalidMessage
  if !validId jobId then
    return ← reject env .invalidMessage
  abortJob env jobId

/-- The body alternative an owner operation requires. -/
def ownerBody (operation : Operation) (body : RequestBody) : Bool :=
  match operation, body with
  | .renew, .renew .. => true
  | .release, .monostate => true
  | .load, .job _ => true
  | .load, .loadReplay .. => true
  | .arm, .arm _ => true
  | .abort, .abort _ => true
  | _, _ => false

def dispatch (request : Request) : AuthM ω Response := do
  let now ← snapshot env
  if request.operation = .unknown then
    return ← reject env .unknownOperation
  if !request.bodyValid then
    return ← reject env .invalidMessage
  if request.operation ∈ [.hello, .caps, .status, .getClock, .ping] then
    return ← dispatchRead env request now
  if request.operation = .claim then
    return ← dispatchClaim env request now
  if !ownerBody request.operation request.body then
    return ← reject env .invalidMessage
  let a ← auth
  let some owner := a.owner | reject env .leaseExpired
  if !a.owns request then
    return ← reject env .notOwner
  match request.operation with
  | .renew => dispatchRenew env request now owner
  | .release => dispatchRelease env request
  | .load => dispatchLoad env request
  | .arm => dispatchArm env request now
  | _ => dispatchAbort env request

/-! ## Request entry -/

/-- The expiries at the entry of `handle_owned` and `poll`. -/
def expire (nowNs : UInt64) : SysM ω Unit := do
  onAuthority (expireResources env nowNs)
  let a ← onAuthority auth
  modifyTransport (Transport.pruneReplay a.config nowNs)
  onAuthority (modifyAuth (Authority.pruneTerminals nowNs))
  let a ← onAuthority auth
  modifyTransport (Transport.pruneSessions a.config a.owner nowNs)
  onAuthority (emit (.expired nowNs))

/-- The operations that could lead to a transmission. -/
def Operation.gated (operation : Operation) : Bool :=
  operation ∈ [Operation.claim, .renew, .load, .arm]

/-- `output_inhibited_ || maintenance()`. -/
def blocked : AuthM ω Bool := do
  if (← auth).outputInhibited then
    return true
  maintenance env

/-- The HELLO body checks, before the session table is read. -/
def helloError (body : RequestBody) : Option (ErrorCode × Bool) :=
  match body with
  | .hello versions =>
    if versions.isEmpty ∨ versions.length > 16 ∨ !versions.all validProtocolVersion ∨
        ¬ versions.Nodup then some (.invalidMessage, false)
    else if "WTP/1" ∉ versions then some (.unsupportedVersion, true)
    else none
  | _ => some (.invalidMessage, false)

/-- The session step of `handle_owned`: an error, or the refreshed table. -/
def admitSession (request : Request) (nowNs : UInt64) (t : Transport) :
    Except (ErrorCode × Bool) Transport :=
  match if request.operation = .hello then helloError request.body else none with
  | some error => .error error
  | none =>
    match t.findSession request.sessionId with
    | some session =>
      if session.principal ≠ request.principal then .error (.authenticationRequired, false)
      else .ok { t with sessions := Transport.seen nowNs request.sessionId t.sessions }
    | none =>
      if request.operation ≠ .hello then .error (.helloRequired, false)
      else if !request.bodyValid then .error (.invalidMessage, false)
      else if t.sessions.length ≥ 16 then .error (.busy, false)
      else .ok { t with
        sessions := t.sessions ++ [⟨request.sessionId, request.principal, nowNs⟩] }

/-- The envelope checks of `handle_owned` that read only the request. -/
def envelopeError (request : Request) : Option (ErrorCode × Bool) :=
  if !validId request.sessionId || !validId request.requestId ||
      request.payloadDigest = .zero then some (.invalidMessage, false)
  else if request.principal = "" then some (.authenticationRequired, false)
  else if request.protocol ≠ "WTP/1" then some (.unsupportedVersion, true)
  else none

def rejectWith (code : ErrorCode) (close : Bool) : SysM ω Response := do
  return { ← onAuthority (reject env code) with closeConnection := close }

/-- `if (retain_response) remember(...)`. -/
def retain (retainResponse : Bool) (request : Request) (response : Response) (nowNs : UInt64) :
    SysM ω Unit := do
  if retainResponse then
    onAuthority (emit (.retained request response))
    let a ← onAuthority auth
    modifyTransport (Transport.remember a.config request response nowNs)

/-- The entry of `handle_owned` and `poll`: a snapshot and the expiries at it. -/
def enter : SysM ω ClockSnapshot := do
  let now ← onAuthority (snapshot env)
  expire env now.monotonicNowNs
  return now

/-- `handle_owned` after its expiries. -/
def respond (request : Request) (retainResponse : Bool)
    (now : ClockSnapshot) : SysM ω Response := do
  if !(← onAuthority auth).ready then
    return ← rejectWith env .deviceFault false
  if let some (code, close) := envelopeError request then
    return ← rejectWith env code close
  if (← onAuthority (blocked env)) && request.operation.gated then
    return ← rejectWith env .busy false
  match admitSession request now.monotonicNowNs (← transport) with
  | .error (code, close) => rejectWith env code close
  | .ok t =>
    modifyTransport fun _ => t
    let (found, t') := Transport.replay request t
    modifyTransport fun _ => t'
    match found with
    | .cached response => return response
    | .conflict => rejectWith env .requestIdReuse true
    | .absent =>
      let response ← onAuthority (dispatch env request)
      retain retainResponse request response now.monotonicNowNs
      return response

def handleOwned (request : Request) (retainResponse : Bool) :
    SysM ω Response := do
  let now ← enter env
  respond env request retainResponse now

def handle (request : Request) : SysM ω Response :=
  handleOwned env request true

def handleInternal (request : Request) : SysM ω Response :=
  handleOwned env request false

/-! ## Polling -/

/-- A locally scheduled engine that has not launched yet. -/
def EngineReport.waiting (report : EngineReport) : Bool :=
  report.state = .armed &&
    (!report.outputActive || report.chainPhase = .lead || report.chainPhase = .selecting)

def Authority.setLaunch (launch : Option UInt64) (a : Authority) : Authority :=
  { a with arm := a.arm.map fun arm => { arm with launchMonotonicNs := launch } }

/-- The foreground launch of `poll`: whether the job was started. -/
def launch (now : ClockSnapshot) (arm : ArmRecord) (job : Job) : AuthM ω Bool := do
  if now.monotonicNowNs < arm.startMonotonicNs then
    return false
  let a ← auth
  if !launchOk a.config now arm job then
    stopAndRecord env .missed .missedStart now.monotonicNowNs
    return false
  if !(← begin env job now.monotonicNowNs) then
    stopAndRecord env .failed .deviceFault now.monotonicNowNs
    return false
  modifyAuth (Authority.setLaunch (some now.monotonicNowNs))
  releaseExecutionInput env
  modifyAuth fun a => { a with state := .running }
  return true

/-- RF is verified off and the amplifier tail is within its bound. -/
def tailWithin (now : ClockSnapshot) (report : EngineReport) (arm : ArmRecord)
    (nominalEnd acknowledgement : UInt64) : AuthM ω Bool := do
  let tail ← constant env.engine.amplifierTailNs
  if !arm.scheduledLocally || report.state ≠ .running || report.chainPhase ≠ .tail || tail = 0 then
    return false
  let some deadline := report.tailDeadlineMonotonicNs | return false
  let observed ← snapshot env
  return deadline ≥ nominalEnd ∧ deadline ≤ saturatingAdd observed.monotonicNowNs tail ∧
    now.monotonicNowNs ≤ saturatingAdd deadline acknowledgement

/-- The acknowledgement allowance after the nominal end of a running job. -/
def withinAllowance (now : ClockSnapshot) (report : EngineReport) (arm : ArmRecord) (job : Job) :
    AuthM ω Bool := do
  let nominalEnd := saturatingAdd (arm.launchMonotonicNs.getD arm.startMonotonicNs)
    job.totalDurationNs
  let timeout := (← auth).config.outputDisableTimeoutNs
  let engineAcknowledgement ← constant env.engine.completionAcknowledgementNs
  let external ← constant env.engine.externallyControlledCompletion
  let acknowledgement :=
    if arm.scheduledLocally then min engineAcknowledgement (if external then timeout else 100000)
    else 0
  if ← tailWithin env now report arm nominalEnd acknowledgement then
    return true
  return report.state = .running ∧ acknowledgement ≠ 0 ∧
    now.monotonicNowNs ≤ saturatingAdd nominalEnd acknowledgement

def Authority.observeLaunch (report : EngineReport) (a : Authority) : Authority :=
  if report.launchMonotonicNs.isSome then a.setLaunch report.launchMonotonicNs else a

/-- The end of `poll`: follow the engine report of a running job. -/
def settle (now : ClockSnapshot) (report : EngineReport) : AuthM ω Unit := do
  modifyAuth (Authority.observeLaunch report)
  match report.state with
  | .missed => stopAndRecord env .missed .missedStart now.monotonicNowNs
  | .failed => stopAndRecord env .failed .deviceFault now.monotonicNowNs
  | .complete => stopAndRecord env .complete .none now.monotonicNowNs
  | _ =>
    let a ← auth
    if let (some arm, some job) := (a.arm, a.job) then
      if now.monotonicNowNs ≥ saturatingAdd (arm.launchMonotonicNs.getD arm.startMonotonicNs)
          job.totalDurationNs then
        if !(← withinAllowance env now report arm job) then
          stopAndRecord env .failed .deviceFault now.monotonicNowNs

/-- `poll` after its expiries. -/
def advance (now : ClockSnapshot) : AuthM ω Unit := do
  let a ← auth
  match a.state, a.arm, a.job with
  | .armed, some arm, some job =>
    if arm.scheduledLocally then
      let report ← enginePoll env now.monotonicNowNs
      if report.waiting then
        return
      modifyAuth fun a => { a with state := .running }
      settle env now report
    else if ← launch env now arm job then
      settle env now (← enginePoll env now.monotonicNowNs)
  | .running, _, _ => settle env now (← enginePoll env now.monotonicNowNs)
  | _, _, _ => return

def poll : SysM ω Unit := do
  let now ← enter env
  onAuthority (advance env now)

/-! ## Local controls -/

def beginMaintenance : AuthM ω Bool := do
  let now := (← snapshot env).monotonicNowNs
  let a ← auth
  if !a.ready || a.outputInhibited then
    return false
  if ← maintenance env then
    return false
  if a.owner.isSome || a.state ≠ .empty then
    return false
  if ← outputActive env then
    return false
  if now > u64Max - 15000000000 then
    return false
  modifyAuth fun a => { a with maintenanceDeadlineNs := now + 15000000000 }
  return true

/-- The answer of `local_abort` when no job is to be stopped. -/
def idleAbort : AuthM ω Response := do
  if ← outputActive env then
    return ← reject env .outputStateUnknown
  success env

/-- The stop of `local_abort`. -/
def abortHeld : AuthM ω Response := do
  let a ← auth
  match a.job with
  | some job =>
    if a.state ≠ .complete ∧ a.state ≠ .missed then abortJob env job.jobId
    else idleAbort env
  | none => idleAbort env

/-- `local_abort` after its poll. -/
def localAbortHeld : AuthM ω Response := do
  let a ← auth
  if a.state = .failed || !a.ready then
    return ← reject env .outputStateUnknown
  let response ← abortHeld env
  if response.ok then
    dropOwner env
  return response

def localAbort : SysM ω Response := do
  poll env
  onAuthority (localAbortHeld env)

def localInhibitOutput : SysM ω Bool := do
  onAuthority (modifyAuth fun a => { a with outputInhibited := true })
  onAuthority (inhibitOutput env)
  let aborted := (← localAbort env).ok
  let now ← onAuthority (snapshot env)
  let a ← onAuthority auth
  let disabled ← onAuthority
    (disable env (saturatingAdd now.monotonicNowNs a.config.outputDisableTimeoutNs))
  let current ← onAuthority (activity env)
  return aborted && disabled && !current.outputActive && !current.owned &&
    current.state ≠ .armed && current.state ≠ .running && current.state ≠ .failed

def endMaintenance : AuthM ω Unit := modifyAuth fun a => { a with maintenanceDeadlineNs := 0 }

def holdUpdateVerification : AuthM ω Unit :=
  modifyAuth fun a => { a with updateVerification := true }

def finishUpdateVerification : AuthM ω Unit :=
  modifyAuth fun a => { a with updateVerification := false }

def reset : SysM ω Unit := do
  onAuthority endMaintenance
  onAuthority finishUpdateVerification
  let now ← onAuthority (snapshot env)
  let off ← onAuthority (stopped env now.monotonicNowNs)
  modifyTransport fun t => { t with sessions := [] }
  onAuthority (dropOwner env)
  modifyTransport fun t => { t with replayCache := [] }
  onAuthority (modifyAuth fun a => { a.clearJob with terminalRecords := [], retainedJobs := [] })
  let bootId ← onAuthority (query env.newBootId)
  onAuthority (modifyAuth fun a =>
    let ready := validId bootId && bootId ≠ a.bootId && off
    { a with bootId := bootId, ready := ready, state := if ready then .empty else .failed })

/-! ## Construction -/

/-- The preparation bound the constructor folds into the configuration. -/
def effectiveConfig (lead filters : UInt64) (config : ServiceConfig) : ServiceConfig :=
  let config := if lead ≠ 0 then
      { config with
        minimumArmLeadNs := max config.minimumArmLeadNs (saturatingAdd lead 2000000) }
    else config
  if filters ≠ 0 then
    { config with
      minimumArmLeadNs := max config.minimumArmLeadNs
        (saturatingAdd (saturatingAdd filters lead) 3000000) }
  else config

def configurationValid (config : ServiceConfig) : Bool :=
  capabilityText config.capabilityEngine && !config.supportedModes.isEmpty &&
  decide config.supportedModes.Nodup && config.supportedModes.all capabilityText &&
  config.minimumFrequencyNhz > 0 && config.minimumFrequencyNhz ≤ config.maximumFrequencyNhz &&
  config.maxEvents > 0 && config.maxEvents ≤ 512 && config.maxJobDurationNs > 0 &&
  config.maxJobDurationNs ≤ 86400000000000 && config.maximumArmAheadNs > 0 &&
  config.maximumArmAheadNs ≤ 604800000000000 &&
  config.minimumArmLeadNs ≤ config.maximumArmAheadNs && config.outputDisableTimeoutNs > 0 &&
  config.outputDisableTimeoutNs ≤ 5000000000 && config.responseCacheEntries ≥ 8 &&
  config.responseCacheTtlNs ≥ 300000000000 && config.terminalRecordEntries ≥ 8 &&
  config.terminalRecordTtlNs ≥ 3600000000000

/-- The stop that ends the constructor, and what it makes of the service. -/
def start (timeout : UInt64) : AuthM ω Unit := do
  let now ← snapshot env
  let off ← stoppedBy env (saturatingAdd now.monotonicNowNs timeout)
  modifyAuth fun a =>
    let ready := off && configurationValid a.config && validId a.bootId
    { a with ready := ready, state := if ready then .empty else .failed }

/-- `JobService::JobService` in world `w`. -/
def construct (config : ServiceConfig) (w : ω) : Sys ω :=
  let (bootId, w) := env.newBootId w
  let config := effectiveConfig (env.engine.amplifierLeadNs w) (env.engine.filterPreparationNs w)
    config
  let timeout := if config.outputDisableTimeoutNs > 0 ∧ config.outputDisableTimeoutNs ≤ 5000000000
    then config.outputDisableTimeoutNs else ({} : ServiceConfig).outputDisableTimeoutNs
  { toAuthSys := (start env timeout { auth := { config := config, bootId := bootId }, world := w }).2 }

end WsprryPico.Wtp
