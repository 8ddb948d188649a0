import WsprryPico.Time.Mapping
import WsprryPico.Lib.KeyedList

/-!
# The authority state of `JobService`

`JobService` keeps two groups of members. The authority group (owner, job, arm
record, terminal history, lifecycle state, interlocks) decides what the
transmitter may do and is the state of `dispatch`, `abort_job` and the polling
path. The transport group (session table, replay cache) is `Transport` and is
read only at the request entry. This module holds both groups and the member
functions that neither call the engine nor read the clock.
-/

namespace WsprryPico.Wtp

open Time Lib

def saturatingAdd (left right : UInt64) : UInt64 :=
  if right > u64Max - left then u64Max else left + right

structure Session where
  sessionId : String
  principal : String
  lastSeenMonotonicNs : UInt64
  deriving DecidableEq

structure Owner where
  ownerId : String
  sessionId : String
  principal : String
  expiresMonotonicNs : UInt64
  releaseAfterTerminal : Bool := false
  deriving DecidableEq

structure ArmRecord where
  startUtcNs : UInt64
  maxUncertaintyNs : UInt64
  startMonotonicNs : UInt64
  clockSnapshot : ClockSnapshot
  scheduledLocally : Bool := false
  launchMonotonicNs : Option UInt64 := none
  deriving DecidableEq

structure RetainedJob where
  jobId : String
  digest : PayloadDigest
  adjustments : List FrequencyAdjustment
  loadOutputActive : Bool
  arm : Option ArmRecord
  deriving DecidableEq

structure ReplayEntry where
  sessionId : String
  requestId : String
  payloadDigest : PayloadDigest
  response : Response
  completedMonotonicNs : UInt64
  lru : UInt64
  deriving DecidableEq

/-- The authority members. The two histories are kept newest first, as the
deques are. -/
structure Authority where
  config : ServiceConfig
  bootId : String
  owner : Option Owner := none
  job : Option Job := none
  jobDigest : PayloadDigest := .zero
  adjustments : List FrequencyAdjustment := []
  arm : Option ArmRecord := none
  terminalRecords : List TerminalRecord := []
  retainedJobs : List RetainedJob := []
  state : State := .empty
  ready : Bool := false
  outputInhibited : Bool := false
  maintenanceDeadlineNs : UInt64 := 0
  updateVerification : Bool := false
  deriving DecidableEq

/-- The transport members. -/
structure Transport where
  sessions : List Session := []
  replayCache : List ReplayEntry := []
  lruSequence : UInt64 := 0
  deriving DecidableEq

/-! ## Text checks -/

def isDigit (c : Char) : Bool := '0' ≤ c ∧ c ≤ '9'

def validId (value : String) : Bool :=
  value.toList.length = 32 ∧ value.toList.all fun c => isDigit c || decide ('a' ≤ c ∧ c ≤ 'f')

def capabilityText (text : String) : Bool :=
  !text.toList.isEmpty && text.toList.all fun c =>
    decide ('a' ≤ c ∧ c ≤ 'z') || isDigit c || c == '-'

def validProtocolVersion (version : String) : Bool :=
  match version.toList with
  | 'W' :: 'T' :: 'P' :: '/' :: c :: rest => c != '0' && (c :: rest).all isDigit
  | _ => false

/-! ## Admission checks -/

/-- The event loop of `validate_job`, from event offset `expected`. -/
def validateEvents (config : ServiceConfig) (total : UInt64) : UInt64 → List RfEvent → ErrorCode
  | expected, [] => if expected = total then .none else .invalidMessage
  | expected, event :: rest =>
    if event.offsetNs ≠ expected ∨ event.durationNs = 0 ∨
        event.durationNs > u64Max - expected then .invalidMessage
    else if event.rfOn ≠ event.frequencyNhz.isSome ∨ event.frequencyNhz = some 0 then
      .invalidMessage
    else if event.frequencyNhz.any fun f =>
        f < config.minimumFrequencyNhz ∨ f > config.maximumFrequencyNhz then .frequencyRejected
    else validateEvents config total (expected + event.durationNs) rest

def validateJob (config : ServiceConfig) (job : Job) : ErrorCode :=
  if !job.events.valid then
    if job.events.failure = .limitExceeded then .jobLimitExceeded else .internalError
  else if !validId job.jobId || job.events.isEmpty then .invalidMessage
  else if job.profile ≠ "rf-events/1" then .unsupportedProfile
  else if job.mode ∉ config.supportedModes then .unsupportedMode
  else if job.events.size > config.maxEvents ∨ job.totalDurationNs > config.maxJobDurationNs then
    .jobLimitExceeded
  else validateEvents config job.totalDurationNs 0 job.events.events

def pendingLeap (now : ClockSnapshot) : Bool :=
  now.leap = .insertPending ∨ now.leap = .deletePending

def leapExclusionNs : UInt64 := 1000000000

def exclusionStart (transition : UInt64) : UInt64 :=
  if transition > leapExclusionNs then transition - leapExclusionNs else 0

def exclusionEnd (transition : UInt64) : UInt64 := saturatingAdd transition leapExclusionNs

/-- `validate_arm` for the held `job` and an engine of timer resolution
`resolution`; a success carries the start on the monotonic clock. -/
def validateArm (config : ServiceConfig) (job : Job) (resolution : UInt64) (arm : ArmBody)
    (now : ClockSnapshot) : Except ErrorCode UInt64 := do
  if now.state = .unsynchronized then throw .clockUnsynchronized
  if now.state = .holdover ∧ (config.maximumHoldoverAgeNs = 0 ∨
      now.syncAgeNs > config.maximumHoldoverAgeNs) then throw .clockUnsynchronized
  if now.uncertaintyNs > arm.maxStartUncertaintyNs ∨
      now.uncertaintyNs > config.maximumArmUncertaintyNs then throw .clockUncertain
  if now.leap = .unknown ∨ pendingLeap now ≠ now.leapTransitionUtcNs.isSome then
    throw .leapUnsafe
  if arm.startUtcNs < now.utcNowNs ∨
      arm.startUtcNs - now.utcNowNs < config.minimumArmLeadNs then throw .armTooLate
  let ahead := arm.startUtcNs - now.utcNowNs
  if ahead > config.maximumArmAheadNs then throw .armTooFar
  if ahead > u64Max - now.monotonicNowNs ∨ job.totalDurationNs > u64Max - arm.startUtcNs then
    throw .invalidMessage
  if resolution = 0 then throw .deviceFault
  let some nominalStart := inverse now arm.startUtcNs | throw .invalidMessage
  let adjustment := (resolution - nominalStart % resolution) % resolution
  let window := startWindowNs arm.startUtcNs
  if nominalStart > u64Max - window ∨ arm.startUtcNs > u64Max - window ∨ adjustment ≥ window ∨
      job.totalDurationNs > u64Max - (nominalStart + window) ∨
      job.totalDurationNs > u64Max - (arm.startUtcNs + window) then throw .invalidMessage
  let budget := min arm.maxStartUncertaintyNs config.maximumArmUncertaintyNs
  let some roundingUtc := elapsedUtc (adjustment + if now.ratePpb ≠ 0 then 1 else 0) now.ratePpb true
    | throw .clockUncertain
  let some futureGrowth := growth (nominalStart - now.monotonicNowNs)
      now.rateUncertaintyPpb.toUInt64
    | throw .clockUncertain
  if futureGrowth > budget - now.uncertaintyNs ∨
      roundingUtc > budget - now.uncertaintyNs - futureGrowth then throw .clockUncertain
  let startMonotonicNs := nominalStart
  if job.totalDurationNs > u64Max - startMonotonicNs then throw .invalidMessage
  let horizonLatest := arm.startUtcNs + window - 1
  let some horizonDuration := durationUtcBound job.totalDurationNs now | throw .leapUnsafe
  if horizonLatest ≥ now.validUntilUtcNs ∨
      horizonDuration ≥ now.validUntilUtcNs - horizonLatest then throw .leapUnsafe
  if let some transition := now.leapTransitionUtcNs then
    let latest := arm.startUtcNs + window - 1
    let some duration := durationUtcBound job.totalDurationNs now | throw .invalidMessage
    if duration > u64Max - latest then throw .invalidMessage
    let jobEnd := latest + duration
    if arm.startUtcNs ≤ exclusionEnd transition ∧ jobEnd ≥ exclusionStart transition then
      throw .leapUnsafe
  return startMonotonicNs

/-! ## The launch conditions of `poll` -/

def clockStateOk (config : ServiceConfig) (now : ClockSnapshot) : Bool :=
  now.state = .synchronized ∨ (now.state = .holdover ∧ config.maximumHoldoverAgeNs > 0 ∧
    now.syncAgeNs ≤ config.maximumHoldoverAgeNs)

/-- The last nanosecond of the start second of `arm`. -/
def latestStart (arm : ArmRecord) : UInt64 := arm.startUtcNs + startWindowNs arm.startUtcNs - 1

/-- The start second and the job end before the source horizon. -/
def horizonOk (now : ClockSnapshot) (arm : ArmRecord) (duration : UInt64) : Bool :=
  latestStart arm < now.validUntilUtcNs ∧ duration < now.validUntilUtcNs - latestStart arm

/-- The job avoids the exclusion interval of a pending leap transition. -/
def transitionOk (now : ClockSnapshot) (arm : ArmRecord) (duration : UInt64) : Bool :=
  match now.leapTransitionUtcNs with
  | none => true
  | some transition =>
    duration ≤ u64Max - latestStart arm ∧
      (arm.startUtcNs > exclusionEnd transition ∨
        latestStart arm + duration < exclusionStart transition)

def leapOk (now : ClockSnapshot) (arm : ArmRecord) (job : Job) : Bool :=
  now.leap ≠ .unknown && pendingLeap now = now.leapTransitionUtcNs.isSome &&
  match durationUtcBound job.totalDurationNs now with
  | none => false
  | some duration => horizonOk now arm duration && transitionOk now arm duration

/-- `clock_ok`, with the projected mapping of the armed start. -/
def clockOk (config : ServiceConfig) (now : ClockSnapshot) (arm : ArmRecord) (job : Job)
    (mapped : UInt64) : Bool :=
  let utcError := if mapped > arm.startUtcNs then mapped - arm.startUtcNs
    else arm.startUtcNs - mapped
  clockStateOk config now ∧ now.uncertaintyNs ≤ arm.maxUncertaintyNs ∧
    now.uncertaintyNs ≤ config.maximumArmUncertaintyNs ∧ utcError ≤ now.uncertaintyNs ∧
    leapOk now arm job

/-- The launch test of `poll` at a snapshot not before the armed start. When the
mapping fails the start is missed. -/
def launchOk (config : ServiceConfig) (now : ClockSnapshot) (arm : ArmRecord) (job : Job) : Bool :=
  match project now arm.startMonotonicNs,
      elapsedUtc (now.monotonicNowNs - arm.startMonotonicNs) now.ratePpb true with
  | some mapped, some utcDelay =>
    utcDelay < startWindowNs arm.startUtcNs ∧ clockOk config now arm job mapped
  | _, _ => false

/-! ## Members without engine calls -/

namespace Authority

def findRetained (a : Authority) (jobId : String) : Option RetainedJob :=
  a.retainedJobs.find? (·.jobId == jobId)

def owns (a : Authority) (request : Request) : Bool :=
  a.owner.any fun o => o.sessionId == request.sessionId && o.principal == request.principal

def clearJob (a : Authority) : Authority :=
  { a with job := none, jobDigest := .zero, adjustments := [], arm := none, state := .empty }

def touchTerminal (a : Authority) (jobId : String) : Authority :=
  { a with
    terminalRecords := moveToFront (·.jobId == jobId) a.terminalRecords
    retainedJobs := moveToFront (·.jobId == jobId) a.retainedJobs }

/-- `k` rounds of the trimming loop of `record_terminal`. -/
def trimTerminals : Nat → Authority → Authority
  | 0, a => a
  | k + 1, a =>
    match a.terminalRecords.getLast? with
    | none => a
    | some back => trimTerminals k
        { a with
          retainedJobs := a.retainedJobs.filter (·.jobId != back.jobId)
          terminalRecords := a.terminalRecords.dropLast }

/-- Trimming touches the two histories only. -/
theorem trimTerminals_eq (k : Nat) (a : Authority) :
    a.trimTerminals k =
      { a with
        terminalRecords := (a.trimTerminals k).terminalRecords
        retainedJobs := (a.trimTerminals k).retainedJobs } := by
  induction k generalizing a with
  | zero => rfl
  | succ k ih =>
    unfold trimTerminals
    cases a.terminalRecords.getLast? with
    | none => rfl
    | some back =>
      simp only
      rw [ih]

def recordExpired (a : Authority) (nowNs : UInt64) (record : TerminalRecord) : Bool :=
  nowNs ≥ record.endedMonotonicNs ∧
    nowNs - record.endedMonotonicNs ≥ a.config.terminalRecordTtlNs

/-- The histories without the expired records. -/
def dropExpired (nowNs : UInt64) (a : Authority) : Authority :=
  let kept := a.terminalRecords.filter fun record => !a.recordExpired nowNs record
  { a with
    terminalRecords := kept
    retainedJobs := a.retainedJobs.filter fun item => kept.any (·.jobId == item.jobId) }

def pruneTerminals (nowNs : UInt64) (a : Authority) : Authority :=
  let currentRecordExpired := a.terminalRecords.any fun record =>
    a.recordExpired nowNs record && a.job.any (·.jobId == record.jobId)
  if currentRecordExpired &&
      (a.state = .complete ∨ a.state = .aborted ∨ a.state = .missed) then
    (a.dropExpired nowNs).clearJob
  else a.dropExpired nowNs

/-- Pruning drops the expired records, and may clear an ended job. -/
theorem pruneTerminals_cases (nowNs : UInt64) (a : Authority) :
    a.pruneTerminals nowNs = a.dropExpired nowNs ∨
      (a.state = .complete ∨ a.state = .aborted ∨ a.state = .missed) ∧
        a.pruneTerminals nowNs = (a.dropExpired nowNs).clearJob := by
  unfold pruneTerminals
  simp only
  split
  · rename_i h
    exact .inr ⟨by simpa using (Bool.and_eq_true_iff.1 h).2, rfl⟩
  · exact .inl rfl

@[simp] theorem pruneTerminals_config (nowNs : UInt64) (a : Authority) :
    (a.pruneTerminals nowNs).config = a.config := by
  obtain h | ⟨-, h⟩ := pruneTerminals_cases nowNs a
  · rw [h]; rfl
  · rw [h]; rfl

@[simp] theorem pruneTerminals_owner (nowNs : UInt64) (a : Authority) :
    (a.pruneTerminals nowNs).owner = a.owner := by
  obtain h | ⟨-, h⟩ := pruneTerminals_cases nowNs a
  · rw [h]; rfl
  · rw [h]; rfl

/-- Drop the event storage of the held job. -/
def clearEvents (a : Authority) : Authority :=
  { a with job := a.job.map fun j => { j with events := j.events.clear } }

end Authority

namespace Transport

def findSession (t : Transport) (sessionId : String) : Option Session :=
  t.sessions.find? (·.sessionId == sessionId)

/-- Refresh the last-seen time of the first session under `sessionId`. -/
def seen (nowNs : UInt64) (sessionId : String) : List Session → List Session
  | [] => []
  | s :: rest =>
    if s.sessionId == sessionId then { s with lastSeenMonotonicNs := nowNs } :: rest
    else s :: seen nowNs sessionId rest

def entryExpired (ttl nowNs : UInt64) (completed : UInt64) : Bool :=
  nowNs ≥ completed ∧ nowNs - completed ≥ ttl

def pruneReplay (config : ServiceConfig) (nowNs : UInt64) (t : Transport) : Transport :=
  { t with
    replayCache := t.replayCache.filter fun entry =>
      !entryExpired config.responseCacheTtlNs nowNs entry.completedMonotonicNs }

def pruneSessions (config : ServiceConfig) (owner : Option Owner) (nowNs : UInt64)
    (t : Transport) : Transport :=
  { t with
    sessions := t.sessions.filter fun session =>
      !(!(owner.any (·.sessionId == session.sessionId)) &&
        entryExpired config.responseCacheTtlNs nowNs session.lastSeenMonotonicNs) }

def isEntry (request : Request) (entry : ReplayEntry) : Bool :=
  entry.sessionId == request.sessionId && entry.requestId == request.requestId

/-- What `replay` finds: nothing, a digest conflict, or a cached response. -/
inductive Lookup where
  | absent
  | conflict
  | cached (response : Response)
  deriving DecidableEq

def replay (request : Request) (t : Transport) : Lookup × Transport :=
  match t.replayCache.find? (isEntry request) with
  | none => (.absent, t)
  | some entry =>
    if entry.payloadDigest ≠ request.payloadDigest then (.conflict, t)
    else
      (.cached entry.response,
        { t with
          lruSequence := t.lruSequence + 1
          replayCache := touch (t.lruSequence + 1) t.replayCache })
where
  /-- Stamp the found entry. -/
  touch (lru : UInt64) : List ReplayEntry → List ReplayEntry
    | [] => []
    | entry :: rest =>
      if isEntry request entry then { entry with lru := lru } :: rest
      else entry :: touch lru rest

/-- The comparison of the eviction's `std::min_element`. -/
def evictsBefore (sessionId : String) (left right : ReplayEntry) : Bool :=
  if left.sessionId ≠ sessionId then false
  else if right.sessionId ≠ sessionId then true
  else left.lru < right.lru

/-- `std::min_element` from a first candidate. -/
def victimFrom (sessionId : String) : ReplayEntry → List ReplayEntry → ReplayEntry
  | best, [] => best
  | best, entry :: rest =>
    victimFrom sessionId (if evictsBefore sessionId entry best then entry else best) rest

def evict (sessionId : String) : List ReplayEntry → List ReplayEntry
  | [] => []
  | entry :: rest => (entry :: rest).erase (victimFrom sessionId entry rest)

def remember (config : ServiceConfig) (request : Request) (response : Response) (nowNs : UInt64)
    (t : Transport) : Transport :=
  let sessionEntries := t.replayCache.countP (·.sessionId == request.sessionId)
  let cache :=
    if sessionEntries ≥ config.responseCacheEntries then evict request.sessionId t.replayCache
    else t.replayCache
  { t with
    lruSequence := t.lruSequence + 1
    replayCache := cache ++
      [{ sessionId := request.sessionId
         requestId := request.requestId
         payloadDigest := request.payloadDigest
         response := response
         completedMonotonicNs := nowNs
         lru := t.lruSequence + 1 }] }

end Transport

end WsprryPico.Wtp
