import WsprryPico.Wtp.Codec

/-!
# Encoding replies

`encode_response` of `wtp/codec.cpp` and what it is made of, and the requests as
`JobService` takes them. The texts of the service are strings, those of the wire bytes.
-/

namespace WsprryPico.Wtp

open Lib Json

/-! ## Texts -/

def bytesOf (text : String) : Bytes := text.toUTF8.toList

/-- The text of bytes in UTF-8. -/
def textOf (bytes : Bytes) : String := (String.fromUTF8? bytes.toByteArray).getD ""

def quoted (text : String) : Bytes := quote (bytesOf text)

def ns (n : UInt64) : Bytes := quote (decimal n.toNat)

def nullable (text : Option String) : Bytes :=
  match text with
  | some text => quoted text
  | none => ascii "null"

def boolean (b : Bool) : Bytes := ascii (if b then "true" else "false")

/-- The texts with commas between them. -/
def commas : List Bytes → Bytes
  | [] => []
  | [text] => text
  | text :: rest => text ++ ascii "," ++ commas rest

/-! ## Requests of the service -/

def Codec.Job.toService (job : Codec.Job) : Wtp.Job where
  jobId := textOf job.jobId
  profile := textOf job.profile
  mode := textOf job.mode
  totalDurationNs := job.totalDurationNs
  events := job.events
  allowFrequencyAdjustment := job.allowFrequencyAdjustment

def Codec.Body.toService : Codec.Body → RequestBody
  | .monostate => .monostate
  | .hello versions => .hello (versions.map textOf)
  | .claim ownerId leaseMs => .claim (textOf ownerId) leaseMs
  | .renew ownerId leaseMs => .renew (textOf ownerId) leaseMs
  | .arm jobId startUtcNs maxStartUncertaintyNs =>
    .arm ⟨textOf jobId, startUtcNs, maxStartUncertaintyNs⟩
  | .abort jobId => .abort (textOf jobId)
  | .ping token => .ping (token.map textOf)
  | .job j => .job j.toService
  | .loadReplay jobId digest => .loadReplay (textOf jobId) digest

def operations : List (String × Operation) :=
  [("HELLO", .hello), ("CAPS", .caps), ("CLAIM", .claim), ("RENEW", .renew),
    ("RELEASE", .release), ("LOAD", .load), ("ARM", .arm), ("ABORT", .abort),
    ("STATUS", .status), ("GET_CLOCK", .getClock), ("PING", .ping)]

def operationOf (name : Bytes) : Operation :=
  ((operations.find? fun entry => ascii entry.1 = name).map (·.2)).getD .unknown

def Codec.Request.toService (request : Codec.Request) : Wtp.Request where
  protocol := textOf request.protocol
  sessionId := textOf request.sessionId
  requestId := textOf request.requestId
  principal := textOf request.principal
  operation := operationOf request.operation
  payloadDigest := request.payloadDigest
  body := request.body.toService
  bodyValid := request.bodyValid

/-! ## Kinds of requests -/

namespace Codec

/-- A scalar control, which needs the small workspace alone. -/
def isBoundedControlRequest (root : Value) : Bool :=
  let op := get root "op"
  let b := get root "body"
  if 128 < (get root "protocol").raw.length ∨ 44 < (get root "type").raw.length ∨
      56 < op.raw.length ∨ b.type ≠ 123 then false
  else if fields b [] ∧
      op.string ∈ names ["STATUS", "CAPS", "GET_CLOCK", "PING", "RELEASE"] then true
  else if 2048 < b.raw.length then false
  else op.string ∈ names ["HELLO", "CLAIM", "RENEW", "ARM", "ABORT", "PING"]

/-- A LOAD that names the active job. -/
def isActiveLoadReplay (root : Value) (id : Bytes) : Bool :=
  if id.isEmpty then false
  else
    let op := get root "op"
    let job := get (get root "body") "job_id"
    (get root "protocol").raw.length ≤ 128 && (get root "type").raw.length ≤ 44 &&
      op.raw.length ≤ 26 && job.raw.length ≤ 194 && op.string = ascii "LOAD" && job.string = id

end Codec

/-! ## Replies -/

def stateName : State → Bytes
  | .empty => ascii "empty"
  | .loaded => ascii "loaded"
  | .armed => ascii "armed"
  | .running => ascii "running"
  | .complete => ascii "complete"
  | .aborted => ascii "aborted"
  | .missed => ascii "missed"
  | .failed => ascii "failed"

def errorName : ErrorCode → Bytes
  | .none => ascii "INTERNAL_ERROR"
  | .invalidFrame => ascii "INVALID_FRAME"
  | .invalidMessage => ascii "INVALID_MESSAGE"
  | .unsupportedVersion => ascii "UNSUPPORTED_VERSION"
  | .helloRequired => ascii "HELLO_REQUIRED"
  | .unknownOperation => ascii "UNKNOWN_OPERATION"
  | .authenticationRequired => ascii "AUTHENTICATION_REQUIRED"
  | .sessionReplaced => ascii "SESSION_REPLACED"
  | .busy => ascii "BUSY"
  | .notOwner => ascii "NOT_OWNER"
  | .leaseExpired => ascii "LEASE_EXPIRED"
  | .requestIdReuse => ascii "REQUEST_ID_REUSE"
  | .invalidState => ascii "INVALID_STATE"
  | .jobNotFound => ascii "JOB_NOT_FOUND"
  | .jobIdConflict => ascii "JOB_ID_CONFLICT"
  | .jobLimitExceeded => ascii "JOB_LIMIT_EXCEEDED"
  | .unsupportedProfile => ascii "UNSUPPORTED_PROFILE"
  | .unsupportedMode => ascii "UNSUPPORTED_MODE"
  | .frequencyRejected => ascii "FREQUENCY_REJECTED"
  | .armConflict => ascii "ARM_CONFLICT"
  | .clockUnsynchronized => ascii "CLOCK_UNSYNCHRONIZED"
  | .clockUncertain => ascii "CLOCK_UNCERTAIN"
  | .leapUnsafe => ascii "LEAP_UNSAFE"
  | .armTooLate => ascii "ARM_TOO_LATE"
  | .armTooFar => ascii "ARM_TOO_FAR"
  | .missedStart => ascii "MISSED_START"
  | .outputStateUnknown => ascii "OUTPUT_STATE_UNKNOWN"
  | .deviceFault => ascii "DEVICE_FAULT"
  | .internalError => ascii "INTERNAL_ERROR"

def errorJson (code : ErrorCode) : Bytes :=
  let retry := decide (code ∈ [ErrorCode.busy, .clockUnsynchronized, .clockUncertain])
  ascii "\x7b\"code\":" ++ quote (errorName code) ++ ascii ",\"message\":" ++
    quote (errorName code) ++ ascii ",\"retryable\":" ++ boolean retry ++ ascii "\x7d"

def terminalJson (t : TerminalRecord) : Bytes :=
  ascii "\x7b\"job_id\":" ++ quoted t.jobId ++ ascii ",\"state\":" ++ quote (stateName t.state) ++
    ascii ",\"ended_monotonic_ns\":" ++ ns t.endedMonotonicNs ++ ascii ",\"output_active\":" ++
    boolean t.outputActive ++
    (if t.error ≠ .none then ascii ",\"error\":" ++ errorJson t.error else []) ++ ascii "\x7d"

def statusJson (s : ServiceStatus) : Bytes :=
  ascii "\x7b\"boot_id\":" ++ quoted s.bootId ++ ascii ",\"state\":" ++ quote (stateName s.state) ++
    ascii ",\"output_active\":" ++ boolean s.outputActive ++ ascii ",\"owner_id\":" ++
    nullable s.ownerId ++ ascii ",\"job_id\":" ++ nullable s.jobId ++
    ascii ",\"terminal_records\":[" ++ commas (s.terminalRecords.map terminalJson) ++
    ascii "]\x7d"

def clockStateName : ClockState → Bytes
  | .unsynchronized => ascii "unsynchronized"
  | .synchronized => ascii "synchronized"
  | .holdover => ascii "holdover"

def leapName : LeapState → Bytes
  | .normal => ascii "normal"
  | .insertPending => ascii "insert_pending"
  | .deletePending => ascii "delete_pending"
  | .unknown => ascii "unknown"

def clockJson (c : ClockSnapshot) : Bytes :=
  ascii "\x7b\"state\":" ++ quote (clockStateName c.state) ++ ascii ",\"utc_now_ns\":" ++
    ns c.utcNowNs ++ ascii ",\"monotonic_now_ns\":" ++ ns c.monotonicNowNs ++
    ascii ",\"uncertainty_ns\":" ++ ns c.uncertaintyNs ++ ascii ",\"sync_age_ns\":" ++
    ns c.syncAgeNs ++ ascii ",\"leap\":" ++ quote (leapName c.leap) ++
    (match c.leapTransitionUtcNs with
      | some transition => ascii ",\"leap_transition_utc_ns\":" ++ ns transition
      | none => []) ++ ascii "\x7d"

def caps (c : ServiceConfig) : Bytes :=
  let modes := c.supportedModes.map fun mode => 34 :: bytesOf mode ++ [34]
  ascii "\x7b\"profiles\":[\"rf-events/1\"],\"modes\":[" ++ commas modes ++
    ascii "],\"engine\":\"" ++ bytesOf c.capabilityEngine ++
    ascii "\",\"frequency_ranges\":[\x7b\"minimum_nhz\":" ++ ns c.minimumFrequencyNhz ++
    ascii ",\"maximum_nhz\":" ++ ns c.maximumFrequencyNhz ++
    ascii "\x7d],\"max_payload_bytes\":65536,\"max_events\":" ++ decimal c.maxEvents ++
    ascii ",\"max_job_duration_ns\":" ++ ns c.maxJobDurationNs ++
    ascii ",\"minimum_arm_lead_ns\":" ++ ns c.minimumArmLeadNs ++
    ascii ",\"maximum_arm_ahead_ns\":" ++ ns c.maximumArmAheadNs ++
    ascii ",\"maximum_arm_uncertainty_ns\":" ++ ns c.maximumArmUncertaintyNs ++
    ascii ",\"maximum_holdover_age_ns\":" ++ ns c.maximumHoldoverAgeNs ++
    ascii ",\"output_disable_timeout_ns\":" ++ ns c.outputDisableTimeoutNs ++
    ascii ",\"minimum_lease_ms\":5000,\"maximum_lease_ms\":60000,\"response_cache_entries\":" ++
    decimal c.responseCacheEntries ++ ascii ",\"response_cache_ttl_seconds\":" ++
    decimal (c.responseCacheTtlNs / 1000000000).toNat ++ ascii ",\"terminal_record_entries\":" ++
    decimal c.terminalRecordEntries ++ ascii ",\"terminal_record_ttl_seconds\":" ++
    decimal (c.terminalRecordTtlNs / 1000000000).toNat ++ ascii "\x7d"

def responsePrefix (r : Codec.Request) (s : Response) : Bytes :=
  ascii "\x7b\"type\":\"response\",\"protocol\":\"WTP/1\",\"session_id\":" ++ quote r.sessionId ++
    ascii ",\"request_id\":" ++ quote r.requestId ++ ascii ",\"op\":" ++ quote r.operation ++
    ascii ",\"ok\":" ++ boolean s.ok

def adjustmentJson (a : FrequencyAdjustment) : Bytes :=
  ascii "\x7b\"event_index\":" ++ decimal a.eventIndex ++ ascii ",\"requested_frequency_nhz\":" ++
    ns a.requestedFrequencyNhz ++ ascii ",\"realized_frequency_nhz\":" ++
    ns a.realizedFrequencyNhz ++ ascii "\x7d"

/-- The body of a LOAD, and the end of its reply. -/
def loadBody (s : Response) : Bytes :=
  ascii ",\"body\":\x7b\"job_id\":" ++ quoted s.jobId ++
    ascii ",\"state\":\"loaded\",\"adjustments\":[" ++ commas (s.adjustments.map adjustmentJson) ++
    ascii "]\x7d\x7d"

def responseBody (r : Codec.Request) (s : Response) (config : ServiceConfig)
    (device firmware : Bytes) : Bytes :=
  match operationOf r.operation, s.statusSnapshot, s.clockSnapshot, s.pingToken with
  | .hello, _, _, _ =>
    ascii "\x7b\"selected_version\":\"WTP/1\",\"device_id\":" ++ quote device ++
      ascii ",\"boot_id\":" ++ quoted s.bootId ++
      ascii ",\"product\":\"WsprryPico\",\"firmware_version\":" ++ quote firmware ++ ascii "\x7d"
  | .caps, _, _, _ => caps config
  | .status, some status, _, _ => statusJson status
  | .getClock, _, some clock, _ => clockJson clock
  | .ping, _, _, some token => ascii "\x7b\"token\":" ++ quoted token ++ ascii "\x7d"
  | .claim, _, _, _ | .renew, _, _, _ =>
    ascii "\x7b\"owner_id\":" ++ quoted s.ownerId ++ ascii ",\"granted_lease_ms\":" ++
      decimal s.grantedLeaseMs.toNat ++ ascii ",\"expires_monotonic_ns\":" ++
      ns s.expiresMonotonicNs ++ ascii "\x7d"
  | .arm, _, some clock, _ =>
    ascii "\x7b\"job_id\":" ++ quoted s.jobId ++
      ascii ",\"state\":\"armed\",\"start_utc_ns\":" ++ ns s.startUtcNs ++
      ascii ",\"start_monotonic_ns\":" ++ ns s.startMonotonicNs ++ ascii ",\"clock\":" ++
      clockJson clock ++ ascii "\x7d"
  | .abort, _, _, _ =>
    ascii "\x7b\"job_id\":" ++ quoted s.jobId ++
      ascii ",\"state\":\"aborted\",\"output_active\":false\x7d"
  | _, _, _, _ => ascii "\x7b\x7d"

def encodeResponse (r : Codec.Request) (s : Response) (config : ServiceConfig)
    (device firmware : Bytes) : Bytes :=
  let out := responsePrefix r s
  if !s.ok then out ++ ascii ",\"error\":" ++ errorJson s.error ++ ascii "\x7d"
  else if r.operation = ascii "LOAD" then out ++ loadBody s
  else out ++ ascii ",\"body\":" ++ responseBody r s config device firmware ++ ascii "\x7d"

end WsprryPico.Wtp
