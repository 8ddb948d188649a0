import Mathlib.Algebra.Group.Nat.Defs
import Mathlib.Data.List.Basic

/-!
# WTP data model

The values `wtp/job_service.hpp` declares: clock snapshots, jobs, engine
reports, requests, responses and the service configuration. Fixed-width
unsigned fields are `UInt64`/`UInt32`; `std::size_t` counts are `Nat`. The
operation name of a request is the enumeration `Operation`, whose `unknown`
constructor stands for every name outside the WTP/1 list.
-/

namespace WsprryPico.Wtp

inductive State where
  | empty | loaded | armed | running | complete | aborted | missed | failed
  deriving DecidableEq

inductive ClockState where
  | unsynchronized | synchronized | holdover
  deriving DecidableEq

inductive LeapState where
  | normal | insertPending | deletePending | unknown
  deriving DecidableEq

/-- The largest `std::uint64_t`. -/
abbrev u64Max : UInt64 := 0xffffffffffffffff

structure ClockSnapshot where
  state : ClockState := .unsynchronized
  utcNowNs : UInt64 := 0
  monotonicNowNs : UInt64 := 0
  uncertaintyNs : UInt64 := 0
  syncAgeNs : UInt64 := 0
  leap : LeapState := .unknown
  leapTransitionUtcNs : Option UInt64 := none
  /-- UTC nanoseconds per raw second minus 10^9. -/
  ratePpb : Int := 0
  rateUncertaintyPpb : UInt32 := 0
  modelGeneration : UInt64 := 0
  rateUntilMonotonicNs : UInt64 := u64Max
  subsequentRatePpb : Int := 0
  validUntilUtcNs : UInt64 := u64Max
  deriving DecidableEq

/-- A SHA-256 value. -/
structure PayloadDigest where
  bytes : List UInt8
  size : bytes.length = 32
  deriving DecidableEq

/-- `PayloadDigest{}`: thirty-two zero bytes. -/
def PayloadDigest.zero : PayloadDigest := ⟨List.replicate 32 0, by decide⟩

structure RfEvent where
  offsetNs : UInt64
  durationNs : UInt64
  rfOn : Bool
  frequencyNhz : Option UInt64
  deriving DecidableEq

/-- Why an `EventList` is unusable. -/
inductive EventFailure where
  | none | limitExceeded | allocationFailed
  deriving DecidableEq

/-- `EventList`: the paged storage is a list, its failure mark stays. -/
structure EventList where
  events : List RfEvent := []
  failure : EventFailure := .none
  deriving DecidableEq

namespace EventList

def valid (l : EventList) : Bool := l.failure = .none
def isEmpty (l : EventList) : Bool := l.events.isEmpty
def size (l : EventList) : Nat := l.events.length
/-- `EventList::clear`, which also forgets an earlier failure. -/
def clear (_ : EventList) : EventList := {}

end EventList

structure Job where
  jobId : String
  profile : String := "rf-events/1"
  mode : String
  totalDurationNs : UInt64
  events : EventList
  allowFrequencyAdjustment : Bool := false
  deriving DecidableEq

inductive EngineState where
  | idle | armed | running | complete | failed | missed
  deriving DecidableEq

inductive ChainPhase where
  | unspecified | inactive | waiting | lead | rf | tail | fault | selecting
  deriving DecidableEq

/-- The requested UTC second supplies an exclusive latest-start boundary. -/
def startWindowNs (utcNs : UInt64) : UInt64 := 1000000000 - utcNs % 1000000000

/-- `LocalStartConditions`. The clock pointer is its presence; the clock itself
is the one of the world the engine runs in. -/
structure LocalStartConditions where
  clock : Bool := false
  startUtcNs : UInt64 := 0
  maximumUncertaintyNs : UInt64 := 0
  maximumHoldoverAgeNs : UInt64 := 0
  startAdjustmentNs : UInt64 := 0
  deriving DecidableEq

structure EngineReport where
  state : EngineState := .idle
  outputActive : Bool := false
  launchMonotonicNs : Option UInt64 := none
  chainPhase : ChainPhase := .unspecified
  tailDeadlineMonotonicNs : Option UInt64 := none
  filterSelector : Int := -1
  deriving DecidableEq

structure FrequencyAdjustment where
  eventIndex : Nat
  requestedFrequencyNhz : UInt64
  realizedFrequencyNhz : UInt64
  deriving DecidableEq

structure PrepareResult where
  accepted : Bool := false
  adjustments : List FrequencyAdjustment := []
  deriving DecidableEq

inductive ErrorCode where
  | none | invalidFrame | invalidMessage | unsupportedVersion | helloRequired
  | unknownOperation | authenticationRequired | sessionReplaced | busy | notOwner
  | leaseExpired | requestIdReuse | invalidState | jobNotFound | jobIdConflict
  | jobLimitExceeded | unsupportedProfile | unsupportedMode | frequencyRejected
  | armConflict | clockUnsynchronized | clockUncertain | leapUnsafe | armTooLate
  | armTooFar | missedStart | outputStateUnknown | deviceFault | internalError
  deriving DecidableEq

inductive Operation where
  | hello | caps | claim | renew | release | load | arm | abort | status | getClock | ping
  | unknown
  deriving DecidableEq

structure ArmBody where
  jobId : String
  startUtcNs : UInt64
  maxStartUncertaintyNs : UInt64
  deriving DecidableEq

/-- `RequestBody`: the variant of decoded operation bodies. -/
inductive RequestBody where
  | monostate
  | hello (versions : List String)
  | claim (ownerId : String) (leaseMs : UInt32)
  | renew (ownerId : String) (leaseMs : UInt32)
  | job (job : Job)
  | arm (body : ArmBody)
  | abort (jobId : String)
  | ping (token : Option String)
  | loadReplay (jobId : String) (digest : PayloadDigest)
  deriving DecidableEq

structure Request where
  protocol : String := "WTP/1"
  sessionId : String
  requestId : String
  principal : String
  operation : Operation
  payloadDigest : PayloadDigest
  body : RequestBody := .monostate
  bodyValid : Bool := true
  deriving DecidableEq

structure TerminalRecord where
  jobId : String
  state : State
  endedMonotonicNs : UInt64
  outputActive : Bool
  error : ErrorCode
  deriving DecidableEq

structure ServiceActivity where
  state : State
  outputActive : Bool
  owned : Bool
  deriving DecidableEq

structure ServiceStatus where
  bootId : String
  state : State
  outputActive : Bool
  ownerId : Option String
  jobId : Option String
  terminalRecords : List TerminalRecord
  deriving DecidableEq

structure Response where
  ok : Bool := false
  error : ErrorCode := .none
  state : State := .empty
  jobId : String := ""
  bootId : String := ""
  ownerId : String := ""
  startMonotonicNs : UInt64 := 0
  expiresMonotonicNs : UInt64 := 0
  grantedLeaseMs : UInt32 := 0
  outputActive : Bool := false
  closeConnection : Bool := false
  pingToken : Option String := none
  adjustments : List FrequencyAdjustment := []
  clockSnapshot : Option ClockSnapshot := none
  statusSnapshot : Option ServiceStatus := none
  startUtcNs : UInt64 := 0
  deriving DecidableEq

structure ServiceConfig where
  capabilityEngine : String := "inhibited-no-rf"
  supportedModes : List String := ["wspr", "qrss", "fskcw", "dfcw", "cw", "tone"]
  minimumFrequencyNhz : UInt64 := 1
  maximumFrequencyNhz : UInt64 := u64Max
  maxEvents : Nat := 512
  maxJobDurationNs : UInt64 := 86400000000000
  minimumArmLeadNs : UInt64 := 100000000
  maximumArmAheadNs : UInt64 := 604800000000000
  maximumArmUncertaintyNs : UInt64 := 1000000
  maximumHoldoverAgeNs : UInt64 := 0
  outputDisableTimeoutNs : UInt64 := 100000000
  responseCacheEntries : Nat := 8
  responseCacheTtlNs : UInt64 := 300000000000
  terminalRecordEntries : Nat := 8
  terminalRecordTtlNs : UInt64 := 3600000000000
  deriving DecidableEq

end WsprryPico.Wtp
