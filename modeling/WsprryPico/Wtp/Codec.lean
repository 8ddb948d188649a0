import WsprryPico.Wtp.Json
import WsprryPico.Wtp.Sha256

/-!
# Decoding requests

`decode_request` of `wtp/codec.cpp`: the envelope, the body of each operation
and the events of a job. Strings are their bytes. The allocator is what it
answers for each page of events.
-/

namespace WsprryPico.Wtp.Codec

open Lib Json

/-! ## Requests -/

structure Job where
  jobId : Bytes := []
  profile : Bytes := ascii "rf-events/1"
  mode : Bytes := []
  totalDurationNs : UInt64 := 0
  events : EventList := {}
  allowFrequencyAdjustment : Bool := false
  deriving DecidableEq

inductive Body where
  | monostate
  | hello (versions : List Bytes)
  | claim (ownerId : Bytes) (leaseMs : UInt32)
  | renew (ownerId : Bytes) (leaseMs : UInt32)
  | arm (jobId : Bytes) (startUtcNs maxStartUncertaintyNs : UInt64)
  | abort (jobId : Bytes)
  | ping (token : Option Bytes)
  | job (job : Job)
  | loadReplay (jobId : Bytes) (digest : PayloadDigest)
  deriving DecidableEq

structure Request where
  protocol : Bytes
  sessionId : Bytes
  requestId : Bytes
  principal : Bytes
  operation : Bytes
  payloadDigest : PayloadDigest
  body : Body
  bodyValid : Bool
  deriving DecidableEq

/-! ## Events and their digest -/

def pageEvents : Nat := 64
def maximumEvents : Nat := 512

/-- `EventList::reserve`, which asks for the pages it needs. -/
def reserve (allocate : Nat → Bool) (l : EventList) (count : Nat) : EventList × Bool :=
  if maximumEvents < count then ({ l with failure := .limitExceeded }, false)
  else if (List.range ((count + pageEvents - 1) / pageEvents)).all allocate then (l, true)
  else ({ l with failure := .allocationFailed }, false)

/-- `EventList::push_back`. -/
def pushBack (allocate : Nat → Bool) (l : EventList) (value : RfEvent) : EventList × Bool :=
  let reserved := reserve allocate l (l.size + 1)
  if maximumEvents ≤ l.size then
    ({ l with failure := if l.failure = .none then .limitExceeded else l.failure }, false)
  else if reserved.2 then ({ reserved.1 with events := reserved.1.events ++ [value] }, true)
  else reserved

def digestText (b : JobDigestBuilder) (value : Bytes) : JobDigestBuilder :=
  ⟨(b.number (UInt64.ofNat value.length)).digest.update value⟩

/-- `JobDigestBuilder(header, event_count)`. -/
def digestHeader (job : Job) (count : Nat) : JobDigestBuilder :=
  (((digestText (digestText (digestText {} job.jobId) job.profile) job.mode).number
    job.totalDurationNs).flag job.allowFrequencyAdjustment).number (UInt64.ofNat count)

/-! ## Fields -/

def get (v : Value) (key : String) : Value := (v.get (ascii key)).getD {}

def text (v : Value) (min max : Nat) : Bool :=
  v.type = 34 && v.raw.length ≤ max * 6 + 2 && min ≤ v.string.length && v.string.length ≤ max

def version (v : Bytes) : Bool :=
  v.take 4 = ascii "WTP/" && 5 ≤ v.length && 49 ≤ v.getD 4 0 && v.getD 4 0 ≤ 57 &&
    (v.drop 5).all Lib.isDigit

def upper (c : UInt8) : Bool := 65 ≤ c && c ≤ 90

def operation (v : Bytes) : Bool :=
  match v with
  | [] => false
  | c :: s => v.length ≤ 64 && upper c && s.all fun c => upper c || Lib.isDigit c || c = 95

def names (keys : List String) : List Bytes := keys.map ascii

/-! ## Bodies -/

def helloBody (b : Value) : Body × Bool :=
  let versions := get b "versions"
  let strings := (versions.elements 16).map Value.string
  let valid := versions.type = 91 &&
    (versions.elements 16).all (fun v => v.type = 34 && version v.string) &&
    !strings.isEmpty && strings.length ≤ 16 && decide strings.Nodup
  (.hello strings, valid && fields b (names ["versions", "client_name", "client_version"]) &&
    text (get b "client_name") 1 64 && text (get b "client_version") 1 64)

def leaseBody (b : Value) (claim : Bool) : Body × Bool :=
  let owner := get b "owner_id"
  let lease := get b "lease_ms"
  if ¬ fields b (names ["owner_id", "lease_ms"]) ∨ ¬ identifier owner ∨ ¬ Lib.isDigit lease.type ∨
      lease.integer < 5000 ∨ 60000 < lease.integer then (.monostate, false)
  else
    let leaseMs := UInt32.ofNat lease.integer.toNat
    (if claim then .claim owner.string leaseMs else .renew owner.string leaseMs, true)

def armBody (b : Value) : Body × Bool :=
  if ¬ fields b (names ["job_id", "start_utc_ns", "max_start_uncertainty_ns"]) ∨
      ¬ identifier (get b "job_id") then (.monostate, false)
  else
    match decimal (get b "start_utc_ns"), decimal (get b "max_start_uncertainty_ns") with
    | some start, some uncertainty => (.arm (get b "job_id").string start uncertainty, true)
    | _, _ => (.monostate, false)

def abortBody (b : Value) : Body × Bool :=
  if ¬ fields b (names ["job_id"]) ∨ ¬ identifier (get b "job_id") then (.monostate, false)
  else (.abort (get b "job_id").string, true)

def pingBody (b : Value) : Body × Bool :=
  if ¬ fields b [] (names ["token"]) then (.monostate, false)
  else
    match b.get (ascii "token") with
    | none => (.ping none, true)
    | some token =>
      if ¬ text token 0 64 then (.monostate, false) else (.ping (some token.string), true)

def truth (v : Value) : Bool := v.raw = ascii "true" || v.raw = ascii "false"

def decodeEvent (e : Value) : Option RfEvent :=
  if ¬ fields e (names ["offset_ns", "duration_ns", "rf_on"]) (names ["frequency_nhz"]) then none
  else
    match decimal (get e "offset_ns"), decimal (get e "duration_ns") true with
    | some offsetNs, some durationNs =>
      let rfOn := get e "rf_on"
      let f := e.get (ascii "frequency_nhz")
      if ¬ truth rfOn ∨ rfOn.boolean ≠ f.isSome then none
      else
        match f with
        | none => some { offsetNs, durationNs, rfOn := rfOn.boolean, frequencyNhz := none }
        | some f =>
          (decimal f true).map fun frequency =>
            { offsetNs, durationNs, rfOn := rfOn.boolean, frequencyNhz := some frequency }
    | _, _ => none

/-- The first pass over the events, which counts them. -/
def countEvents (events : Value) : Nat → Nat → Nat → Option Nat
  | 0, _, count => some count
  | fuel + 1, cursor, count =>
    match events.nextElement cursor with
    | none => some count
    | some (_, cursor) =>
      if 512 < count + 1 then none else countEvents events fuel cursor (count + 1)

/-- The second pass: the events of the job, or their digest for a replay. -/
def decodeEvents (allocate : Nat → Bool) (replay : Bool) (events : Value) :
    Nat → Nat → JobDigestBuilder → EventList → Option (JobDigestBuilder × EventList)
  | 0, _, digest, l => some (digest, l)
  | fuel + 1, cursor, digest, l =>
    match events.nextElement cursor with
    | none => some (digest, l)
    | some (e, cursor) =>
      match decodeEvent e with
      | none => none
      | some event =>
        if replay then decodeEvents allocate replay events fuel cursor (digest.append event) l
        else
          let pushed := pushBack allocate l event
          if pushed.2 then decodeEvents allocate replay events fuel cursor digest pushed.1
          else some (digest, pushed.1)

def modes : List Bytes := names ["wspr", "qrss", "fskcw", "dfcw", "cw", "tone"]

/-- What a job says in front of its events. -/
def loadHeader (b : Value) : Option Job :=
  if ¬ fields b (names ["job_id", "profile", "mode", "total_duration_ns", "events"])
      (names ["allow_frequency_adjustment"]) ∨ ¬ identifier (get b "job_id") ∨
      ¬ text (get b "profile") 11 11 ∨ (get b "profile").string ≠ ascii "rf-events/1" ∨
      ¬ text (get b "mode") 2 5 then none
  else
    match decimal (get b "total_duration_ns") true with
    | none => none
    | some totalDurationNs =>
      let job : Job :=
        { jobId := (get b "job_id").string, mode := (get b "mode").string, totalDurationNs }
      if (get b "events").type ≠ 91 ∨ job.mode ∉ modes then none
      else
        match b.get (ascii "allow_frequency_adjustment") with
        | none => some job
        | some allow =>
          if ¬ truth allow then none
          else some { job with allowFrequencyAdjustment := allow.boolean }

def loadBody (allocate : Nat → Bool) (activeReplayId : Bytes) (b : Value) : Body × Bool :=
  match loadHeader b with
  | none => (.monostate, false)
  | some job =>
    let events := get b "events"
    let fuel := events.raw.length + 1
    match countEvents events fuel 0 0 with
    | none => (.monostate, false)
    | some 0 => (.monostate, false)
    | some count =>
      let replay := !activeReplayId.isEmpty && job.jobId = activeReplayId
      let reserved := reserve allocate job.events count
      if ¬ replay ∧ ¬ reserved.2 then (.job { job with events := reserved.1 }, true)
      else
        match decodeEvents allocate replay events fuel 0 (digestHeader job count) job.events with
        | none => (.monostate, false)
        | some (digest, l) =>
          if replay then (.loadReplay job.jobId digest.digest.finish, true)
          else (.job { job with events := l }, true)

/-- The body of an operation, with whether it is valid. -/
def body (allocate : Nat → Bool) (activeReplayId op : Bytes) (b : Value) : Body × Bool :=
  if op = ascii "HELLO" then helloBody b
  else if op = ascii "CLAIM" ∨ op = ascii "RENEW" then leaseBody b (op = ascii "CLAIM")
  else if op = ascii "ARM" then armBody b
  else if op = ascii "ABORT" then abortBody b
  else if op = ascii "PING" then pingBody b
  else if op = ascii "LOAD" then loadBody allocate activeReplayId b
  else
    (.monostate, op ∈ names ["CAPS", "STATUS", "GET_CLOCK", "RELEASE"] && fields b [])

def decodeRequest (allocate : Nat → Bool) (root : Value) (principal payload : Bytes)
    (activeReplayId : Bytes := []) (originalDigest : Option PayloadDigest := none) :
    Option Request :=
  if ¬ fields root (names ["type", "protocol", "session_id", "request_id", "op", "body"]) ∨
      (get root "type").string ≠ ascii "request" ∨ ¬ identifier (get root "session_id") ∨
      ¬ identifier (get root "request_id") ∨ (get root "protocol").type ≠ 34 ∨
      ¬ version (get root "protocol").string ∨ (get root "op").type ≠ 34 ∨
      ¬ operation (get root "op").string ∨ (get root "body").type ≠ 123 then none
  else
    let op := (get root "op").string
    let decoded := body allocate activeReplayId op (get root "body")
    some {
      protocol := (get root "protocol").string
      sessionId := (get root "session_id").string
      requestId := (get root "request_id").string
      principal
      operation := op
      payloadDigest := originalDigest.getD (sha256 payload)
      body := decoded.1
      bodyValid := decoded.2 }

end WsprryPico.Wtp.Codec
