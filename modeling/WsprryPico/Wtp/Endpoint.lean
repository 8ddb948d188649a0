import WsprryPico.Wtp.JobService
import WsprryPico.Wtp.FrameParser
import WsprryPico.Wtp.Encode
import WsprryPico.Wtp.Json.Compact

/-!
# The endpoint

`Endpoint` of `wtp/endpoint.cpp`: the bytes of one connection, the requests in them and the
frames that answer. An endpoint works on a `JobService` that others work on too. What it does
is kept as a history, which no function reads.
-/

namespace WsprryPico.Wtp

open Lib Json

variable {ω α : Type}

/-- What surrounds an endpoint: the environment of its service, and the answers of the memory. -/
structure Host (ω : Type) where
  env : Env ω
  authoritativeMemoryAdmitted : Nat → ω → Bool × ω
  /-- Of the buffer of a frame, while it grows by a byte. -/
  inputMemory : ω → InputMemory × ω
  /-- Of the pages of the events of a job. -/
  eventPages : ω → (Nat → Bool) × ω
  /-- Of the page of a LOAD reply. -/
  responsePage : ω → Bool × ω
  /-- How often the compaction of a payload polls the service. -/
  compactionPolls : Bytes → Nat

/-- A frame on its way out. A LOAD reply is read page by page. -/
structure OutputFrame where
  header : Bytes
  payload : Bytes
  paged : Bool

def OutputFrame.size (frame : OutputFrame) : Nat := frame.header.length + frame.payload.length

inductive WireEvent where
  /-- The endpoint takes a boot id, and counts events from zero. -/
  | booted (boot : String)
  | connected (principal : Bytes)
  | disconnected
  /-- A byte of the stream is taken. -/
  | accepted (byte : UInt8)
  /-- The frame of a payload is complete. -/
  | arrived (payload : Bytes)
  /-- A payload waits for memory. -/
  | deferred (now : UInt64)
  | resumed (now : UInt64)
  /-- The service handles a request. -/
  | dispatched (request : Codec.Request) (response : Response)
  /-- The endpoint answers a request by itself. -/
  | refused (request : Codec.Request) (response : Response)
  /-- A response is queued. -/
  | replied (frame : OutputFrame)
  /-- An event is queued. -/
  | notified (id : UInt64) (frame : OutputFrame)
  /-- The first frame of the queue is consumed. -/
  | sent
  /-- The connection closes when its output is sent. -/
  | ended

structure Endpoint where
  deviceId : Bytes
  firmwareVersion : Bytes
  boot : String
  observed : ServiceStatus
  history : List WireEvent
  principal : Bytes := []
  session : Bytes := []
  parser : FrameParser := {}
  pendingInput : Bytes := []
  pendingInputDigest : Option PayloadDigest := none
  pendingInputSinceMs : UInt64 := 0
  pendingInputWorkspace : Nat := 6144
  output : List OutputFrame := []
  offset : Nat := 0
  queuedBytes : Nat := 0
  lastTxProgressMs : UInt64 := 0
  eventId : UInt64 := 0
  closed : Bool := true
  closing : Bool := false

/-- An endpoint and its service. -/
structure Wire (ω : Type) where
  endpoint : Endpoint
  service : Sys ω

abbrev WireM (ω : Type) := StateM (Wire ω)

namespace WireM

def endpoint : WireM ω Endpoint := fun w => (w.endpoint, w)

def update (f : Endpoint → Endpoint) : WireM ω Unit := fun w =>
  ((), { w with endpoint := f w.endpoint })

/-- A computation of the service. -/
def serve (m : SysM ω α) : WireM ω α := fun w =>
  ((m w.service).1, { w with service := (m w.service).2 })

/-- A question to the environment. -/
def ask (f : ω → α × ω) : WireM ω α := serve (onAuthority (AuthM.query f))

end WireM

/-- `active_load_replay_id`. -/
def Authority.activeLoadReplayId (a : Authority) : Bytes :=
  match a.job with
  | some job => if a.state = .loaded ∨ a.state = .armed then bytesOf job.jobId else []
  | none => []

namespace Endpoint

open WireM

variable (host : Host ω)

/-! ## State -/

def record (event : WireEvent) (e : Endpoint) : Endpoint :=
  { e with history := e.history ++ [event] }

def canReceive (e : Endpoint) : Bool :=
  !e.closed && !e.closing && e.output.isEmpty && e.pendingInput.isEmpty

def disconnect (e : Endpoint) : Endpoint :=
  { e.record .disconnected with
    parser := {}, pendingInput := [], pendingInputDigest := none, output := [], offset := 0
    queuedBytes := 0, session := [], principal := [], closed := true, closing := false }

/-- `FrameParser::end_of_stream`. -/
def endOfStream (parser : FrameParser) : FrameParser :=
  { parser with buffer := {}, partialFrame := false, closed := true }

def closeAfterOutput (e : Endpoint) : Endpoint :=
  { e.record .ended with
    parser := endOfStream e.parser, pendingInput := [], pendingInputDigest := none
    closing := true, closed := if e.output.isEmpty then true else e.closed }

/-- A frame goes to the end of the queue. -/
def push (frame : OutputFrame) (now : UInt64) (mark : WireEvent) (e : Endpoint) : Endpoint :=
  { e.record mark with
    lastTxProgressMs := if e.output.isEmpty then now else e.lastTxProgressMs
    queuedBytes := e.queuedBytes + frame.size, output := e.output ++ [frame] }

/-- A payload waits. -/
def retain (payload : Bytes) (digest : Option PayloadDigest) (now : UInt64) (e : Endpoint) :
    Endpoint :=
  { e.record (.deferred now) with
    pendingInput := payload, pendingInputDigest := digest, pendingInputSinceMs := now }

/-- The boot id of the service replaces an earlier one. -/
def observeBoot (boot : String) (e : Endpoint) : Endpoint :=
  { e.record (.booted boot) with boot, eventId := 0 }

/-! ## Output -/

/-- Whether a frame with this payload has a place in the queue. -/
def room (text : Bytes) (e : Endpoint) : Bool :=
  !text.isEmpty && text.length ≤ maximumPayloadBytes && e.output.length < 8 &&
    e.queuedBytes + text.length + frameHeaderBytes ≤ 131072

/-- Whether there is room and memory for it. -/
def admitsFrame (text : Bytes) : WireM ω Bool := do
  if (← endpoint).room text then ask (host.authoritativeMemoryAdmitted 1024) else return false

/-- `enqueue`, in both its forms. What fails is left out where it is advisory. -/
def enqueue (text : Bytes) (paged : Bool) (now : UInt64) (advisory : Bool)
    (mark : OutputFrame → WireEvent) : WireM ω Unit := do
  if ← admitsFrame host text then
    let frame : OutputFrame := ⟨encodeFrameHeader text.length (crc32c text), text, paged⟩
    update (push frame now (mark frame))
  else if !advisory then
    update disconnect

def eventText (session : Bytes) (boot : String) (id : UInt64) (name : String) (body : Bytes) :
    Bytes :=
  ascii "\x7b\"type\":\"event\",\"protocol\":\"WTP/1\",\"session_id\":" ++ quote session ++
    ascii ",\"boot_id\":" ++ quoted boot ++ ascii ",\"event_id\":" ++ ns id ++
    ascii ",\"event\":" ++ quote (ascii name) ++ ascii ",\"body\":" ++ body ++ ascii "\x7d"

def event (name : String) (body : Bytes) (now : UInt64) : WireM ω Unit := do
  let e ← endpoint
  if e.session.isEmpty || e.closed || e.closing then
    return
  if e.eventId = u64Max then
    update disconnect
  else
    update fun e => { e with eventId := e.eventId + 1 }
    enqueue host (eventText e.session e.boot e.eventId name body) false now true
      (.notified e.eventId)

/-! ## Observation -/

def stateBody (job : Option String) (state : State) (active : Bool) : Bytes :=
  ascii "\x7b\"job_id\":" ++ nullable job ++ ascii ",\"state\":" ++ quote (stateName state) ++
    ascii ",\"output_active\":" ++ boolean active ++ ascii "\x7d"

def terminalNews (t : TerminalRecord) : List (String × Bytes) :=
  let b := stateBody (some t.jobId) t.state t.outputActive
  let b := if t.error ≠ .none then
      b.dropLast ++ ascii ",\"error\":" ++ errorJson t.error ++ ascii "\x7d"
    else b
  ("JOB_STATE", b) :: (if t.state = .missed then [("MISSED_START", b)] else []) ++
    (if t.state = .failed then [("DEVICE_FAULT", b)] else [])

/-- The events of a state that no terminal record tells of. -/
def stateNews (observed s : ServiceStatus) : List (String × Bytes) :=
  let terminalCurrent := s.terminalRecords.head?.any fun t =>
    s.jobId = some t.jobId && t.state = s.state
  if (s.state ≠ observed.state ∨ s.jobId ≠ observed.jobId) ∧ !terminalCurrent then
    (if s.state ≠ .failed ∨ s.jobId.isSome then
        [("JOB_STATE", stateBody s.jobId s.state s.outputActive)] else []) ++
      (if s.state = .failed then
        [("DEVICE_FAULT", ascii "\x7b\"state\":\"failed\",\"output_active\":" ++
          boolean s.outputActive ++ ascii ",\"error\":" ++ errorJson .deviceFault ++
          ascii "\x7d")] else [])
  else []

/-- The event of an owner that is gone. -/
def ownerNews (observed s : ServiceStatus) (released : Bool) : List (String × Bytes) :=
  match observed.ownerId, s.ownerId with
  | some owner, none =>
    let reason := if released then "released"
      else if observed.state = .armed ∨ observed.state = .running then "terminal"
      else "lease_expired"
    [("OWNER_RELEASED", ascii "\x7b\"owner_id\":" ++ quoted owner ++ ascii ",\"reason\":" ++
      quote (ascii reason) ++ ascii ",\"output_active\":" ++ boolean s.outputActive ++
      ascii "\x7d")]
  | _, _ => []

/-- What has happened between two observations, the oldest terminal record first. -/
def news (observed s : ServiceStatus) (released : Bool) : List (String × Bytes) :=
  ((s.terminalRecords.reverse.filter fun t => t ∉ observed.terminalRecords).flatMap
    terminalNews) ++ stateNews observed s ++ ownerNews observed s released

def notify (now : UInt64) : List (String × Bytes) → WireM ω Unit
  | [] => pure ()
  | (name, body) :: rest => do
    event host name body now
    notify now rest

def serviceStatus : WireM ω ServiceStatus := serve (onAuthority (Wtp.status host.env))

def observe (now : UInt64) (released : Bool := false) : WireM ω Unit := do
  let s ← serviceStatus host
  let e ← endpoint
  if s.bootId ≠ e.boot then
    update fun e => { (e.observeBoot s.bootId).disconnect with observed := s }
  else
    notify host now (news e.observed s released)
    update fun e => { e with observed := s }

def connect (principal : Bytes) : WireM ω Unit := do
  update disconnect
  update fun e => { e.record (.connected principal) with principal, parser := {}, closed := false }
  let s ← serviceStatus host
  update fun e => { e with observed := s }
  let e ← endpoint
  if e.boot ≠ s.bootId then
    update (observeBoot s.bootId)

/-! ## Requests -/

def pollService : WireM ω Unit := serve (Wtp.poll host.env)

def pollServiceTimes : Nat → WireM ω Unit
  | 0 => pure ()
  | n + 1 => do
    pollService host
    pollServiceTimes n

def admits (bytes : Nat) : WireM ω Bool := ask (host.authoritativeMemoryAdmitted bytes)

/-- The stream of a LOAD reply, empty where there is no memory for it. -/
def loadResponseStream (request : Codec.Request) (response : Response) (text : Bytes) :
    WireM ω Bytes := do
  if !response.ok || request.operation ≠ ascii "LOAD" || 512 < response.adjustments.length then
    return []
  if !(← ask (host.env.memoryAdmitted 6144)) then
    return []
  if 65536 < text.length then
    return []
  if !(← ask host.responsePage) then
    return []
  return text

/-- The response to a request is queued. -/
def reply (request : Codec.Request) (response : Response) (now : UInt64) : WireM ω Unit := do
  let e ← endpoint
  let config := (← serve (onAuthority AuthM.auth)).config
  let text := encodeResponse request response config e.deviceId e.firmwareVersion
  if response.ok && request.operation = ascii "LOAD" then
    let encoded ← loadResponseStream host request response text
    pollService host
    enqueue host encoded true now false .replied
  else
    pollService host
    enqueue host text false now false .replied

/-- The session check of a request: the code with which it is answered here, if it is. -/
def sessionError (request : Codec.Request) (e : Endpoint) : Option ErrorCode :=
  if e.principal.isEmpty then some .authenticationRequired
  else if e.session.isEmpty && request.operation ≠ ascii "HELLO" then some .helloRequired
  else if !e.session.isEmpty && e.session ≠ request.sessionId then some .sessionReplaced
  else none

/-- A successful HELLO gives the connection its session. -/
def greet (request : Codec.Request) (response : Response) (e : Endpoint) : Endpoint :=
  if response.ok && request.operation = ascii "HELLO" then { e with session := request.sessionId }
  else e

def respond (request : Codec.Request) (now : UInt64) : WireM ω Response := do
  match (← endpoint).sessionError request with
  | some .sessionReplaced =>
    event host "SESSION_REPLACED" (ascii "\x7b\"error\":" ++ errorJson .sessionReplaced ++
      ascii "\x7d") now
    let response : Response := { error := .sessionReplaced, closeConnection := true }
    update (record (.refused request response))
    return response
  | some error =>
    let response : Response := { error }
    update (record (.refused request response))
    return response
  | none =>
    let response ← serve (Wtp.handle host.env request.toService)
    update (record (.dispatched request response))
    update (greet request response)
    return response

def answer (request : Codec.Request) (now : UInt64) : WireM ω Unit := do
  let response ← respond host request now
  pollService host
  reply host request response now
  observe host now (response.ok && request.operation = ascii "RELEASE")
  if response.closeConnection then
    update closeAfterOutput

/-- A payload is decoded and its request answered. -/
def decode (root : Value) (bytes : Bytes) (digest : Option PayloadDigest) (replayId : Bytes)
    (now : UInt64) : WireM ω Unit := do
  let allocate ← ask host.eventPages
  let replayId := if Codec.isActiveLoadReplay root replayId then replayId else []
  let request := Codec.decodeRequest allocate root (← endpoint).principal bytes replayId digest
  pollService host
  match request with
  | none => update closeAfterOutput
  | some request => answer host request now

/-! ## Payloads -/

/-- The memory a parsed request needs. -/
def workspace (root : Value) (replayId : Bytes) : Nat :=
  if Codec.isActiveLoadReplay root replayId || Codec.isBoundedControlRequest root then 6144
  else 32768

/-- The workspace of a parsed payload is asked for; whether it is there. -/
def admitsRoot (root : Value) (replayId : Bytes) : WireM ω Bool := do
  update fun e => { e with pendingInputWorkspace := workspace root replayId }
  admits host (workspace root replayId)

def activeLoadReplayId : WireM ω Bytes := do
  return (← serve (onAuthority AuthM.auth)).activeLoadReplayId

/-- `json::parse` between two polls of the service, but for the first. -/
def parsePayload (bytes : Bytes) : WireM ω (Option Value) := do
  let root := parse bytes
  pollService host
  return root

/-- A payload with too little memory for its request is compacted, and tried again. -/
def compactPayload (bytes : Bytes) (now : UInt64) : WireM ω Unit := do
  let digest := sha256 bytes
  pollServiceTimes host ((bytes.length + FrameBuffer.pageBytes - 1) / FrameBuffer.pageBytes)
  let compacted := compactValidatedJson bytes
  pollServiceTimes host (host.compactionPolls bytes)
  if !(← admits host 6144) then
    update (retain compacted (some digest) now)
  else
    match ← parsePayload host compacted with
    | none => update closeAfterOutput
    | some root =>
      let replayId ← activeLoadReplayId
      if ← admitsRoot host root replayId then
        decode host root compacted (some digest) replayId now
      else
        update (retain compacted (some digest) now)

def payload (bytes : Bytes) (now : UInt64) (digest : Option PayloadDigest := none) :
    WireM ω Unit := do
  update fun e => { e with pendingInputWorkspace := 6144 }
  if !(← admits host 6144) then
    update (retain bytes digest now)
  else
    pollService host
    match ← parsePayload host bytes with
    | none => update closeAfterOutput
    | some root =>
      let replayId ← activeLoadReplayId
      if ← admitsRoot host root replayId then
        decode host root bytes digest replayId now
      else if digest.isNone then
        compactPayload host bytes now
      else
        update (retain bytes digest now)

/-! ## Bytes -/

def frameEvents (now : UInt64) : List FrameEvent → WireM ω Unit
  | [] => pure ()
  | .payload bytes :: rest => do
    update (record (.arrived bytes))
    payload host bytes now
    frameEvents now rest
  | .invalidFrame :: rest => do
    event host "INVALID_FRAME" (ascii "\x7b\"error\":" ++ errorJson .invalidFrame ++
      ascii "\x7d") now
    frameEvents now rest
  | .closed :: rest => do
    update closeAfterOutput
    frameEvents now rest

/-- A byte goes to the parser. -/
def feedByte (byte : UInt8) (now : UInt64) : WireM ω Unit := do
  update (record (.accepted byte))
  let memory ← ask host.inputMemory
  let fed := (← endpoint).parser.feed memory [byte] now
  update fun e => { e with parser := fed.1 }
  frameEvents host now fed.2

/-- The loop of `receive`. -/
def receiveBytes (now : UInt64) : Bytes → Nat → WireM ω Nat
  | [], count => pure count
  | byte :: rest, count => do
    if (← endpoint).canReceive then
      feedByte host byte now
      receiveBytes now rest (count + 1)
    else
      return count

def receive (input : Bytes) (now : UInt64) : WireM ω Nat :=
  receiveBytes host now (input.take 64) 0

/-- `now >= since && now - since >= 5000`. -/
def overdue (now since : UInt64) : Bool := decide (since ≤ now) && decide (5000 ≤ now - since)

/-- A payload that waits is given up, or tried again. -/
def pollPending (now : UInt64) : WireM ω Unit := do
  let e ← endpoint
  if !e.pendingInput.isEmpty then
    if overdue now e.pendingInputSinceMs then
      update closeAfterOutput
    else if e.output.isEmpty then
      if ← admits host e.pendingInputWorkspace then
        update fun e => { e.record (.resumed now) with
          pendingInput := [], pendingInputDigest := none }
        payload host e.pendingInput now e.pendingInputDigest
        -- a changed budget does not begin the time again
        update fun e' => if e'.pendingInput.isEmpty then e'
          else { e' with pendingInputSinceMs := e.pendingInputSinceMs }

/-- The end of `poll`: the time of a partial frame. -/
def pollTimeout (now : UInt64) : WireM ω Unit := do
  let e ← endpoint
  if !e.closing then
    update fun e => { e with parser := (e.parser.checkTimeout now).1 }
    frameEvents host now (e.parser.checkTimeout now).2

def poll (now : UInt64) : WireM ω Unit := do
  pollService host
  observe host now
  let e ← endpoint
  if e.closed then
    return
  if !e.output.isEmpty && overdue now e.lastTxProgressMs then
    update disconnect
  else
    pollPending host now
    pollTimeout host now

/-- The size of `output()`. -/
def available (e : Endpoint) : Nat :=
  match e.output with
  | [] => 0
  | frame :: _ =>
    if e.offset < frame.header.length then frame.header.length - e.offset
    else
      let offset := e.offset - frame.header.length
      if frame.paged then min (frame.payload.length - offset) (4096 - offset % 4096)
      else frame.payload.length - offset

def consumeOutput (count : Nat) (now : UInt64) (e : Endpoint) : Endpoint :=
  if e.available < count then e.disconnect
  else if count = 0 then e
  else
    let e := { e with offset := e.offset + count, lastTxProgressMs := now }
    match e.output with
    | [] => e
    | frame :: rest =>
      if e.offset = frame.size then
        { e.record .sent with
          queuedBytes := e.queuedBytes - frame.size, output := rest, offset := 0
          closed := if rest.isEmpty && e.closing then true else e.closed }
      else e

end Endpoint

/-! ## Runs -/

/-- The calls on an endpoint, and what others make of its service. -/
inductive WireCall (ω : Type) where
  | connect (principal : Bytes)
  | disconnect
  | poll (now : UInt64)
  | receive (input : Bytes) (now : UInt64)
  | consumeOutput (count : Nat) (now : UInt64)
  | elsewhere (service : Sys ω)

variable (host : Host ω)

def WireCall.perform : WireCall ω → WireM ω Unit
  | .connect principal => Endpoint.connect host principal
  | .disconnect => WireM.update Endpoint.disconnect
  | .poll now => Endpoint.poll host now
  | .receive input now => do
    let _ ← Endpoint.receive host input now
  | .consumeOutput count now => WireM.update (Endpoint.consumeOutput count now)
  | .elsewhere service => fun w => ((), { w with service })

/-- `Endpoint::Endpoint` on a service. -/
def Endpoint.construct (device firmware : Bytes) (service : Sys ω) : Wire ω :=
  let (first, service) := onAuthority (status host.env) service
  let (second, service) := onAuthority (status host.env) service
  { endpoint := {
      deviceId := device, firmwareVersion := firmware, boot := first.bootId, observed := second
      history := [.booted first.bootId] }
    service }

def Wire.run (device firmware : Bytes) (service : Sys ω) (calls : List (WireCall ω)) : Wire ω :=
  calls.foldl (fun w call => (call.perform host w).2) (Endpoint.construct host device firmware
    service)

end WsprryPico.Wtp
