import WsprryPico.Wtp.Json
import WsprryPico.Provisioning.LocalAccess

/-!
# The USB management endpoint

`ManagementEndpoint` of `usb/management_endpoint.cpp`: frames over USB, a request in each,
and the acknowledgement of its reply. What the endpoint does is kept as a history, with the
calls of its handler and of its finisher.
-/

namespace WsprryPico.Usb

open Lib Wtp.Json

def maximumRequest : Nat := 32768
def maximumResponse : Nat := 65536
def transactionTimeoutMs : UInt64 := 10000

structure HttpRequest where
  method : Bytes
  path : Bytes
  body : Bytes
  ifMatch : Bytes

/-- What the handler answers. A generated body is counted before it is framed. -/
structure HttpResponse where
  status : Nat := 200
  body : Bytes := []
  etag : Bytes := []
  generated : Bool := false
  replayable : Bool := true

/-- The answers of the memory during one call, which asks once for a frame and once for a
reply. -/
structure Memory where
  input : Bool := true
  output : Bool := true

inductive EndpointEvent where
  /-- `connect` has accepted a session. -/
  | connected (session : Bytes)
  | disconnected
  /-- The time limit of a transaction begins. -/
  | started (now : UInt64)
  /-- A frame has brought the next id. -/
  | identified (id : Int)
  | hello
  /-- The handler is called, for a transaction. -/
  | handled (request : HttpRequest) (transaction : Nat)
  /-- The output has taken the last byte of a reply. -/
  | consumed
  /-- A frame acknowledges the reply. -/
  | acknowledged (payload : Bytes) (now : UInt64)
  /-- `finish_` is called. -/
  | finished (transaction : Nat) (delivered : Bool)

/-- A reply on its way out: its document, the windows it is read in, and the bytes of a
generated body that are counted, while they are. -/
structure Output where
  document : Bytes
  window : Nat
  body : Bytes := []
  counted : Option Nat := none

structure ManagementEndpoint where
  device : Bytes
  boot : Bytes
  firmware : Bytes
  history : List EndpointEvent := []
  session : Bytes := []
  header : Bytes := []
  expected : Nat := 0
  input : Bytes := []
  output : Option Output := none
  outputHeader : Bytes := List.replicate 8 0
  outputOffset : Nat := 0
  startedMs : UInt64 := 0
  generation : Nat := 0
  transaction : Nat := 0
  lastId : Int := 0
  closed : Bool := true
  negotiated : Bool := false
  pending : Bool := false
  timing : Bool := false

namespace ManagementEndpoint

def record (event : EndpointEvent) (e : ManagementEndpoint) : ManagementEndpoint :=
  { e with history := e.history ++ [event] }

/-! ## Documents -/

/-- `application::target`. -/
def target (e : ManagementEndpoint) : Bytes :=
  ascii "\x7b\"scope\":\"member\",\"device_id\":" ++ quote e.device ++ ascii ",\"boot_id\":" ++
    quote e.boot ++ ascii "\x7d"

/-- `std::to_string` of a signed number. -/
def signed (n : Int) : Bytes :=
  if n < 0 then 45 :: Lib.decimal n.natAbs else Lib.decimal n.natAbs

/-- What stands before the body of a reply. -/
def responsePrefix (status : Nat) (e : ManagementEndpoint) : Bytes :=
  ascii "\x7b\"schema\":\"usb-management/1\",\"id\":" ++ signed e.lastId ++
    ascii ",\"status\":" ++ Lib.decimal status ++ ascii ",\"session\":" ++ quote e.session ++
    ascii ",\"target\":" ++ e.target ++ ascii ",\"body\":\""

def responseSuffix (response : HttpResponse) (delivery : Bool) : Bytes :=
  ascii "\",\"etag\":" ++ quote response.etag ++ ascii ",\"delivery_required\":" ++
    ascii (if delivery then "true\x7d" else "false\x7d")

/-- `response_escape` over a body. -/
def escaped (body : Bytes) : Bytes := body.flatMap quoteByte

def frameHeader (length : Nat) : Bytes :=
  ascii "UMP1" ++ [24, 16, 8, 0].map fun shift => UInt8.ofNat (length >>> shift)

def discovery (e : ManagementEndpoint) : HttpResponse where
  body := ascii
      "\x7b\"schema\":\"usb-management-discovery/1\",\"product\":\"WsprryPico\",\"firmware\":" ++
    quote e.firmware ++
    ascii ",\"max_request_bytes\":32768,\"max_response_bytes\":65536\x7d"

def acknowledgement : HttpResponse where
  body := ascii "\x7b\"acknowledged\":true\x7d"

/-! ## Connections -/

def clearInput (e : ManagementEndpoint) : ManagementEndpoint :=
  { e with input := [], expected := 0, header := [] }

/-- `finish_`. -/
def finish (delivered : Bool) (e : ManagementEndpoint) : ManagementEndpoint :=
  { e.record (.finished e.transaction delivered) with pending := false }

def disconnect (e : ManagementEndpoint) : ManagementEndpoint :=
  let e := if e.pending then e.finish false else e
  { e.clearInput.record .disconnected with
    output := none, outputOffset := 0, timing := false, negotiated := false, closed := true,
    session := [] }

def sessionText (session : Bytes) : Bool :=
  session.length = 32 && session.all fun c => isDigit c || (97 ≤ c && c ≤ 102)

def connect (session : Bytes) (e : ManagementEndpoint) : ManagementEndpoint :=
  let e := e.disconnect
  if !sessionText session ∨ e.generation = 0x3fffffff then e
  else
    { e.record (.connected session) with
      generation := e.generation + 1, lastId := 0, session, closed := false }

/-! ## Replies -/

/-- `EscapedResponseSource::count_step`, one raw window at most. -/
def countStep (o : Output) : Option Output :=
  match o.counted with
  | none => some o
  | some counted =>
    if counted = o.body.length then some o
    else if 64 * 1024 ≤ counted then none
    else some { o with counted := some (counted + min 1024 (o.body.length - counted)) }

def poll (now : UInt64) (e : ManagementEndpoint) : ManagementEndpoint :=
  if e.timing ∧ Provisioning.elapsed now e.startedMs transactionTimeoutMs then e.disconnect
  else
    match e.output with
    | none => e
    | some o =>
      if o.counted.isNone then e
      else
        match countStep o with
        | none => e.disconnect
        | some o =>
          if o.counted = some o.body.length then
            if maximumResponse < o.document.length then e.disconnect
            else
              { e with output := some { o with counted := none }
                       outputHeader := frameHeader o.document.length }
          else { e with output := some o }

def respond (memory : Memory) (status : Nat) (response : HttpResponse) (delivery : Bool)
    (e : ManagementEndpoint) : Bool × ManagementEndpoint :=
  let before := e.responsePrefix status
  let after := responseSuffix response delivery
  let document := before ++ escaped response.body ++ after
  if !response.generated then
    if maximumResponse < document.length ∨ !memory.output then (false, e)
    else
      (true, { e with output := some { document, window := 4096 }
                      outputHeader := frameHeader document.length, outputOffset := 0 })
  else if !memory.output ∨ maximumResponse < response.body.length ∨ !response.replayable then
    (false, e)
  else
    (true,
      { e with
        output := some { document, window := 1024, body := response.body, counted := some 0 }
        outputHeader := frameHeader (before.length + after.length), outputOffset := 0 })

/-! ## Requests -/

def binding (value : Value) (e : ManagementEndpoint) : Bool :=
  match value.get (ascii "session"), value.get (ascii "target") with
  | some session, some destination =>
    session.type = 34 && session.string = e.session &&
      fields destination (["scope", "device_id", "boot_id"].map ascii) &&
      (["scope", "device_id", "boot_id"].all fun name =>
        ((destination.get (ascii name)).getD {}).type = 34) &&
      ((destination.get (ascii "scope")).getD {}).string = ascii "member" &&
      ((destination.get (ascii "device_id")).getD {}).string = e.device &&
      ((destination.get (ascii "boot_id")).getD {}).string = e.boot
  | _, _ => false

/-- The members every frame has: its id and its operation. -/
def envelope (root : Value) : Option (Int × Bytes) :=
  match root.get (ascii "schema"), root.get (ascii "id"), root.get (ascii "operation") with
  | some version, some id, some op =>
    if version.type ≠ 34 ∨ version.string ≠ ascii "usb-management/1" ∨ !isDigit id.type ∨
        id.integer ≤ 0 ∨ op.type ≠ 34 then none
    else some (id.integer, op.string)
  | _, _, _ => none

def ackFields : List Bytes := ["schema", "id", "operation", "session", "target"].map ascii
def requestFields : List Bytes :=
  ["schema", "id", "operation", "session", "target", "method", "path", "body", "if_match"].map ascii

def acknowledge (memory : Memory) (now : UInt64) (root : Value) (sequence : Int)
    (e : ManagementEndpoint) : Bool × ManagementEndpoint :=
  if !fields root ackFields ∨ !e.negotiated ∨ !e.pending ∨ sequence ≠ e.lastId ∨
    !e.binding root then
    (false, e)
  else
    -- the reply is allocated before a deferred restart can run
    match e.respond memory 200 acknowledgement false with
    | (false, e) => (false, e)
    | (true, e) => (true, (e.record (.acknowledged e.input now)).finish true)

def member (root : Value) (name : String) : Value := (root.get (ascii name)).getD {}

/-- The request that a frame brings. -/
def readRequest (root : Value) : Option HttpRequest :=
  if !(["method", "path", "body", "if_match"].all fun name => (member root name).type = 34) then
    none
  else
    let request : HttpRequest :=
      { method := (member root "method").string, path := (member root "path").string,
        body := (member root "body").string, ifMatch := (member root "if_match").string }
    if 128 < request.path.length ∨ 8 < request.method.length ∨
      256 < request.ifMatch.length then none
    else some request

/-- Bit 62, the generation of the connection and the id. -/
def transactionId (generation : Nat) (sequence : Int) : Nat :=
  (1 <<< 62) ||| (generation <<< 31) ||| sequence.toNat

def handle (memory : Memory) (handler : HttpRequest → HttpResponse) (root : Value) (sequence : Int)
    (e : ManagementEndpoint) : Bool × ManagementEndpoint :=
  if !e.negotiated ∨ !e.binding root ∨ !fields root requestFields then (false, e)
  else
    match readRequest root with
    | none => (false, e)
    | some request =>
      let transaction := transactionId e.generation sequence
      let e := { e.clearInput.record (.handled request transaction) with
        transaction, pending := true }
      let response := handler request
      e.respond memory response.status response true

def greet (memory : Memory) (root : Value) (e : ManagementEndpoint) : Bool × ManagementEndpoint :=
  if e.negotiated ∨ !fields root (["schema", "id", "operation"].map ascii) then (false, e)
  else
    let e := { e.record .hello with negotiated := true }
    e.respond memory 200 e.discovery false

def dispatch (memory : Memory) (handler : HttpRequest → HttpResponse) (now : UInt64)
    (e : ManagementEndpoint) : Bool × ManagementEndpoint :=
  match parse e.input with
  | none => (false, e)
  | some root =>
    match envelope root with
    | none => (false, e)
    | some (sequence, operation) =>
      if operation = ascii "ack" then e.acknowledge memory now root sequence
      else if sequence ≤ e.lastId ∨ e.pending then (false, e)
      else
        let e := { e.record (.identified sequence) with lastId := sequence }
        if operation = ascii "hello" then e.greet memory root
        else if operation ≠ ascii "request" then (false, e)
        else e.handle memory handler root sequence

/-! ## Bytes -/

/-- The frame header is complete: the length it announces. -/
def beginFrame (memory : Memory) (e : ManagementEndpoint) : Option ManagementEndpoint :=
  if e.expected ≠ 0 then some e
  else if e.header.take 4 ≠ ascii "UMP1" then none
  else
    let expected := (e.header.drop 4).foldl (fun n c => n * 256 + c.toNat) 0
    if expected = 0 ∨ maximumRequest < expected ∨ !memory.input then none
    else some { e with expected }

/-- Behind the header: the bytes of the frame, and its dispatch when it is complete. -/
def receivePayload (memory : Memory) (handler : HttpRequest → HttpResponse) (rest : Bytes)
    (now : UInt64) (e : ManagementEndpoint) : Nat × ManagementEndpoint :=
  let part := rest.take (e.expected - e.input.length)
  let e := { e with input := e.input ++ part }
  if e.input.length = e.expected then
    match e.dispatch memory handler now with
    | (true, e) => (part.length, e.clearInput)
    | (false, e) => (part.length, e.disconnect)
  else (part.length, e)

/-- A frame is on its way: its time runs. -/
def start (bytes : Bytes) (now : UInt64) (e : ManagementEndpoint) : ManagementEndpoint :=
  if !bytes.isEmpty ∧ !e.timing then
    { e.record (.started now) with startedMs := now, timing := true }
  else e

def receive (memory : Memory) (handler : HttpRequest → HttpResponse) (bytes : Bytes) (now : UInt64)
    (e : ManagementEndpoint) : Nat × ManagementEndpoint :=
  let e := e.poll now
  if e.closed ∨ e.output.isSome then (0, e)
  else
    let e := e.start bytes now
    let taken := bytes.take (8 - e.header.length)
    let e := { e with header := e.header ++ taken }
    if e.header.length ≠ 8 then (taken.length, e)
    else
      match e.beginFrame memory with
      | none => (taken.length, e.disconnect)
      | some e =>
        (e.receivePayload memory handler (bytes.drop taken.length) now).map
          (taken.length + ·) id

/-- The size of `output()`. -/
def available (e : ManagementEndpoint) : Nat :=
  match e.output with
  | none => 0
  | some o =>
    if o.counted.isSome then 0
    else if e.outputOffset < 8 then 8 - e.outputOffset
    else
      let offset := e.outputOffset - 8
      min (o.document.length - offset) (o.window - offset % o.window)

def consumeOutput (bytes : Nat) (e : ManagementEndpoint) : ManagementEndpoint :=
  if e.available < bytes then e.disconnect
  else
    let e := { e with outputOffset := e.outputOffset + bytes }
    match e.output with
    | none => e
    | some o =>
      if o.counted.isNone ∧ o.document ≠ [] ∧ e.outputOffset = o.document.length + 8 then
        { e.record .consumed with
          output := none, outputOffset := 0, timing := if e.pending then e.timing else false }
      else e

end ManagementEndpoint

/-! ## Runs -/

/-- The calls on the endpoint, with the answers they get. -/
inductive EndpointCall where
  | connect (session : Bytes)
  | disconnect
  | poll (now : UInt64)
  | receive (memory : Memory) (handler : HttpRequest → HttpResponse) (bytes : Bytes) (now : UInt64)
  | consumeOutput (bytes : Nat)

def ManagementEndpoint.perform (call : EndpointCall) (e : ManagementEndpoint) :
    ManagementEndpoint :=
  match call with
  | .connect session => e.connect session
  | .disconnect => e.disconnect
  | .poll now => e.poll now
  | .receive memory handler bytes now => (e.receive memory handler bytes now).2
  | .consumeOutput bytes => e.consumeOutput bytes

def ManagementEndpoint.run (device boot firmware : Bytes) (calls : List EndpointCall) :
    ManagementEndpoint :=
  calls.foldl (fun e call => e.perform call) { device, boot, firmware }

end WsprryPico.Usb
