import WsprryPico.Network.RadioLogin

/-!
# The requests of a radio session

`exchange` and `handle` of `network/consumer_radio.cpp`, and the runs of the API.
-/

namespace WsprryPico.Network

open Lib Wtp Wtp.Json
open Provisioning hiding ascii

variable {ω : Type}

/-! ## Inner requests -/

def controlPrefix : Bytes := ascii "/api/control/v1/"
def timePath : Bytes := ascii "/api/control/v1/consumer/time"
def fieldPath : Bytes := ascii "/api/control/v1/consumer/field"
def passwordPath : Bytes := ascii "/api/control/v1/consumer/password"
def logoutPath : Bytes := ascii "/api/control/v1/consumer/logout"
def setupPrefix : Bytes := ascii "/api/control/v1/consumer/setup/"

/-- The request inside a packet. -/
structure InnerRequest where
  method : Bytes
  path : Bytes
  ifMatch : Option Bytes
  body : Value

namespace InnerRequest

def printable (text : Bytes) (maximum : Nat) : Bool :=
  text.length ≤ maximum && text.all fun c => 32 ≤ c && c < 127

def admissible (method path ifMatch body : Value) : Bool :=
  method.type = 34 && path.type = 34 &&
    (method.string = ascii "GET" || method.string = ascii "POST" || method.string = ascii "PUT") &&
    controlPrefix.isPrefixOf path.string && printable path.string 128 &&
    (ifMatch.raw = ascii "null" || (ifMatch.type = 34 && printable ifMatch.string 80)) &&
    (if method.string = ascii "GET" then body.raw = ascii "null" else body.type = 123)

def read (plaintext : Bytes) : Option InnerRequest :=
  match parse plaintext with
  | none => none
  | some root =>
    if !fields root (["method", "path", "if_match", "body"].map ascii) then none
    else
      match root.get (ascii "method"), root.get (ascii "path"), root.get (ascii "if_match"),
        root.get (ascii "body") with
      | some method, some path, some ifMatch, some body =>
        if admissible method path ifMatch body then
          some { method := method.string, path := path.string
                 ifMatch := if ifMatch.type = 34 then some ifMatch.string else none, body }
        else none
      | _, _, _, _ => none

variable (inner : InnerRequest)

def timeControl : Bool := timePath.isPrefixOf inner.path
def fieldControl : Bool := inner.path = fieldPath

/-- The resources whose bodies carry the contract. -/
def special : Bool :=
  inner.timeControl || inner.fieldControl || inner.path = passwordPath ||
    setupPrefix.isPrefixOf inner.path

def specialControl : Bool := inner.special || inner.path = logoutPath

/-- The body without its contract, for the resources that have one. -/
def payload (memoryAdmitted : Nat → Bool) : Option Bytes :=
  if inner.method = ascii "GET" ∨ !inner.specialControl then some []
  else controlPayload memoryAdmitted inner.body.raw

def logout (text : Bytes) : Bool :=
  inner.method = ascii "POST" && inner.path = logoutPath && (parse text).any fun v => fields v []

/-- The request as the resources get it, under the internal authority. -/
def request (text : Bytes) : HttpRequest where
  method := inner.method
  path := inner.path
  headers :=
    [(ascii "host", ConsumerRadio.apAuthority),
      (ascii "origin", ascii "https://" ++ ConsumerRadio.apAuthority),
      (ascii "sec-fetch-site", ascii "same-origin"),
      (ascii "content-type", ascii "application/json"), (ascii "x-wsprrypico-request", ascii "1")] ++
    (inner.ifMatch.map fun etag => (ascii "if-match", etag)).toList
  body :=
    if inner.special && inner.method ≠ ascii "GET" then text
    else if inner.body.raw = ascii "null" then [] else inner.body.raw

def setupPath : Bytes := inner.path.drop (ascii "/api/control/v1/consumer/setup").length

def setupRequest (text : Bytes) : HttpRequest :=
  { inner.request text with
    path := inner.setupPath
    headers :=
      [(ascii "host", ConsumerRadio.apAuthority), (ascii "origin", ascii "http://192.168.4.1"),
        (ascii "content-type", ascii "application/json"),
        (if (ascii "/api/owner/").isPrefixOf inner.setupPath then ascii "x-wsprrypico-owner"
          else ascii "x-wsprrypico-bootstrap", ascii "1")] }

end InnerRequest

namespace ConsumerRadio

open RadioM

variable (host : RadioHost ω)

/-! ## Resources -/

/-- The packet that `exchange` has opened. -/
structure Packet where
  slot : Fin 3
  sequence : UInt64
  transaction : UInt64
  now : UInt64

variable (packet : Packet)

/-- The request of a packet is taken, for a sink or for an answer of the exchange itself. -/
def dispatch (sink : Option Sink) : RadioM ω Unit := do
  let s ← api
  record (.dispatched (.session packet.slot) (s.sessions packet.slot).binding.session
    packet.sequence packet.transaction sink)

/-- `exchange` answers a request by itself. -/
def refuse (status : Nat) (code : String) : RadioM ω HttpResponse := do
  dispatch packet none
  pure (httpError status code)

/-- Something else is set up: whether that holds a request up. -/
def setupBusy (inner : InnerRequest) : RadioM ω Bool := do
  let s ← api
  if inner.method ≠ ascii "GET" && s.setup.busy then ask host.setupBusy else pure false

def timeSink (inner : InnerRequest) (request : HttpRequest) : RadioM ω HttpResponse := do
  let s ← api
  if inner.path ≠ timePath ∧ inner.path ≠ timePath ++ ascii "/challenge" ∧
      inner.path ≠ timePath ++ ascii "/submit" then
    refuse packet 404 "not_found"
  else if (inner.path = timePath ∧ inner.method ≠ ascii "GET") ∨
      (inner.path ≠ timePath ∧ inner.method ≠ ascii "POST") then
    refuse packet 405 "method_not_allowed"
  else do
    dispatch packet (some .timeResource)
    ask (host.timeResource request (s.sessions packet.slot))

def fieldSink (inner : InnerRequest) (request : HttpRequest) : RadioM ω HttpResponse := do
  dispatch packet (some .fieldResource)
  let (response, saved) ← ask (host.fieldResource request)
  update fun api =>
    if saved then { api with credentialTransaction := some packet.transaction } else api
  update fun api =>
    if inner.method = ascii "PUT" ∧ response.status = 200 then
      { api with credentialChangedMs := packet.now }
    else api
  pure response

/-- With whether the password is saved. -/
def passwordSink (inner : InnerRequest) (request : HttpRequest) :
    RadioM ω (HttpResponse × Bool) := do
  let busy ← setupBusy host inner
  if busy then do
    let response ← refuse packet 409 "setup_pending"
    pure (response, false)
  else do
    dispatch packet (some .passwordResource)
    let response ← ask (host.passwordResource request)
    let saved := inner.method = ascii "PUT" && response.status = 200
    update fun api =>
      if saved then
        { api with
          credentialTransaction := some packet.transaction, credentialChangedMs := packet.now }
      else api
    pure (response, saved)

def setupSink (inner : InnerRequest) (text : Bytes) : RadioM ω HttpResponse := do
  let s ← api
  dispatch packet (some .setupHandler)
  ask (host.setupHandler (inner.setupRequest text) packet.transaction
    (s.sessions packet.slot).binding.session)

def apiSink (inner : InnerRequest) (request : HttpRequest) : RadioM ω HttpResponse := do
  let s ← api
  let session := s.sessions packet.slot
  let busy ← setupBusy host inner
  if busy then refuse packet 409 "setup_pending"
  else do
    dispatch packet (some .browserApi)
    ask (host.apiHandle request
      (ascii "consumer-radio:" ++ bootstrapHex session.binding.session) apAuthority
      packet.transaction
      (if session.interface = .station then .consumerStation else .consumerAp))

/-- The response to the request of a packet, and whether it has saved a password. -/
def serve (inner : InnerRequest) (text : Bytes) : RadioM ω (HttpResponse × Bool) := do
  let s ← api
  let request := inner.request text
  if inner.timeControl then do
    let response ← timeSink host packet inner request
    pure (response, false)
  else if inner.fieldControl then do
    let response ← fieldSink host packet inner request
    pure (response, false)
  else if inner.path = passwordPath then passwordSink host packet inner request
  else if setupPrefix.isPrefixOf inner.path ∧ s.setup.handler then do
    let response ← setupSink host packet inner text
    pure (response, false)
  else do
    let response ← apiSink host packet inner request
    pure (response, false)

/-! ## Replies -/

def replyPrefix (response : HttpResponse) : Bytes :=
  ascii "\x7b\"status\":" ++ Lib.decimal response.status ++ ascii ",\"etag\":" ++
    (if response.etag.isEmpty then ascii "null" else quote response.etag) ++ ascii ",\"body\":"

def replySize (response : HttpResponse) : Nat :=
  (replyPrefix response).length + response.bodySize + 1

/-- The reply is one JSON document that a packet can hold. -/
def replyAdmitted (memoryAdmitted : Nat → Bool) (response : HttpResponse) : Bool :=
  replySize response ≤ maxHttpBody - consumerRadioHeaderBytes - consumerRadioTagBytes &&
    match response.body with
    | .parts _ => false
    | .generated _ jsonDocument => jsonDocument && memoryAdmitted 8192
    | .buffered bytes => (parse bytes).isSome && memoryAdmitted 8192
    | .text bytes | .fixed bytes =>
      (parse bytes).isSome && memoryAdmitted (replySize response + 4096)

/-- A reply in pages or from a source can be made up. -/
def enveloped (response : HttpResponse) : RadioM ω Bool :=
  match response.body with
  | .generated _ _ | .buffered _ => ask host.pages
  | .parts _ | .text _ | .fixed _ => pure true

def sealResponse (response : HttpResponse) : RadioM ω (Option HttpResponse) := do
  let made ← enveloped host response
  if !made then pure none
  else
    sealReply host (.session packet.slot)
      (replyPrefix response ++ response.body.bytes ++ ascii "\x7d") packet.sequence

/-- The login is over where a password is saved. -/
def retirePassword (saved : Bool) : RadioM ω Unit := do
  let s ← api
  let sequence ← look fun w => (host.accessStore w).sequence
  let digest ← look (currentDigest host s)
  update fun api =>
    if saved then { api with passwordSequence := sequence, passwordDigest := digest } else api
  when saved (close host)

def closeSaved (saved : Bool) : RadioM ω Unit :=
  if saved then close host else closeSlot host (.session packet.slot)

def reply (result : HttpResponse) (saved : Bool) : RadioM ω HttpResponse := do
  let fits ← look fun w => replyAdmitted (host.memoryAdmitted w) result
  if !fits then do
    finishRequest host packet.transaction false
    closeSaved host packet saved
    pure (httpError 503 "radio_response_unavailable")
  else do
    let response ← sealResponse host packet result
    retirePassword host saved
    match response with
    | none => do
      finishRequest host packet.transaction false
      closeSlot host (.session packet.slot)
      pure (httpError 503 "radio_response_unavailable")
    | some response => pure response

/-! ## The exchange -/

def logoutText : Bytes :=
  ascii ("\x7b\"status\":200,\"etag\":null,\"body\":\x7b\"contract\":\"Wsprry-Control/1\"," ++
    "\"ok\":true\x7d\x7d")

/-- The response of a resource that has the contract. -/
def wrapControl (special : Bool) (response : HttpResponse) : RadioM ω HttpResponse :=
  if special then do
    let pages ← ask host.pages
    pure (controlResponse pages response)
  else pure response

def respond (inner : InnerRequest) (text : Bytes) : RadioM ω (HttpResponse × Bool) := do
  let (response, saved) ← serve host packet inner text
  let response ← wrapControl host inner.special response
  update (modifySlot (.session packet.slot) fun session =>
    { session with pendingTransaction := some packet.transaction })
  pure (response, saved)

/-- The request inside a packet. -/
def command (inner : InnerRequest) : RadioM ω HttpResponse := do
  update (modifySlot (.session packet.slot) fun session =>
    if inner.timeControl then session else { session with seenMs := packet.now })
  let payload ← look fun w => inner.payload (host.memoryAdmitted w)
  match payload with
  | none => do
    closeSlot host (.session packet.slot)
    pure (httpError 400 "unsupported_control_contract")
  | some text =>
    if inner.logout text then do
      let response ← sealReply host (.session packet.slot) logoutText packet.sequence
      closeSlot host (.session packet.slot)
      pure (response.getD (httpError 503 "radio_response_unavailable"))
    else do
      let (response, saved) ← respond host packet inner text
      reply host packet response saved

/-- The packet is opened under the sequence it carries. -/
def openPacket (i : Fin 3) (request : HttpRequest) : RadioM ω (Option Bytes) := do
  let s ← api
  let session := s.sessions i
  let sequence := session.nextSequence
  update (modifySlot (.session i) fun session => { session with nextSequence := sequence + 1 })
  let plaintext ← ask (host.cryptoOpen (.session i) request.body session.binding sequence)
  record (.opened (.session i) session.binding.session sequence plaintext.isSome)
  pure plaintext

def exchange (i : Fin 3) (request : HttpRequest) (now transaction : UInt64) :
    RadioM ω HttpResponse := do
  let s ← api
  let session := s.sessions i
  if session.state = .active ∧ session.nextSequence.toNat = UInt64.size - 1 then do
    closeSlot host (.session i)
    pure (httpError 401 "radio_authentication_required")
  else if session.state ≠ .active ∨ session.pendingTransaction.isSome ∨ !request.owned ∨
      !headerMatches request.body session.binding.session session.nextSequence then
    pure (httpError 401 "radio_authentication_required")
  else if transaction = 0 ∨
      slots.any fun j => (s.sessions j).pendingTransaction = some transaction then
    pure (httpError 409 "radio_transaction_reused")
  else do
    let plaintext ← openPacket host i request
    let packet : Packet := { slot := i, sequence := session.nextSequence, transaction, now }
    match plaintext with
    | none => do
      closeSlot host (.session i)
      pure (httpError 401 "radio_authentication_failed")
    | some plaintext =>
      match InnerRequest.read plaintext with
      | none => reply host packet (httpError 400 "invalid_radio_request") false
      | some inner => command host packet inner

/-! ## Public reads -/

def publicReadResources : List Bytes :=
  ["capabilities", "pins", "operations", "status", "config", "application", "station", "hardware",
    "progress", "rf-calibration", "standalone-frequency", "gpio-drive", "ntp-timeout",
    "filter-selector", "hostname", "logging", "udp-logging", "udp-logging/capabilities",
    "udp-logging/test/capabilities", "message-schedule", "consumer/password",
    "consumer/setup/api/owner/v1/public-status", "amplifier-timing", "si5351"].map ascii

/-- The request that a public resource is read with: nothing in it is of the caller. -/
def publicRequest (resource : Bytes) : HttpRequest where
  method := ascii "GET"
  path := controlPrefix ++ resource
  headers :=
    [(ascii "host", apAuthority), (ascii "origin", ascii "https://" ++ apAuthority),
      (ascii "sec-fetch-site", ascii "same-origin")]

def publicOwnerRequest : HttpRequest where
  method := ascii "GET"
  path := ascii "/api/owner/v1/public-status"
  headers :=
    [(ascii "host", apAuthority), (ascii "origin", ascii "http://" ++ apAuthority),
      (ascii "sec-fetch-site", ascii "same-origin")]

def PublicRead (request : HttpRequest) : Prop :=
  request = publicOwnerRequest ∨ ∃ resource ∈ publicReadResources, request = publicRequest resource

def readPath : Bytes := ascii "/api/consumer/v1/read"

/-- `application::target`. -/
def target (api : ConsumerRadio) : Bytes :=
  ascii "\x7b\"scope\":\"member\",\"device_id\":" ++ quote api.device ++ ascii ",\"boot_id\":" ++
    quote api.boot ++ ascii "\x7d"

def publicIndex (api : ConsumerRadio) : HttpResponse :=
  httpOk
    (ascii "\x7b\"contract\":\"Wsprry-Control/1\",\"schema\":" ++ quote (ascii "public-read") ++
      ascii ",\"target\":" ++ api.target ++ ascii ",\"prefix\":" ++ quote (readPath ++ ascii "/") ++
      ascii ",\"resources\":[" ++
      (ascii ",").intercalate (publicReadResources.map quote) ++ ascii "]\x7d")

/-- A resource of the allowlist, read as an observer. -/
def observe (resource : Bytes) (transaction : UInt64) : RadioM ω HttpResponse := do
  let s ← api
  if resource = ascii "consumer/password" then do
    record (.observed (publicRequest resource))
    let response ← ask (host.passwordResource (publicRequest resource))
    wrapControl host true response
  else if resource = ascii "consumer/setup/api/owner/v1/public-status" ∧ s.setup.handler then do
    record (.observed publicOwnerRequest)
    let response ←
      ask (host.setupHandler publicOwnerRequest transaction (List.replicate 16 0))
    wrapControl host true response
  else do
    record (.observed (publicRequest resource))
    ask (host.apiHandle (publicRequest resource) (ascii "public-observer") apAuthority 0
      .engineeringStation)

def publicRead (request : HttpRequest) (transaction : UInt64) : RadioM ω HttpResponse := do
  let s ← api
  let memory ← look fun w => host.memoryAdmitted w 4096
  let resource := request.path.drop (readPath.length + 1)
  if !memory then pure (httpError 503 "resource_exhausted")
  else if request.method ≠ ascii "GET" then pure (httpError 405 "method_not_allowed")
  else if !request.body.isEmpty then pure (httpError 400 "public_read_body_forbidden")
  else if !sameOrigin request then pure (httpError 403 "forbidden")
  else if request.path = readPath then pure s.publicIndex
  else if resource ∉ publicReadResources then
    pure (httpError 404 "public_read_resource_unavailable")
  else observe host resource transaction

/-! ## Requests -/

def presentation (api : ConsumerRadio) : HttpResponse :=
  httpOk
    (ascii "\x7b\"schema\":\"device-presentation/1\",\"device_id\":" ++ quote api.device ++
      ascii ",\"boot_id\":" ++ quote api.boot ++ ascii ",\"hostname\":" ++ quote api.hostname ++
      ascii "\x7d")

def identity (api : ConsumerRadio) (w : ω) : HttpResponse :=
  httpOk
    (ascii "\x7b\"version\":1,\"device_id\":" ++ quote api.device ++ ascii ",\"boot_id\":" ++
      quote api.boot ++ ascii ",\"generation\":" ++
      quote (Lib.decimal (host.store w).sequence) ++ ascii ",\"authentication\":" ++
      quote (ascii (if (radioPassword host api w).isEmpty then "saved_wifi_passphrase"
        else "pico_password")) ++ ascii "\x7d")

/-- The packet of a session, for the session it names. -/
def packetRequest (request : HttpRequest) (now transaction : UInt64)
    (interface : ConsumerInterface) : RadioM ω HttpResponse := do
  let s ← api
  match s.selectSession request.body with
  | none => pure (httpError 401 "radio_authentication_required")
  | some i =>
    if interface ≠ (s.sessions i).interface ∨ request.header "host" ≠ (s.sessions i).authority then
      pure (httpError 403 "radio_session_context_mismatch")
    else if request.path = ascii "/api/consumer/v1/finish" then finish host i request now
    else if request.path = ascii "/api/consumer/v1/request" then
      exchange host i request now transaction
    else pure (httpError 404 "not_found")

def binary (path : Bytes) : Bool :=
  path ≠ ascii "/api/consumer/v1/start" && path ≠ ascii "/api/consumer/v1/recovery/start"

/-- The requests that open or use a session. -/
def sessionRequest (request : HttpRequest) (now transaction : UInt64)
    (interface : ConsumerInterface) : RadioM ω HttpResponse :=
  if !admitted request (binary request.path) then pure (httpError 403 "forbidden")
  else if request.path = ascii "/api/consumer/v1/start" then start host request now interface
  else if request.path = ascii "/api/consumer/v1/recovery/start" then
    recoveryStart host request now interface
  else if request.path = ascii "/api/consumer/v1/recovery/finish" then
    recoveryFinish host request interface
  else packetRequest host request now transaction interface

def handle (request : HttpRequest) (now transaction : UInt64) (interface : ConsumerInterface) :
    RadioM ω HttpResponse := do
  record (.handled request interface)
  poll host now
  let s ← api
  let available ← look (available host s)
  let page ← look (pageAdmitted host request interface s)
  let get := request.method = ascii "GET"
  if !available then pure (httpError 409 "consumer_radio_unavailable")
  else if !page then pure (httpError 403 "forbidden")
  else if request.path = readPath ∨ (readPath ++ ascii "/").isPrefixOf request.path then
    publicRead host request transaction
  else if request.path = ascii "/api/consumer/v1/status" ∧ get then
    if !sameOrigin request then pure (httpError 403 "forbidden") else ask host.apiPublicStatus
  else if request.path = ascii "/api/consumer/v1/presentation" ∧ get then pure s.presentation
  else if request.path = ascii "/api/consumer/v1/recovery" ∧ get then
    look (recoveryDiscovery host request interface s)
  else if request.path = ascii "/api/consumer/v1/identity" ∧ get then look (identity host s)
  else sessionRequest host request now transaction interface

/-! ## Listeners -/

/-- A slot of an interface that is gone or has another name. -/
def unheard (ap : Bool) (ip name : Bytes) (api : ConsumerRadio) (s : RadioSession) : Bool :=
  (s.interface = .accessPoint && !ap) ||
    (s.interface = .station && (ip ≠ api.stationIp || name ≠ api.hostname))

def hearSlot (ap : Bool) (ip name : Bytes) (p : Place) : RadioM ω Unit := do
  let s ← api
  when (unheard ap ip name s (s.slot p)) (closeSlot host p)

def listeners (ap : Bool) (stationIp hostname : Bytes) : RadioM ω Unit := do
  let s ← api
  let ip := if canonicalIpv4 stationIp && stationIp ≠ ascii "0.0.0.0" then stationIp else []
  let name := (canonicalLocalHostname hostname).getD []
  if stationIp = s.stationIp ∧ hostname = s.hostname ∧ ap = s.apAvailable then pure ()
  else do
    hearSlot host ap ip name (.session 0)
    hearSlot host ap ip name (.session 1)
    hearSlot host ap ip name (.session 2)
    hearSlot host ap ip name .recovery
    update fun api => { api with apAvailable := ap, stationIp := ip, hostname := name }

def admission (admissionOpen : Bool) : RadioM ω Unit := do
  update fun api => { api with admissionOpen }
  when (!admissionOpen) (close host)

/-- `password_storage`. -/
def setPasswordStorage : RadioM ω Unit := do
  update fun api => { api with passwordStore := true }
  let s ← api
  let sequence ← look fun w => (host.accessStore w).sequence
  let digest ← look (currentDigest host s)
  update fun api => { api with passwordSequence := sequence, passwordDigest := digest }

end ConsumerRadio

/-! ## Runs -/

/-- What happens to an API: the calls on it, and the changes of the world around it. -/
inductive RadioCall (ω : Type) where
  | handle (request : HttpRequest) (now transaction : UInt64) (interface : ConsumerInterface)
  | poll (now : UInt64)
  /-- The transport reports a reply delivered or lost. -/
  | finishRequest (transaction : UInt64) (apply : Bool)
  | close
  | listeners (ap : Bool) (stationIp hostname : Bytes)
  | admission (admissionOpen : Bool)
  | passwordStorage
  | timeAuthority
  | setupHandler (hooks : SetupHooks)
  | elsewhere (world : ω)

namespace Radio

open ConsumerRadio RadioM

variable (host : RadioHost ω)

def perform : RadioCall ω → RadioM ω Unit
  | .handle request now transaction interface => do
    let _ ← handle host request now transaction interface
    pure ()
  | .poll now => poll host now
  | .finishRequest transaction apply => do
    record (.reported transaction apply)
    finishRequest host transaction apply
  | .close => ConsumerRadio.close host
  | .listeners ap stationIp hostname => listeners host ap stationIp hostname
  | .admission admissionOpen => admission host admissionOpen
  | .passwordStorage => setPasswordStorage host
  | .timeAuthority => update fun api => { api with time := true }
  | .setupHandler hooks => update fun api => { api with setup := hooks }
  | .elsewhere world => tell fun _ => world

def run (device boot : Bytes) (crypto recovery : Bool) (world : ω) (calls : List (RadioCall ω)) :
    Radio ω :=
  calls.foldl (fun r call => (perform host call r).2)
    { api := .make device boot crypto recovery, world }

end Radio

end WsprryPico.Network
