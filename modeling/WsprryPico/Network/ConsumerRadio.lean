import Mathlib.Algebra.Ring.Nat
import WsprryPico.Network.BootstrapCodec
import WsprryPico.Network.Control
import WsprryPico.Network.Identity
import WsprryPico.Provisioning.LocalAccess
import WsprryPico.Provisioning.ProfileStore

/-!
# Consumer radio sessions

`ConsumerRadioApi` of `network/consumer_radio.cpp`: a login by the password of the device, the
encrypted requests of a session, and the proof that retires one. The stores, the ciphers and
what the requests go to stand in a `RadioHost`; none of them calls the API back. What the API
does is kept as a history, which no function reads.
-/

namespace WsprryPico.Network

open Lib Wtp Wtp.Json
open Provisioning hiding ascii

variable {ω α : Type}

inductive ConsumerInterface where
  | none | accessPoint | station
  deriving DecidableEq

inductive ManagementCarrier where
  | engineeringStation | engineeringField | consumerStation | consumerAp | usbPhysical

structure ConsumerRadioBinding where
  device : Bytes := List.replicate 16 0
  boot : Bytes := List.replicate 16 0
  session : Bytes := List.replicate 16 0
  challenge : Bytes := List.replicate 16 0
  browserNonce : Bytes := List.replicate 16 0
  browserKey : Bytes := List.replicate 32 0
  picoKey : Bytes := List.replicate 32 0
  generation : UInt64 := 0
  recoveryContext : Bytes := List.replicate 32 0

inductive RadioState where
  | none | pending | active
  deriving DecidableEq

/-- The slots of the API: three sessions and the recovery proof. -/
inductive Place where
  | session (i : Fin 3)
  | recovery
  deriving DecidableEq

scoped instance neZero_three : NeZero 3 := ⟨by decide⟩

def slots : List (Fin 3) := [0, 1, 2]

def loginMs : UInt64 := 30000
def idleMs : UInt64 := 30 * 60000
def absoluteMs : UInt64 := 8 * 60 * 60000

structure RadioSession where
  /-- A cipher is injected. -/
  crypto : Bool := false
  state : RadioState := .none
  binding : ConsumerRadioBinding := {}
  startedMs : UInt64 := 0
  seenMs : UInt64 := 0
  nextSequence : UInt64 := 1
  pendingTransaction : Option UInt64 := .none
  authority : Bytes := []
  interface : ConsumerInterface := .none

/-- What takes the request of a session. -/
inductive Sink where
  | browserApi | setupHandler | timeResource | fieldResource | passwordResource

inductive RadioEvent where
  /-- `handle` is called. -/
  | handled (request : HttpRequest) (interface : ConsumerInterface)
  /-- `poll` finds the profile generation of a session current. -/
  | current (place : Place) (generation : UInt64)
  | started (place : Place) (id : Bytes) (generation : UInt64) (interface : ConsumerInterface)
      (authority : Bytes)
  | authenticated (place : Place) (id : Bytes) (accepted : Bool)
  | opened (place : Place) (id : Bytes) (sequence : UInt64) (accepted : Bool)
  | sealed (place : Place) (id : Bytes) (sequence : UInt64) (accepted : Bool)
  /-- `exchange` takes a request of a session, and passes it on or answers by itself. -/
  | dispatched (place : Place) (id : Bytes) (sequence transaction : UInt64) (sink : Option Sink)
  /-- A public read is passed on. -/
  | observed (request : HttpRequest)
  /-- The transport calls `finish_request`. -/
  | reported (transaction : UInt64) (apply : Bool)
  /-- `api_.finish_request` is called. -/
  | finished (transaction : UInt64) (apply : Bool)
  /-- `close` has reset a slot. -/
  | closed (place : Place) (id : Bytes)

/-- The callbacks of `setup_handler` that are set. -/
structure SetupHooks where
  handler : Bool := false
  delivery : Bool := false
  busy : Bool := false
  closed : Bool := false

structure ConsumerRadio where
  device : Bytes
  boot : Bytes
  sessions : Fin 3 → RadioSession
  recovery : RadioSession
  history : List RadioEvent := []
  recoveryTarget : Bytes := List.replicate 16 0
  lastRecoveryMs : Option UInt64 := .none
  sessionSerial : UInt64 := 0
  admissionOpen : Bool := false
  /-- `password_store_` is set. -/
  passwordStore : Bool := false
  passwordSequence : Nat := 0
  passwordDigest : PayloadDigest := .zero
  lastStartMs : Option UInt64 := .none
  apAvailable : Bool := false
  stationIp : Bytes := []
  hostname : Bytes := []
  setup : SetupHooks := {}
  /-- `time_` is set. -/
  time : Bool := false
  credentialTransaction : Option UInt64 := .none
  credentialChangedMs : UInt64 := 0

/-- `ConsumerRadioApi::ConsumerRadioApi`: no cipher is used twice. -/
def ConsumerRadio.make (device boot : Bytes) (crypto recovery : Bool) : ConsumerRadio where
  device
  boot
  sessions := fun _ => { crypto }
  recovery := { crypto := crypto && recovery }

/-! ## What surrounds the API -/

/-- The login of a network or a consumer profile. -/
structure RuntimeLogin where
  deviceId : Bytes
  password : Bytes

structure RuntimeProfile where
  faulted : Bool
  generation : UInt64
  stationSourceGeneration : Option UInt64
  networkProfile : Option RuntimeLogin
  consumerProfile : Option RuntimeLogin

namespace RuntimeProfile

def controlHealthy (store : ProfileStore) (runtime : RuntimeProfile) : Bool :=
  store.healthy && !runtime.faulted && runtime.generation.toNat = store.sequence

def sessionGenerationCurrent (generation : UInt64) (store : ProfileStore)
    (runtime : RuntimeProfile) : Bool :=
  runtime.controlHealthy store &&
    (generation = runtime.generation || runtime.stationSourceGeneration = some generation)

end RuntimeProfile

/-- What surrounds an API: what stands in a world of its own, and how calls change it. -/
structure RadioHost (ω : Type) where
  store : ω → ProfileStore
  runtime : ω → RuntimeProfile
  accessStore : ω → AccessStore
  memoryAdmitted : ω → Nat → Bool
  /-- The pages of a response can be had. -/
  pages : ω → Bool × ω
  fill : ω → (Bool × Bytes) × ω
  cryptoBegin : Place → ω → Bool × ω
  cryptoPublicKey : Place → ω → Bytes
  cryptoAuthenticate : Place → Bytes → ConsumerRadioBinding → Bytes → ω → Bool × ω
  cryptoOpen : Place → Bytes → ConsumerRadioBinding → UInt64 → ω → Option Bytes × ω
  cryptoSeal : Place → Bytes → ConsumerRadioBinding → UInt64 → ω → Option HttpResponse × ω
  cryptoClear : Place → ω → ω
  cancelChallenge : Bytes → Bytes → ω → ω
  apiHandle : HttpRequest → Bytes → Bytes → UInt64 → ManagementCarrier → ω → HttpResponse × ω
  apiFinishRequest : UInt64 → Bool → ω → ω
  apiPublicStatus : ω → HttpResponse × ω
  setupHandler : HttpRequest → UInt64 → Bytes → ω → HttpResponse × ω
  setupDelivery : UInt64 → Bool → ω → ω
  setupBusy : ω → Bool × ω
  setupClosed : Bytes → ω → ω
  timeResource : HttpRequest → RadioSession → ω → HttpResponse × ω
  /-- With whether the field mode is saved. -/
  fieldResource : HttpRequest → ω → (HttpResponse × Bool) × ω
  passwordResource : HttpRequest → ω → HttpResponse × ω

/-- An API and what surrounds it. -/
structure Radio (ω : Type) where
  api : ConsumerRadio
  world : ω

abbrev RadioM (ω : Type) := StateM (Radio ω)

namespace RadioM

def api : RadioM ω ConsumerRadio := fun r => (r.api, r)

def update (f : ConsumerRadio → ConsumerRadio) : RadioM ω Unit := fun r =>
  ((), { r with api := f r.api })

def look (f : ω → α) : RadioM ω α := fun r => (f r.world, r)

def ask (f : ω → α × ω) : RadioM ω α := fun r => ((f r.world).1, { r with world := (f r.world).2 })

def tell (f : ω → ω) : RadioM ω Unit := fun r => ((), { r with world := f r.world })

def record (event : RadioEvent) : RadioM ω Unit :=
  update fun api => { api with history := api.history ++ [event] }

def when (c : Bool) (m : RadioM ω Unit) : RadioM ω Unit := if c then m else pure ()

end RadioM

namespace ConsumerRadio

open RadioM

variable (host : RadioHost ω)

def slot (api : ConsumerRadio) : Place → RadioSession
  | .session i => api.sessions i
  | .recovery => api.recovery

def setSlot (p : Place) (s : RadioSession) (api : ConsumerRadio) : ConsumerRadio :=
  match p with
  | .session i => { api with sessions := Function.update api.sessions i s }
  | .recovery => { api with recovery := s }

def modifySlot (p : Place) (f : RadioSession → RadioSession) (api : ConsumerRadio) :
    ConsumerRadio :=
  api.setSlot p (f (api.slot p))

/-! ## The credential -/

def profilePassword (api : ConsumerRadio) (w : ω) : Option Bytes :=
  let login :=
    match (host.store w).source with
    | .consumerProfile => (host.runtime w).consumerProfile
    | .networkOnly => (host.runtime w).networkProfile
    | _ => none
  login.bind fun profile => if profile.deviceId ≠ api.device then none else some profile.password

def authenticationPassword (api : ConsumerRadio) (w : ω) : Bytes :=
  if !api.admissionOpen ∨ !(host.runtime w).controlHealthy (host.store w) then []
  else
    match profilePassword host api w with
    | none => []
    | some password =>
      if api.passwordStore ∧ (host.accessStore w).state ≠ .erased then
        match (host.accessStore w).recorded with
        | none => []
        | some saved =>
          if saved.reset.pending then []
          else if saved.radioPassword.isEmpty then password else saved.radioPassword
      else password

def available (api : ConsumerRadio) (w : ω) : Bool := !(authenticationPassword host api w).isEmpty

def radioPassword (api : ConsumerRadio) (w : ω) : Bytes :=
  if api.passwordStore then (((host.accessStore w).recorded).map (·.radioPassword)).getD [] else []

def currentDigest (api : ConsumerRadio) (w : ω) : PayloadDigest := sha256 (radioPassword host api w)

/-! ## Closing -/

def finishRequest (transaction : UInt64) (apply : Bool) : RadioM ω Unit := do
  let s ← api
  match slots.find? fun i => (s.sessions i).pendingTransaction = some transaction with
  | none => pure ()
  | some i =>
    -- the slot is cleared before the callbacks
    update (modifySlot (.session i) fun session => { session with pendingTransaction := none })
    record (.finished transaction apply)
    tell (host.apiFinishRequest transaction apply)
    when s.setup.delivery (tell (host.setupDelivery transaction apply))

/-- `finish_request(*session.pending_transaction, false)`. -/
def cancelPending : Option UInt64 → RadioM ω Unit
  | some transaction => finishRequest host transaction false
  | none => pure ()

def closeSlot (p : Place) : RadioM ω Unit := do
  let s ← api
  let session := s.slot p
  let logical := bootstrapHex session.binding.session
  when s.time (tell (host.cancelChallenge (ascii "browser:" ++ logical) logical))
  cancelPending host session.pendingTransaction
  when (s.setup.closed && session.binding.session.any (· ≠ 0))
    (tell (host.setupClosed session.binding.session))
  when session.crypto (tell (host.cryptoClear p))
  update (setSlot p { crypto := session.crypto })
  record (.closed p session.binding.session)

def close : RadioM ω Unit := do
  closeSlot host (.session 0)
  closeSlot host (.session 1)
  closeSlot host (.session 2)
  closeSlot host .recovery

/-! ## Time -/

/-- A slot has had its time. -/
def expired (now : UInt64) (p : Place) (s : RadioSession) : Bool :=
  match p with
  | .recovery => elapsed now s.startedMs 5000
  | .session _ =>
    elapsed now s.startedMs (if s.state = .pending then loginMs else absoluteMs) ||
      (s.state = .active && elapsed now s.seenMs idleMs)

def pollSlot (healthy : Bool) (now : UInt64) (p : Place) : RadioM ω Unit := do
  let s ← api
  let session := s.slot p
  let generationCurrent ← look fun w =>
    (host.runtime w).sessionGenerationCurrent session.binding.generation (host.store w)
  if session.state = .none then pure ()
  else if !healthy ∨ !generationCurrent ∨ expired now p session then closeSlot host p
  else record (.current p session.binding.generation)

/-- The password has changed: the sessions are retired. -/
def pollPassword : RadioM ω Unit := do
  let s ← api
  let sequence ← look fun w => (host.accessStore w).sequence
  if s.passwordStore ∧ sequence ≠ s.passwordSequence then do
    let current ← look (currentDigest host s)
    when (current ≠ s.passwordDigest) (close host)
    let sequence ← look fun w => (host.accessStore w).sequence
    update fun api => { api with passwordDigest := current, passwordSequence := sequence }
  else pure ()

def pollCredential (now : UInt64) (api : ConsumerRadio) : ConsumerRadio :=
  if elapsed now api.credentialChangedMs 5000 then { api with credentialTransaction := none }
  else api

def poll (now : UInt64) : RadioM ω Unit := do
  update (pollCredential now)
  pollPassword host
  let s ← api
  let healthy ← look (available host s)
  pollSlot host healthy now .recovery
  pollSlot host healthy now (.session 0)
  pollSlot host healthy now (.session 1)
  pollSlot host healthy now (.session 2)

/-! ## Packets -/

def consumerRadioHeaderBytes : Nat := 28
def consumerRadioTagBytes : Nat := 16

/-- Eight bytes, the most significant first. -/
def bigEndian (n : UInt64) : Bytes := (Standalone.put 8 n.toNat).reverse

def consumerRadioHeader (session : Bytes) (sequence : UInt64) : Bytes :=
  ascii "CR01" ++ session ++ bigEndian sequence

def headerMatches (packet session : Bytes) (sequence : UInt64) : Bool :=
  consumerRadioHeaderBytes + consumerRadioTagBytes ≤ packet.length &&
    packet.length ≤ maxHttpBody && (consumerRadioHeader session sequence).isPrefixOf packet

/-- `select`. -/
def selectSession (packet : Bytes) (api : ConsumerRadio) : Option (Fin 3) :=
  if packet.length < consumerRadioHeaderBytes + consumerRadioTagBytes ∨
      maxHttpBody < packet.length ∨ packet.take 4 ≠ ascii "CR01" then none
  else
    slots.find? fun i =>
      (api.sessions i).state ≠ .none && (api.sessions i).binding.session = (packet.drop 4).take 16

/-- `consumer_recovery_selector`. -/
def recoverySelector (binding : ConsumerRadioBinding) : Bytes :=
  (sha256 (ascii "WsprryPico/Consumer-Recovery/1/selector" ++ [0] ++ binding.device ++
    binding.boot ++ binding.session)).bytes.take 16

/-- `consumer_recovery_context`. -/
def recoveryContext (target : Bytes) (interface : ConsumerInterface) (authority : Bytes) : Bytes :=
  (sha256 (target ++ [if interface = .accessPoint then 1 else 2,
    UInt8.ofNat authority.length] ++ authority)).bytes

/-! ## Admission -/

/-- The Host authority without the port 80. -/
def bareHost (request : HttpRequest) : Bytes :=
  let host := request.header "host"
  if (ascii ":80").isSuffixOf host then host.take (host.length - 3) else host

def apAuthority : Bytes := ascii "192.168.4.1"

def pageAdmitted (request : HttpRequest) (interface : ConsumerInterface) (api : ConsumerRadio)
    (w : ω) : Bool :=
  let name := bareHost request
  available host api w &&
    ((interface = .accessPoint && api.apAvailable && name = apAuthority) ||
      (interface = .station && !api.stationIp.isEmpty &&
        (name = api.stationIp || (!api.hostname.isEmpty && name = api.hostname))))

def sameOrigin (request : HttpRequest) : Bool :=
  ((request.header "origin").isEmpty ||
      request.header "origin" = ascii "http://" ++ bareHost request) &&
    ((request.header "sec-fetch-site").isEmpty ||
      request.header "sec-fetch-site" = ascii "same-origin")

def admitted (request : HttpRequest) (binary : Bool) : Bool :=
  request.method = ascii "POST" && request.header "origin" = ascii "http://" ++ bareHost request &&
    request.header "x-wsprrypico-radio" = ascii "1" &&
    request.header "content-type" =
      ascii (if binary then "application/octet-stream" else "application/json") &&
    ((request.header "sec-fetch-site").isEmpty ||
      request.header "sec-fetch-site" = ascii "same-origin") &&
    (request.header "cookie").isEmpty && request.body.length ≤ maxHttpBody

end ConsumerRadio

end WsprryPico.Network
