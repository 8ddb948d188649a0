import WsprryPico.Provisioning.Activation

/-!
# The provisioning manager

`Manager` of `provisioning/manager.cpp`: one session that stages the text of a profile and
commits it to the profile store. Each operation first looks for the reply it gave to the
same request, and keeps the reply it gives.
-/

namespace WsprryPico.Provisioning

open Lib
open Wtp (PayloadDigest sha256)
open Wtp.Json (Bytes)

def sessionTimeoutMs : UInt64 := 30000
def replayRetentionMs : UInt64 := 300000
def replayCapacity : Nat := 8
def fragmentCapacity : Nat := maxProfileBytes

inductive Transport where
  | ble | softAp
  deriving DecidableEq

structure Authorization where
  authenticated : Bool := false
  confidential : Bool := false
  isLocal : Bool := false
  principal : Bytes := []

def validPrincipal (principal : Bytes) : Bool :=
  !principal.isEmpty && principal.length ≤ 64 && principal.all fun c => 33 ≤ c && c < 127

/-- What an operation of a session asks of its authorization. -/
def Authorization.valid (authorization : Authorization) : Bool :=
  authorization.authenticated && authorization.confidential && authorization.isLocal &&
    validPrincipal authorization.principal

namespace Manager

inductive State where
  | idle | receiving | ready | complete | cancelled | expired | failed

inductive Code where
  | ok | invalidRequest | authenticationRequired | wrongDevice | sessionBusy | sessionNotFound
  | outOfOrder | incomplete | oversize | malformed | credentialInvalid | conflict | busy | replay
  | storageFault | activationFault
  deriving DecidableEq

structure Result where
  code : Code := .ok
  generation : Nat := 0
  acceptedBytes : Nat := 0
  replayed : Bool := false

structure Session where
  id : Bytes
  principal : Bytes
  transport : Transport
  lastProgressMs : UInt64
  staged : Bytes := []
  fragments : Nat := 0
  final : Bool := false
  deriving DecidableEq

structure ReplayEntry where
  requestId : Bytes
  digest : PayloadDigest
  result : Result
  recordedMs : UInt64

/-- The result of an operation, and the text it gave to the store if it came to that. -/
structure Reply where
  result : Result
  replaced : Option Bytes := none

end Manager

open Manager

structure Manager where
  deviceId : Bytes
  store : ProfileStore
  media : Media
  activation : Option ActivationCoordinator := none
  session : Option Session := none
  replays : List ReplayEntry := []
  state : Manager.State := .idle
  lastTransport : Transport := .ble

namespace Manager

/-! ## Digests of requests -/

def requestDigest (operation : String) (fields : List Bytes) (payload : Bytes := []) :
    PayloadDigest :=
  sha256 (ascii operation ++ (fields.flatMap fun field => 0 :: field) ++ 0 :: payload)

def transportName : Transport → Bytes
  | .ble => ascii "ble"
  | .softAp => ascii "softap"

def flag (value : Bool) : Bytes := ascii (if value then "1" else "0")

/-- The fields of the caller, the last ones of each request. -/
def callerFields (transport : Transport) (authorization : Authorization) : List Bytes :=
  [transportName transport, authorization.principal, flag authorization.authenticated,
    flag authorization.confidential, flag authorization.isLocal]

/-! ## Expiry and replies -/

def terminate (state : Manager.State) (m : Manager) : Manager := { m with session := none, state }

def retained (now : UInt64) (m : Manager) : List ReplayEntry :=
  m.replays.filter fun entry => !elapsed now entry.recordedMs replayRetentionMs

def expire (now : UInt64) (m : Manager) : Manager :=
  let m := { m with replays := m.retained now }
  match m.session with
  | none => m
  | some session =>
    if elapsed now session.lastProgressMs sessionTimeoutMs then m.terminate .expired else m

def replay (requestId : Bytes) (digest : PayloadDigest) (now : UInt64) (m : Manager) :
    Option Result × Manager :=
  let m := m.expire now
  if !Network.validDeviceId requestId then
    (some { code := .invalidRequest, generation := m.store.sequence }, m)
  else
    match m.replays.find? fun entry => entry.requestId = requestId with
    | none => (none, m)
    | some found =>
      if found.digest ≠ digest then
        (some { code := .replay, generation := m.store.sequence }, m.terminate .failed)
      else (some { found.result with replayed := true }, m)

/-- A reply that the activation still needs. -/
def protects (m : Manager) (entry : ReplayEntry) : Bool :=
  m.activation.any fun c => c.protectsReplay entry.requestId entry.result.generation

def remember (requestId : Bytes) (digest : PayloadDigest) (result : Result) (now : UInt64)
    (m : Manager) : Manager :=
  if !Network.validDeviceId requestId then m
  else
    let entry : ReplayEntry := { requestId, digest, result, recordedMs := now }
    if m.replays.length = replayCapacity then
      if m.replays.all m.protects then m
      else { m with replays := m.replays.eraseP (fun e => !m.protects e) ++ [entry] }
    else { m with replays := m.replays ++ [entry] }

/-- An operation: the reply to the same request, or that of the body, which is kept. -/
def once (requestId : Bytes) (digest : PayloadDigest) (now : UInt64)
    (body : Manager → Reply × Manager) (m : Manager) : Reply × Manager :=
  match m.replay requestId digest now with
  | (some prior, m) => ({ result := prior }, m)
  | (none, m) =>
    let (reply, m) := body m
    (reply, m.remember requestId digest reply.result now)

/-- A result that changes nothing. -/
def refuse (code : Code) (m : Manager) : Reply × Manager :=
  ({ result := { code, generation := m.store.sequence } }, m)

/-- A result that ends the session. -/
def failed (code : Code) (m : Manager) : Reply × Manager :=
  ({ result := { code, generation := m.store.sequence } }, m.terminate .failed)

/-! ## Operations -/

def openDigest (sessionId requestedDevice : Bytes) (transport : Transport)
    (authorization : Authorization) : PayloadDigest :=
  requestDigest "open" (sessionId :: requestedDevice :: callerFields transport authorization)

def openBody (sessionId requestedDevice : Bytes) (transport : Transport)
    (authorization : Authorization) (now : UInt64) (m : Manager) : Reply × Manager :=
  if !m.store.healthy then m.refuse .storageFault
  else if !Network.validDeviceId sessionId then m.refuse .invalidRequest
  else if !authorization.valid then m.refuse .authenticationRequired
  else if requestedDevice ≠ m.deviceId ∨ !Network.validDeviceId requestedDevice then
    m.refuse .wrongDevice
  else if m.activation.any (·.blocksAdmission) then
    m.refuse (if m.activation.any (·.state = .fault) then .activationFault else .sessionBusy)
  else if m.session.isSome then m.refuse .sessionBusy
  else
    ({ result := { generation := m.store.sequence } },
      { m with
        session := some
          { id := sessionId, principal := authorization.principal, transport, lastProgressMs := now }
        state := .receiving
        lastTransport := transport })

def «open» (requestId sessionId requestedDevice : Bytes) (transport : Transport)
    (authorization : Authorization) (now : UInt64) (m : Manager) : Reply × Manager :=
  m.once requestId (openDigest sessionId requestedDevice transport authorization) now
    (openBody sessionId requestedDevice transport authorization now)

/-- The checks that `write`, `apply` and `cancel` begin with. -/
def withSession (sessionId : Bytes) (transport : Transport) (authorization : Authorization)
    (body : Session → Manager → Reply × Manager) (m : Manager) : Reply × Manager :=
  if !authorization.valid then m.refuse .authenticationRequired
  else
    match m.session with
    | none => m.refuse .sessionNotFound
    | some session =>
      if session.id ≠ sessionId then m.refuse .sessionNotFound
      else if session.transport ≠ transport ∨ session.principal ≠ authorization.principal then
        m.refuse .authenticationRequired
      else body session m

def writeDigest (sessionId : Bytes) (offset : Nat) (input : Bytes) (final : Bool)
    (transport : Transport) (authorization : Authorization) : PayloadDigest :=
  requestDigest "write"
    (sessionId :: decimal offset :: flag final :: callerFields transport authorization) input

def writeBody (offset : Nat) (input : Bytes) (final : Bool) (now : UInt64) (session : Session)
    (m : Manager) : Reply × Manager :=
  if session.final ∨ offset ≠ session.staged.length ∨ input.isEmpty then m.refuse .outOfOrder
  else if fragmentCapacity ≤ session.fragments ∨
      maxProfileBytes - session.staged.length < input.length then m.failed .oversize
  else
    let staged := session.staged ++ input
    ({ result := { generation := m.store.sequence, acceptedBytes := staged.length } },
      { m with
        session := some
          { session with
            staged, fragments := session.fragments + 1, lastProgressMs := now, final }
        state := if final then .ready else .receiving })

def write (requestId sessionId : Bytes) (offset : Nat) (input : Bytes) (final : Bool)
    (transport : Transport) (authorization : Authorization) (now : UInt64) (m : Manager) :
    Reply × Manager :=
  m.once requestId (writeDigest sessionId offset input final transport authorization) now
    (withSession sessionId transport authorization (writeBody offset input final now))

/-- What the validator and the platform answer during one operation. -/
structure Answers where
  validate : Profile → Bool := fun _ => true
  platform : PlatformAnswers := {}

section

variable (p : Parsers) (a : Answers)

/-- The activation of a profile that has just been committed. -/
def activate (requestId : Bytes) (profile : Profile) (previous : Nat) (now : UInt64)
    (m : Manager) : Code × Manager :=
  match m.activation with
  | none => (.ok, m.terminate .complete)
  | some c =>
    if m.store.sequence = previous then (.ok, m.terminate .complete)
    else
      match c.stage a.platform requestId profile m.store.sequence now with
      | (true, c) => (.ok, { m with activation := some c }.terminate .complete)
      | (false, c) =>
        let c := c.committedFault a.platform requestId m.store.sequence .stage
        (.activationFault, { m with activation := some c }.terminate .failed)

def commit (requestId : Bytes) (profile : Profile) (now : UInt64) (m : Manager) :
    Reply × Manager :=
  let canonical := serializeProfile profile
  if maxProfileBytes < canonical.length then m.failed .oversize
  else
    match m.store.select p .runtimeProfile canonical m.media with
    | (false, store, media) =>
      ({ result := { code := .storageFault, generation := m.store.sequence },
         replaced := some canonical }, { m with store, media }.terminate .failed)
    | (true, store, media) =>
      let (code, after) :=
        ({ m with store, media } : Manager).activate a requestId profile m.store.sequence now
      ({ result := { code, generation := store.sequence }, replaced := some canonical }, after)

def applyDigest (sessionId : Bytes) (expectedGeneration : Nat) (transport : Transport)
    (authorization : Authorization) : PayloadDigest :=
  requestDigest "apply"
    (sessionId :: decimal expectedGeneration :: callerFields transport authorization)

def applyBody (requestId : Bytes) (expectedGeneration : Nat) (activity : Activity) (now : UInt64)
    (session : Session) (m : Manager) : Reply × Manager :=
  if !session.final then m.refuse .incomplete
  else if expectedGeneration ≠ m.store.sequence then m.refuse .conflict
  else if !idleForAccess activity then m.refuse .busy
  else
    match parseProfile session.staged with
    | none => m.failed .malformed
    | some profile =>
      if profile.deviceId ≠ m.deviceId then m.failed .wrongDevice
      else if !a.validate profile then m.failed .credentialInvalid
      else m.commit p a requestId profile now

def apply (requestId sessionId : Bytes) (expectedGeneration : Nat) (activity : Activity)
    (transport : Transport) (authorization : Authorization) (now : UInt64) (m : Manager) :
    Reply × Manager :=
  m.once requestId (applyDigest sessionId expectedGeneration transport authorization) now
    (withSession sessionId transport authorization
      (applyBody p a requestId expectedGeneration activity now))

end

def cancelDigest (sessionId : Bytes) (transport : Transport) (authorization : Authorization) :
    PayloadDigest :=
  requestDigest "cancel" (sessionId :: callerFields transport authorization)

def cancelBody (_session : Session) (m : Manager) : Reply × Manager :=
  ({ result := { generation := m.store.sequence } }, m.terminate .cancelled)

def cancel (requestId sessionId : Bytes) (transport : Transport) (authorization : Authorization)
    (now : UInt64) (m : Manager) : Reply × Manager :=
  m.once requestId (cancelDigest sessionId transport authorization) now
    (withSession sessionId transport authorization cancelBody)

section

variable (a : Answers)

/-- A fault of the activation shows in the state. -/
def withActivation (c : ActivationCoordinator) (m : Manager) : Manager :=
  { m with
    activation := some c
    state := if c.state = .fault then .failed else m.state }

def releaseActivation (requestId : Bytes) (generation : Nat) (m : Manager) :
    ActivationRelease × Manager :=
  match m.activation with
  | none => (.stale, m)
  | some c =>
    let (release, c) := c.release a.platform requestId generation
    (release, m.withActivation c)

def poll (now : UInt64) (m : Manager) : Manager :=
  let m := m.expire now
  match m.activation with
  | none => m
  | some c => m.withActivation (c.poll a.platform now)

end

end Manager

/-! ## Runs -/

/-- The calls on the manager. -/
inductive ManagerCall where
  | «open» (requestId sessionId requestedDevice : Bytes) (transport : Transport)
    (authorization : Authorization) (now : UInt64)
  | write (requestId sessionId : Bytes) (offset : Nat) (input : Bytes) (final : Bool)
    (transport : Transport) (authorization : Authorization) (now : UInt64)
  | apply (requestId sessionId : Bytes) (expectedGeneration : Nat) (activity : Activity)
    (transport : Transport) (authorization : Authorization) (now : UInt64)
  | cancel (requestId sessionId : Bytes) (transport : Transport) (authorization : Authorization)
    (now : UInt64)
  | releaseActivation (requestId : Bytes) (generation : Nat)
  | poll (now : UInt64)

namespace Manager

def perform (p : Parsers) (a : Answers) (call : ManagerCall) (m : Manager) :
    Option Reply × Manager :=
  match call with
  | .open requestId sessionId requestedDevice transport authorization now =>
    (m.open requestId sessionId requestedDevice transport authorization now).map some id
  | .write requestId sessionId offset input final transport authorization now =>
    (m.write requestId sessionId offset input final transport authorization now).map some id
  | .apply requestId sessionId expectedGeneration activity transport authorization now =>
    (m.apply p a requestId sessionId expectedGeneration activity transport authorization now).map
      some id
  | .cancel requestId sessionId transport authorization now =>
    (m.cancel requestId sessionId transport authorization now).map some id
  | .releaseActivation requestId generation => (none, (m.releaseActivation a requestId generation).2)
  | .poll now => (none, m.poll a now)

end Manager

end WsprryPico.Provisioning
