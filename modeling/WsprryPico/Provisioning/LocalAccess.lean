import WsprryPico.Provisioning.Reset

/-!
# Local access

`LocalAccessController` of `provisioning/local_access.cpp`: the proof slot that
authorizes a sensitive operation, the BLE connection and the SoftAP sessions.
Times are milliseconds. `Surroundings` is what the bond store, the source of random
bytes and the flash answer during a call.
-/

namespace WsprryPico.Provisioning

open Lib Standalone Wtp

def enrollmentWindowMs : UInt64 := 120000
def proofLifetimeMs : UInt64 := 120000
def softapInactivityMs : UInt64 := 15 * 60000
def softapAbsoluteMs : UInt64 := 12 * 60 * 60000
def softapSessionCapacity : Nat := 4

structure SoftApSessionLimits where
  inactivityMs : UInt64 := softapInactivityMs
  absoluteMs : UInt64 := softapAbsoluteMs

def SoftApSessionLimits.valid (limits : SoftApSessionLimits) : Bool :=
  limits.inactivityMs > 0 && limits.absoluteMs ≥ limits.inactivityMs &&
    limits.inactivityMs ≤ softapInactivityMs && limits.absoluteMs ≤ softapAbsoluteMs

inductive AccessCode where
  | ok | invalid | authenticationRequired | confirmationRequired | wrongDevice | busy | capacity
  | expired | conflict | storageFault | bondEraseFault
  deriving DecidableEq

structure RequestBinding where
  deviceId : List UInt8 := []
  principal : List UInt8 := []
  sessionId : List UInt8 := []
  operation : List UInt8 := []
  nonce : List UInt8 := []
  currentGeneration : UInt64 := 0
  targetGeneration : UInt64 := 0
  parameters : PayloadDigest := .zero
  deriving DecidableEq

inductive SoftApOperation where
  | hello | status | abort | time | load | arm | configure | provision | accessAdmin
  deriving DecidableEq

structure SoftApLogin where
  code : AccessCode
  token : List UInt8 := []
  principal : List UInt8 := []

structure SoftApAuthority where
  code : AccessCode
  principal : List UInt8 := []
  ownerOnlyGrace : Bool := false
  wtpSession : List UInt8 := []

structure BleAdmission where
  code : AccessCode
  principal : List UInt8 := []
  provisional : Bool := false

structure Proof where
  binding : RequestBinding := {}
  issuedMs : UInt64 := 0
  epoch : UInt64 := 0
  password : Bool := false
  confirmation : Bool := false
  active : Bool := false

structure BleConnection where
  peer : UInt64 := 0
  sessionId : List UInt8 := []
  encrypted : Bool := false
  provisional : Bool := false
  authorized : Bool := false

structure SoftApSession where
  token : List UInt8 := []
  principal : List UInt8 := []
  bootId : List UInt8 := []
  wtpSession : List UInt8 := []
  epoch : UInt64 := 0
  createdMs : UInt64 := 0
  lastActivityMs : UInt64 := 0
  live : Bool := false

/-- The controller, with the store and the flash it works on. -/
structure LocalAccess where
  store : AccessStore
  flash : Nor
  deviceId : List UInt8
  bootId : List UInt8
  defaultPassword : List UInt8
  limits : SoftApSessionLimits := {}
  proof : Proof := {}
  ble : BleConnection := {}
  softap : List SoftApSession := List.replicate softapSessionCapacity {}
  enrollmentStartedMs : UInt64 := 0
  enrollmentActive : Bool := false

structure Surroundings where
  /-- `erase` and `erase_all` of the bond store -/
  bondErased : Bool := true
  /-- `fill` of the random source -/
  random : Option (Vector UInt8 16) := none
  /-- the pages that fail to read while a record is saved, and while BLE is disabled after it -/
  unreadable : Nat → Bool := fun _ => false
  unreadableAgain : Nat → Bool := fun _ => false

def elapsed (now since limit : UInt64) : Bool := decide (now < since) || decide (now - since ≥ limit)

/-- A comparison that looks at every byte. -/
def constantEqual (left right : List UInt8) : Bool :=
  (List.range (max left.length right.length)).foldl
    (fun difference i => difference ||| (left.getD i 0 ^^^ right.getD i 0).toNat)
    (left.length ^^^ right.length) = 0

def hexDigit (digit : UInt8) : UInt8 := if digit < 10 then 48 + digit else 87 + digit

def hex (bytes : List UInt8) : List UInt8 :=
  bytes.flatMap fun (byte : UInt8) => [hexDigit (byte >>> 4), hexDigit (byte &&& 15)]

def ascii (text : String) : List UInt8 := text.toList.map fun c => UInt8.ofNat c.toNat

/-- The digits of a number, in the base of `to_chars` or `to_string`. -/
def digits (base : Nat) (n : UInt64) : List UInt8 :=
  (Nat.toDigits base n.toNat).map fun c => UInt8.ofNat c.toNat

def boundedText (value : List UInt8) (maximum : Nat) : Bool :=
  !value.isEmpty && value.length ≤ maximum && value.all fun byte => byte ≥ 33 && byte < 127

def graceOperation (operation : SoftApOperation) : Bool :=
  operation = .status || operation = .abort || operation = .time

/-- `record()`: there is one while the store is healthy. -/
def AccessStore.recorded (store : AccessStore) : Option AccessRecord :=
  if store.healthy then some store.record else none

def AccessRecord.usedBonds (record : AccessRecord) : List UInt64 :=
  record.bonds.toList.take record.bondCount.toNat

/-- The bonds with one moved out, the later ones moved up. -/
def withoutBond (bonds : Vector UInt64 4) (count index : Nat) : Vector UInt64 4 :=
  .ofFn fun i =>
    if i.val < index then bonds[i]
    else if i.val + 1 < count then bonds.toList.getD (i.val + 1) 0
    else if i.val + 1 = count then 0
    else bonds[i]

namespace LocalAccess

def validBinding (binding : RequestBinding) (c : LocalAccess) : Bool :=
  binding.deviceId = c.deviceId && boundedText binding.principal 64 &&
    boundedText binding.sessionId 64 && boundedText binding.operation 32 &&
    boundedText binding.nonce 64 && !Reset.zero binding.parameters

/-- The code for a binding that is not valid. -/
def bindingFault (binding : RequestBinding) (c : LocalAccess) : AccessCode :=
  if binding.deviceId = c.deviceId then .invalid else .wrongDevice

def passwordMatches (candidate : List UInt8) (c : LocalAccess) : Bool :=
  c.store.recorded.any fun record => constantEqual candidate record.password

/-- The epoch a proof is bound to. -/
def epoch (c : LocalAccess) : UInt64 := (c.store.recorded.map (·.epoch)).getD 0

def provePassword (password : List UInt8) (binding : RequestBinding) (now : UInt64)
    (c : LocalAccess) : AccessCode × LocalAccess :=
  if !c.store.healthy then (.storageFault, c)
  else if !c.validBinding binding then (c.bindingFault binding, c)
  else if !c.passwordMatches password then (.authenticationRequired, c)
  else
    (.ok, { c with
      proof :=
        { binding, issuedMs := now, epoch := c.epoch, password := true, confirmation := false,
          active := true } })

/-- The proof slot holds a proof for the binding that has not expired. -/
def live (binding : RequestBinding) (now : UInt64) (c : LocalAccess) : Bool :=
  c.proof.active && decide (c.proof.binding = binding) &&
    !elapsed now c.proof.issuedMs proofLifetimeMs

def confirmLocal (binding : RequestBinding) (now : UInt64) (c : LocalAccess) :
    AccessCode × LocalAccess :=
  if !c.validBinding binding then (c.bindingFault binding, c)
  else if c.live binding now then (.ok, { c with proof := { c.proof with confirmation := true } })
  else
    (.ok, { c with
      proof :=
        { binding, issuedMs := now, epoch := c.epoch, password := false, confirmation := true,
          active := true } })

/-- The epoch of the proof is that of the record. -/
def sameEpoch (c : LocalAccess) : Bool :=
  c.store.recorded.all fun record => c.proof.epoch = record.epoch

def consume (binding : RequestBinding) (needPassword needConfirmation : Bool) (now : UInt64)
    (c : LocalAccess) : AccessCode × LocalAccess :=
  let result : AccessCode :=
    if !(c.live binding now && c.sameEpoch) then
      if needPassword then .authenticationRequired else .confirmationRequired
    else if needPassword && !c.proof.password then .authenticationRequired
    else if needConfirmation && !c.proof.confirmation then .confirmationRequired
    else .ok
  (result, { c with proof := {} })

def consumeEither (binding : RequestBinding) (now : UInt64) (c : LocalAccess) :
    AccessCode × LocalAccess :=
  let valid := c.live binding now && c.sameEpoch && (c.proof.password || c.proof.confirmation)
  (if valid then .ok else .authenticationRequired, { c with proof := {} })

/-- What an operation does once it is permitted; it ends otherwise. -/
def permitted (permit : AccessCode × LocalAccess)
    (operation : LocalAccess → AccessCode × LocalAccess) : AccessCode × LocalAccess :=
  match permit with
  | (.ok, c) => operation c
  | (code, c) => (code, c)

def invalidateBinding (principal sessionId : List UInt8) (c : LocalAccess) : LocalAccess :=
  if c.proof.active ∧ c.proof.binding.principal = principal ∧
      c.proof.binding.sessionId = sessionId then { c with proof := {} }
  else c

/-- A record is given to the store. -/
def write (run : AccessStore → AccessMedia → Bool × AccessStore × AccessMedia)
    (unreadable : Nat → Bool) (c : LocalAccess) : Bool × LocalAccess :=
  let out := run c.store { flash := c.flash, unreadable }
  (out.1, { c with store := out.2.1, flash := out.2.2.flash })

def initializeDefault (s : Surroundings) (binding : RequestBinding) (activity : Activity)
    (now : UInt64) (c : LocalAccess) : AccessCode × LocalAccess :=
  if c.store.state ≠ .erased then (.conflict, c)
  else if !idleForAccess activity then (.busy, c)
  else
    permitted (c.consume binding false true now) fun c =>
      let record : AccessRecord := { epoch := 1, password := c.defaultPassword }
      match c.write (AccessStore.initializeStore record) s.unreadable with
      | (false, c) => (.storageFault, c)
      | (true, c) => (.ok, c)

def enrollmentOpen (now : UInt64) (c : LocalAccess) : Bool :=
  c.enrollmentActive && !elapsed now c.enrollmentStartedMs enrollmentWindowMs

def openEnrollment (binding : RequestBinding) (activity : Activity) (now : UInt64)
    (c : LocalAccess) : AccessCode × LocalAccess :=
  if !c.store.healthy then (.storageFault, c)
  else if !idleForAccess activity || c.ble.peer ≠ 0 then (.busy, c)
  else if c.enrollmentOpen now then (.busy, c)
  else
    permitted (if c.store.record.defaultPassword then c.consume binding false true now
        else c.consumeEither binding now) fun c =>
      (.ok, { c with enrollmentStartedMs := now, enrollmentActive := true })

def retainedBond (peer : UInt64) (c : LocalAccess) : Bool :=
  c.store.recorded.any fun record => record.usedBonds.contains peer

def bondPrincipal (peer : UInt64) (c : LocalAccess) : List UInt8 :=
  ascii "ble-" ++ digits 16 peer ++ ascii "-" ++ digits 10 c.epoch

def bleConnect (peer : UInt64) (encrypted newPairing : Bool) (sessionId : List UInt8)
    (now : UInt64) (c : LocalAccess) : BleAdmission × LocalAccess :=
  if !c.store.healthy then ({ code := .storageFault }, c)
  else if peer = 0 || !encrypted || !boundedText sessionId 64 then
    ({ code := .authenticationRequired }, c)
  else if c.store.record.bleDisabled then ({ code := .bondEraseFault }, c)
  else if c.ble.peer ≠ 0 then ({ code := .busy }, c)
  else
    let retained := c.retainedBond peer
    if newPairing && (!c.enrollmentOpen now || retained) then
      ({ code := .authenticationRequired }, c)
    else if !newPairing && !retained then ({ code := .authenticationRequired }, c)
    else
      ({ code := .ok, principal := if retained then c.bondPrincipal peer else [],
         provisional := newPairing },
        { c with
          ble :=
            { peer, sessionId, encrypted := true, provisional := newPairing,
              authorized := retained } })

def markBleDisabled (s : Surroundings) (c : LocalAccess) : Bool × LocalAccess :=
  if !c.store.healthy then (false, c)
  else
    c.write (AccessStore.replace { c.store.record with bleDisabled := true }) s.unreadableAgain

/-- A bond is erased; BLE is disabled when that fails. -/
def eraseBond (s : Surroundings) (c : LocalAccess) : LocalAccess :=
  if s.bondErased then c else (c.markBleDisabled s).2

/-- The connection is dropped, with the bond it paired. -/
def dropBle (s : Surroundings) (c : LocalAccess) : LocalAccess :=
  { c with ble := {} }.eraseBond s

def bleAuthorize (s : Surroundings) (password : List UInt8) (now : UInt64) (c : LocalAccess) :
    BleAdmission × LocalAccess :=
  if c.ble.peer = 0 || !c.ble.encrypted || !c.ble.provisional || !c.enrollmentOpen now then
    ({ code := .authenticationRequired }, c)
  else if !c.passwordMatches password then ({ code := .authenticationRequired }, c.dropBle s)
  else if c.store.record.bondCount ≥ 4 then ({ code := .capacity }, c.dropBle s)
  else
    let record := c.store.record
    let replacement := { record with
      bonds := record.bonds.setIfInBounds record.bondCount.toNat c.ble.peer
      bondCount := record.bondCount + 1 }
    match c.write (AccessStore.replace replacement) s.unreadable with
    | (false, c) => ({ code := .storageFault }, c.dropBle s)
    | (true, c) =>
      ({ code := .ok, principal := c.bondPrincipal c.ble.peer },
        { c with
          ble := { c.ble with provisional := false, authorized := true }
          enrollmentActive := false })

def bleDisconnect (s : Surroundings) (c : LocalAccess) : Bool × LocalAccess :=
  let provisional := c.ble.provisional
  let principal := if c.ble.authorized then c.bondPrincipal c.ble.peer else []
  let c := { c.invalidateBinding principal c.ble.sessionId with ble := {} }
  (provisional, if provisional then c.eraseBond s else c)

def expireProvisionalBond (s : Surroundings) (now : UInt64) (c : LocalAccess) :
    Bool × LocalAccess :=
  if c.ble.peer = 0 || !c.ble.provisional || c.enrollmentOpen now then (false, c)
  else (true, (c.bleDisconnect s).2)

def removeBond (s : Surroundings) (peer : UInt64) (binding : RequestBinding) (activity : Activity)
    (now : UInt64) (c : LocalAccess) : AccessCode × LocalAccess :=
  if !c.store.healthy then (.storageFault, c)
  else if !idleForAccess activity then (.busy, c)
  else
    permitted (c.consume binding true c.store.record.defaultPassword now) fun c =>
      let record := c.store.record
      match record.usedBonds.findIdx? (· = peer) with
      | none => (.invalid, c)
      | some index =>
        let replacement := { record with
          bonds := withoutBond record.bonds record.bondCount.toNat index
          bondCount := record.bondCount - 1 }
        match c.write (AccessStore.replace replacement) s.unreadable with
        | (false, c) => (.storageFault, c)
        | (true, c) =>
          let c := if c.ble.peer = peer then { c with ble := {} } else c
          if s.bondErased then (.ok, c) else (.bondEraseFault, (c.markBleDisabled s).2)

/-- The session is of another boot or another epoch. -/
def stale (session : SoftApSession) (c : LocalAccess) : Bool :=
  decide (session.bootId ≠ c.bootId) || !c.store.recorded.any fun record =>
    session.epoch = record.epoch

def reclaim (now : UInt64) (protectedSession : List UInt8) (c : LocalAccess) : LocalAccess :=
  { c with
    softap := c.softap.map fun session =>
      if !session.live then session
      else
        let protectedOwner := !protectedSession.isEmpty && session.wtpSession = protectedSession
        if c.stale session || (!protectedOwner &&
            (elapsed now session.createdMs c.limits.absoluteMs ||
              elapsed now session.lastActivityMs c.limits.inactivityMs)) then {}
        else session }

def findSession (token : List UInt8) (c : LocalAccess) : Option (Nat × SoftApSession) :=
  (c.softap.findIdx? fun session => session.live && constantEqual session.token token).map
    fun slot => (slot, c.softap.getD slot {})

def setSession (slot : Nat) (session : SoftApSession) (c : LocalAccess) : LocalAccess :=
  { c with softap := c.softap.set slot session }

def softapLogin (s : Surroundings) (password : List UInt8) (now : UInt64)
    (protectedSession : List UInt8) (c : LocalAccess) : SoftApLogin × LocalAccess :=
  if !c.limits.valid then ({ code := .invalid }, c)
  else if !c.store.healthy then ({ code := .storageFault }, c)
  else if !c.passwordMatches password then ({ code := .authenticationRequired }, c)
  else
    let c := c.reclaim now protectedSession
    match c.softap.findIdx? fun session => !session.live with
    | none => ({ code := .capacity }, c)
    | some slot =>
      match s.random with
      | none => ({ code := .invalid }, c)
      | some bytes =>
        let token := hex bytes.toList
        if (c.findSession token).isSome then ({ code := .conflict }, c)
        else
          let session := { c.softap.getD slot {} with
            token
            principal := ascii "softap-" ++ hex ((sha256 bytes.toList).bytes.take 12)
            bootId := c.bootId
            epoch := c.epoch
            createdMs := now
            lastActivityMs := now
            live := true }
          ({ code := .ok, token := session.token, principal := session.principal },
            c.setSession slot session)

def bindSoftapSession (token wtpSession : List UInt8) (now : UInt64) (c : LocalAccess) :
    AccessCode × LocalAccess :=
  if !boundedText wtpSession 64 then (.invalid, c)
  else
    match c.findSession token with
    | none => (.expired, c)
    | some (slot, session) =>
      if c.stale session || elapsed now session.createdMs c.limits.absoluteMs ||
          elapsed now session.lastActivityMs c.limits.inactivityMs then
        (.expired, c.setSession slot {})
      else if !session.wtpSession.isEmpty && session.wtpSession ≠ wtpSession then (.conflict, c)
      else (.ok, c.setSession slot { session with wtpSession, lastActivityMs := now })

def softapAuthorize (token : List UInt8) (operation : SoftApOperation)
    (wtpSession activeOwnerSession : List UInt8) (activity : Activity) (now : UInt64)
    (c : LocalAccess) : SoftApAuthority × LocalAccess :=
  match c.findSession token with
  | none => ({ code := .expired }, c)
  | some (slot, session) =>
    if c.stale session then ({ code := .expired }, c)
    else if !session.wtpSession.isEmpty && !wtpSession.isEmpty &&
        session.wtpSession ≠ wtpSession then ({ code := .conflict }, c)
    else
      let ownsActive := activity.owned && (activity.armed || activity.running) &&
        !session.wtpSession.isEmpty && session.wtpSession = activeOwnerSession
      if elapsed now session.createdMs c.limits.absoluteMs then
        if !ownsActive || !graceOperation operation then
          ({ code := .expired }, c.setSession slot {})
        else
          ({ code := .ok, principal := session.principal, ownerOnlyGrace := true,
             wtpSession := session.wtpSession }, c)
      else if !ownsActive && elapsed now session.lastActivityMs c.limits.inactivityMs then
        ({ code := .expired }, c.setSession slot {})
      else
        ({ code := .ok, principal := session.principal, wtpSession := session.wtpSession },
          c.setSession slot { session with lastActivityMs := now })

def softapLogout (token wtpSession activeOwnerSession : List UInt8) (activity : Activity)
    (c : LocalAccess) : AccessCode × LocalAccess :=
  match c.findSession token with
  | none => (.expired, c)
  | some (slot, session) =>
    if !session.wtpSession.isEmpty && session.wtpSession ≠ wtpSession then (.conflict, c)
    else if activity.owned && !session.wtpSession.isEmpty &&
        session.wtpSession = activeOwnerSession then (.busy, c)
    else
      let proof := if c.proof.active && c.proof.binding.principal = session.principal then {}
        else c.proof
      (.ok, { c with proof }.setSession slot {})

def invalidateAllVolatile (c : LocalAccess) : LocalAccess :=
  { c with
    proof := {}
    ble := {}
    softap := c.softap.map fun _ => {}
    enrollmentActive := false
    enrollmentStartedMs := 0 }

def changePassword (s : Surroundings) (replacement : List UInt8) (binding : RequestBinding)
    (activity : Activity) (now : UInt64) (c : LocalAccess) : AccessCode × LocalAccess :=
  if !c.store.healthy then (.storageFault, c)
  else if !idleForAccess activity then (.busy, c)
  else if !validLocalPassword replacement then (.invalid, c)
  else
    permitted (c.consume binding true c.store.record.defaultPassword now) fun c =>
      let record := c.store.record
      if record.epoch = 18446744073709551615 then (.conflict, c)
      else
        let changed := { record with
          epoch := record.epoch + 1
          password := replacement
          defaultPassword := false
          bonds := .replicate 4 0
          bondCount := 0
          bleDisabled := false }
        match c.write (AccessStore.replace changed) s.unreadable with
        | (false, c) => (.storageFault, c)
        | (true, c) =>
          let c := c.invalidateAllVolatile
          if s.bondErased then (.ok, c) else (.bondEraseFault, (c.markBleDisabled s).2)

def setFieldMode (s : Surroundings) (enabled : Bool) (binding : RequestBinding)
    (activity : Activity) (now : UInt64) (c : LocalAccess) : AccessCode × LocalAccess :=
  if !c.store.healthy then (.storageFault, c)
  else if !idleForAccess activity then (.busy, c)
  else
    permitted (c.consume binding true c.store.record.defaultPassword now) fun c =>
      match c.write (AccessStore.replace { c.store.record with fieldMode := enabled })
        s.unreadable with
      | (false, c) => (.storageFault, c)
      | (true, c) => (.ok, c)

def sensitiveReady (binding : RequestBinding) (activity : Activity) (now : UInt64)
    (c : LocalAccess) : AccessCode :=
  if !c.store.healthy then .storageFault
  else if !idleForAccess activity then .busy
  else if !c.validBinding binding then c.bindingFault binding
  else if !(c.live binding now && c.store.recorded.isSome && c.sameEpoch) || !c.proof.password then
    .authenticationRequired
  else if c.store.record.defaultPassword && !c.proof.confirmation then .confirmationRequired
  else .ok

def authorizeSensitive (binding : RequestBinding) (activity : Activity) (now : UInt64)
    (c : LocalAccess) : AccessCode × LocalAccess :=
  if !c.store.healthy then (.storageFault, c)
  else if !idleForAccess activity then (.busy, c)
  else c.consume binding true c.store.record.defaultPassword now

end LocalAccess

/-- The calls on the controller. -/
inductive LocalCall where
  | provePassword (password : List UInt8) (binding : RequestBinding) (now : UInt64)
  | confirmLocal (binding : RequestBinding) (now : UInt64)
  | invalidateBinding (principal sessionId : List UInt8)
  | initializeDefault (binding : RequestBinding) (activity : Activity) (now : UInt64)
  | openEnrollment (binding : RequestBinding) (activity : Activity) (now : UInt64)
  | bleConnect (peer : UInt64) (encrypted newPairing : Bool) (sessionId : List UInt8)
    (now : UInt64)
  | bleAuthorize (password : List UInt8) (now : UInt64)
  | expireProvisionalBond (now : UInt64)
  | bleDisconnect
  | removeBond (peer : UInt64) (binding : RequestBinding) (activity : Activity) (now : UInt64)
  | softapLogin (password : List UInt8) (now : UInt64) (protectedSession : List UInt8)
  | bindSoftapSession (token wtpSession : List UInt8) (now : UInt64)
  | softapAuthorize (token : List UInt8) (operation : SoftApOperation)
    (wtpSession activeOwnerSession : List UInt8) (activity : Activity) (now : UInt64)
  | softapLogout (token wtpSession activeOwnerSession : List UInt8) (activity : Activity)
  | liveSoftapSessions (now : UInt64) (protectedSession : List UInt8)
  | changePassword (replacement : List UInt8) (binding : RequestBinding) (activity : Activity)
    (now : UInt64)
  | setFieldMode (enabled : Bool) (binding : RequestBinding) (activity : Activity) (now : UInt64)
  | authorizeSensitive (binding : RequestBinding) (activity : Activity) (now : UInt64)
  | invalidateAllVolatile
  /-- Whatever else uses the store, between two calls. -/
  | elsewhere (store : AccessStore) (flash : Nor)

namespace LocalAccess

def perform (s : Surroundings) (call : LocalCall) (c : LocalAccess) :
    Option AccessCode × LocalAccess :=
  match call with
  | .provePassword password binding now => (c.provePassword password binding now).map some id
  | .confirmLocal binding now => (c.confirmLocal binding now).map some id
  | .invalidateBinding principal sessionId => (none, c.invalidateBinding principal sessionId)
  | .initializeDefault binding activity now =>
    (c.initializeDefault s binding activity now).map some id
  | .openEnrollment binding activity now => (c.openEnrollment binding activity now).map some id
  | .bleConnect peer encrypted newPairing sessionId now =>
    (c.bleConnect peer encrypted newPairing sessionId now).map (some ·.code) id
  | .bleAuthorize password now => (c.bleAuthorize s password now).map (some ·.code) id
  | .expireProvisionalBond now => (none, (c.expireProvisionalBond s now).2)
  | .bleDisconnect => (none, (c.bleDisconnect s).2)
  | .removeBond peer binding activity now =>
    (c.removeBond s peer binding activity now).map some id
  | .softapLogin password now protectedSession =>
    (c.softapLogin s password now protectedSession).map (some ·.code) id
  | .bindSoftapSession token wtpSession now =>
    (c.bindSoftapSession token wtpSession now).map some id
  | .softapAuthorize token operation wtpSession activeOwnerSession activity now =>
    (c.softapAuthorize token operation wtpSession activeOwnerSession activity now).map
      (some ·.code) id
  | .softapLogout token wtpSession activeOwnerSession activity =>
    (c.softapLogout token wtpSession activeOwnerSession activity).map some id
  | .liveSoftapSessions now protectedSession => (none, c.reclaim now protectedSession)
  | .changePassword replacement binding activity now =>
    (c.changePassword s replacement binding activity now).map some id
  | .setFieldMode enabled binding activity now =>
    (c.setFieldMode s enabled binding activity now).map some id
  | .authorizeSensitive binding activity now =>
    (c.authorizeSensitive binding activity now).map some id
  | .invalidateAllVolatile => (none, c.invalidateAllVolatile)
  | .elsewhere store flash => (none, { c with store, flash })

def run (c : LocalAccess) (calls : List (Surroundings × LocalCall)) : LocalAccess :=
  calls.foldl (fun c step => (c.perform step.1 step.2).2) c

end LocalAccess

end WsprryPico.Provisioning
