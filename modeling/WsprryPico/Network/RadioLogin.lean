import WsprryPico.Network.ConsumerRadio

/-!
# The login of a radio session

`start` and `finish` of `network/consumer_radio.cpp`, and the recovery proof that retires a
session in their way.
-/

namespace WsprryPico.Network

open Lib Wtp Wtp.Json
open Provisioning hiding ascii

variable {ω : Type}

namespace ConsumerRadio

open RadioM

variable (host : RadioHost ω)

/-! ## Keys -/

/-- The id of a session: the serial behind the first half of the random bytes. -/
def stamped (random : Bytes) (serial : UInt64) : Bytes := random.take 8 ++ bigEndian serial

/-- What a login draws: the ids of the device, a session id, a challenge and a key. The binding
is filled as far as it goes. -/
def draw (p : Place) (taken : Bytes → Bool) (device boot : Bytes)
    (binding : ConsumerRadioBinding) : RadioM ω (Bool × ConsumerRadioBinding) :=
  match bootstrapUnhex 16 device with
  | none => pure (false, binding)
  | some device =>
    match bootstrapUnhex 16 boot with
    | none => pure (false, { binding with device })
    | some boot => do
      let (filled, session) ← ask host.fill
      let binding := { binding with device, boot, session }
      if !filled ∨ session.all (· = 0) ∨ taken session then pure (false, binding)
      else do
        let (filled, challenge) ← ask host.fill
        let binding := { binding with challenge }
        if !filled then pure (false, binding)
        else do
          let begun ← ask (host.cryptoBegin p)
          pure (begun, binding)

/-! ## Requests -/

/-- The members every login has: its version, the ids of the device and the generation of the
profile. -/
def readIdentity (names : List String) (device boot : Bytes) (sequence : Nat) (body : Bytes) :
    Option (Value × UInt64) :=
  match parse body with
  | none => none
  | some root =>
    let same (name : String) (expected : Bytes) :=
      (root.get (ascii name)).any fun v => identifier v && v.string = expected
    if !fields root (names.map ascii) ∨
        !(root.get (ascii "version")).any (fun v => v.raw = ascii "1") ∨
        !same "device_id" device ∨ !same "boot_id" boot then none
    else
      match (root.get (ascii "generation")).bind decimal with
      | none => none
      | some generation => if generation.toNat ≠ sequence then none else some (root, generation)

/-- `hex_field`. -/
def hexField (root : Value) (name : String) (size : Nat) : Option Bytes :=
  (root.get (ascii name)).bind fun v => if v.type = 34 then bootstrapUnhex size v.string else none

def readKey (root : Value) : Option Bytes :=
  (root.get (ascii "public_key")).bind fun v =>
    if v.type = 34 then bootstrapUnb64url 32 32 v.string else none

def startFields : List String :=
  ["version", "device_id", "boot_id", "generation", "public_key", "nonce"]

def recoveryFields : List String := startFields ++ ["target_selector"]

/-- The response to a login, up to the time it has. -/
def loginText (api : ConsumerRadio) (binding : ConsumerRadioBinding) : Bytes :=
  ascii "\x7b\"version\":1,\"device_id\":" ++ quote api.device ++ ascii ",\"boot_id\":" ++
    quote api.boot ++ ascii ",\"generation\":" ++
    quote (Lib.decimal binding.generation.toNat) ++ ascii ",\"session_id\":" ++
    quote (bootstrapHex binding.session) ++ ascii ",\"public_key\":" ++
    quote (bootstrapB64url binding.picoKey) ++ ascii ",\"challenge\":" ++
    quote (bootstrapHex binding.challenge)

/-! ## Start and finish -/

/-- The login of a slot is drawn. -/
def beginSession (i : Fin 3) (request : HttpRequest) (now : UInt64)
    (interface : ConsumerInterface) : RadioM ω HttpResponse := do
  let s ← api
  let taken (id : Bytes) :=
    slots.any fun j => (s.sessions j).state ≠ .none && (s.sessions j).binding.session = id
  let (drawn, binding) ←
    draw host (.session i) taken s.device s.boot (s.sessions i).binding
  update (modifySlot (.session i) fun session => { session with binding })
  if !drawn then do
    closeSlot host (.session i)
    pure (httpError 503 "radio_session_unavailable")
  else do
    let serial := s.sessionSerial + 1
    let picoKey ← look (host.cryptoPublicKey (.session i))
    let binding := { binding with session := stamped binding.session serial, picoKey }
    let authority := request.header "host"
    update fun api =>
      { api with sessionSerial := serial, lastStartMs := some now }.modifySlot (.session i)
        fun session =>
          { session with
            binding, interface, authority, state := .pending, startedMs := now, seenMs := now }
    record (.started (.session i) binding.session binding.generation interface authority)
    pure (httpOk (loginText s binding ++ ascii ",\"login_ms\":30000\x7d"))

def start (request : HttpRequest) (now : UInt64) (interface : ConsumerInterface) :
    RadioM ω HttpResponse := do
  let s ← api
  let sequence ← look fun w => (host.store w).sequence
  if slots.any fun i => (s.sessions i).state = .pending then
    pure (httpError 409 "radio_login_pending")
  else
    match slots.find? fun i => (s.sessions i).crypto && (s.sessions i).state = .none with
    | none => pure (httpError 409 "radio_session_capacity")
    | some i =>
      if s.lastStartMs.any fun last => !elapsed now last 1000 then
        pure (httpError 429 "radio_login_rate_limited")
      else if 512 < request.body.length then pure (httpError 413 "radio_body_too_large")
      else
        match readIdentity startFields s.device s.boot sequence request.body with
        | none => pure (httpError 400 "invalid_radio_identity")
        | some (root, generation) =>
          match readKey root, hexField root "nonce" 16 with
          | some browserKey, some browserNonce => do
            update (modifySlot (.session i) fun session =>
              { session with
                binding := { session.binding with browserKey, browserNonce, generation } })
            if s.sessionSerial.toNat = UInt64.size - 1 then
              pure (httpError 503 "radio_session_unavailable")
            else beginSession host i request now interface
          | _, _ => pure (httpError 400 "invalid_radio_key")

def sealReply (p : Place) (plaintext : Bytes) (sequence : UInt64) :
    RadioM ω (Option HttpResponse) := do
  let s ← api
  let binding := (s.slot p).binding
  let response ← ask (host.cryptoSeal p plaintext binding sequence)
  record (.sealed p binding.session sequence response.isSome)
  pure response

/-- The password proof of a place, and the reply to it. -/
def authenticate (p : Place) (request : HttpRequest) : RadioM ω Bool := do
  let s ← api
  let password ← look (authenticationPassword host s)
  let binding := (s.slot p).binding
  let accepted ← ask (host.cryptoAuthenticate p request.body binding password)
  record (.authenticated p binding.session accepted)
  pure accepted

def finish (i : Fin 3) (request : HttpRequest) (now : UInt64) : RadioM ω HttpResponse := do
  let s ← api
  let session := s.sessions i
  if session.state ≠ .pending ∨ !request.owned ∨
      !headerMatches request.body session.binding.session 0 then
    pure (httpError 401 "radio_authentication_required")
  else do
    -- every complete finish consumes the pending exchange, even a bad password
    update (modifySlot (.session i) fun session => { session with state := .none })
    let accepted ← authenticate host (.session i) request
    if !accepted then do
      closeSlot host (.session i)
      pure (httpError 401 "radio_authentication_failed")
    else do
      let plain := ascii "\x7b\"authenticated\":true,\"device_id\":" ++ quote s.device ++
        ascii ",\"boot_id\":" ++ quote s.boot ++ ascii "\x7d"
      let response ← sealReply host (.session i) plain 0
      match response with
      | none => do
        closeSlot host (.session i)
        pure (httpError 503 "radio_session_unavailable")
      | some response => do
        update (modifySlot (.session i) fun session =>
          { session with state := .active, startedMs := now, seenMs := now })
        pure response

/-! ## Recovery -/

def interfaceName (interface : ConsumerInterface) : String :=
  if interface = .accessPoint then "ap" else "station"

def recoveryEntry (s : RadioSession) : Bytes :=
  ascii "\x7b\"selector\":" ++ quote (bootstrapHex (recoverySelector s.binding)) ++
    ascii ",\"state\":" ++ quote (ascii (if s.state = .pending then "pending" else "active")) ++
    ascii "\x7d"

def recoveryDiscovery (request : HttpRequest) (interface : ConsumerInterface)
    (api : ConsumerRadio) (w : ω) : HttpResponse :=
  if !api.recovery.crypto then httpError 404 "not_found"
  else
    let listed := (slots.map api.sessions).filter fun s =>
      s.state ≠ .none && s.interface = interface && s.authority = request.header "host"
    httpOk
      (ascii "\x7b\"schema\":\"consumer-recovery/1\",\"device_id\":" ++ quote api.device ++
        ascii ",\"boot_id\":" ++ quote api.boot ++ ascii ",\"generation\":" ++
        quote (Lib.decimal (host.store w).sequence) ++ ascii ",\"authority\":" ++
        quote (request.header "host") ++ ascii ",\"interface\":" ++
        quote (ascii (interfaceName interface)) ++ ascii ",\"proof_ms\":5000,\"sessions\":[" ++
        (ascii ",").intercalate (listed.map recoveryEntry) ++ ascii "]\x7d")

/-- The sessions that a selector names. -/
def selected (target : Bytes) (api : ConsumerRadio) : List (Fin 3) :=
  slots.filter fun i =>
    (api.sessions i).state ≠ .none && recoverySelector (api.sessions i).binding = target

def drawRecovery (api : ConsumerRadio) (binding : ConsumerRadioBinding) :
    RadioM ω (Bool × ConsumerRadioBinding) :=
  if api.sessionSerial.toNat = UInt64.size - 1 then pure (false, binding)
  else draw host .recovery (fun _ => false) api.device api.boot binding

/-- The login of the recovery proof is drawn. -/
def beginRecovery (request : HttpRequest) (now : UInt64) (interface : ConsumerInterface)
    (target : Bytes) (binding : ConsumerRadioBinding) : RadioM ω HttpResponse := do
  let s ← api
  let (drawn, binding) ← drawRecovery host s binding
  if !drawn then do
    closeSlot host .recovery
    pure (httpError 503 "radio_recovery_unavailable")
  else do
    let serial := s.sessionSerial + 1
    let picoKey ← look (host.cryptoPublicKey .recovery)
    let authority := request.header "host"
    let binding :=
      { binding with
        session := stamped binding.session serial
        picoKey, recoveryContext := recoveryContext target interface authority }
    update fun api =>
      { api with
        sessionSerial := serial, recoveryTarget := target
        recovery := { api.recovery with
          binding, state := .pending, startedMs := now, interface, authority } }
    record (.started .recovery binding.session binding.generation interface authority)
    pure (httpOk
      (loginText s binding ++ ascii ",\"login_ms\":5000,\"recovery\":\x7b\"target_selector\":" ++
        quote (bootstrapHex target) ++ ascii ",\"authority\":" ++ quote authority ++
        ascii ",\"interface\":" ++ quote (ascii (interfaceName interface)) ++
        ascii "\x7d\x7d"))

def recoveryStart (request : HttpRequest) (now : UInt64) (interface : ConsumerInterface) :
    RadioM ω HttpResponse := do
  let s ← api
  let sequence ← look fun w => (host.store w).sequence
  if !s.recovery.crypto then pure (httpError 404 "not_found")
  else if s.recovery.state ≠ .none then pure (httpError 409 "radio_recovery_pending")
  else if s.lastRecoveryMs.any fun last => !elapsed now last 1000 then
    pure (httpError 429 "radio_recovery_rate_limited")
  else if 640 < request.body.length then pure (httpError 413 "radio_body_too_large")
  else
    match readIdentity recoveryFields s.device s.boot sequence request.body with
    | none => pure (httpError 400 "invalid_radio_recovery")
    | some (root, generation) =>
      match hexField root "target_selector" 16, hexField root "nonce" 16, readKey root with
      | some target, some browserNonce, some browserKey =>
        let matching := s.selected target
        if matching.any fun i => (s.sessions i).interface ≠ interface ||
            (s.sessions i).authority ≠ request.header "host" then
          pure (httpError 403 "radio_session_context_mismatch")
        else if 1 < matching.length then pure (httpError 503 "radio_recovery_unavailable")
        else do
          -- failed attempts count too; malformed input performs no crypto
          update fun api => { api with lastRecoveryMs := some now }
          beginRecovery host request now interface target { browserNonce, generation, browserKey }
      | _, _, _ => pure (httpError 400 "invalid_radio_recovery")

def closeVictim : Option (Fin 3) → RadioM ω Unit
  | some victim => closeSlot host (.session victim)
  | none => pure ()

/-- The proof holds: the session it names is retired. -/
def retire (interface : ConsumerInterface) : RadioM ω HttpResponse := do
  let s ← api
  let victims := (s.selected s.recoveryTarget).filter fun i =>
    (s.sessions i).interface = interface && (s.sessions i).authority = s.recovery.authority
  if 1 < victims.length then do
    closeSlot host .recovery
    pure (httpError 503 "radio_recovery_unavailable")
  else do
    let plain := ascii "\x7b\"retired\":true,\"present\":" ++
      ascii (if victims.isEmpty then "false" else "true") ++ ascii ",\"target_selector\":" ++
      quote (bootstrapHex s.recoveryTarget) ++ ascii ",\"device_id\":" ++ quote s.device ++
      ascii ",\"boot_id\":" ++ quote s.boot ++ ascii "\x7d"
    let response ← sealReply host .recovery plain 0
    closeVictim host (if response.isSome then victims.head? else none)
    closeSlot host .recovery
    pure (response.getD (httpError 503 "radio_recovery_unavailable"))

def recoveryFinish (request : HttpRequest) (interface : ConsumerInterface) :
    RadioM ω HttpResponse := do
  let s ← api
  if s.recovery.state ≠ .pending ∨ !request.owned ∨ request.body.length ≠ 76 ∨
      !headerMatches request.body s.recovery.binding.session 0 then
    pure (httpError 401 "radio_recovery_required")
  else if interface ≠ s.recovery.interface ∨ request.header "host" ≠ s.recovery.authority then
    pure (httpError 403 "radio_session_context_mismatch")
  else do
    -- one complete proof, a bad one too
    update (modifySlot .recovery fun recovery => { recovery with state := .none })
    let accepted ← authenticate host .recovery request
    if !accepted then do
      closeSlot host .recovery
      pure (httpError 401 "radio_recovery_rejected")
    else retire host interface

end ConsumerRadio

end WsprryPico.Network
