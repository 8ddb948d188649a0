import WsprryPico.Provisioning.Access
import WsprryPico.Provisioning.Page

/-!
# The profile store

`ProfileStore` of `provisioning/storage.cpp`: two slots of flash, each with a header,
the pages of a payload and a commit page. The payload names the source of the profile.
The parsers of the profiles are parameters.
-/

namespace WsprryPico.Provisioning

open Lib Standalone Wtp

structure ConsumerClient where
  name : List UInt8
  csrDer : List UInt8
  csrSha256 : List UInt8
  publicKeySha256 : List UInt8
  serial : UInt64
  notAfterUtc : UInt64
  deriving DecidableEq

structure ConsumerTls where
  hostname : List UInt8
  port : Nat := 443
  caCertificate : List UInt8
  caPrivateKey : List UInt8
  serverCertificate : List UInt8
  serverPrivateKey : List UInt8
  caNotAfterUtc : UInt64
  serverNotAfterUtc : UInt64
  deriving DecidableEq

structure ConsumerProfile where
  deviceId : List UInt8
  ownerEpoch : UInt64
  owners : List (List UInt8)
  ssid : List UInt8
  password : List UInt8
  timeServer : List UInt8
  callsign : List UInt8
  locator : List UInt8
  powerDbm : Nat
  tlsPending : Bool
  usbManaged : Bool
  tls : ConsumerTls
  clients : List ConsumerClient
  requestSha256 : List UInt8
  deriving DecidableEq

structure NetworkProfile where
  deviceId : List UInt8
  ssid : List UInt8
  password : List UInt8
  timeServer : List UInt8
  requestSha256 : List UInt8

/-- `parse_consumer_profile` and `parse_network_profile`. -/
structure Parsers where
  consumer : List UInt8 → Option ConsumerProfile
  network : List UInt8 → Option NetworkProfile

structure Media where
  flash : Nor
  /-- The offsets that fail to read. -/
  unreadable : Nat → Bool := fun _ => false

def Media.read (offset size : Nat) (m : Media) : Option (List UInt8) :=
  if m.unreadable offset then none else m.flash.read offset size

def profilePageSize : Nat := 256
def profileSlotSize : Nat := 8192
def maxProfileBytes : Nat := 7168
def profileHeaderMagic : Nat := 0x3146525050435057
def profileCommitMagic : Nat := 0x31544d4d4f435057
def selectionMagic : Nat := 0x324c455350435057
def profilePayloadOffset : Nat := profilePageSize
def profileCommitOffset : Nat := profileSlotSize - profilePageSize
def selectionHeaderSize : Nat := 16
def maximumPayloadSize : Nat := maxProfileBytes + selectionHeaderSize

inductive ProfileCandidate where
  | empty
  | pending
  | valid (sequence : Nat) (data : List UInt8)
  | invalidUnknown
  | invalidCommitted (sequence : Nat)
  deriving DecidableEq

namespace Profile

/-- The payload pages of a slot without header and commit. -/
def scanErased (m : Media) (base : Nat) : List Nat → ProfileCandidate
  | [] => .empty
  | page :: rest =>
    match m.read (base + page * profilePageSize) profilePageSize with
    | none => .invalidUnknown
    | some bytes => if erased bytes then scanErased m base rest else .pending

def headerValid (header : List UInt8) : Bool :=
  !erased header && get (subspan 0 8 header) = profileHeaderMagic &&
    get (subspan 8 8 header) ≠ 0 && get (subspan 16 4 header) ≠ 0 &&
    get (subspan 16 4 header) ≤ maximumPayloadSize && crcMatches header

def commitHeaderValid (commit : List UInt8) : Bool :=
  get (subspan 0 8 commit) = profileCommitMagic && get (subspan 8 8 commit) ≠ 0 && crcMatches commit

/-- A slot with a header, by its commit page. -/
def scanWritten (m : Media) (base : Nat) (header commit : List UInt8) : ProfileCandidate :=
  let sequence := get (subspan 8 8 header)
  let length := get (subspan 16 4 header)
  if erased commit then
    if !headerValid header then .pending
    else
      match m.read (base + profilePayloadOffset) length with
      | none => .invalidCommitted sequence
      | some payload =>
        if (sha256 payload).bytes = subspan 24 32 header then .pending else .invalidCommitted sequence
  else if !headerValid header then
    if commitHeaderValid commit then .invalidCommitted (get (subspan 8 8 commit)) else .invalidUnknown
  else if !commitHeaderValid commit || get (subspan 8 8 commit) ≠ sequence ||
      subspan 24 32 header ≠ subspan 16 32 commit then .invalidCommitted sequence
  else
    match m.read (base + profilePayloadOffset) length with
    | none => .invalidCommitted sequence
    | some payload =>
      if (sha256 payload).bytes ≠ subspan 24 32 header then .invalidCommitted sequence
      else .valid sequence payload

def scan (m : Media) (slot : Nat) : ProfileCandidate :=
  let base := slot * profileSlotSize
  match m.read base profilePageSize, m.read (base + profileCommitOffset) profilePageSize with
  | some header, some commit =>
    if erased header && erased commit then
      -- a power cut can leave only payload pages programmed
      scanErased m base (List.range' 1 30)
    else scanWritten m base header commit
  | _, _ => .invalidUnknown

/-- `source < RuntimeProfile`, `source > ConsumerProfile` or one of those between. -/
def storedSource (byte : UInt8) : Option ProfileSource :=
  match ProfileSource.ofByte byte with
  | some .legacyBootstrap => none
  | source => source

/-- The sources that have a profile of their own. -/
def hasProfile (source : ProfileSource) : Bool :=
  source = .runtimeProfile || source = .networkOnly || source = .consumerProfile

/-- The payload of the best slot: whether it is usable, and the source and the data it leaves. -/
def adopt (p : Parsers) (data : List UInt8) : Bool × ProfileSource × List UInt8 :=
  let checked (source : ProfileSource) (data : List UInt8) : Bool × ProfileSource × List UInt8 :=
    if source = .consumerProfile && (p.consumer data).isNone then (false, source, [])
    else (true, source, data)
  if selectionHeaderSize ≤ data.length && get (subspan 0 8 data) = selectionMagic then
    match zeros (subspan 9 7 data), storedSource (byteAt 8 data) with
    | true, some source =>
      if hasProfile source then
        if data.length = selectionHeaderSize then (false, source, [])
        else checked source (data.drop selectionHeaderSize)
      else if data.length ≠ selectionHeaderSize then (false, source, [])
      else checked source []
    | _, _ => (false, .legacyBootstrap, [])
  else
    -- payloads of the first version are older than the choice of a source
    checked .legacyBootstrap data

end Profile

structure ProfileStore where
  healthy : Bool := false
  sequence : Nat := 0
  activeSlot : Nat := 0
  data : List UInt8 := []
  source : ProfileSource := .legacyBootstrap
  deriving DecidableEq

namespace ProfileStore

open Profile

variable (p : Parsers)

/-- The valid candidate of the greater sequence number with its slot, none where two are alike. -/
def best (first second : ProfileCandidate) : Option (Option (Nat × Nat × List UInt8)) :=
  match first, second with
  | .valid s data, .valid s' data' =>
    if s' = s then none else if s' > s then some (some (1, s', data')) else some (some (0, s, data))
  | .valid s data, _ => some (some (0, s, data))
  | _, .valid s' data' => some (some (1, s', data'))
  | _, _ => some none

/-- A committed slot that does not read back and is not older than the best one. -/
def blocks (best : Option (Nat × Nat × List UInt8)) : ProfileCandidate → Bool
  | .invalidCommitted sequence =>
    match best with
    | none => true
    | some (_, s, _) => s ≤ sequence
  | _ => false

def load (m : Media) : Bool × ProfileStore :=
  let first := Profile.scan m 0
  let second := Profile.scan m 1
  if first = .invalidUnknown ∨ second = .invalidUnknown then (false, {})
  else
    match best first second with
    | none => (false, {})
    | some found =>
      if blocks found first || blocks found second then (false, {})
      else
        match found with
        | none =>
          -- an incomplete first adoption has no older authority to fall back to
          if first ≠ .empty ∨ second ≠ .empty then (false, {}) else (true, { healthy := true })
        | some (slot, sequence, data) =>
          let (usable, source, data) := adopt p data
          (usable, { healthy := usable, sequence, activeSlot := slot, data, source })

def validNetworkPayload (payload : List UInt8) : Bool := (p.network payload).isSome

/-- The changes of a consumer profile that may repeat its request digest. -/
def stationTransfer (prior parsed : ConsumerProfile) : Bool :=
  !prior.usbManaged && parsed.usbManaged &&
    { prior with usbManaged := true, callsign := [], locator := [], powerDbm := 0 } = parsed

def tlsCompletion (prior parsed : ConsumerProfile) : Bool :=
  prior.tlsPending && !parsed.tlsPending && prior.clients.isEmpty && parsed.clients.isEmpty &&
    { prior with tlsPending := false, tls := parsed.tls } = parsed

def hostnameChange (prior parsed : ConsumerProfile) : Bool :=
  prior.tls.hostname ≠ parsed.tls.hostname && prior.tlsPending = parsed.tlsPending &&
    prior.tls.caCertificate = parsed.tls.caCertificate &&
    prior.tls.caPrivateKey = parsed.tls.caPrivateKey &&
    prior.tls.caNotAfterUtc = parsed.tls.caNotAfterUtc &&
    prior.tls.serverPrivateKey = parsed.tls.serverPrivateKey &&
    { prior with tls := parsed.tls } = parsed

def validConsumerPayload (payload : List UInt8) (priorSource : ProfileSource)
    (priorData : List UInt8) : Bool :=
  match p.consumer payload with
  | none => false
  | some parsed =>
    match priorSource with
    | .networkOnly =>
      match p.network priorData with
      | none => false
      | some prior => prior.deviceId = parsed.deviceId
    | .consumerProfile =>
      match p.consumer priorData with
      | none => false
      | some prior =>
        prior.deviceId = parsed.deviceId &&
          (prior.ownerEpoch ≤ parsed.ownerEpoch ||
            (parsed.ownerEpoch = 0 && parsed.owners.isEmpty)) &&
          (payload = priorData || parsed.requestSha256 ≠ prior.requestSha256 ||
            tlsCompletion prior parsed || hostnameChange prior parsed ||
            stationTransfer prior parsed)
    | _ => true

/-- What `select` rejects before it looks at the flash. -/
def rejects (source : ProfileSource) (profile : List UInt8) (store : ProfileStore) : Bool :=
  !store.healthy || source = .legacyBootstrap ||
    (hasProfile source && (profile.isEmpty || profile.length > maxProfileBytes)) ||
    (!hasProfile source && !profile.isEmpty) ||
    (store.source = .consumerProfile && source ≠ .consumerProfile && source ≠ .unprovisioned) ||
    (source = .networkOnly &&
      ((store.source ≠ .networkOnly &&
          !((store.source = .unprovisioned || store.source = .legacyBootstrap) &&
            store.sequence = 0)) ||
        !validNetworkPayload p profile)) ||
    (source = .consumerProfile &&
      (!((store.source = .legacyBootstrap && store.sequence = 0) || store.source = .unprovisioned ||
          store.source = .networkOnly || store.source = .consumerProfile) ||
        !validConsumerPayload p profile store.source store.data)) ||
    store.sequence = 2 ^ 64 - 1

def selectionPayload (source : ProfileSource) (profile : List UInt8) : List UInt8 :=
  put 8 selectionMagic ++ (source.byte :: List.replicate 7 0) ++ profile

/-- How many pages, and the bytes with their fill. -/
def pageCount (payload : List UInt8) : Nat := (payload.length + 255) / 256

def padded (payload : List UInt8) : List UInt8 :=
  payload ++ List.replicate (pageCount payload * profilePageSize - payload.length) 255

/-- `matches`: the flash reads back as expected, page by page. -/
def readsBack (m : Media) : Nat → Nat → List UInt8 → Bool
  | 0, _, _ => true
  | count + 1, offset, expected =>
    match m.read offset (min profilePageSize expected.length) with
    | none => false
    | some page =>
      page = expected.take profilePageSize &&
        readsBack m count (offset + profilePageSize) (expected.drop profilePageSize)

def headerPage (sequence : Nat) (payload : List UInt8) : List UInt8 :=
  sealedPage (headerFields profileHeaderMagic sequence payload.length (sha256 payload))

def commitPage (sequence : Nat) (payload : List UInt8) : List UInt8 :=
  sealedPage (commitFields profileCommitMagic sequence (sha256 payload))

def target (store : ProfileStore) : Nat := if store.sequence = 0 then 0 else 1 - store.activeSlot

/-- Payload pages, header and commit page, up to the first that fails. -/
def programSlot (base sequence : Nat) (payload : List UInt8) (f : Nor) : Bool × Nor :=
  match f.programPages profilePageSize (pageCount payload) (base + profilePayloadOffset)
      (padded payload) with
  | (false, f) => (false, f)
  | (true, f) =>
    match f.program base (headerPage sequence payload) with
    | (false, f) => (false, f)
    | (true, f) => f.program (base + profileCommitOffset) (commitPage sequence payload)

def select (source : ProfileSource) (profile : List UInt8) (store : ProfileStore) (m : Media) :
    Bool × ProfileStore × Media :=
  if rejects p source profile store then (false, store, m)
  else if source = store.source && profile = store.data && source ≠ .networkOnly then (true, store, m)
  else
    let payload := selectionPayload source profile
    let base := store.target * profileSlotSize
    match m.flash.erase base profileSlotSize with
    | (false, f) => (false, { store with healthy := false }, { m with flash := f })
    | (true, f) =>
      match programSlot base (store.sequence + 1) payload f with
      | (false, f) => (false, { store with healthy := false }, { m with flash := f })
      | (true, f) =>
        let m := { m with flash := f }
        if readsBack m 1 base (headerPage (store.sequence + 1) payload) &&
            readsBack m 1 (base + profileCommitOffset) (commitPage (store.sequence + 1) payload) &&
            readsBack m (pageCount payload) (base + profilePayloadOffset) payload then
          (true, { healthy := true, sequence := store.sequence + 1, activeSlot := store.target,
                   data := profile, source := source }, m)
        else (false, { store with healthy := false }, m)

end ProfileStore

end WsprryPico.Provisioning
