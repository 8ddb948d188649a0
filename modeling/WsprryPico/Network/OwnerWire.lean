import Mathlib.Data.Option.Basic
import WsprryPico.Encoding.Wspr
import WsprryPico.Provisioning.Access
import WsprryPico.Standalone.Credentials

/-!
# The owner wire

`network/owner_wire.cpp`: the routes of the owner operations, the byte strings that are hashed or
bound by the session and claim messages, and the plaintext of a claim. What the code feeds to one
hash in pieces is one string here.
-/

namespace WsprryPico.Network

open Lib Wtp Provisioning

/-- `std::array<std::uint8_t, n>`. -/
abbrev Octets (n : Nat) := Vector UInt8 n

inductive OwnerOperation
  | readback
  | ownerPropose
  | ownerApprove
  | ownerRemove
  | clientEnroll
  | clientRevoke
  | networkReplace
  | serverRenew
  | resetIntent
  deriving DecidableEq

def OwnerOperation.byte : OwnerOperation → UInt8
  | .readback => 0x10
  | .ownerPropose => 0x11
  | .ownerApprove => 0x12
  | .ownerRemove => 0x13
  | .clientEnroll => 0x20
  | .clientRevoke => 0x21
  | .networkReplace => 0x30
  | .serverRenew => 0x31
  | .resetIntent => 0x40

structure OwnerRoute where
  operation : OwnerOperation
  method : List UInt8
  path : List UInt8

def routes : List OwnerRoute :=
  [⟨.readback, ascii "POST", ascii "/api/owner/v1/readback"⟩,
   ⟨.ownerPropose, ascii "POST", ascii "/api/owner/v1/owners/propose"⟩,
   ⟨.ownerApprove, ascii "POST", ascii "/api/owner/v1/owners/approve"⟩,
   ⟨.ownerRemove, ascii "POST", ascii "/api/owner/v1/owners/remove"⟩,
   ⟨.clientEnroll, ascii "POST", ascii "/api/owner/v1/clients/enroll"⟩,
   ⟨.clientRevoke, ascii "POST", ascii "/api/owner/v1/clients/revoke"⟩,
   ⟨.networkReplace, ascii "POST", ascii "/api/owner/v1/network/replace"⟩,
   ⟨.serverRenew, ascii "POST", ascii "/api/owner/v1/trust/renew"⟩,
   ⟨.resetIntent, ascii "POST", ascii "/api/owner/v1/reset/intent"⟩]

def ownerRoute (operation : OwnerOperation) : Option OwnerRoute :=
  routes.find? fun route => route.operation = operation

def nonzero {n : Nat} (bytes : Octets n) : Bool := bytes.toList.any (· ≠ 0)

/-- A text with the NUL that ends it. -/
def terminated (text : List UInt8) : List UInt8 := text ++ [0]

/-! ## The signed request -/

structure OwnerSigningFields where
  operation : OwnerOperation
  method : List UInt8
  path : List UInt8
  deviceId : Octets 16
  bootId : Octets 16
  ownerEpoch : UInt64
  profileGeneration : UInt64
  requestId : Octets 16
  challenge : Octets 16
  expiryMonotonicMs : UInt64
  sealedBody : List UInt8

namespace OwnerSigningFields

def valid (f : OwnerSigningFields) : Bool :=
  let maximumBody := if f.operation = .clientEnroll then 2048 else 1024
  match ownerRoute f.operation with
  | none => false
  | some route =>
    f.method = route.method && f.path = route.path && f.ownerEpoch ≠ 0 && f.profileGeneration ≠ 0 &&
      f.expiryMonotonicMs ≠ 0 && nonzero f.deviceId && nonzero f.bootId && nonzero f.requestId &&
      nonzero f.challenge && f.sealedBody.length ≥ 16 && f.sealedBody.length ≤ maximumBody

/-- What the body digest is of. -/
def body (f : OwnerSigningFields) : List UInt8 :=
  terminated f.method ++ (terminated f.path ++ f.sealedBody)

def parts (f : OwnerSigningFields) : List (List UInt8) :=
  [terminated (ascii "WsprryPico/Owner-HTTP/1"), [f.operation.byte], f.deviceId.toList,
    f.bootId.toList, Sha256.bigEndian64 f.ownerEpoch, Sha256.bigEndian64 f.profileGeneration,
    f.requestId.toList, f.challenge.toList, Sha256.bigEndian64 f.expiryMonotonicMs,
    (sha256 f.body).bytes]

end OwnerSigningFields

def ownerSigningDigest (f : OwnerSigningFields) : Option PayloadDigest :=
  if f.valid then some (sha256 f.parts.flatten) else none

/-! ## The session -/

structure OwnerSessionFields where
  deviceId : Octets 16
  bootId : Octets 16
  ownerKeySha256 : Octets 32
  ownerEpoch : UInt64
  profileGeneration : UInt64
  sessionId : Octets 16
  browserPublicKey : Octets 32
  picoPublicKey : Octets 32
  browserNonce : Octets 16
  picoChallenge : Octets 16
  expiryMonotonicMs : UInt64
  deriving DecidableEq

namespace OwnerSessionFields

def validStart (f : OwnerSessionFields) : Bool :=
  nonzero f.deviceId && nonzero f.ownerKeySha256 && nonzero f.browserPublicKey && nonzero f.browserNonce

def valid (f : OwnerSessionFields) : Bool :=
  f.validStart && nonzero f.bootId && f.ownerEpoch ≠ 0 && f.profileGeneration ≠ 0 &&
    nonzero f.sessionId && nonzero f.picoPublicKey && nonzero f.picoChallenge &&
    f.expiryMonotonicMs ≠ 0

def startParts (f : OwnerSessionFields) : List (List UInt8) :=
  [terminated (ascii "WsprryPico/Owner-Session-Start/1"), f.deviceId.toList, f.ownerKeySha256.toList,
    f.browserPublicKey.toList, f.browserNonce.toList]

/-- `update_session`. -/
def parts (f : OwnerSessionFields) : List (List UInt8) :=
  [terminated (ascii "WsprryPico/Owner-Session/1"), f.deviceId.toList, f.bootId.toList,
    f.ownerKeySha256.toList, Sha256.bigEndian64 f.ownerEpoch,
    Sha256.bigEndian64 f.profileGeneration, f.sessionId.toList, f.browserPublicKey.toList,
    f.picoPublicKey.toList, f.browserNonce.toList, f.picoChallenge.toList,
    Sha256.bigEndian64 f.expiryMonotonicMs]

/-- What the signature that ends a handshake is over, with the digest of its start. -/
def finishParts (f : OwnerSessionFields) : List (List UInt8) :=
  terminated (ascii "WsprryPico/Owner-Session-Finish/1") :: (f.parts ++
    [(sha256 f.startParts.flatten).bytes])

end OwnerSessionFields

def ownerSessionStartDigest (f : OwnerSessionFields) : Option PayloadDigest :=
  if f.validStart then some (sha256 f.startParts.flatten) else none

def ownerSessionFinishDigest (f : OwnerSessionFields) : Option PayloadDigest :=
  if f.valid then some (sha256 f.finishParts.flatten) else none

def ownerSessionSalt (f : OwnerSessionFields) : Option PayloadDigest :=
  if f.valid then some (sha256 f.parts.flatten) else none

/-! ## The claim -/

structure OwnerClaimFields where
  deviceId : Octets 16
  bootId : Octets 16
  slotId : Octets 16
  ownerPublicKey : Octets 65
  browserPublicKey : Octets 32
  picoPublicKey : Octets 32
  browserNonce : Octets 16
  requestId : Octets 16
  source : ProfileSource
  generation : UInt64
  deriving DecidableEq

namespace OwnerClaimFields

def claimable (f : OwnerClaimFields) : Bool :=
  (f.source = .legacyBootstrap && f.generation = 0) ||
    ((f.source = .unprovisioned || f.source = .networkOnly || f.source = .consumerProfile) &&
      f.generation > 0 && f.generation < 0xffffffffffffffff)

def valid (f : OwnerClaimFields) : Bool :=
  f.claimable && nonzero f.deviceId && nonzero f.bootId && nonzero f.slotId &&
    f.ownerPublicKey[0] = 4 && nonzero f.browserPublicKey && nonzero f.picoPublicKey &&
    nonzero f.browserNonce && nonzero f.requestId

def parts (f : OwnerClaimFields) : List (List UInt8) :=
  [terminated (ascii "WsprryPico/Owner-Claim/1"), f.deviceId.toList, f.bootId.toList, f.slotId.toList,
    ascii "http://192.168.4.1", [f.source.byte], Sha256.bigEndian64 f.generation,
    f.ownerPublicKey.toList, f.browserPublicKey.toList, f.picoPublicKey.toList,
    f.browserNonce.toList, f.requestId.toList]

end OwnerClaimFields

/-- The local `append` of the transcript, for what is left of its 320 bytes. -/
def appendBytes (result bytes : List UInt8) : Option (List UInt8) :=
  if bytes.length > 320 - result.length then none else some (result ++ bytes)

def ownerClaimTranscript (f : OwnerClaimFields) : Option (List UInt8) :=
  if f.valid then f.parts.foldlM appendBytes [] else none

/-! ## The plaintext of a claim -/

structure OwnerClaimPlaintext where
  ssid : List UInt8
  password : List UInt8
  callsign : List UInt8
  locator : List UInt8
  powerDbm : Nat
  deriving DecidableEq

def maxPlaintext : Nat := 117

def OwnerClaimPlaintext.accepted (v : OwnerClaimPlaintext) : Bool :=
  ((v.ssid.isEmpty && v.password.isEmpty) ||
      Standalone.validWifiCredentials v.ssid v.password (ascii "pool.ntp.org")) &&
    Encoding.validStationDetails v.callsign v.locator v.powerDbm

def appendText (part : List UInt8) : List UInt8 := UInt8.ofNat part.length :: part

def encodeOwnerClaimPlaintext (v : OwnerClaimPlaintext) : Option (List UInt8) :=
  if !v.accepted then none
  else
    some (appendText v.ssid ++ (appendText v.password ++ (appendText v.callsign ++
      (v.locator ++ [UInt8.ofNat v.powerDbm]))))

/-- A text behind its length, and what follows it. -/
def readText (minimum maximum : Nat) : List UInt8 → Option (List UInt8 × List UInt8)
  | [] => none
  | size :: rest =>
    if size.toNat < minimum || size.toNat > maximum || size.toNat > rest.length then none
    else some (rest.take size.toNat, rest.drop size.toNat)

def decodeOwnerClaimPlaintext (bytes : List UInt8) : Option OwnerClaimPlaintext := do
  guard (11 ≤ bytes.length ∧ bytes.length ≤ maxPlaintext)
  let (ssid, bytes) ← readText 0 32 bytes
  let (password, bytes) ← readText 0 63 bytes
  let (callsign, bytes) ← readText 3 12 bytes
  guard (bytes.length = 5 ∨ bytes.length = 7)
  let locator := bytes.take (bytes.length - 1)
  let powerDbm ← bytes[bytes.length - 1]?
  let v : OwnerClaimPlaintext := { ssid, password, callsign, locator, powerDbm := powerDbm.toNat }
  guard v.accepted
  return v

/-! ## The plaintext of a claim is read as it is written -/

theorem readText_iff {minimum maximum : Nat} (hmaximum : maximum < 256) {x s rest : List UInt8} :
    readText minimum maximum x = some (s, rest) ↔
      minimum ≤ s.length ∧ s.length ≤ maximum ∧ x = appendText s ++ rest := by
  constructor
  · intro h
    cases x with
    | nil => exact nomatch h
    | cons size x =>
      unfold readText at h
      dsimp only at h
      split at h
      · cases h
      · rename_i hform
        simp only [Bool.or_eq_true, decide_eq_true_eq, not_or, Nat.not_lt] at hform
        cases h
        have hlength : (x.take size.toNat).length = size.toNat := by
          rw [List.length_take]
          omega
        refine ⟨by omega, by omega, ?_⟩
        rw [appendText, hlength, UInt8.ofNat_toNat, List.cons_append, List.take_append_drop]
  · rintro ⟨hminimum, hmaximum', rfl⟩
    have hsize := UInt8.toNat_ofNat_of_lt' (show s.length < 256 by omega)
    have hform : ¬ (decide (s.length < minimum) || decide (s.length > maximum) ||
        decide (s.length > (s ++ rest).length)) = true := by
      simp only [Bool.or_eq_true, decide_eq_true_eq, not_or, Nat.not_lt, List.length_append]
      omega
    rw [appendText, List.cons_append, readText, hsize, if_neg hform, List.take_left, List.drop_left]

/-- The ranges of the fields that both sides accept. -/
structure OwnerClaimPlaintext.Ranged (v : OwnerClaimPlaintext) : Prop where
  ssid : v.ssid.length ≤ 32
  password : v.password.length ≤ 63
  callsign : 3 ≤ v.callsign.length ∧ v.callsign.length ≤ 12
  locator : v.locator.length = 4 ∨ v.locator.length = 6
  power : v.powerDbm < 256

theorem accepted_ranged {v : OwnerClaimPlaintext} (h : v.accepted = true) : v.Ranged := by
  unfold OwnerClaimPlaintext.accepted at h
  rw [Bool.and_eq_true] at h
  obtain ⟨hnetwork, hstation⟩ := h
  have hlengths : v.ssid.length ≤ 32 ∧ v.password.length ≤ 63 := by
    rw [Bool.or_eq_true, Bool.and_eq_true, List.isEmpty_iff, List.isEmpty_iff] at hnetwork
    obtain ⟨hssid, hpassword⟩ | hwifi := hnetwork
    · rw [hssid, hpassword]
      exact ⟨Nat.zero_le _, Nat.zero_le _⟩
    · simp only [Standalone.validWifiCredentials, Standalone.printable, Bool.and_eq_true,
        decide_eq_true_eq] at hwifi
      exact ⟨hwifi.1.1.1.2, hwifi.1.2.1.2⟩
  simp only [Encoding.validStationDetails, Bool.and_eq_true] at hstation
  obtain ⟨⟨hcall, hlocator⟩, hpower⟩ := hstation
  refine ⟨hlengths.1, hlengths.2, ?_, ?_, ?_⟩
  · unfold Encoding.validStationCallsign at hcall
    split at hcall
    · cases hcall
    · rename_i hlength
      simp only [Bool.or_eq_true, decide_eq_true_eq, not_or, Nat.not_lt] at hlength
      exact ⟨hlength.1, hlength.2⟩
  · simp only [Encoding.validStationLocator, Bool.and_eq_true, Bool.or_eq_true,
      decide_eq_true_eq] at hlocator
    exact hlocator.1.1
  · have hall : ∀ dbm ∈ Encoding.powers, dbm < 256 := by decide
    exact hall _ (List.contains_iff_mem.mp hpower)

/-- The encoding of a claim. -/
def plaintextBytes (v : OwnerClaimPlaintext) : List UInt8 :=
  appendText v.ssid ++ (appendText v.password ++ (appendText v.callsign ++
    (v.locator ++ [UInt8.ofNat v.powerDbm])))

theorem encode_iff {v : OwnerClaimPlaintext} {bytes : List UInt8} :
    encodeOwnerClaimPlaintext v = some bytes ↔ v.accepted = true ∧ plaintextBytes v = bytes := by
  unfold encodeOwnerClaimPlaintext
  cases v.accepted with
  | false => exact ⟨nofun, fun h => nomatch h.1⟩
  | true =>
    refine ⟨fun h => ⟨rfl, Option.some.inj h⟩, fun h => ?_⟩
    rw [← h.2]
    rfl

/-- The decoder accepts the encoding of a claim that the checks accept, and nothing else. -/
theorem decode_iff {v : OwnerClaimPlaintext} {bytes : List UInt8} :
    decodeOwnerClaimPlaintext bytes = some v ↔ v.accepted = true ∧ plaintextBytes v = bytes := by
  simp only [decodeOwnerClaimPlaintext, Option.bind_eq_bind, Option.bind_eq_some_iff, Prod.exists,
    readText_iff (show 32 < 256 by decide), readText_iff (show 63 < 256 by decide),
    readText_iff (show 12 < 256 by decide), Option.guard_eq_some', Option.pure_def, Option.some.injEq]
  constructor
  · rintro ⟨_, -, ssid, _, ⟨-, -, rfl⟩, password, _, ⟨-, -, rfl⟩, callsign, rest, ⟨-, -, rfl⟩, _, htail,
      power, hpower, _, haccepted, rfl⟩
    refine ⟨haccepted, ?_⟩
    have hsplit : rest.take (rest.length - 1) ++ [power] = rest := by
      obtain ⟨hlast, rfl⟩ := List.getElem?_eq_some_iff.mp hpower
      rw [List.take_append_getElem hlast, Nat.sub_add_cancel (by omega), List.take_length]
    simp only [plaintextBytes, UInt8.ofNat_toNat, hsplit]
  · rintro ⟨haccepted, rfl⟩
    obtain ⟨hssid, hpassword, hcall, hlocator, hpower⟩ := accepted_ranged haccepted
    have hlength : (v.locator ++ [UInt8.ofNat v.powerDbm]).length = v.locator.length + 1 := by
      rw [List.length_append, List.length_singleton]
    have hbyte := UInt8.toNat_ofNat_of_lt' (show v.powerDbm < 256 from hpower)
    refine ⟨(), ?_, v.ssid, _, ⟨Nat.zero_le _, hssid, rfl⟩, v.password, _,
      ⟨Nat.zero_le _, hpassword, rfl⟩, v.callsign, _, ⟨hcall.1, hcall.2, rfl⟩, (), ?_,
      UInt8.ofNat v.powerDbm, ?_, (), ?_, ?_⟩
    · simp only [plaintextBytes, appendText, List.length_append, List.length_cons, List.length_nil,
        maxPlaintext]
      omega
    · rw [hlength]
      omega
    · rw [hlength, Nat.add_sub_cancel, List.getElem?_append_right (Nat.le_refl _), Nat.sub_self]
      rfl
    · rw [hlength, Nat.add_sub_cancel, List.take_left, hbyte]
      exact haccepted
    · rw [hlength, Nat.add_sub_cancel, List.take_left, hbyte]

/-- A claim is encoded within its buffer and read back as it was, and bytes that are read are the
encoding of what they give. -/
theorem claim_plaintext_canonical :
    (∀ v bytes, encodeOwnerClaimPlaintext v = some bytes →
      bytes.length ≤ maxPlaintext ∧ decodeOwnerClaimPlaintext bytes = some v) ∧
    ∀ bytes v, decodeOwnerClaimPlaintext bytes = some v →
      encodeOwnerClaimPlaintext v = some bytes := by
  refine ⟨fun v bytes h => ?_, fun bytes v h => encode_iff.mpr (decode_iff.mp h)⟩
  rw [encode_iff] at h
  refine ⟨?_, decode_iff.mpr h⟩
  obtain ⟨haccepted, rfl⟩ := h
  obtain ⟨hssid, hpassword, hcall, hlocator, -⟩ := accepted_ranged haccepted
  simp only [plaintextBytes, appendText, List.length_append, List.length_cons, List.length_nil,
    maxPlaintext]
  omega

end WsprryPico.Network
