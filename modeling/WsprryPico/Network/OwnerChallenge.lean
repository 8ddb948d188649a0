import WsprryPico.Lib.History
import WsprryPico.Network.OwnerWire

/-!
# The owner challenge

The parts of the owner byte strings have lengths that do not depend on the fields, so a
string gives them back. `network/owner_challenge.cpp`: one slot for a pending challenge,
and the log of the challenges that a run issues and takes.
-/

namespace WsprryPico.Network

open Lib Wtp Provisioning

/-! ## Parts -/

theorem bigEndian64_length (n : UInt64) : (Sha256.bigEndian64 n).length = 8 := rfl

theorem bigEndian64_inj {n m : UInt64} (h : Sha256.bigEndian64 n = Sha256.bigEndian64 m) : n = m := by
  have hbytes : ∀ shift : UInt64, shift ∈ ([56, 48, 40, 32, 24, 16, 8, 0] : List UInt64) →
      (n >>> shift).toUInt8 = (m >>> shift).toUInt8 := List.map_inj_left.mp h
  have hparts : ∀ k : Nat, k ∈ [56, 48, 40, 32, 24, 16, 8, 0] →
      n.toNat / 2 ^ (k + 8) = m.toNat / 2 ^ (k + 8) → n.toNat / 2 ^ k = m.toNat / 2 ^ k := by
    intro k hk habove
    have hshift := hbytes (UInt64.ofNat k) (by
      simp only [List.mem_cons, List.not_mem_nil, or_false] at hk ⊢
      rcases hk with rfl | rfl | rfl | rfl | rfl | rfl | rfl | rfl <;> decide)
    have hsmall : (UInt64.ofNat k).toNat % 64 = k := by
      simp only [List.mem_cons, List.not_mem_nil, or_false] at hk
      rcases hk with rfl | rfl | rfl | rfl | rfl | rfl | rfl | rfl <;> rfl
    have hnat := congrArg UInt8.toNat hshift
    simp only [UInt64.toNat_toUInt8, UInt64.toNat_shiftRight, hsmall,
      Nat.shiftRight_eq_div_pow] at hnat
    rw [Nat.pow_add, ← Nat.div_div_eq_div_mul, ← Nat.div_div_eq_div_mul] at habove
    omega
  have h₀ := hparts 56 (by decide) (by
    rw [Nat.div_eq_of_lt n.toNat_lt, Nat.div_eq_of_lt m.toNat_lt])
  have h₁ := hparts 48 (by decide) h₀
  have h₂ := hparts 40 (by decide) h₁
  have h₃ := hparts 32 (by decide) h₂
  have h₄ := hparts 24 (by decide) h₃
  have h₅ := hparts 16 (by decide) h₄
  have h₆ := hparts 8 (by decide) h₅
  have h₇ := hparts 0 (by decide) h₆
  exact UInt64.toNat_inj.mp (by simpa using h₇)

theorem operation_byte_inj {a b : OwnerOperation} (h : a.byte = b.byte) : a = b := by
  cases a <;> cases b <;> first | rfl | exact absurd h (by decide)

theorem source_byte_inj {a b : ProfileSource} (h : a.byte = b.byte) : a = b := by
  cases a <;> cases b <;> first | rfl | exact absurd h (by decide)

/-! ## The kinds -/

inductive OwnerKind
  | signing
  | sessionStart
  | sessionSalt
  | sessionFinish
  | claim

def OwnerKind.name : OwnerKind → List UInt8
  | .signing => terminated (ascii "WsprryPico/Owner-HTTP/1")
  | .sessionStart => terminated (ascii "WsprryPico/Owner-Session-Start/1")
  | .sessionSalt => terminated (ascii "WsprryPico/Owner-Session/1")
  | .sessionFinish => terminated (ascii "WsprryPico/Owner-Session-Finish/1")
  | .claim => terminated (ascii "WsprryPico/Owner-Claim/1")

theorem names_apart {k k' : OwnerKind} (h : k.name <+: k'.name) : k = k' := by
  have hprefix := List.isPrefixOf_iff_prefix.mpr h
  cases k <;> cases k' <;> first | rfl | exact absurd hprefix (by decide +kernel)

/-- A byte string of the wire, by its fields. -/
inductive OwnerText
  | signing (f : OwnerSigningFields)
  | sessionStart (f : OwnerSessionFields)
  | sessionSalt (f : OwnerSessionFields)
  | sessionFinish (f : OwnerSessionFields)
  | claim (f : OwnerClaimFields)

namespace OwnerText

def kind : OwnerText → OwnerKind
  | .signing _ => .signing
  | .sessionStart _ => .sessionStart
  | .sessionSalt _ => .sessionSalt
  | .sessionFinish _ => .sessionFinish
  | .claim _ => .claim

def bytes : OwnerText → List UInt8
  | .signing f => f.parts.flatten
  | .sessionStart f => f.startParts.flatten
  | .sessionSalt f => f.parts.flatten
  | .sessionFinish f => f.finishParts.flatten
  | .claim f => f.parts.flatten

/-- The checks of the function that makes the string. -/
def accepted : OwnerText → Bool
  | .signing f => f.valid
  | .sessionStart f => f.validStart
  | .sessionSalt f => f.valid
  | .sessionFinish f => f.valid
  | .claim f => f.valid

/-- Two strings of one kind and of the same fields; of signed requests the bodies may also be two
that SHA-256 does not tell apart. -/
def Same : OwnerText → OwnerText → Prop
  | .signing f, .signing g => f = g ∨ (f.body ≠ g.body ∧ sha256 f.body = sha256 g.body)
  | .sessionStart f, .sessionStart g => f.deviceId = g.deviceId ∧
      f.ownerKeySha256 = g.ownerKeySha256 ∧ f.browserPublicKey = g.browserPublicKey ∧
      f.browserNonce = g.browserNonce
  | .sessionSalt f, .sessionSalt g => f = g
  | .sessionFinish f, .sessionFinish g => f = g
  | .claim f, .claim g => f = g
  | _, _ => False

theorem name_prefix (t : OwnerText) : t.kind.name <+: t.bytes := by
  cases t <;> exact ⟨_, rfl⟩

end OwnerText

/-! ## Fields from strings -/

theorem session_fields {f g : OwnerSessionFields} (h : f.parts = g.parts) : f = g := by
  cases f
  cases g
  simp only [OwnerSessionFields.parts, List.cons.injEq, true_and, and_true, Vector.toList_inj] at h
  obtain ⟨h₁, h₂, h₃, h₄, h₅, h₆, h₇, h₈, h₉, h₁₀, h₁₁⟩ := h
  rw [h₁, h₂, h₃, bigEndian64_inj h₄, bigEndian64_inj h₅, h₆, h₇, h₈, h₉, h₁₀, bigEndian64_inj h₁₁]

theorem session_lengths (f : OwnerSessionFields) : f.parts.map List.length =
    [27, 16, 16, 32, 8, 8, 16, 32, 32, 16, 16, 8] := by
  have hname : (terminated (ascii "WsprryPico/Owner-Session/1")).length = 27 := by decide
  simp only [OwnerSessionFields.parts, List.map_cons, List.map_nil, hname, Vector.length_toList,
    bigEndian64_length]

/-- The route of an operation fixes the method and the path. -/
theorem valid_route {f g : OwnerSigningFields} (hf : f.valid = true) (hg : g.valid = true)
    (h : f.operation = g.operation) : f.method = g.method ∧ f.path = g.path := by
  have hroute : ∀ {f : OwnerSigningFields}, f.valid = true → ∃ route,
      ownerRoute f.operation = some route ∧ f.method = route.method ∧ f.path = route.path := by
    intro f hf
    unfold OwnerSigningFields.valid at hf
    dsimp only at hf
    cases hfound : ownerRoute f.operation with
    | none =>
      rw [hfound] at hf
      cases hf
    | some route =>
      rw [hfound] at hf
      simp only [Bool.and_eq_true, decide_eq_true_eq] at hf
      exact ⟨route, rfl, hf.1.1.1.1.1.1.1.1.1.1, hf.1.1.1.1.1.1.1.1.1.2⟩
  obtain ⟨route, hroute₁, hmethod, hpath⟩ := hroute hf
  obtain ⟨route', hroute₂, hmethod', hpath'⟩ := hroute hg
  rw [h, hroute₂] at hroute₁
  cases hroute₁
  exact ⟨hmethod.trans hmethod'.symm, hpath.trans hpath'.symm⟩

theorem signing_same {f g : OwnerSigningFields} (hf : f.valid = true) (hg : g.valid = true)
    (h : f.parts.flatten = g.parts.flatten) :
    f = g ∨ (f.body ≠ g.body ∧ sha256 f.body = sha256 g.body) := by
  have hlengths : f.parts.map List.length = g.parts.map List.length := by
    simp only [OwnerSigningFields.parts, List.map_cons, List.map_nil, Vector.length_toList,
      bigEndian64_length, List.length_singleton, PayloadDigest.size]
  have hparts := List.eq_iff_flatten_eq.mpr ⟨h, hlengths⟩
  simp only [OwnerSigningFields.parts, List.cons.injEq, true_and, and_true, Vector.toList_inj] at hparts
  obtain ⟨hoperation, h₁, h₂, h₃, h₄, h₅, h₆, h₇, hdigest⟩ := hparts
  have hoperation := operation_byte_inj hoperation
  obtain ⟨hmethod, hpath⟩ := valid_route hf hg hoperation
  have hsha : sha256 f.body = sha256 g.body := by
    cases hx : sha256 f.body
    cases hy : sha256 g.body
    rw [hx, hy] at hdigest
    dsimp only at hdigest
    simp only [hdigest]
  by_cases hbody : f.body = g.body
  · refine .inl ?_
    have hsealed : f.sealedBody = g.sealedBody := by
      unfold OwnerSigningFields.body at hbody
      rw [hmethod, hpath] at hbody
      exact List.append_cancel_left (List.append_cancel_left hbody)
    cases f
    cases g
    dsimp only at *
    rw [hoperation, hmethod, hpath, h₁, h₂, bigEndian64_inj h₃, bigEndian64_inj h₄, h₅, h₆,
      bigEndian64_inj h₇, hsealed]
  · exact .inr ⟨hbody, hsha⟩

theorem start_same {f g : OwnerSessionFields} (h : f.startParts.flatten = g.startParts.flatten) :
    f.deviceId = g.deviceId ∧ f.ownerKeySha256 = g.ownerKeySha256 ∧
      f.browserPublicKey = g.browserPublicKey ∧ f.browserNonce = g.browserNonce := by
  have hlengths : f.startParts.map List.length = g.startParts.map List.length := by
    simp only [OwnerSessionFields.startParts, List.map_cons, List.map_nil, Vector.length_toList]
  have hparts := List.eq_iff_flatten_eq.mpr ⟨h, hlengths⟩
  simpa only [OwnerSessionFields.startParts, List.cons.injEq, true_and, and_true,
    Vector.toList_inj] using hparts

theorem salt_same {f g : OwnerSessionFields} (h : f.parts.flatten = g.parts.flatten) : f = g :=
  session_fields (List.eq_iff_flatten_eq.mpr ⟨h, by rw [session_lengths, session_lengths]⟩)

theorem finish_same {f g : OwnerSessionFields} (h : f.finishParts.flatten = g.finishParts.flatten) :
    f = g := by
  have hlengths : f.finishParts.map List.length = g.finishParts.map List.length := by
    simp only [OwnerSessionFields.finishParts, List.map_cons, List.map_append, session_lengths,
      List.map_nil, PayloadDigest.size]
  have hparts := List.eq_iff_flatten_eq.mpr ⟨h, hlengths⟩
  unfold OwnerSessionFields.finishParts at hparts
  have hend : ([(sha256 f.startParts.flatten).bytes] : List (List UInt8)).length =
      [(sha256 g.startParts.flatten).bytes].length := by
    rw [List.length_singleton, List.length_singleton]
  exact session_fields (List.append_inj_left' (List.cons.inj hparts).2 hend)

theorem claim_same {f g : OwnerClaimFields} (h : f.parts.flatten = g.parts.flatten) : f = g := by
  have hlengths : f.parts.map List.length = g.parts.map List.length := by
    simp only [OwnerClaimFields.parts, List.map_cons, List.map_nil, Vector.length_toList,
      bigEndian64_length, List.length_singleton]
  have hparts := List.eq_iff_flatten_eq.mpr ⟨h, hlengths⟩
  cases f
  cases g
  simp only [OwnerClaimFields.parts, List.cons.injEq, true_and, and_true, Vector.toList_inj] at hparts
  obtain ⟨h₁, h₂, h₃, hsource, hgeneration, h₆, h₇, h₈, h₉, h₁₀⟩ := hparts
  rw [h₁, h₂, h₃, source_byte_inj hsource, bigEndian64_inj hgeneration, h₆, h₇, h₈, h₉, h₁₀]

/-- A string gives its kind and its fields back. -/
theorem OwnerText.bytes_same {t t' : OwnerText} (ht : t.accepted = true) (ht' : t'.accepted = true)
    (h : t.bytes = t'.bytes) : Same t t' := by
  have hkind : t.kind = t'.kind := by
    have hprefix := t.name_prefix
    rw [h] at hprefix
    obtain hle | hle := List.prefix_or_prefix_of_prefix hprefix t'.name_prefix
    · exact names_apart hle
    · exact (names_apart hle).symm
  cases t with
  | signing f =>
    cases t' with
    | signing g => exact signing_same ht ht' h
    | _ => exact nomatch hkind
  | sessionStart f =>
    cases t' with
    | sessionStart g => exact start_same h
    | _ => exact nomatch hkind
  | sessionSalt f =>
    cases t' with
    | sessionSalt g => exact salt_same h
    | _ => exact nomatch hkind
  | sessionFinish f =>
    cases t' with
    | sessionFinish g => exact finish_same h
    | _ => exact nomatch hkind
  | claim f =>
    cases t' with
    | claim g => exact claim_same h
    | _ => exact nomatch hkind

/-- The transcript of a claim has room for all of its parts. -/
theorem claimTranscript_eq (f : OwnerClaimFields) :
    ownerClaimTranscript f = if f.valid then some f.parts.flatten else none := by
  have hroom : ∀ (parts : List (List UInt8)) (result : List UInt8),
      result.length + parts.flatten.length ≤ 320 →
      parts.foldlM appendBytes result = some (result ++ parts.flatten) := by
    intro parts
    induction parts with
    | nil => exact fun result _ => by rw [List.flatten_nil, List.append_nil]; rfl
    | cons part parts ih =>
      intro result hfits
      rw [List.flatten_cons, List.length_append] at hfits
      rw [List.foldlM_cons, appendBytes, if_neg (by omega), List.flatten_cons, ← List.append_assoc]
      exact ih _ (by rw [List.length_append]; omega)
  have hlength : f.parts.flatten.length ≤ 320 := by
    have hname : (terminated (ascii "WsprryPico/Owner-Claim/1")).length = 25 := by decide
    have horigin : (ascii "http://192.168.4.1").length = 18 := by decide
    simp only [OwnerClaimFields.parts, List.flatten_cons, List.flatten_nil, List.length_append,
      hname, horigin, Vector.length_toList, bigEndian64_length, List.length_singleton, List.length_nil]
    omega
  unfold ownerClaimTranscript
  rw [hroom _ [] (by rw [List.length_nil]; omega), List.nil_append]

structure OwnerChallengeBinding where
  operation : OwnerOperation := .readback
  deviceId : Octets 16 := Vector.replicate 16 0
  bootId : Octets 16 := Vector.replicate 16 0
  sessionId : Octets 16 := Vector.replicate 16 0
  ownerKeySha256 : Octets 32 := Vector.replicate 32 0
  ownerEpoch : UInt64 := 0
  profileGeneration : UInt64 := 0
  requestId : Octets 16 := Vector.replicate 16 0
  challenge : Octets 16 := Vector.replicate 16 0
  expiryMonotonicMs : UInt64 := 0
  deriving DecidableEq

structure OwnerChallengeSlot where
  binding : OwnerChallengeBinding := {}
  issuedMs : UInt64 := 0
  pending : Bool := false

namespace OwnerChallengeSlot

def maximumWindowMs : UInt64 := 30000

def cancel (_ : OwnerChallengeSlot) : OwnerChallengeSlot := {}

/-- The checks of `issue` on a binding. -/
def issuable (binding : OwnerChallengeBinding) (now : UInt64) : Bool :=
  (ownerRoute binding.operation).isSome && nonzero binding.deviceId && nonzero binding.bootId &&
    nonzero binding.sessionId && nonzero binding.ownerKeySha256 && nonzero binding.requestId &&
    nonzero binding.challenge && binding.ownerEpoch ≠ 0 && binding.profileGeneration ≠ 0 &&
    now < binding.expiryMonotonicMs && binding.expiryMonotonicMs - now ≤ maximumWindowMs

def issue (binding : OwnerChallengeBinding) (now : UInt64) (s : OwnerChallengeSlot) :
    OwnerChallengeSlot × Bool :=
  if s.pending && now < s.issuedMs then (s.cancel, false)
  else
    let s := if s.pending && s.binding.expiryMonotonicMs ≤ now then s.cancel else s
    if s.pending || !issuable binding now then (s, false)
    else ({ binding, issuedMs := now, pending := true }, true)

/-- What the caller of `take` says that its request is bound to. -/
def bound (f : OwnerSigningFields) (sessionId : Octets 16) (ownerKeySha256 : Octets 32) :
    OwnerChallengeBinding :=
  { operation := f.operation
    deviceId := f.deviceId
    bootId := f.bootId
    sessionId
    ownerKeySha256
    ownerEpoch := f.ownerEpoch
    profileGeneration := f.profileGeneration
    requestId := f.requestId
    challenge := f.challenge
    expiryMonotonicMs := f.expiryMonotonicMs }

def take (f : OwnerSigningFields) (sessionId : Octets 16) (ownerKeySha256 : Octets 32) (now : UInt64)
    (s : OwnerChallengeSlot) : OwnerChallengeSlot × Option PayloadDigest :=
  if !s.pending then (s, none)
  else
    let digest := ownerSigningDigest f
    let isMatch := digest.isSome && s.issuedMs ≤ now && now < s.binding.expiryMonotonicMs &&
      bound f sessionId ownerKeySha256 = s.binding
    (s.cancel, if isMatch then digest else none)

inductive Call
  | issue (binding : OwnerChallengeBinding) (now : UInt64)
  | take (f : OwnerSigningFields) (sessionId : Octets 16) (ownerKeySha256 : Octets 32) (now : UInt64)
  | cancel

/-- A challenge that is issued, or taken with the digest that is returned. -/
inductive Event
  | issued (binding : OwnerChallengeBinding) (now : UInt64)
  | taken (f : OwnerSigningFields) (sessionId : Octets 16) (ownerKeySha256 : Octets 32)
    (now : UInt64) (digest : PayloadDigest)

def step (s : OwnerChallengeSlot) : Call → OwnerChallengeSlot × List Event
  | .issue binding now =>
    let (s, ok) := s.issue binding now
    (s, if ok then [.issued binding now] else [])
  | .take f sessionId ownerKeySha256 now =>
    let (s, digest) := s.take f sessionId ownerKeySha256 now
    (s, digest.toList.map fun digest => .taken f sessionId ownerKeySha256 now digest)
  | .cancel => (s.cancel, [])

/-- A run with its log, oldest first. -/
def run (s : OwnerChallengeSlot) (calls : List Call) : OwnerChallengeSlot × List Event :=
  calls.foldl (fun done call => ((step done.1 call).1, done.2 ++ (step done.1 call).2)) (s, [])

/-! ## The log -/

/-- A challenge is taken right after it is issued, as it is issued and within its time. -/
def Matched (log : List Event) : Prop := Each (fun before e =>
  ∀ f sessionId ownerKeySha256 now digest, e = .taken f sessionId ownerKeySha256 now digest →
    ∃ earlier binding issued, before = earlier ++ [.issued binding issued] ∧
      bound f sessionId ownerKeySha256 = binding ∧ issued ≤ now ∧ now < binding.expiryMonotonicMs ∧
      ownerSigningDigest f = some digest) log

/-- A pending slot holds the challenge that the log ends with. -/
structure Logged (s : OwnerChallengeSlot) (log : List Event) : Prop where
  matched : Matched log
  pending : s.pending = true → ∃ earlier, log = earlier ++ [.issued s.binding s.issuedMs]

variable {s : OwnerChallengeSlot} {log : List Event}

theorem issue_cases (binding : OwnerChallengeBinding) (now : UInt64) (s : OwnerChallengeSlot) :
    ((s.issue binding now).2 = false ∧
        ((s.issue binding now).1 = s ∨ (s.issue binding now).1 = {})) ∨
      s.issue binding now = ({ binding, issuedMs := now, pending := true }, true) := by
  unfold issue
  split
  · exact .inl ⟨rfl, .inr rfl⟩
  · have hkept : ∀ s₁ : OwnerChallengeSlot,
        s₁ = (if s.pending && s.binding.expiryMonotonicMs ≤ now then s.cancel else s) →
        s₁ = s ∨ s₁ = {} := by
      rintro _ rfl
      split
      · exact .inr rfl
      · exact .inl rfl
    dsimp only
    generalize hs₁ : (if s.pending && s.binding.expiryMonotonicMs ≤ now then s.cancel else s) = s₁
    split
    · exact .inl ⟨rfl, hkept s₁ hs₁.symm⟩
    · exact .inr rfl

theorem take_cases (f : OwnerSigningFields) (sessionId : Octets 16) (ownerKeySha256 : Octets 32)
    (now : UInt64) (s : OwnerChallengeSlot) :
    ((s.take f sessionId ownerKeySha256 now).1.pending = false) ∧
      ((s.take f sessionId ownerKeySha256 now).2 = none ∨
        s.pending = true ∧ bound f sessionId ownerKeySha256 = s.binding ∧ s.issuedMs ≤ now ∧
          now < s.binding.expiryMonotonicMs ∧ (ownerSigningDigest f).isSome = true ∧
          (s.take f sessionId ownerKeySha256 now).2 = ownerSigningDigest f) := by
  unfold take
  split
  · rename_i hpending
    exact ⟨by simpa using hpending, .inl rfl⟩
  · rename_i hpending
    refine ⟨rfl, ?_⟩
    dsimp only
    split
    · rename_i hmatch
      simp only [Bool.and_eq_true, decide_eq_true_eq] at hmatch
      obtain ⟨⟨⟨hsome, hissued⟩, hnow⟩, hbound⟩ := hmatch
      exact .inr ⟨by simpa using hpending, hbound, hissued, hnow, hsome, rfl⟩
    · exact .inl rfl

theorem step_logged (h : Logged s log) (call : Call) :
    Logged (step s call).1 (log ++ (step s call).2) := by
  have hfresh : Logged {} log := ⟨h.matched, nofun⟩
  cases call with
  | issue binding now =>
    unfold step
    obtain ⟨hok, hsame | hclear⟩ | hissued := issue_cases binding now s
    · simp only [hok, hsame, Bool.false_eq_true, if_false, List.append_nil]
      exact h
    · simp only [hok, hclear, Bool.false_eq_true, if_false, List.append_nil]
      exact hfresh
    · simp only [hissued, if_true]
      exact ⟨h.matched.snoc fun f sessionId ownerKeySha256 now digest hno => (nomatch hno),
        fun _ => ⟨log, rfl⟩⟩
  | take f sessionId ownerKeySha256 now =>
    obtain ⟨hburnt, hresult⟩ := take_cases f sessionId ownerKeySha256 now s
    unfold step
    refine ⟨?_, fun hno => absurd (hburnt.symm.trans hno) Bool.false_ne_true⟩
    obtain hnone | ⟨hpending, hbound, hissued, hnow, hsome, hdigest⟩ := hresult
    · simp only [hnone, Option.toList_none, List.map_nil, List.append_nil]
      exact h.matched
    · obtain ⟨digest, hsigned⟩ := Option.isSome_iff_exists.mp hsome
      obtain ⟨earlier, hlog⟩ := h.pending hpending
      simp only [hdigest, hsigned, Option.toList_some, List.map_cons, List.map_nil]
      refine h.matched.snoc fun f' sessionId' ownerKeySha256' now' digest' hsame => ?_
      obtain ⟨rfl, rfl, rfl, rfl, rfl⟩ : f = f' ∧ sessionId = sessionId' ∧
          ownerKeySha256 = ownerKeySha256' ∧ now = now' ∧ digest = digest' := by
        simpa using hsame
      exact ⟨earlier, s.binding, s.issuedMs, hlog, hbound, hissued, hnow, hsigned⟩
  | cancel =>
    unfold step
    simp only [List.append_nil]
    exact hfresh

theorem run_logged (calls : List Call) : Logged (run {} calls).1 (run {} calls).2 := by
  have hstart : Logged {} [] := ⟨Each.nil, nofun⟩
  have hrun : ∀ (calls : List Call) (done : OwnerChallengeSlot × List Event), Logged done.1 done.2 →
      Logged
        (calls.foldl (fun done call => ((step done.1 call).1, done.2 ++ (step done.1 call).2)) done).1
        (calls.foldl
          (fun done call => ((step done.1 call).1, done.2 ++ (step done.1 call).2)) done).2 := by
    intro calls
    induction calls with
    | nil => exact fun _ h => h
    | cons call calls ih => exact fun done h => ih _ (step_logged h call)
  exact hrun calls _ hstart

/-- Challenges are single use and exactly bound. In the log of every run a challenge is taken only
right after it is issued, with all that it was issued for, in its time, and with the digest of the
signed fields; no attempt leaves a challenge in the slot; and the byte strings behind the digests
give back their kind and their fields. -/
theorem owner_challenge_once :
    (∀ calls, Matched (run {} calls).2) ∧
    (∀ (s : OwnerChallengeSlot) f sessionId ownerKeySha256 now,
      (s.take f sessionId ownerKeySha256 now).1.pending = false) ∧
    (∀ f, ownerSigningDigest f =
      if (OwnerText.signing f).accepted then some (sha256 (OwnerText.signing f).bytes) else none) ∧
    (∀ f, ownerSessionStartDigest f =
      if (OwnerText.sessionStart f).accepted then some (sha256 (OwnerText.sessionStart f).bytes)
      else none) ∧
    (∀ f, ownerSessionSalt f =
      if (OwnerText.sessionSalt f).accepted then some (sha256 (OwnerText.sessionSalt f).bytes)
      else none) ∧
    (∀ f, ownerSessionFinishDigest f =
      if (OwnerText.sessionFinish f).accepted then some (sha256 (OwnerText.sessionFinish f).bytes)
      else none) ∧
    (∀ f, ownerClaimTranscript f =
      if (OwnerText.claim f).accepted then some (OwnerText.claim f).bytes else none) ∧
    ∀ t t' : OwnerText, t.accepted = true → t'.accepted = true → t.bytes = t'.bytes →
      OwnerText.Same t t' :=
  ⟨fun calls => (run_logged calls).matched,
    fun s f sessionId ownerKeySha256 now => (take_cases f sessionId ownerKeySha256 now s).1,
    fun _ => rfl, fun _ => rfl, fun _ => rfl, fun _ => rfl, claimTranscript_eq,
    fun _ _ ht ht' h => OwnerText.bytes_same ht ht' h⟩

end OwnerChallengeSlot

end WsprryPico.Network
