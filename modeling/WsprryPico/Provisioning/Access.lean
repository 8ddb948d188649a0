import WsprryPico.Standalone.Bytes
import WsprryPico.Wtp.Sha256

/-!
# Access records

`AccessRecord` of `provisioning/access.hpp`, its checks and its page of flash. A
record that passes the checks reads back from its page as it was.
-/

namespace WsprryPico.Provisioning

open Standalone Wtp

inductive ResetLevel where
  | none | access | provisioning | full
  deriving DecidableEq

def ResetLevel.byte : ResetLevel → UInt8
  | .none => 0
  | .access => 1
  | .provisioning => 2
  | .full => 3

def ResetLevel.ofByte : UInt8 → Option ResetLevel
  | 0 => some .none
  | 1 => some .access
  | 2 => some .provisioning
  | 3 => some .full
  | _ => Option.none

inductive ResetPhase where
  | none | intent | sourceSelected | accessReset | operationalErased | bondsCleared
  | preservationComplete
  deriving DecidableEq

def ResetPhase.byte : ResetPhase → UInt8
  | .none => 0
  | .intent => 1
  | .sourceSelected => 2
  | .accessReset => 3
  | .operationalErased => 4
  | .bondsCleared => 5
  | .preservationComplete => 6

def ResetPhase.ofByte : UInt8 → Option ResetPhase
  | 0 => some .none
  | 1 => some .intent
  | 2 => some .sourceSelected
  | 3 => some .accessReset
  | 4 => some .operationalErased
  | 5 => some .bondsCleared
  | 6 => some .preservationComplete
  | _ => Option.none

inductive ProfileSource where
  | legacyBootstrap | runtimeProfile | unprovisioned | buildBundle | networkOnly | consumerProfile
  deriving DecidableEq

def ProfileSource.byte : ProfileSource → UInt8
  | .legacyBootstrap => 0
  | .runtimeProfile => 1
  | .unprovisioned => 2
  | .buildBundle => 3
  | .networkOnly => 4
  | .consumerProfile => 5

def ProfileSource.ofByte : UInt8 → Option ProfileSource
  | 0 => some .legacyBootstrap
  | 1 => some .runtimeProfile
  | 2 => some .unprovisioned
  | 3 => some .buildBundle
  | 4 => some .networkOnly
  | 5 => some .consumerProfile
  | _ => Option.none

@[simp] theorem ResetLevel.ofByte_byte (level : ResetLevel) : ofByte level.byte = some level := by
  cases level <;> rfl

@[simp] theorem ResetPhase.ofByte_byte (phase : ResetPhase) : ofByte phase.byte = some phase := by
  cases phase <;> rfl

@[simp] theorem ProfileSource.ofByte_byte (source : ProfileSource) :
    ofByte source.byte = some source := by
  cases source <;> rfl

structure ResetIntent where
  level : ResetLevel := .none
  phase : ResetPhase := .none
  targetSource : ProfileSource := .unprovisioned
  requestDigest : PayloadDigest := .zero
  deriving DecidableEq

def ResetIntent.pending (intent : ResetIntent) : Bool := intent.level ≠ .none

structure AccessRecord where
  epoch : UInt64 := 0
  password : List UInt8 := []
  defaultPassword : Bool := true
  fieldMode : Bool := false
  bleDisabled : Bool := false
  bonds : Vector UInt64 4 := .replicate 4 0
  bondCount : UInt8 := 0
  reset : ResetIntent := {}
  radioPassword : List UInt8 := []
  deriving DecidableEq

def accessPageSize : Nat := 256
def accessSlotSize : Nat := 4096

def validLocalPassword (password : List UInt8) : Bool :=
  8 ≤ password.length && password.length ≤ 63 && password.all fun byte => 32 ≤ byte && byte < 127

/-- The bonds in use are distinct and not zero, the others zero. -/
def validBonds (record : AccessRecord) : Bool :=
  let used := record.bonds.toList.take record.bondCount.toNat
  record.bondCount ≤ 4 && used.all (· ≠ 0) && decide used.Nodup &&
    (record.bonds.toList.drop record.bondCount.toNat).all (· = 0)

def validReset (reset : ResetIntent) : Bool :=
  reset.targetSource ≠ .networkOnly && reset.targetSource ≠ .consumerProfile &&
    if !reset.pending then reset.phase = .none
    else
      reset.phase ≠ .none &&
        (if reset.level = .access then reset.targetSource = .unprovisioned
          else reset.targetSource = .unprovisioned || reset.targetSource = .buildBundle) &&
        reset.requestDigest.bytes.any (· ≠ 0)

def validRecord (record : AccessRecord) : Bool :=
  record.epoch ≠ 0 && validLocalPassword record.password &&
    (record.radioPassword.isEmpty || validLocalPassword record.radioPassword) &&
    validBonds record && validReset record.reset

def recordMagic : Nat := 0x3244455241505357

def flags (record : AccessRecord) : UInt8 :=
  (if record.defaultPassword then 1 else 0) ||| (if record.fieldMode then 2 else 0) |||
    (if record.bleDisabled then 4 else 0)

/-- A password with its length before it, in `size` bytes. -/
def passwordField (size : Nat) (password : List UInt8) : List UInt8 :=
  UInt8.ofNat password.length :: password ++ List.replicate (size - 1 - password.length) 0

def serialize (record : AccessRecord) : List UInt8 :=
  put 8 recordMagic ++ (put 4 (if record.radioPassword.isEmpty then 2 else 3) ++
    (List.replicate 4 0 ++ (put 8 record.epoch.toNat ++
      ([flags record, record.bondCount, record.reset.level.byte, record.reset.phase.byte,
          record.reset.targetSource.byte, 0, 0, 0] ++
        (record.bonds.toList.flatMap (fun bond => put 8 bond.toNat) ++
          (record.reset.requestDigest.bytes ++ (passwordField 64 record.password ++
            if record.radioPassword.isEmpty then List.replicate 96 0
            else passwordField 96 record.radioPassword)))))))

def zeros (bytes : List UInt8) : Bool := bytes.all (· = 0)

/-- Thirty-two bytes as a digest. -/
def digestAt (offset : Nat) (bytes : List UInt8) : PayloadDigest :=
  let read := subspan offset 32 bytes
  if h : read.length = 32 then ⟨read, h⟩ else .zero

def deserialize (bytes : List UInt8) : Option AccessRecord :=
  let version := get (subspan 8 4 bytes)
  let length := (byteAt 96 bytes).toNat
  let radioLength := (byteAt 160 bytes).toNat
  if bytes.length ≠ accessPageSize ∨ get (subspan 0 8 bytes) ≠ recordMagic ∨
      (version ≠ 2 ∧ version ≠ 3) ∨ byteAt 24 bytes &&& ~~~7 ≠ 0 ∨ byteAt 29 bytes ≠ 0 ∨
      byteAt 30 bytes ≠ 0 ∨ byteAt 31 bytes ≠ 0 ∨ length > 63 then none
  else if version = 3 ∧ (radioLength < 8 ∨ radioLength > 63) then none
  else
    match ResetLevel.ofByte (byteAt 26 bytes), ResetPhase.ofByte (byteAt 27 bytes),
      ProfileSource.ofByte (byteAt 28 bytes) with
    | some level, some phase, some targetSource =>
      let record : AccessRecord :=
        { epoch := UInt64.ofNat (get (subspan 16 8 bytes))
          password := subspan 97 length bytes
          defaultPassword := byteAt 24 bytes &&& 1 ≠ 0
          fieldMode := byteAt 24 bytes &&& 2 ≠ 0
          bleDisabled := byteAt 24 bytes &&& 4 ≠ 0
          bonds := .ofFn fun i => UInt64.ofNat (get (subspan (32 + i.val * 8) 8 bytes))
          bondCount := byteAt 25 bytes
          reset := { level, phase, targetSource, requestDigest := digestAt 64 bytes }
          radioPassword := if version = 3 then subspan 161 radioLength bytes else [] }
      let used := 97 + length
      if zeros (subspan used ((if version = 3 then 160 else 256) - used) bytes) &&
          (version ≠ 3 || zeros (subspan (161 + radioLength) (256 - (161 + radioLength)) bytes)) &&
          validRecord record then
        some record
      else none
    | _, _, _ => none

section RoundTrip

variable {record : AccessRecord}

theorem uint64_read (n : UInt64) : UInt64.ofNat (get (put 8 n.toNat)) = n := by
  rw [get_put n.toNat_lt, UInt64.ofNat_toNat]

theorem bond_read (bonds : Vector UInt64 4) (ys : List UInt8) {i : Nat} (hi : i < 4) :
    subspan (i * 8) 8 ((bonds.toList.flatMap fun bond => put 8 bond.toNat) ++ ys) =
      put 8 bonds[i].toNat := by
  obtain ⟨⟨l⟩, h⟩ := bonds
  match l, h with
  | [a, b, c, d], h =>
    match i, hi with
    | 0, _ | 1, _ | 2, _ | 3, _ => simp [subspan_skip, subspan_here]

/-- The fixed part of the page, before the passwords. -/
def serializedHead (record : AccessRecord) : List UInt8 :=
  put 8 recordMagic ++ (put 4 (if record.radioPassword.isEmpty then 2 else 3) ++
    (List.replicate 4 0 ++ (put 8 record.epoch.toNat ++
      ([flags record, record.bondCount, record.reset.level.byte, record.reset.phase.byte,
          record.reset.targetSource.byte, 0, 0, 0] ++
        (record.bonds.toList.flatMap (fun bond => put 8 bond.toNat) ++
          record.reset.requestDigest.bytes)))))

theorem length_serializedHead : (serializedHead record).length = 96 := by
  simp [serializedHead, record.reset.requestDigest.size]

theorem flags_read (record : AccessRecord) :
    flags record &&& ~~~7 = 0 ∧ decide (flags record &&& 1 ≠ 0) = record.defaultPassword ∧
      decide (flags record &&& 2 ≠ 0) = record.fieldMode ∧
      decide (flags record &&& 4 ≠ 0) = record.bleDisabled := by
  unfold flags
  cases record.defaultPassword <;> cases record.fieldMode <;> cases record.bleDisabled <;> decide

theorem zeros_replicate (offset count n : Nat) :
    zeros (subspan offset count (List.replicate n 0)) = true := by
  unfold zeros subspan
  rw [List.drop_replicate, List.take_replicate, List.all_eq_true]
  intro byte hbyte
  exact decide_eq_true (List.eq_of_mem_replicate hbyte)

theorem length_passwordField {size : Nat} {password : List UInt8} (h : password.length < size) :
    (passwordField size password).length = size := by
  simp only [passwordField, List.cons_append, List.length_cons, List.length_append,
    List.length_replicate]
  omega

/-- A password reads back from its field, and the rest of the field is zero. -/
theorem password_read (size : Nat) (password : List UInt8) (ys : List UInt8) (h : password.length < size)
    (hbyte : password.length < 256) :
    (byteAt 0 (passwordField size password ++ ys)).toNat = password.length ∧
      subspan 1 password.length (passwordField size password ++ ys) = password ∧
      zeros (subspan (1 + password.length) (size - (1 + password.length))
        (passwordField size password ++ ys)) = true := by
  have hsplit : passwordField size password ++ ys = UInt8.ofNat password.length ::
      (password ++ (List.replicate (size - 1 - password.length) 0 ++ ys)) := by
    simp [passwordField]
  rw [hsplit]
  refine ⟨?_, ?_, ?_⟩
  · rw [byteAt_zero, UInt8.toNat_ofNat']
    exact Nat.mod_eq_of_lt hbyte
  · exact (subspan_cons _).trans (subspan_here rfl)
  · rw [Nat.add_comm 1, subspan_cons, subspan_skip (Nat.le_refl _), Nat.sub_self,
      subspan_here (by rw [List.length_replicate]; omega)]
    have := zeros_replicate 0 (size - 1 - password.length) (size - 1 - password.length)
    rwa [subspan_all List.length_replicate] at this

theorem localPassword_length {password : List UInt8} (h : validLocalPassword password = true) :
    8 ≤ password.length ∧ password.length ≤ 63 := by
  simp only [validLocalPassword, Bool.and_eq_true, decide_eq_true_eq] at h
  exact h.1

/-- The passwords of the page, behind its fixed part. -/
def serializedTail (record : AccessRecord) : List UInt8 :=
  passwordField 64 record.password ++
    if record.radioPassword.isEmpty then List.replicate 96 0
    else passwordField 96 record.radioPassword

theorem serialize_eq (record : AccessRecord) :
    serialize record = serializedHead record ++ serializedTail record := by
  simp [serialize, serializedHead, serializedTail]

/-- The fields of the fixed part, with anything behind it. -/
structure HeadRead (record : AccessRecord) (bytes : List UInt8) : Prop where
  magic : get (subspan 0 8 bytes) = recordMagic
  version : get (subspan 8 4 bytes) = if record.radioPassword.isEmpty then 2 else 3
  epoch : UInt64.ofNat (get (subspan 16 8 bytes)) = record.epoch
  flags : byteAt 24 bytes = Provisioning.flags record
  bondCount : byteAt 25 bytes = record.bondCount
  level : byteAt 26 bytes = record.reset.level.byte
  phase : byteAt 27 bytes = record.reset.phase.byte
  targetSource : byteAt 28 bytes = record.reset.targetSource.byte
  reserved : byteAt 29 bytes = 0 ∧ byteAt 30 bytes = 0 ∧ byteAt 31 bytes = 0
  bonds : (Vector.ofFn fun i : Fin 4 => UInt64.ofNat (get (subspan (32 + i.val * 8) 8 bytes))) =
    record.bonds
  digest : digestAt 64 bytes = record.reset.requestDigest

theorem head_read (record : AccessRecord) (ys : List UInt8) :
    HeadRead record (serializedHead record ++ ys) where
  magic := by
    simp only [serializedHead, List.append_assoc]
    rw [subspan_here (length_put ..), get_put (by decide)]
  version := by
    simp only [serializedHead, List.append_assoc]
    rw [subspan_skip (by simp), length_put, Nat.sub_self, subspan_here (length_put ..), get_put]
    split <;> decide
  epoch := by
    have hread : subspan 16 8 (serializedHead record ++ ys) = put 8 record.epoch.toNat := by
      simp [serializedHead, subspan_skip, subspan_here]
    rw [hread, uint64_read]
  flags := by simp [serializedHead, byteAt_skip]
  bondCount := by simp [serializedHead, byteAt_skip]
  level := by simp [serializedHead, byteAt_skip]
  phase := by simp [serializedHead, byteAt_skip]
  targetSource := by simp [serializedHead, byteAt_skip]
  reserved := by simp [serializedHead, byteAt_skip]
  bonds := by
    ext i hi
    have hbond := bond_read record.bonds (record.reset.requestDigest.bytes ++ ys) hi
    have hread : subspan (32 + i * 8) 8 (serializedHead record ++ ys) = put 8 record.bonds[i].toNat := by
      rw [← hbond, Nat.add_comm 32]
      simp [serializedHead, subspan_skip]
    rw [Vector.getElem_ofFn, hread, uint64_read]
  digest := by
    have hread : subspan 64 32 (serializedHead record ++ ys) = record.reset.requestDigest.bytes := by
      simp [serializedHead, subspan_skip, subspan_here, record.reset.requestDigest.size]
    unfold digestAt
    simp only [hread]
    rw [dif_pos record.reset.requestDigest.size]

theorem length_serialize (h : validRecord record = true) :
    (serialize record).length = accessPageSize := by
  simp only [validRecord, Bool.and_eq_true, Bool.or_eq_true] at h
  have hpassword := localPassword_length h.1.1.1.2
  rw [serialize_eq, List.length_append, length_serializedHead, serializedTail, List.length_append,
    length_passwordField (by omega)]
  rcases h.1.1.2 with hradio | hradio
  · rw [if_pos hradio, List.length_replicate]
    rfl
  · have hlength := localPassword_length hradio
    rw [if_neg (by rw [List.isEmpty_iff]; rintro hnil; rw [hnil] at hlength; simp at hlength),
      length_passwordField (by omega)]
    rfl

/-- The first password and, where there is one, the second. -/
structure TailRead (record : AccessRecord) (bytes : List UInt8) : Prop where
  length : (byteAt 96 bytes).toNat = record.password.length
  password : subspan 97 record.password.length bytes = record.password
  padding : zeros (subspan (97 + record.password.length)
    ((if record.radioPassword.isEmpty then 256 else 160) - (97 + record.password.length)) bytes) = true
  radio : record.radioPassword.isEmpty = false →
    (byteAt 160 bytes).toNat = record.radioPassword.length ∧
    subspan 161 record.radioPassword.length bytes = record.radioPassword ∧
    zeros (subspan (161 + record.radioPassword.length)
      (256 - (161 + record.radioPassword.length)) bytes) = true

theorem subspan_behind {xs ys : List UInt8} {n : Nat} (h : xs.length = n) (offset count : Nat) :
    subspan (n + offset) count (xs ++ ys) = subspan offset count ys := by
  rw [subspan_skip (by omega), h, Nat.add_sub_cancel_left]

theorem byteAt_behind {xs ys : List UInt8} {n : Nat} (h : xs.length = n) (offset : Nat) :
    byteAt (n + offset) (xs ++ ys) = byteAt offset ys := by
  rw [byteAt_skip (by omega), h, Nat.add_sub_cancel_left]

theorem tail_read (h : validRecord record = true) : TailRead record (serialize record) := by
  simp only [validRecord, Bool.and_eq_true, Bool.or_eq_true] at h
  have hpassword := localPassword_length h.1.1.1.2
  have hfield : (passwordField 64 record.password).length = 64 := length_passwordField (by omega)
  let rest := if record.radioPassword.isEmpty then List.replicate 96 0
    else passwordField 96 record.radioPassword
  have hserialize : serialize record =
      serializedHead record ++ (passwordField 64 record.password ++ rest) := serialize_eq record
  obtain ⟨hlength, hread, hzeros⟩ := password_read 64 record.password rest (by omega) (by omega)
  rw [hserialize]
  refine ⟨?_, ?_, ?_, fun hradio => ?_⟩
  · rw [byteAt_behind length_serializedHead 0]
    exact hlength
  · rw [subspan_behind length_serializedHead 1]
    exact hread
  · rw [Nat.add_assoc 96 1, subspan_behind length_serializedHead]
    cases hradio : record.radioPassword.isEmpty with
    | false =>
      rw [show (if false = true then 256 else 160) - (96 + (1 + record.password.length)) =
        64 - (1 + record.password.length) by rw [if_neg (by decide)]; omega]
      exact hzeros
    | true =>
      -- the padding of the first field and the unused second one
      have hrest : rest = List.replicate 96 0 := if_pos hradio
      have hsplit : passwordField 64 record.password ++ rest =
          (UInt8.ofNat record.password.length :: record.password) ++
            List.replicate (64 - 1 - record.password.length + 96) 0 := by
        rw [hrest, ← List.replicate_append_replicate, passwordField, List.append_assoc,
          List.cons_append]
      rw [hsplit, Nat.add_comm 1, subspan_skip (by simp)]
      exact zeros_replicate ..
  · have hrest : rest = passwordField 96 record.radioPassword := if_neg (by rw [hradio]; decide)
    have hvalid := h.1.1.2
    rw [hradio] at hvalid
    have hlong := localPassword_length (hvalid.resolve_left (by decide))
    obtain ⟨hlength', hread', hzeros'⟩ := password_read 96 record.radioPassword [] (by omega) (by omega)
    rw [List.append_nil] at hlength' hread' hzeros'
    rw [hrest]
    refine ⟨?_, ?_, ?_⟩
    · rw [byteAt_behind length_serializedHead 64, byteAt_behind hfield 0]
      exact hlength'
    · rw [subspan_behind length_serializedHead 65, subspan_behind hfield 1]
      exact hread'
    · rw [show 161 + record.radioPassword.length = 96 + (64 + (1 + record.radioPassword.length)) by
        omega, subspan_behind length_serializedHead, subspan_behind hfield,
        show 256 - (96 + (64 + (1 + record.radioPassword.length))) =
          96 - (1 + record.radioPassword.length) by omega]
      exact hzeros'

/-- An access record that passes the checks reads back from its page. -/
theorem deserialize_serialize (h : validRecord record = true) :
    deserialize (serialize record) = some record := by
  have hhead : HeadRead record (serialize record) := by
    rw [serialize_eq]
    exact head_read record _
  have htail := tail_read h
  have hpage := length_serialize h
  obtain ⟨hmask, hdefault, hfield, hble⟩ := flags_read record
  have hvalid := h
  simp only [validRecord, Bool.and_eq_true, Bool.or_eq_true] at hvalid
  have hpassword := localPassword_length hvalid.1.1.1.2
  unfold deserialize
  simp only [hhead.magic, hhead.version, hhead.epoch, hhead.flags, hhead.bondCount, hhead.level,
    hhead.phase, hhead.targetSource, hhead.reserved, hhead.bonds, hhead.digest, htail.length,
    htail.password, hpage, hmask, hdefault, hfield, hble, ResetLevel.ofByte_byte,
    ResetPhase.ofByte_byte, ProfileSource.ofByte_byte]
  have hpadding := htail.padding
  have hfits : ¬ record.password.length > 63 := by omega
  cases hradio : record.radioPassword.isEmpty with
  | true =>
    rw [hradio] at hpadding
    have hnil := List.isEmpty_iff.mp hradio
    have hsame : ({ record with radioPassword := [] } : AccessRecord) = record := by rw [← hnil]
    rw [if_neg (by simp [hfits]), if_neg (by simp)]
    refine (if_pos ?_).trans (congrArg some hsame)
    simp only [Bool.and_eq_true]
    exact ⟨⟨hpadding, rfl⟩, (congrArg validRecord hsame).trans h⟩
  | false =>
    obtain ⟨hlength, hread, hzeros⟩ := htail.radio hradio
    have hlong := localPassword_length (hvalid.1.1.2.resolve_left (by rw [hradio]; decide))
    rw [hradio] at hpadding
    have hbounds : ¬ (record.radioPassword.length < 8 ∨ record.radioPassword.length > 63) := by
      omega
    have hsame : { record with
        radioPassword := (subspan 161 record.radioPassword.length (serialize record)) } = record := by
      rw [hread]
    rw [hlength, if_neg (by simp [hfits]), if_neg (by simp [hbounds])]
    refine (if_pos ?_).trans (congrArg some hsame)
    simp only [Bool.and_eq_true, Bool.or_eq_true]
    exact ⟨⟨hpadding, .inr hzeros⟩, (congrArg validRecord hsame).trans h⟩

end RoundTrip

end WsprryPico.Provisioning
