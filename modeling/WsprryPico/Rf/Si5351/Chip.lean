import WsprryPico.Rf.Si5351.Device

/-!
# The register cache of the Si5351 device

A `Chip` is a bus with the registers behind it: a successful write stores its
bytes, a failed one may have stored any of them, a successful read returns what
is stored. What the device claims of its outputs (`claims`) and of the mask
register is then true of the chip after every sequence of operations.
-/

namespace WsprryPico.Rf.Si5351

open Lib DeviceM

variable {ω : Type}

/-- The registers that hold what was written to them. The status registers and
the self-clearing PLL reset do not. -/
def Stable (reg : Nat) : Prop := reg ≠ 0 ∧ reg ≠ 1 ∧ reg ≠ 177

/-- Registers with `bytes` stored from `reg` on. -/
def stored (reg : Nat) (bytes : List UInt8) (regs : Nat → UInt8) (r : Nat) : UInt8 :=
  if reg ≤ r then bytes.getD (r - reg) (regs r) else regs r

structure Chip (ω : Type) where
  bus : Bus ω
  regs : ω → Nat → UInt8
  read_keeps : ∀ reg count deadline w r, Stable r →
    regs (bus.read reg count deadline w).2 r = regs w r
  read_length : ∀ reg count deadline w bytes, (bus.read reg count deadline w).1 = some bytes →
    bytes.length = count
  read_honest : ∀ reg count deadline w bytes, (bus.read reg count deadline w).1 = some bytes →
    ∀ i, i < count → Stable (reg + i) → bytes[i]? = some (regs w (reg + i))
  write_done : ∀ reg bytes deadline w r, Stable r → (bus.write reg bytes deadline w).1 = true →
    regs (bus.write reg bytes deadline w).2 r = stored reg bytes (regs w) r
  write_torn : ∀ reg bytes deadline w r, Stable r → (bus.write reg bytes deadline w).1 = false →
    regs (bus.write reg bytes deadline w).2 r = regs w r ∨
      regs (bus.write reg bytes deadline w).2 r = stored reg bytes (regs w) r

/-- An output that the registers mask or power down. -/
def Off (regs : Nat → UInt8) (output : Output) : Prop :=
  regs 3 &&& output.bit ≠ 0 ∨ regs (16 + output.index) &&& 0x80 ≠ 0

/-- The outputs the device reports disabled by register state: its two assigned
outputs by their cached state, the others all together. -/
def Device.claims (d : Device) (output : Output) : Prop :=
  d.states output = .registerDisabled ∨
    d.unassignedOutputsDisabled = true ∧ output ≠ d.transmit ∧ d.loopback ≠ some output

/-- What of the cache the claims rest on. -/
def Device.core (d : Device) :=
  (d.states, d.transmit, d.loopback, d.unassignedOutputsDisabled, d.enableMask, d.configured,
    d.configuration)

/-- The cache claims nothing of the registers that is not so. -/
structure Conservative (regs : Nat → UInt8) (d : Device) : Prop where
  off : ∀ output, d.claims output → Off regs output
  mask : ∀ byte, d.enableMask = some byte → regs 3 = byte
  bound : ∀ config, d.configured = true → d.configuration = some config →
    d.transmit = config.transmit ∧ d.loopback = config.loopback

/-- A conservative cache with the outputs `transmit` and `loopback`, that claims
no output outside `S`. -/
structure Chip.Held (chip : Chip ω) (S : Output → Prop) (transmit : Output)
    (loopback : Option Output) (c : Controller ω) : Prop where
  conservative : Conservative (chip.regs c.world) c.device
  claimed : ∀ output, c.device.claims output → S output
  transmit : c.device.transmit = transmit
  loopback : c.device.loopback = loopback

namespace DeviceM

variable {α β : Type} {P : Controller ω → Prop} {Q : β → Controller ω → Prop}

theorem device_bind {k : Device → DeviceM ω β}
    (h : ∀ d, Triple (fun c => P c ∧ c.device = d) (k d) Q) : Triple P (device >>= k) Q :=
  fun c hc => h c.device c ⟨hc, rfl⟩

theorem update_bind {f : Device → Device} {k : Unit → DeviceM ω β}
    (h : ∀ c, P c → Triple (· = { c with device := f c.device }) (k ()) Q) :
    Triple P (update f >>= k) Q :=
  fun c hc => h c hc _ rfl

theorem onWorld_bind {f : ω → α × ω} {k : α → DeviceM ω β}
    (h : ∀ c, P c → Triple (· = { c with world := (f c.world).2 }) (k (f c.world).1) Q) :
    Triple P (onWorld f >>= k) Q :=
  fun c hc => h c hc _ rfl

end DeviceM

/-- The byte a masked write stores in a register that holds `value`. -/
def maskedByte (mask bits value : UInt8) : UInt8 := (value &&& ~~~mask) ||| (bits &&& mask)

section Bits

variable {v mask bits b : UInt8}

theorem byte_ext {x y : UInt8} (h : ∀ i (hi : i < 8), x.toBitVec[i] = y.toBitVec[i]) : x = y :=
  UInt8.toBitVec_inj.mp (BitVec.eq_of_getElem_eq h)

/-- Where the bits of `b` are those of the mask or not, a masked write takes them or keeps them. -/
theorem masked_bits {i : Nat} (hi : i < 8) : (maskedByte mask bits v).toBitVec[i] =
    if mask.toBitVec[i] then bits.toBitVec[i] else v.toBitVec[i] := by
  simp only [maskedByte, UInt8.toBitVec_or, UInt8.toBitVec_and, UInt8.toBitVec_not,
    BitVec.getElem_or, BitVec.getElem_and, BitVec.getElem_not]
  cases mask.toBitVec[i] <;> simp

theorem masked_apart (h : mask &&& b = 0) :
    maskedByte mask bits v &&& b = v &&& b := by
  refine byte_ext fun i hi => ?_
  have h' := congrArg (·.toBitVec[i]) h
  simp only [UInt8.toBitVec_and, BitVec.getElem_and, masked_bits hi] at h' ⊢
  cases hm : mask.toBitVec[i] <;> simp_all

theorem masked_within (h : b &&& mask = b) :
    maskedByte mask bits v &&& b = bits &&& b := by
  refine byte_ext fun i hi => ?_
  have h' := congrArg (·.toBitVec[i]) h
  simp only [UInt8.toBitVec_and, BitVec.getElem_and, masked_bits hi] at h' ⊢
  cases hm : mask.toBitVec[i] <;> simp_all

theorem or_and_self : (v ||| b) &&& b = b := by
  refine byte_ext fun i hi => ?_
  simp only [UInt8.toBitVec_and, UInt8.toBitVec_or, BitVec.getElem_and, BitVec.getElem_or]
  cases v.toBitVec[i] <;> cases b.toBitVec[i] <;> rfl

theorem maskedByte_clear : maskedByte b 0 v = v &&& ~~~b := by
  unfold maskedByte
  rw [UInt8.zero_and, UInt8.or_zero]

theorem maskedByte_set : maskedByte b b v = v ||| b := by
  refine byte_ext fun i hi => ?_
  rw [masked_bits hi, UInt8.toBitVec_or, BitVec.getElem_or]
  cases b.toBitVec[i] <;> simp

end Bits

theorem Output.bit_apart {a b : Output} (h : a ≠ b) : a.bit &&& b.bit = 0 := by
  cases a <;> cases b <;> first | exact absurd rfl h | decide

theorem Output.index_injective {a b : Output} (h : a.index = b.index) : a = b := by
  cases a <;> cases b <;> first | rfl | exact absurd h (by decide)

theorem Output.index_le (output : Output) : output.index ≤ 2 := by
  cases output <;> decide

section Stored

variable {reg r : Nat} {bytes : List UInt8} {byte : UInt8} {regs : Nat → UInt8}

theorem stored_before (h : r < reg) : stored reg bytes regs r = regs r := by
  simp [stored, Nat.not_le.mpr h]

theorem stored_after (h : reg + bytes.length ≤ r) : stored reg bytes regs r = regs r := by
  unfold stored
  split
  · rw [List.getD_eq_getElem?_getD, List.getElem?_eq_none (by omega), Option.getD_none]
  · rfl

theorem stored_self : stored reg [byte] regs reg = byte := by
  simp [stored]

theorem stored_other (h : r ≠ reg) : stored reg [byte] regs r = regs r := by
  rcases Nat.lt_or_gt_of_ne h with h | h
  · exact stored_before h
  · exact stored_after h

/-- The mask and the control registers, which say what is off. -/
def Decides (r : Nat) : Prop := r = 3 ∨ ∃ output : Output, r = 16 + output.index

theorem Decides.stable (h : Decides r) : Stable r := by
  rcases h with rfl | ⟨output, rfl⟩
  · exact ⟨by omega, by omega, by omega⟩
  · have := output.index_le
    exact ⟨by omega, by omega, by omega⟩

theorem Off.congr {regs regs' : Nat → UInt8} {output : Output}
    (h : ∀ r, Decides r → regs' r = regs r) (ho : Off regs output) : Off regs' output := by
  unfold Off
  rw [h 3 (.inl rfl), h _ (.inr ⟨output, rfl⟩)]
  exact ho

/-- A write to `regs` that turns none of the outputs of `S` on, and that the cache of the
mask register follows. -/
structure Calm (S : Output → Prop) (regs : Nat → UInt8) (reg : Nat) (bytes : List UInt8) : Prop where
  mask : (∃ byte, reg = 3 ∧ bytes = [byte]) ∨ 3 < reg
  off : ∀ output, S output → Off regs output → Off (stored reg bytes regs) output

theorem Calm.apart {S : Output → Prop} (hreg : 3 < reg)
    (h : reg + bytes.length ≤ 16 ∨ 18 < reg) : Calm S regs reg bytes where
  mask := .inr hreg
  off := by
    intro output _
    refine Off.congr fun r hr => ?_
    rcases hr with rfl | ⟨o, rfl⟩
    · exact stored_before hreg
    · have := o.index_le
      rcases h with h | h
      · exact stored_after (by omega)
      · exact stored_before (by omega)

theorem off_control {o output : Output} (hout : output ≠ o) (ho : Off regs output) :
    Off (stored (16 + o.index) [byte] regs) output := by
  have hindex : 16 + output.index ≠ 16 + o.index := fun h =>
    hout (Output.index_injective (by omega))
  unfold Off
  rw [stored_before (show 3 < _ by omega), stored_other hindex]
  exact ho

/-- A control register written with the power-down bit. -/
theorem Calm.powered {S : Output → Prop} {o : Output} (h : byte &&& 0x80 ≠ 0) :
    Calm S regs (16 + o.index) [byte] where
  mask := .inr (by omega)
  off := by
    intro output _ ho
    by_cases hout : output = o
    · subst hout
      exact .inr (by rw [stored_self]; exact h)
    · exact off_control hout ho

/-- A control register of an output outside `S`, or of one that is masked. -/
theorem Calm.control {S : Output → Prop} {o : Output} (h : S o → regs 3 &&& o.bit ≠ 0) :
    Calm S regs (16 + o.index) [byte] where
  mask := .inr (by omega)
  off := by
    intro output hS ho
    by_cases hout : output = o
    · subst hout
      exact .inl (by rw [stored_before (show 3 < _ by omega)]; exact h hS)
    · exact off_control hout ho

/-- A mask that keeps the bits of the outputs of `S`, or sets them. -/
theorem Calm.mask_bits {S : Output → Prop}
    (h : ∀ output, S output → regs 3 &&& output.bit ≠ 0 → byte &&& output.bit ≠ 0) :
    Calm S regs 3 [byte] where
  mask := .inl ⟨byte, rfl, rfl⟩
  off := by
    intro output hS ho
    rcases ho with ho | ho
    · exact .inl (by rw [stored_self]; exact h output hS ho)
    · exact .inr (by rw [stored_after (by simp; omega)]; exact ho)

theorem Calm.mask_other {S : Output → Prop} {o : Output} {bits : UInt8}
    (h : S o → bits &&& o.bit ≠ 0) : Calm S regs 3 [maskedByte o.bit bits (regs 3)] := by
  refine Calm.mask_bits fun output hS ho => ?_
  by_cases hout : output = o
  · subst hout
    rw [masked_within UInt8.and_self]
    exact h hS
  · rw [masked_apart (Output.bit_apart (Ne.symm hout))]
    exact ho

end Stored

section Cache

variable (d : Device) (reg : Nat) (bytes : List UInt8) (output : Output)

theorem claims_faulted : ¬ d.faulted.claims output := by
  rintro (h | ⟨h, -⟩)
  · cases h
  · cases h

theorem claims_cached : (d.cached reg bytes).claims output ↔ d.claims output := by
  unfold Device.cached
  split <;> rfl

theorem cached_transmit : (d.cached reg bytes).transmit = d.transmit := by
  unfold Device.cached
  split <;> rfl

theorem cached_loopback : (d.cached reg bytes).loopback = d.loopback := by
  unfold Device.cached
  split <;> rfl

theorem cached_configured : (d.cached reg bytes).configured = d.configured := by
  unfold Device.cached
  split <;> rfl

theorem cached_configuration : (d.cached reg bytes).configuration = d.configuration := by
  unfold Device.cached
  split <;> rfl

end Cache

namespace Chip

variable (chip : Chip ω) {S : Output → Prop} {t : Output} {l : Option Output}
  {c c' : Controller ω} {reg : Nat} {bytes : List UInt8} {mask bits : UInt8} {deadline : UInt64}

variable {chip} in
theorem Held.faulted (h : chip.Held S t l c) (hd : c'.device = c.device.faulted) :
    chip.Held S t l c' where
  conservative := by
    rw [hd]
    exact ⟨fun o ho => absurd ho (claims_faulted _ o), nofun,
      nofun⟩
  claimed := by
    rw [hd]
    exact fun o ho => absurd ho (claims_faulted _ o)
  transmit := by rw [hd]; exact h.transmit
  loopback := by rw [hd]; exact h.loopback

variable {chip} in
theorem Held.cached (h : chip.Held S t l c) (hcalm : Calm S (chip.regs c.world) reg bytes)
    (hd : c'.device = c.device.cached reg bytes)
    (hr : ∀ r, Stable r → chip.regs c'.world r = stored reg bytes (chip.regs c.world) r) :
    chip.Held S t l c' where
  conservative := by
    rw [hd]
    refine ⟨fun o ho => ?_, fun byte hbyte => ?_, fun config hc hconfig => ?_⟩
    · have ho' := (claims_cached _ _ _ o).mp ho
      exact (hcalm.off o (h.claimed o ho') (h.conservative.off o ho')).congr
        fun r hdec => hr r hdec.stable
    · rw [hr 3 (Decides.stable (.inl rfl))]
      rcases hcalm.mask with ⟨b, rfl, rfl⟩ | hreg
      · simpa [Device.cached, stored_self] using hbyte
      · have hkept : (c.device.cached reg bytes).enableMask = c.device.enableMask := by
          unfold Device.cached
          split
          · exact if_neg (by omega)
          · rfl
        rw [stored_before hreg]
        exact h.conservative.mask byte (hkept ▸ hbyte)
    · rw [cached_transmit, cached_loopback]
      rw [cached_configured] at hc
      rw [cached_configuration] at hconfig
      exact h.conservative.bound config hc hconfig
  claimed := by
    rw [hd]
    exact fun o ho => h.claimed o ((claims_cached _ _ _ o).mp ho)
  transmit := by rw [hd, cached_transmit]; exact h.transmit
  loopback := by rw [hd, cached_loopback]; exact h.loopback

theorem confirmed_spec (c₀ : Controller ω) :
    Triple (· = c₀) (chip.bus.confirmed reg bytes deadline) fun ok c =>
      c.device = c₀.device ∧ (ok = true → ∀ r, Stable r →
        chip.regs c.world r = stored reg bytes (chip.regs c₀.world) r) := by
  refine Triple.ite (fun _ => ?_) fun _ => onWorld_bind fun c hc => ?_
  · exact Triple.pure fun c hc => ⟨congrArg Controller.device hc, nofun⟩
  · subst hc
    cases hw : (chip.bus.write reg bytes deadline c.world).1 with
    | false => exact Triple.pure fun c' hc' => ⟨by rw [hc'], nofun⟩
    | true =>
      refine onWorld_bind fun c' hc' => Triple.pure fun c'' hc'' => ?_
      rw [hc'', hc']
      refine ⟨rfl, fun _ r hr => ?_⟩
      rw [chip.read_keeps _ _ _ _ r hr, chip.write_done _ _ _ _ r hr hw]

/-- How a confirmed write of `bytes` ends: stored, or with the cache dropped. -/
def Wrote (c₀ : Controller ω) (reg : Nat) (bytes : List UInt8) (ok : Bool) (c : Controller ω) : Prop :=
  (ok = true ∧ c.device = c₀.device.cached reg bytes ∧ ∀ r, Stable r →
    chip.regs c.world r = stored reg bytes (chip.regs c₀.world) r) ∨
  (ok = false ∧ c.device = c₀.device.faulted)

variable {chip} in
theorem Held.wrote {ok : Bool} (h : chip.Held S t l c)
    (hcalm : Calm S (chip.regs c.world) reg bytes) (hw : chip.Wrote c reg bytes ok c') :
    chip.Held S t l c' := by
  rcases hw with ⟨-, hdevice, hregs⟩ | ⟨-, hdevice⟩
  · exact h.cached hcalm hdevice hregs
  · exact h.faulted hdevice

variable (reg bytes deadline) in
theorem checkedWrite_spec (c₀ : Controller ω) :
    Triple (· = c₀) (chip.bus.checkedWrite reg bytes deadline) (chip.Wrote c₀ reg bytes) := by
  refine Triple.bind (chip.confirmed_spec c₀) fun ok => ?_
  cases ok with
  | false =>
    refine update_bind fun c hc => Triple.pure fun c' hc' => .inr ⟨rfl, ?_⟩
    rw [hc']
    exact congrArg Device.faulted hc.1
  | true =>
    refine update_bind fun c hc => Triple.pure fun c' hc' => .inl ⟨rfl, ?_, ?_⟩
    · rw [hc']
      exact congrArg (Device.cached reg bytes) hc.1
    · rw [hc']
      exact hc.2 rfl

variable (mask bits deadline) in
theorem maskedWrite_spec (hreg : Stable reg) (c₀ : Controller ω) :
    Triple (· = c₀) (chip.bus.maskedWrite reg mask bits deadline)
      (chip.Wrote c₀ reg [maskedByte mask bits (chip.regs c₀.world reg)]) := by
  refine onWorld_bind fun c hc => ?_
  subst hc
  have hdrop : ∀ c₁ : Controller ω, c₁.device = c.device →
      Triple (· = c₁) (update Device.faulted >>= fun _ => pure false)
        (chip.Wrote c reg [maskedByte mask bits (chip.regs c.world reg)]) := by
    intro c₁ hc₁
    refine update_bind fun c' hc' => Triple.pure fun c'' hc'' => .inr ⟨rfl, ?_⟩
    rw [hc'', hc']
    exact congrArg Device.faulted hc₁
  cases hread : (chip.bus.read reg 1 deadline c.world).1 with
  | none => exact hdrop _ rfl
  | some bytes =>
    have hlength := chip.read_length _ _ _ _ _ hread
    have hhonest := chip.read_honest _ _ _ _ _ hread 0 Nat.one_pos hreg
    match bytes, hlength with
    | [value], _ =>
      obtain rfl : value = chip.regs c.world reg := Option.some.inj hhonest
      refine (chip.checkedWrite_spec _ _ _ _).weaken fun ok c' hw => ?_
      rcases hw with ⟨hok, hdevice, hregs⟩ | ⟨hok, hdevice⟩
      · refine .inl ⟨hok, hdevice, fun r hr => ?_⟩
        rw [hregs r hr]
        unfold stored
        rw [chip.read_keeps _ _ _ _ r hr]
        rfl
      · exact .inr ⟨hok, hdevice⟩

theorem checkedWrite_keeps (hcalm : ∀ regs, Calm S regs reg bytes) :
    Keeps (chip.Held S t l) (chip.bus.checkedWrite reg bytes deadline) := fun c h =>
  h.wrote (hcalm _) (chip.checkedWrite_spec _ _ _ c c rfl)

theorem maskedWrite_keeps (hreg : Stable reg)
    (hcalm : ∀ regs, Calm S regs reg [maskedByte mask bits (regs reg)]) :
    Keeps (chip.Held S t l) (chip.bus.maskedWrite reg mask bits deadline) := fun c h =>
  h.wrote (hcalm _) (chip.maskedWrite_spec _ _ _ hreg c c rfl)

theorem divider_keeps (hreg : 18 < reg) :
    Keeps (chip.Held S t l) (chip.bus.checkedWrite reg bytes deadline) :=
  chip.checkedWrite_keeps fun _ => .apart (by omega) (.inr hreg)

theorem apart_keeps (hreg : 18 < reg) (hreset : reg ≠ 177) :
    Keeps (chip.Held S t l) (chip.bus.maskedWrite reg mask bits deadline) :=
  chip.maskedWrite_keeps ⟨by omega, by omega, hreset⟩ fun _ => .apart (by omega) (.inr hreg)

theorem sequence_keeps {I : Controller ω → Prop} {writes : List (DeviceM ω Bool)}
    (h : ∀ write ∈ writes, Keeps I write) : Keeps I (Bus.sequence writes) := by
  induction writes with
  | nil => exact Keeps.pure true
  | cons write rest ih =>
    refine Keeps.bind (h _ List.mem_cons_self) fun ok => Keeps.ite (fun _ => Keeps.pure _) fun _ => ?_
    exact ih (List.forall_mem_cons.1 h).2

theorem baseRegisters_keep (load : UInt8) :
    ∀ write ∈ chip.bus.baseRegisters load deadline, Keeps (chip.Held S t l) write := by
  intro write hwrite
  simp only [Bus.baseRegisters, List.mem_cons, List.not_mem_nil, or_false] at hwrite
  rcases hwrite with rfl | rfl | rfl | rfl
  · exact chip.maskedWrite_keeps ⟨by omega, by omega, by omega⟩ fun _ =>
      .apart (by omega) (.inl (by simp))
  · exact chip.divider_keeps (by omega)
  · exact chip.apart_keeps (by omega) (by omega)
  · exact chip.apart_keeps (by omega) (by omega)

theorem powered_keeps (output : Output) (control : UInt8) : Keeps (chip.Held S t l)
    (chip.bus.checkedWrite (16 + output.index) [control ||| 0x80] deadline) :=
  chip.checkedWrite_keeps fun _ => .powered (by rw [or_and_self]; decide)

theorem loopbackRegisters_keep (output : Output) (pll : Divider) (tone : Tone) :
    ∀ write ∈ chip.bus.loopbackRegisters output pll tone deadline,
      Keeps (chip.Held S t l) write := by
  intro write hwrite
  simp only [Bus.loopbackRegisters, List.mem_cons, List.not_mem_nil, or_false] at hwrite
  rcases hwrite with rfl | rfl | rfl | rfl
  · exact chip.divider_keeps (by omega)
  · exact chip.divider_keeps (by omega)
  · exact chip.apart_keeps (by omega) (by omega)
  · exact chip.powered_keeps output _

variable {chip} in
theorem Held.congr (h : chip.Held S t l c) (hdevice : c'.device.core = c.device.core)
    (hregs : ∀ r, Decides r → chip.regs c'.world r = chip.regs c.world r) :
    chip.Held S t l c' := by
  simp only [Device.core, Prod.mk.injEq] at hdevice
  obtain ⟨hstates, htransmit, hloopback, hunassigned, hmask, hconfigured, hconfig⟩ := hdevice
  have hclaims : ∀ o, c'.device.claims o → c.device.claims o := by
    intro o ho
    unfold Device.claims at ho
    rwa [hstates, htransmit, hloopback, hunassigned] at ho
  refine ⟨⟨fun o ho => ?_, fun byte hbyte => ?_, fun config hc hconf => ?_⟩, fun o ho => ?_, ?_, ?_⟩
  · exact (h.conservative.off o (hclaims o ho)).congr hregs
  · rw [hregs 3 (.inl rfl)]
    exact h.conservative.mask byte (hmask ▸ hbyte)
  · rw [htransmit, hloopback]
    exact h.conservative.bound config (hconfigured ▸ hc) (hconfig ▸ hconf)
  · exact h.claimed o (hclaims o ho)
  · exact htransmit.trans h.transmit
  · exact hloopback.trans h.loopback

theorem update_keeps {f : Device → Device} (hf : ∀ d, (f d).core = d.core) :
    Keeps (chip.Held S t l) (update f) := fun c h =>
  h.congr (hf c.device) fun _ _ => rfl

theorem drop_keeps : Keeps (chip.Held S t l) (update Device.faulted) := fun _ h =>
  h.faulted rfl

theorem read_keeps_held {count : Nat} :
    Keeps (chip.Held S t l) (onWorld (chip.bus.read reg count deadline)) := fun _ h =>
  h.congr rfl fun r hr => chip.read_keeps _ _ _ _ r hr.stable

/-- A write clear of the mask and the control registers, however it ends. -/
theorem write_keeps_held (hreg : 18 < reg) :
    Keeps (chip.Held S t l) (onWorld (chip.bus.write reg bytes deadline)) := by
  intro c h
  refine h.congr rfl fun r hr => ?_
  have hbefore : r < reg := by
    rcases hr with rfl | ⟨o, rfl⟩
    · omega
    · have := o.index_le
      omega
  cases hw : (chip.bus.write reg bytes deadline c.world).1 with
  | true => exact (chip.write_done _ _ _ _ r hr.stable hw).trans (stored_before hbefore)
  | false =>
    rcases chip.write_torn _ _ _ _ r hr.stable hw with h | h
    · exact h
    · exact h.trans (stored_before hbefore)

theorem dropped_keeps : Keeps (chip.Held S t l)
    (update Device.faulted >>= fun _ => (pure false : DeviceM ω Bool)) :=
  Keeps.bind chip.drop_keeps fun _ => Keeps.pure _

theorem softReset_keeps (resets : UInt8) :
    Keeps (chip.Held S t l) (chip.bus.softReset resets deadline) := by
  refine Keeps.bind chip.read_keeps_held fun previous => ?_
  split
  · refine Keeps.bind (chip.write_keeps_held (by omega)) fun ok => ?_
    refine Keeps.ite (fun _ => chip.dropped_keeps) fun _ => ?_
    refine Keeps.bind chip.read_keeps_held fun observed => ?_
    split
    · exact Keeps.ite (fun _ => chip.dropped_keeps) fun _ => Keeps.pure _
    · exact chip.dropped_keeps
  · exact chip.dropped_keeps

theorem locked_keeps : Keeps (chip.Held S t l) (chip.bus.locked deadline) := by
  refine Keeps.bind (fun _ h => h) fun d => Keeps.ite (fun _ => Keeps.pure _) fun _ => ?_
  refine Keeps.bind chip.read_keeps_held fun status => ?_
  split
  · refine Keeps.bind (fun _ h => h) fun d => ?_
    exact Keeps.bind (chip.update_keeps fun _ => rfl) fun _ => Keeps.pure _
  · exact chip.dropped_keeps

theorem ifNeeded_keeps {I : Controller ω → Prop} {needed : Bool} {m : DeviceM ω Bool}
    (hm : Keeps I m) : Keeps I (ifNeeded needed m) :=
  Keeps.ite (fun _ => hm) fun _ => Keeps.pure _

theorem retune_keeps (pll : Divider) :
    Keeps (chip.Held S t l) (chip.bus.retune pll deadline) := by
  refine Keeps.bind (fun _ h => h) fun d => ?_
  refine Keeps.bind (chip.divider_keeps (by omega)) fun _ => Keeps.ite (fun _ => Keeps.pure _) fun _ => ?_
  refine Keeps.bind (ifNeeded_keeps ?_) fun _ => Keeps.ite (fun _ => Keeps.pure _) fun _ => ?_
  · exact chip.apart_keeps (by omega) (by omega)
  · refine Keeps.bind chip.locked_keeps fun _ => Keeps.ite (fun _ => chip.dropped_keeps) fun _ => ?_
    exact Keeps.bind (chip.update_keeps fun _ => rfl) fun _ => Keeps.pure _

theorem held_device_bind {β : Type} {k : Device → DeviceM ω β} {Q : β → Controller ω → Prop}
    (h : ∀ d, d.transmit = t → d.loopback = l →
      Triple (fun c => chip.Held S t l c ∧ c.device = d) (k d) Q) :
    Triple (chip.Held S t l) (device >>= k) Q :=
  fun c hc => h c.device hc.transmit hc.loopback c ⟨hc, rfl⟩

/-- A tone: the output stays powered only where it is not claimed off. -/
theorem writeTone_keeps (tone : Tone) {active : Bool} (hactive : active = true → ¬ S t) :
    Keeps (chip.Held S t l) (chip.bus.writeTone tone active deadline) := by
  refine chip.held_device_bind fun d ht _ => Triple.strengthen ?_ fun c hc => hc.1
  refine Keeps.ite (fun _ => Keeps.pure _) fun _ => ?_
  refine Keeps.bind (chip.update_keeps fun _ => rfl) fun _ => ?_
  refine Keeps.bind (chip.divider_keeps (by omega)) fun _ => Keeps.ite (fun _ => Keeps.pure _) fun _ => ?_
  refine Keeps.bind ?_ fun _ => Keeps.ite (fun _ => Keeps.pure _) fun _ => ?_
  · rw [ht]
    cases active with
    | true => exact chip.checkedWrite_keeps fun _ => .control fun hS => absurd hS (hactive rfl)
    | false => exact chip.powered_keeps t _
  · exact Keeps.bind (chip.update_keeps fun _ => rfl) fun _ => Keeps.pure _

variable {chip} in
theorem Held.weaken {S' : Output → Prop} (h : chip.Held S t l c) (hS : ∀ o, S o → S' o) :
    chip.Held S' t l c :=
  ⟨h.conservative, fun o ho => hS o (h.claimed o ho), h.transmit, h.loopback⟩

theorem tuneTo_keeps (tone : Tone) {d : Device} (hd : d.transmitState = .registerEnabled → ¬ S t) :
    Keeps (chip.Held S t l) (chip.bus.tuneTo d tone deadline) := by
  have hactive : decide (d.transmitState = .registerEnabled) = true → ¬ S t := fun h =>
    hd (of_decide_eq_true h)
  unfold Bus.tuneTo
  simp only
  split
  · refine Keeps.bind (ifNeeded_keeps (chip.retune_keeps _)) fun _ => ?_
    exact Keeps.ite (fun _ => Keeps.pure _) fun _ => chip.writeTone_keeps tone hactive
  · exact chip.writeTone_keeps tone hactive

theorem transmitTone_keeps (tone : Tone) :
    Keeps (chip.Held (fun _ => True) t l) (chip.bus.transmitTone tone deadline) := by
  refine chip.held_device_bind fun d ht hl => Triple.ite (fun _ => ?_) fun _ => ?_
  · exact Triple.pure fun c hc => hc.1
  · -- where the output runs it is not claimed off, and nothing here changes that
    have hkeeps : Keeps
        (chip.Held (fun o => ¬ (d.transmitState = .registerEnabled ∧ o = t)) t l)
        (chip.bus.tuneTo d tone deadline) := chip.tuneTo_keeps tone fun h hS => hS ⟨h, rfl⟩
    refine Triple.strengthen (Triple.weaken hkeeps fun _ _ h => h.weaken fun _ _ => trivial) ?_
    rintro c ⟨hc, rfl⟩
    refine ⟨hc.conservative, fun o ho hboth => ?_, hc.transmit, hc.loopback⟩
    obtain ⟨hstate, rfl⟩ := hboth
    rw [← hc.transmit] at ho
    rcases ho with ho | ⟨-, ho, -⟩
    · cases hstate.symm.trans ho
    · exact ho rfl

/-- Held with nothing said of the claims. -/
abbrev Safe (t : Output) (l : Option Output) (c : Controller ω) : Prop :=
  chip.Held (fun _ => True) t l c

theorem unconfigured_keeps :
    Keeps (fun c => c.device.configured = false) (chip.bus.checkedWrite reg bytes deadline) := by
  intro c hc
  rcases chip.checkedWrite_spec reg bytes deadline c c rfl with ⟨-, hdevice, -⟩ | ⟨-, hdevice⟩
  · rw [hdevice, cached_configured]
    exact hc
  · rw [hdevice]
    rfl

/-- What `quiesce` reports: every output is off. -/
structure Quiet (c : Controller ω) : Prop where
  states : ∀ output, c.device.states output = .registerDisabled
  configured : c.device.configured = false

theorem stored_powered {regs : Nat → UInt8} (output : Output) :
    Off (stored 16 (List.replicate 8 0x80) regs) output := by
  refine .inr ?_
  cases output <;> simp [stored, Output.index]

variable (deadline) in
theorem quiesce_spec : Triple (chip.Safe t l) (chip.bus.quiesce deadline) fun ok c =>
    chip.Safe t l c ∧ (ok = true → Quiet c) := by
  let P : Controller ω → Prop := fun c => chip.Safe t l c ∧ c.device.configured = false
  refine Triple.bind (R := fun _ => P) (fun c h => ⟨h.faulted rfl, rfl⟩) fun _ => ?_
  refine Triple.bind (R := fun _ => P) (Keeps.and (chip.checkedWrite_keeps fun _ => ?_)
    chip.unconfigured_keeps) fun masked => ?_
  · refine Calm.mask_bits fun output _ _ => ?_
    cases output <;> decide
  refine Triple.bind (R := fun powered c => P c ∧
      (powered = true → ∀ output, Off (chip.regs c.world) output)) ?_ fun powered => ?_
  · intro c hc
    have hw := chip.checkedWrite_spec 16 (List.replicate 8 0x80) deadline c c rfl
    refine ⟨⟨hc.1.wrote ⟨.inr (by omega), fun o _ _ => stored_powered o⟩ hw,
      chip.unconfigured_keeps c hc.2⟩, fun hok o => ?_⟩
    rcases hw with ⟨-, -, hregs⟩ | ⟨hno, -⟩
    · exact (stored_powered o).congr fun r hr => hregs r hr.stable
    · cases hok.symm.trans hno
  refine Triple.ite (fun hboth => ?_) fun hboth => ?_
  · refine update_bind fun c hc => Triple.pure fun c' hc' => ?_
    obtain ⟨⟨hheld, hun⟩, hoff⟩ := hc
    have hpowered : powered = true := (Bool.and_eq_true_iff.mp hboth).2
    subst hc'
    exact ⟨⟨⟨fun o _ => hoff hpowered o, hheld.conservative.mask, hheld.conservative.bound⟩,
      fun _ _ => trivial, hheld.transmit, hheld.loopback⟩, fun _ => ⟨fun _ => rfl, hun⟩⟩
  · refine Triple.pure fun c hc => ⟨hc.1.1, fun hok => absurd ?_ hboth⟩
    rw [Bool.and_comm]
    exact hok

variable {chip} in
theorem Held.reassign (h : chip.Safe t l c) (hquiet : Quiet c) (t' : Output) (l' : Option Output) :
    chip.Safe t' l' { c with device := { c.device with transmit := t', loopback := l' } } where
  conservative := ⟨fun o _ => h.conservative.off o (.inl (hquiet.states o)), h.conservative.mask,
    fun _ hc => nomatch hquiet.configured.symm.trans hc⟩
  claimed := fun _ _ => trivial
  transmit := rfl
  loopback := rfl

variable {chip} in
theorem Held.configured {config : Configuration} (h : chip.Held S config.transmit config.loopback c)
    {d : Device} (hd : d.core = { c.device with
      configured := true, configuration := some config }.core) :
    chip.Held S config.transmit config.loopback { c with device := d } := by
  have hset : chip.Held S config.transmit config.loopback
      { c with device := { c.device with configured := true, configuration := some config } } :=
    { conservative := ⟨h.conservative.off, h.conservative.mask, fun config' _ hconfig => by
        cases hconfig
        exact ⟨h.transmit, h.loopback⟩⟩
      claimed := h.claimed
      transmit := h.transmit
      loopback := h.loopback }
  exact hset.congr hd fun _ _ => rfl

theorem planRegisters_keep (config : Configuration) (plan : Plan) (first : Tone) (load : UInt8)
    (preserve : Bool) :
    ∀ write ∈ chip.bus.planRegisters config plan first load preserve deadline,
      Keeps (chip.Held S t l) write := by
  intro write hwrite
  simp only [Bus.planRegisters, List.cons_append, List.mem_cons, List.mem_append,
    List.not_mem_nil, or_false] at hwrite
  rcases hwrite with rfl | (hbase | rfl | rfl) | hloop
  · exact chip.powered_keeps _ _
  · split at hbase
    · cases hbase
    · exact chip.baseRegisters_keep load write hbase
  · exact chip.divider_keeps (by omega)
  · exact chip.apart_keeps (by omega) (by omega)
  · split at hloop
    · split at hloop
      · cases hloop
      · exact chip.loopbackRegisters_keep _ _ _ write hloop
    · cases hloop

/-- What every operation keeps: a conservative cache, whatever the outputs are. -/
def Good (c : Controller ω) : Prop := ∃ t l, chip.Safe t l c

variable {chip} in
theorem Good.held (h : chip.Good c) : chip.Safe c.device.transmit c.device.loopback c := by
  obtain ⟨t, l, h⟩ := h
  rw [h.transmit, h.loopback]
  exact h

theorem Keeps.good {m : DeviceM ω Bool} (h : ∀ t l, Keeps (chip.Safe t l) m) :
    Keeps chip.Good m := by
  rintro c ⟨t, l, hc⟩
  exact ⟨t, l, h t l c hc⟩

variable (deadline) in
theorem quiesce_good : Triple chip.Good (chip.bus.quiesce deadline) fun ok c =>
    if ok then chip.Good c ∧ Quiet c else chip.Good c := by
  rintro c ⟨t, l, hc⟩
  have hquiet := chip.quiesce_spec deadline c hc
  split
  · exact ⟨⟨t, l, hquiet.1⟩, hquiet.2 ‹_›⟩
  · exact ⟨t, l, hquiet.1⟩

theorem program_keeps (config : Configuration) (plan : Plan) (first : Tone) (load : UInt8)
    {preserve : Bool} {P : Controller ω → Prop}
    (hP : ∀ c, P c → chip.Safe config.transmit config.loopback
      { c with device :=
        { c.device with transmit := config.transmit, loopback := config.loopback } }) :
    Triple P (chip.bus.program config plan first load preserve deadline)
      fun _ => chip.Safe config.transmit config.loopback := by
  refine Triple.bind (R := fun _ => chip.Safe config.transmit config.loopback) hP fun _ => ?_
  refine Keeps.bind (sequence_keeps (chip.planRegisters_keep _ _ _ _ _)) fun _ => ?_
  refine Keeps.ite (fun _ => Keeps.pure _) fun _ => ?_
  refine Keeps.bind (fun c hc => hc.configured rfl) fun _ => ?_
  refine Keeps.bind (chip.transmitTone_keeps first) fun _ => ?_
  exact Keeps.ite (fun _ => Keeps.pure _) fun _ => chip.softReset_keeps _

theorem configure_keeps (synthesis : Synthesis) (config : Configuration) (plan : Plan) :
    Keeps chip.Good (chip.bus.configure synthesis config plan deadline) := by
  unfold Bus.configure
  split
  · rename_i load first rest hbound hload htones
    refine device_bind fun d => ?_
    refine Triple.ite (fun _ => Triple.pure fun c hc => hc.1) fun _ => ?_
    have hgood : ∀ (_ : Bool) c, chip.Safe config.transmit config.loopback c → chip.Good c :=
      fun _ c hc => ⟨_, _, hc⟩
    cases hpreserve : d.configured && d.configuration = some config with
    | true =>
      obtain ⟨hconfigured, hconfig⟩ := Bool.and_eq_true_iff.mp hpreserve
      refine Triple.bind (R := fun _ c => chip.Good c ∧ c.device = d) (fun c hc => hc) fun _ => ?_
      refine Triple.ite (fun _ => Triple.pure fun c hc => hc.1) fun _ => ?_
      refine (chip.program_keeps config plan first load fun c hc => ?_).weaken hgood
      obtain ⟨hc, rfl⟩ := hc
      obtain ⟨ht, hl⟩ := hc.held.conservative.bound config hconfigured (of_decide_eq_true hconfig)
      rw [← ht, ← hl]
      exact hc.held
    | false =>
      refine Triple.guarded (S := chip.Good) (R := fun c => chip.Good c ∧ Quiet c) ?_ ?_
        (Triple.pure fun _ hc => hc)
      · exact (chip.quiesce_good deadline).strengthen fun _ hc => hc.1
      · refine (chip.program_keeps config plan first load fun c hc => ?_).weaken hgood
        exact hc.1.held.reassign hc.2 _ _
  · exact Keeps.pure _

theorem configureReference_keeps (synthesis : Synthesis) (config : Configuration)
    (plan : ReferencePlan) :
    Keeps chip.Good (chip.bus.configureReference synthesis config plan deadline) := by
  refine Keeps.ite (fun _ => Keeps.pure _) fun _ => ?_
  split
  · rename_i load output hload hloop
    refine Triple.guarded (S := chip.Good) (R := fun c => chip.Good c ∧ Quiet c) ?_ ?_
      (Triple.pure fun _ hc => hc)
    · exact chip.quiesce_good deadline
    · refine Triple.weaken (Q := fun _ => chip.Safe config.transmit config.loopback) ?_
        fun _ c hc => ⟨_, _, hc⟩
      refine Triple.bind (R := fun _ => chip.Safe config.transmit config.loopback)
        (fun c hc => hc.1.held.reassign hc.2 _ _) fun _ => ?_
      refine Keeps.bind (sequence_keeps fun write hwrite => ?_) fun _ => ?_
      · rcases List.mem_append.mp hwrite with hbase | hloopback
        · exact chip.baseRegisters_keep load write hbase
        · exact chip.loopbackRegisters_keep _ _ _ write hloopback
      · refine Keeps.ite (fun _ => Keeps.pure _) fun _ => ?_
        refine Keeps.bind (chip.softReset_keeps _) fun _ => Keeps.ite (fun _ => Keeps.pure _) fun _ => ?_
        exact Keeps.bind (fun c hc => hc.configured rfl) fun _ => Keeps.pure _
  · exact Keeps.pure _

def Assigned (t : Output) (l : Option Output) (output : Output) : Prop :=
  output = t ∨ l = some output

variable {chip} in
theorem Held.unknown {output : Output} (h : chip.Safe t l c) (ho : Assigned t l output) :
    chip.Held (· ≠ output) t l { c with device := c.device.setState output .unknown } where
  conservative := by
    refine ⟨fun o hclaim => h.conservative.off o ?_, h.conservative.mask, h.conservative.bound⟩
    rcases hclaim with hclaim | hclaim
    · simp only [Device.setState] at hclaim
      split at hclaim
      · cases hclaim
      · exact .inl hclaim
    · exact .inr hclaim
  claimed := by
    rintro o hclaim rfl
    rcases hclaim with hclaim | ⟨-, hnot, hnotLoop⟩
    · simp [Device.setState] at hclaim
    · rcases ho with ho | ho
      · exact hnot (ho.trans h.transmit.symm)
      · exact hnotLoop (h.loopback.trans ho)
  transmit := h.transmit
  loopback := h.loopback

variable {chip} in
theorem Held.setState (output : Output) (state : ClockOutputState) (h : chip.Held S t l c)
    (hoff : state = .registerDisabled → Off (chip.regs c.world) output) :
    chip.Safe t l { c with device := c.device.setState output state } where
  conservative := by
    refine ⟨fun o hclaim => ?_, h.conservative.mask, h.conservative.bound⟩
    rcases hclaim with hclaim | hclaim
    · simp only [Device.setState] at hclaim
      split at hclaim
      · subst o
        exact hoff hclaim
      · exact h.conservative.off o (.inl hclaim)
    · exact h.conservative.off o (.inr hclaim)
  claimed := fun _ _ => trivial
  transmit := h.transmit
  loopback := h.loopback

theorem control_stable (output : Output) : Stable (16 + output.index) :=
  Decides.stable (.inr ⟨output, rfl⟩)

theorem mask_stable : Stable 3 := Decides.stable (.inl rfl)

theorem startUp_keeps (output : Output) :
    Keeps (chip.Held (· ≠ output) t l) (chip.bus.startUp output deadline) := by
  refine Keeps.bind (chip.maskedWrite_keeps (control_stable output) fun _ =>
    .control fun h => absurd rfl h) fun _ => Keeps.ite (fun _ => Keeps.pure _) fun _ => ?_
  exact chip.maskedWrite_keeps mask_stable fun _ => .mask_other fun h => absurd rfl h

theorem shutDown_spec (output : Output) :
    Triple (chip.Held (· ≠ output) t l) (chip.bus.shutDown output deadline) fun ok c =>
      chip.Held (· ≠ output) t l c ∧ (ok = true → Off (chip.regs c.world) output) := by
  refine Triple.bind (R := fun _ => chip.Held (· ≠ output) t l)
    (chip.maskedWrite_keeps mask_stable fun _ => .mask_other fun h => absurd rfl h) fun mask => ?_
  refine Triple.bind (R := fun power c => chip.Held (· ≠ output) t l c ∧
      (power = true → Off (chip.regs c.world) output)) ?_ fun power => ?_
  · intro c hc
    have hw := chip.maskedWrite_spec 0x80 0x80 deadline (control_stable output) c c rfl
    refine ⟨hc.wrote (.control fun h => absurd rfl h) hw, fun hok => ?_⟩
    rcases hw with ⟨-, -, hregs⟩ | ⟨hno, -⟩
    · right
      rw [hregs _ (control_stable output), stored_self, masked_within UInt8.and_self]
      decide
    · cases hok.symm.trans hno
  · exact Triple.pure fun c hc => ⟨hc.1, fun hok => hc.2 (Bool.and_eq_true_iff.mp hok).2⟩

theorem enabled_keeps {output : Output} {value : Bool} (ho : Assigned t l output) :
    Keeps (chip.Safe t l) (chip.bus.enabled output value deadline) := by
  refine chip.held_device_bind fun d ht hl => Triple.strengthen ?_ fun c hc => hc.1
  refine Triple.ite (fun _ => Triple.pure fun c hc => hc) fun _ => ?_
  refine Triple.bind (R := fun _ => chip.Held (· ≠ output) t l) (fun c hc => hc.unknown ho) fun _ => ?_
  refine Triple.bind (R := fun ok c => chip.Held (· ≠ output) t l c ∧
    (ok = true → value = false → Off (chip.regs c.world) output)) ?_ fun ok => ?_
  · unfold Bus.turned
    cases value with
    | true => exact (chip.startUp_keeps output).weaken fun _ c hc => ⟨hc, nofun⟩
    | false => exact (chip.shutDown_spec output).weaken fun _ c hc => ⟨hc.1, fun h _ => hc.2 h⟩
  refine Triple.ite (fun _ => Triple.pure fun c hc => hc.1.weaken fun _ _ => trivial) fun hok => ?_
  have hok : ok = true := by simpa using hok
  refine update_bind fun c hc => Triple.pure fun c' hc' => ?_
  subst hc'
  have hset := hc.1.setState output
    (if value then .registerEnabled else .registerDisabled) fun hstate => by
      cases value with
      | true => exact nomatch hstate
      | false => exact hc.2 hok rfl
  refine hset.congr ?_ fun _ _ => rfl
  exact (apply_ite Device.core _ _ _).trans (ite_self _)

theorem transmitEnabled_keeps (value : Bool) :
    Keeps (chip.Safe t l) (chip.bus.transmitEnabled value deadline) := by
  refine chip.held_device_bind fun d ht _ => Triple.strengthen ?_ fun c hc => hc.1
  exact chip.enabled_keeps (.inl ht)

theorem referenceEnabled_keeps (value : Bool) :
    Keeps (chip.Safe t l) (chip.bus.referenceEnabled value deadline) := by
  refine chip.held_device_bind fun d _ hl => Triple.strengthen ?_ fun c hc => hc.1
  split
  · rename_i output hloop
    exact chip.enabled_keeps (.inr (hl.symm.trans hloop))
  · exact Keeps.pure _

variable {chip} in
theorem Held.observed {byte control : UInt8} (h : chip.Safe t l c)
    (hmask : byte = chip.regs c.world 3)
    (hcontrol : control = chip.regs c.world (16 + c.device.transmit.index)) :
    chip.Safe t l { c with device := Bus.observed byte control c.device } := by
  have hset := h.setState c.device.transmit
    (if Bus.runs c.device.transmit byte control then .registerEnabled
      else .registerDisabled) fun hstate => by
    cases hruns : Bus.runs c.device.transmit byte control with
    | true => simp [hruns] at hstate
    | false =>
      simp only [Bus.runs, Bool.and_eq_false_iff, decide_eq_false_iff_not] at hruns
      rw [hmask, hcontrol] at hruns
      exact hruns
  exact hset.congr rfl fun _ _ => rfl

/-- Reading the registers of the transmit output back; a mask that is read is the
one the chip holds. -/
theorem verifyTransmit_keeps {M : UInt8 → Prop} :
    Keeps (fun c => chip.Safe t l c ∧ M (chip.regs c.world 3))
      (chip.bus.verifyTransmit deadline) := by
  have hdropped : Keeps (fun c => chip.Safe t l c ∧ M (chip.regs c.world 3))
      (update Device.faulted >>= fun _ => (pure false : DeviceM ω Bool)) :=
    Keeps.bind (fun c hc => ⟨hc.1.faulted rfl, hc.2⟩) fun _ => Keeps.pure _
  have hread : ∀ {c : Controller ω} (reg : Nat), chip.Safe t l c ∧ M (chip.regs c.world 3) →
      chip.Safe t l { c with world := (chip.bus.read reg 1 deadline c.world).2 } ∧
        M (chip.regs (chip.bus.read reg 1 deadline c.world).2 3) := fun {c reg} hc =>
    ⟨chip.read_keeps_held c hc.1, (chip.read_keeps _ _ _ _ 3 mask_stable).symm ▸ hc.2⟩
  refine device_bind fun d => Triple.ite (fun _ => Triple.pure fun c hc => hc.1) fun _ => ?_
  refine onWorld_bind fun c hc => ?_
  obtain ⟨hc, rfl⟩ := hc
  split
  · rename_i mask hmask
    have hmask := Option.some.inj (chip.read_honest _ _ _ _ _ hmask 0 Nat.one_pos mask_stable)
    refine onWorld_bind fun c' hc' => ?_
    subst hc'
    split
    · rename_i control hcontrol
      have hcontrol := Option.some.inj
        (chip.read_honest _ _ _ _ _ hcontrol 0 Nat.one_pos (control_stable c.device.transmit))
      have hkept := hread (16 + c.device.transmit.index) (hread 3 hc)
      refine Triple.ite (fun _ => hdropped.strengthen fun c'' hc'' => hc'' ▸ hkept) fun _ => ?_
      refine update_bind fun c'' hc'' => Triple.pure fun c₃ hc₃ => ?_
      subst hc'' hc₃
      refine ⟨hkept.1.observed ?_ ?_, hkept.2⟩
      · rw [chip.read_keeps _ _ _ _ 3 mask_stable, chip.read_keeps _ _ _ _ 3 mask_stable]
        exact hmask
      · rw [chip.read_keeps _ _ _ _ _ (control_stable _)]
        exact hcontrol
    · exact hdropped.strengthen fun c'' hc'' =>
        hc'' ▸ hread (16 + c.device.transmit.index) (hread 3 hc)
  · exact hdropped.strengthen fun c' hc' => hc' ▸ hread 3 hc

theorem primeTransmit_keeps : Keeps (chip.Safe t l) (chip.bus.primeTransmit deadline) := by
  refine chip.held_device_bind fun d ht _ => ?_
  refine Triple.ite (fun _ => Triple.pure fun c hc => hc.1) fun hprimable => ?_
  refine Triple.ite (fun _ => Triple.pure fun c hc => hc.1) fun _ => ?_
  -- the output stays masked while its driver is powered
  refine Triple.bind (R := fun _ c => chip.Safe t l c ∧ chip.regs c.world 3 &&& t.bit ≠ 0)
    ((chip.verifyTransmit_keeps (M := fun mask => mask &&& t.bit ≠ 0)).strengthen ?_) fun _ => ?_
  · rintro c ⟨hc, rfl⟩
    have hmask : c.device.enableMask.any (· &&& c.device.transmit.bit ≠ 0) = true := by
      simp only [Bus.primable, Bool.not_eq_true', Bool.not_eq_false, Bool.and_eq_true]
        at hprimable
      exact hprimable.2
    obtain ⟨byte, hbyte, hbit⟩ := (Option.any_eq_true _ _).mp hmask
    refine ⟨hc, ?_⟩
    rw [hc.conservative.mask byte hbyte, ← ht]
    exact of_decide_eq_true hbit
  refine Triple.ite (fun _ => Triple.pure fun c hc => hc.1) fun _ => ?_
  refine Triple.bind (R := fun _ => chip.Safe t l) (fun c hc => ?_) fun _ => ?_
  · rw [ht]
    exact hc.1.wrote (.control fun _ => hc.2) (chip.maskedWrite_spec _ _ _ (control_stable t) c c rfl)
  · refine Keeps.ite (fun _ => Keeps.pure _) fun _ => ?_
    exact Keeps.bind (chip.update_keeps fun _ => rfl) fun _ => Keeps.pure _

variable {chip} in
/-- The mask of a request, acknowledged but not read back. -/
theorem Held.requested {byte : UInt8} {pending : Pending} (h : chip.Held (· ≠ t) t l c)
    (hcalm : Calm (· ≠ t) (chip.regs c.world) 3 [byte])
    (hw : (chip.bus.write 3 [byte] deadline c.world).1 = true) :
    chip.Safe t l
      { device := { c.device with enableMask := some byte, pending := pending }
        world := (chip.bus.write 3 [byte] deadline c.world).2 } := by
  have hcached : chip.Held (· ≠ t) t l ⟨c.device.cached 3 [byte],
      (chip.bus.write 3 [byte] deadline c.world).2⟩ :=
    h.cached hcalm rfl fun r hr => chip.write_done _ _ _ _ r hr hw
  exact (hcached.weaken fun _ _ => trivial).congr rfl fun _ _ => rfl

theorem requestTransmitEnabled_keeps (value : Bool) :
    Keeps (chip.Safe t l) (chip.bus.requestTransmitEnabled value deadline) := by
  refine chip.held_device_bind fun d ht _ => ?_
  split
  · rename_i enableMask hconfigured hmask
    refine Triple.ite (fun _ => Triple.pure fun c hc => hc.1) fun _ => ?_
    let bits : UInt8 := if value then 0 else t.bit
    have hbyte : (if value then enableMask &&& ~~~d.transmit.bit else enableMask ||| d.transmit.bit) =
        maskedByte t.bit bits enableMask := by
      rw [ht]
      cases value with
      | true => exact (maskedByte_clear ..).symm
      | false => exact (maskedByte_set ..).symm
    simp only [hbyte]
    refine Triple.bind (R := fun _ c => chip.Held (· ≠ t) t l c ∧ c.device.enableMask = some enableMask)
      ?_ fun _ => ?_
    · rintro c ⟨hc, rfl⟩
      rw [ht]
      exact ⟨hc.unknown (.inl rfl), hmask⟩
    refine onWorld_bind fun c hc => ?_
    have hcalm : Calm (· ≠ t) (chip.regs c.world) 3 [maskedByte t.bit bits enableMask] := by
      rw [← hc.1.conservative.mask _ hc.2]
      exact .mask_other fun h => absurd rfl h
    cases hw : (chip.bus.write 3 [maskedByte t.bit bits enableMask] deadline c.world).1 with
    | false =>
      refine update_bind fun c' hc' => Triple.pure fun c'' hc'' => ?_
      subst hc' hc''
      exact (hc.1.weaken fun _ _ => trivial).faulted rfl
    | true =>
      refine update_bind fun c' hc' => Triple.pure fun c'' hc'' => ?_
      subst hc' hc''
      exact hc.1.requested hcalm hw
  · exact Triple.pure fun c hc => hc.1

end Chip

/-- The public operations of the device, with their arguments. -/
inductive DeviceOp where
  | quiesce (deadline : UInt64)
  | configure (config : Configuration) (plan : Plan) (deadline : UInt64)
  | configureReference (config : Configuration) (plan : ReferencePlan) (deadline : UInt64)
  | locked (deadline : UInt64)
  | transmitTone (tone : Tone) (deadline : UInt64)
  | primeTransmit (deadline : UInt64)
  | requestTransmitEnabled (value : Bool) (deadline : UInt64)
  | verifyTransmit (deadline : UInt64)
  | transmitEnabled (value : Bool) (deadline : UInt64)
  | referenceEnabled (value : Bool) (deadline : UInt64)

def DeviceOp.run (synthesis : Synthesis) (bus : Bus ω) : DeviceOp → DeviceM ω Bool
  | .quiesce deadline => bus.quiesce deadline
  | .configure config plan deadline => bus.configure synthesis config plan deadline
  | .configureReference config plan deadline =>
    bus.configureReference synthesis config plan deadline
  | .locked deadline => bus.locked deadline
  | .transmitTone tone deadline => bus.transmitTone tone deadline
  | .primeTransmit deadline => bus.primeTransmit deadline
  | .requestTransmitEnabled value deadline => bus.requestTransmitEnabled value deadline
  | .verifyTransmit deadline => bus.verifyTransmit deadline
  | .transmitEnabled value deadline => bus.transmitEnabled value deadline
  | .referenceEnabled value deadline => bus.referenceEnabled value deadline

/-- The controller after a sequence of operations, whatever each of them returned. -/
def Controller.after (synthesis : Synthesis) (bus : Bus ω) :
    Controller ω → List DeviceOp → Controller ω
  | c, [] => c
  | c, op :: rest => after synthesis bus (op.run synthesis bus c).2 rest

namespace Chip

variable (chip : Chip ω) (synthesis : Synthesis)

theorem op_keeps (op : DeviceOp) : Keeps chip.Good (op.run synthesis chip.bus) := by
  cases op with
  | quiesce deadline =>
    exact Keeps.good chip fun t l => (chip.quiesce_spec _).weaken fun _ _ h => h.1
  | configure config plan deadline => exact chip.configure_keeps synthesis config plan
  | configureReference config plan deadline =>
    exact chip.configureReference_keeps synthesis config plan
  | locked deadline => exact Keeps.good chip fun _ _ => chip.locked_keeps
  | transmitTone tone deadline => exact Keeps.good chip fun _ _ => chip.transmitTone_keeps tone
  | primeTransmit deadline => exact Keeps.good chip fun _ _ => chip.primeTransmit_keeps
  | requestTransmitEnabled value deadline =>
    exact Keeps.good chip fun _ _ => chip.requestTransmitEnabled_keeps value
  | verifyTransmit deadline =>
    refine Keeps.good chip fun t l => ?_
    exact (chip.verifyTransmit_keeps (M := fun _ => True)).strengthen (fun _ h => ⟨h, trivial⟩)
      |>.weaken fun _ _ h => h.1
  | transmitEnabled value deadline =>
    exact Keeps.good chip fun _ _ => chip.transmitEnabled_keeps value
  | referenceEnabled value deadline =>
    exact Keeps.good chip fun _ _ => chip.referenceEnabled_keeps value

theorem good_after (ops : List DeviceOp) {c : Controller ω} (h : chip.Good c) :
    chip.Good (c.after synthesis chip.bus ops) := by
  induction ops generalizing c with
  | nil => exact h
  | cons op rest ih => exact ih (chip.op_keeps synthesis op c h)

theorem good_start (w : ω) : chip.Good ⟨{}, w⟩ := by
  refine ⟨.clk0, none, ⟨fun o ho => ?_, nofun, nofun⟩,
    fun _ _ => trivial, rfl, rfl⟩
  rcases ho with ho | ⟨ho, -⟩
  · cases ho
  · cases ho

/-- The cache is conservative: after any operations on any chip, whichever writes
failed, an output reported disabled by register state is masked or powered down,
and a known mask is the chip's. -/
theorem cache_conservative (w : ω) (ops : List DeviceOp) :
    let c := Controller.after synthesis chip.bus ⟨{}, w⟩ ops
    (c.device.transmitState = .registerDisabled →
      Off (chip.regs c.world) c.device.transmit) ∧
    (c.device.referenceState = .registerDisabled →
      match c.device.loopback with
      | some output => Off (chip.regs c.world) output
      | none => ∀ output, output ≠ c.device.transmit → Off (chip.regs c.world) output) ∧
    ∀ mask, c.device.enableMask = some mask → chip.regs c.world 3 = mask := by
  intro c
  have hheld := (chip.good_after synthesis ops (chip.good_start w)).held
  refine ⟨fun h => hheld.conservative.off _ (.inl h), fun h => ?_, hheld.conservative.mask⟩
  unfold Device.referenceState at h
  cases hloop : c.device.loopback with
  | some output =>
    rw [hloop] at h
    exact hheld.conservative.off _ (.inl h)
  | none =>
    rw [hloop] at h
    intro output hout
    cases hun : c.device.unassignedOutputsDisabled with
    | true =>
      refine hheld.conservative.off _ (.inr ⟨hun, hout, ?_⟩)
      rw [hloop]
      exact nofun
    | false =>
      rw [hun] at h
      cases h

end Chip

/-- Registers on a bus that refuses some of the bytes: `some n` answers a write that
stores `n` bytes and fails, `none` one that succeeds. -/
structure Memory where
  regs : Nat → UInt8 := fun _ => 0
  answers : List (Option Nat) := []

def Memory.bus : Bus Memory where
  read reg count _ w := (some ((List.range count).map fun i => w.regs (reg + i)), w)
  write reg bytes _ w :=
    match w.answers with
    | some n :: rest => (false, { regs := stored reg (bytes.take n) w.regs, answers := rest })
    | none :: rest => (true, { regs := stored reg bytes w.regs, answers := rest })
    | [] => (true, { w with regs := stored reg bytes w.regs })

theorem stored_take (reg n r : Nat) (bytes : List UInt8) (regs : Nat → UInt8) :
    stored reg (bytes.take n) regs r = regs r ∨
      stored reg (bytes.take n) regs r = stored reg bytes regs r := by
  unfold stored
  split
  · simp only [List.getD_eq_getElem?_getD, List.getElem?_take]
    split
    · exact .inr rfl
    · exact .inl rfl
  · exact .inl rfl

def Memory.chip : Chip Memory where
  bus := Memory.bus
  regs := Memory.regs
  read_keeps _ _ _ _ _ _ := rfl
  read_length reg count deadline w bytes h := by
    cases h
    simp
  read_honest reg count deadline w bytes h i hi _ := by
    cases h
    simp [hi]
  write_done reg bytes deadline w r _ h := by
    unfold Memory.bus at h ⊢
    dsimp only at h ⊢
    split at h
    · cases h
    · simp_all
    · simp_all
  write_torn reg bytes deadline w r _ h := by
    unfold Memory.bus at h ⊢
    dsimp only at h ⊢
    split at h
    · simpa [*] using stored_take reg _ r bytes w.regs
    · cases h
    · cases h

/-- A mask write that stores its byte and fails leaves nothing known of it. -/
example :
    ((Memory.bus.quiesce 0 ⟨{}, {}⟩).2.device.enableMask,
      (Memory.bus.quiesce 0 ⟨{}, { answers := [some 1] }⟩).2.device.enableMask,
      (Memory.bus.quiesce 0 ⟨{}, { answers := [some 1] }⟩).2.world.regs 3) =
    (some 0xff, none, 0xff) := by decide

end WsprryPico.Rf.Si5351
