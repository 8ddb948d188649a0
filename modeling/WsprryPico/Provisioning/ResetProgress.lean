import WsprryPico.Provisioning.ResetOnce
import WsprryPico.Provisioning.ResetStorage

/-!
# A reset that nothing stops

With working flash and targets that do what they are asked, one `resume` ends a reset;
and what every `resume` that ends one leaves.
-/

namespace WsprryPico.Provisioning

open Lib Standalone Wtp

/-- A reset whose records are all valid. -/
structure Course.Valid (c : Course) : Prop where
  intent : validRecord (c.recordAt false .intent) = true
  password : validLocalPassword c.defaultPassword = true
  room : c.origin.epoch ≠ 0xffffffffffffffff
  level : c.intent.level ≠ .none

theorem succ_epoch {epoch : UInt64} (h : epoch ≠ 0xffffffffffffffff) :
    (epoch + 1).toNat = epoch.toNat + 1 := by
  have hlt := epoch.toNat_lt
  have hne : epoch.toNat ≠ 0xffffffffffffffff := fun heq => h (UInt64.toNat_inj.mp heq)
  rw [UInt64.toNat_add]
  show (epoch.toNat + 1) % 2 ^ 64 = _
  omega

theorem validReset_phase {reset : ResetIntent} {phase : ResetPhase} (hlevel : reset.level ≠ .none)
    (hphase : phase ≠ .none) (h : validReset { reset with phase := .intent } = true) :
    validReset { reset with phase } = true := by
  simpa [validReset, ResetIntent.pending, hlevel, hphase] using h

theorem validBonds_none {record : AccessRecord} (hbonds : record.bonds = .replicate 4 0)
    (hcount : record.bondCount = 0) : validBonds record = true := by
  unfold validBonds
  rw [hbonds, hcount]
  decide

theorem Course.Valid.recordAt {c : Course} (h : c.Valid) (bleDisabled : Bool) (phase : ResetPhase) :
    validRecord (c.recordAt bleDisabled phase) = true := by
  have hintent := h.intent
  unfold validRecord Course.recordAt at hintent
  simp only [Bool.and_eq_true] at hintent
  obtain ⟨⟨⟨⟨hepoch, hpassword⟩, hradio⟩, hbonds⟩, hreset⟩ := hintent
  have hreset : phase ≠ .none → validReset { c.intent with phase } = true :=
    fun hphase => validReset_phase h.level hphase hreset
  have hnext : c.origin.epoch + 1 ≠ 0 := by
    intro heq
    have := succ_epoch h.room
    rw [heq] at this
    cases this
  have hearly : phase ≠ .none → validRecord { c.origin with reset := { c.intent with phase } } = true := by
    intro hphase
    unfold validRecord
    simp only [Bool.and_eq_true]
    exact ⟨⟨⟨⟨hepoch, hpassword⟩, hradio⟩, hbonds⟩, hreset hphase⟩
  have hrenewed : ∀ ble reset, validReset reset = true →
      validRecord { Reset.renewed c.defaultPassword { c.origin with reset := { c.intent with phase } }
        with bleDisabled := ble, reset } = true := by
    intro ble reset hvalid
    unfold validRecord
    simp only [Bool.and_eq_true]
    exact ⟨⟨⟨⟨decide_eq_true hnext, h.password⟩, rfl⟩, validBonds_none rfl rfl⟩, hvalid⟩
  cases phase with
  | intent => exact hearly (by decide)
  | preservationComplete => exact hearly (by decide)
  | sourceSelected => exact hearly (by decide)
  | accessReset => exact hrenewed _ _ (hreset (by decide))
  | operationalErased => exact hrenewed _ _ (hreset (by decide))
  | bondsCleared => exact hrenewed _ _ (hreset (by decide))
  | none => exact hrenewed false {} (by decide)

namespace Reset

variable {σ : Type} {c : Course} {w w' : Reset σ} {record : AccessRecord} {phase : ResetPhase}

/-- Targets that are idle and do what they are asked. -/
structure Obliging (targets : ResetTargets σ) : Prop where
  idle : ∀ s, idleForAccess (targets.activity s) = true
  preserves : ∀ s, (targets.preserveOperational s).1 = true
  clears : ∀ source s, (targets.clearProfile source s).1 = true
  erasesOperational : ∀ s, (targets.eraseOperational s).1 = true
  operational : ∀ s, targets.operationalErased s = true
  erasesBonds : ∀ s, (targets.eraseBonds s).1 = true
  bonds : ∀ s, targets.bondsErased s = true

/-- The flash works, and has room for `n` more records. -/
structure Smooth (n : Nat) (w : Reset σ) : Prop where
  healthy : w.access.state = .healthy
  found : scanned w.flash.bytes w.access.activeSlot = .valid w.access.sequence w.access.record
  power : w.flash.power = none
  room : w.access.sequence + n < AccessStore.maxSequence

def noFaults (_ : ResetPhase) (_ : Nat) : Bool := false

theorem replace_smooth {n : Nat} (h : Smooth (n + 1) w) (hvalid : validRecord record = true)
    (hepoch : ¬ record.epoch < w.access.record.epoch) :
    ∃ w', replace noFaults record w = (true, w') ∧ Smooth n w' ∧ w'.access.record = record ∧
      w'.log = w.log ++ [.saving record.reset.phase] := by
  have hroom := h.room
  have hhealthy : w.access.healthy = true := decide_eq_true h.healthy
  unfold replace
  rcases hr : w.access.replace record { flash := w.flash, unreadable := noFaults record.reset.phase }
    with ⟨ok, store', m'⟩
  have hrun := hr
  unfold AccessStore.replace at hrun
  rw [hhealthy, if_neg (by simpa using hepoch)] at hrun
  split at hrun
  · rename_i heq
    obtain ⟨rfl, rfl, rfl⟩ := hrun
    exact ⟨_, rfl, ⟨h.healthy, h.found, h.power, Nat.lt_of_succ_lt hroom⟩, heq.symm, rfl⟩
  · rcases commit_spec (scanned_bound h.found).2 hrun with ⟨-, -, -, hinvalid | hmax⟩ | hc
    · cases hvalid.symm.trans hinvalid
    · omega
    · obtain rfl := hc.finishes h.power fun _ => rfl
      obtain ⟨rfl, hfound⟩ := hc.done rfl
      refine ⟨_, rfl, ⟨rfl, hfound, hc.powered h.power, ?_⟩, rfl, rfl⟩
      show w.access.sequence + 1 + n < _
      omega

theorem save_smooth {n : Nat} (next : ResetPhase) (saved : AccessRecord) (ble : Bool)
    (hc : c.Valid) (h : Smooth (n + 1) w) (hrecord : w.access.record = c.recordAt ble phase)
    (hsaved : { saved with reset := { saved.reset with phase := next } } = c.recordAt false next)
    (hlater : Course.early phase = true ∨ Course.early next = false) :
    ∃ w', save noFaults next saved w = .ok (c.recordAt false next, w') ∧ Smooth n w' ∧
      w'.access.record = c.recordAt false next := by
  have hepoch : ¬ (c.recordAt false next).epoch < w.access.record.epoch := by
    have hnext := succ_epoch hc.room
    rw [hrecord, UInt64.not_lt, UInt64.le_iff_toNat_le]
    have hat : ∀ ble phase, (c.recordAt ble phase).epoch.toNat =
        if Course.early phase then c.origin.epoch.toNat else c.origin.epoch.toNat + 1 := by
      intro ble phase
      cases phase with
      | intent | preservationComplete | sourceSelected => rfl
      | _ => exact hnext
    rw [hat, hat]
    rcases hlater with hearly | hlate
    · rw [hearly, if_pos rfl]
      split <;> omega
    · simp only [hlate, Bool.false_eq_true, if_false]
      split <;> omega
  obtain ⟨w', hrun, hsmooth, hheld, -⟩ := replace_smooth h (hc.recordAt false next) hepoch
  unfold save
  rw [hsaved]
  dsimp only
  rw [hrun]
  exact ⟨w', rfl, hsmooth, hheld⟩

/-- Calls that succeed and leave the access store alone. -/
def Obliged (run : Reset σ → Bool × Reset σ) : Prop :=
  ∀ w, ∃ w', run w = (true, w') ∧ w'.access = w.access ∧ w'.flash = w.flash

theorem obliged_call (run : σ → Bool × σ) (h : ∀ s, (run s).1 = true) (effect : Bool → Effect) :
    Obliged (call effect run) :=
  fun w => ⟨(call effect run w).2, Prod.ext (h w.targets) rfl, rfl, rfl⟩

theorem obliged_both {first second : Reset σ → Bool × Reset σ} (h : Obliged first)
    (h' : Obliged second) : Obliged (both first second) := by
  intro w
  obtain ⟨w₁, hrun, haccess, hflash⟩ := h w
  obtain ⟨w₂, hrun', haccess', hflash'⟩ := h' w₁
  refine ⟨w₂, ?_, haccess'.trans haccess, hflash'.trans hflash⟩
  unfold both
  rw [hrun]
  exact hrun'

theorem obliged_if {run : Reset σ → Bool × Reset σ} (h : Obliged run) (need : Bool) :
    Obliged (callIf need run) := by
  intro w
  cases need with
  | true => exact h w
  | false => exact ⟨w, rfl, rfl, rfl⟩

theorem phase_smooth {n : Nat} (next : ResetPhase) (saved : AccessRecord)
    {run : Reset σ → Bool × Reset σ} (hc : c.Valid) (hrun : Obliged run) (h : Smooth (n + 1) w)
    {ble : Bool} (hrecord : w.access.record = c.recordAt ble phase)
    (hsaved : { saved with reset := { saved.reset with phase := next } } = c.recordAt false next)
    (hlater : Course.early phase = true ∨ Course.early next = false) :
    ∃ w₁ w₂, run w = (true, w₁) ∧ save noFaults next saved w₁ = .ok (c.recordAt false next, w₂) ∧
      Smooth n w₂ ∧ w₂.access.record = c.recordAt false next := by
  obtain ⟨w₁, hw₁, haccess, hflash⟩ := hrun w
  have hsmooth : Smooth (n + 1) w₁ := by
    refine ⟨?_, ?_, ?_, ?_⟩ <;> simp only [haccess, hflash]
    exacts [h.healthy, h.found, h.power, h.room]
  obtain ⟨w₂, hsave, hsmooth₂, hheld⟩ :=
    save_smooth next saved ble hc hsmooth ((congrArg _ haccess).trans hrecord) hsaved hlater
  exact ⟨w₁, w₂, hw₁, hsave, hsmooth₂, hheld⟩

theorem called_then {run : Bool × Reset σ} {u : Reset σ} {result : ResetResult}
    {saved : Reset σ → Attempt σ} {reached : AccessRecord × Reset σ} :
    run = (true, u) → saved u = .ok reached →
      (match run with
        | (false, w) => .error (result, w)
        | (true, w) => saved w) = (.ok reached : Attempt σ) := by
  rintro rfl hsaved
  exact hsaved

variable {targets : ResetTargets σ}

/-- The first `resume` of a reset that nothing stops. -/
theorem resume_completes (hc : c.Valid) (ht : Obliging targets) {n : Nat} (h : Smooth (n + 6) w)
    (hrecord : w.access.record = c.recordAt false .intent) :
    ∃ w', Reset.resume targets c.defaultPassword noFaults w = (.complete, w') := by
  obtain ⟨u₁, w₁, hu₁, hsave₁, hsmooth₁, hheld₁⟩ := phase_smooth .preservationComplete
    (c.recordAt false .intent) hc
    (obliged_if (obliged_call _ ht.preserves .preserved) (c.intent.level = .provisioning))
    h hrecord rfl (.inl rfl)
  obtain ⟨u₂, w₂, hu₂, hsave₂, hsmooth₂, hheld₂⟩ := phase_smooth .sourceSelected
    (c.recordAt false .preservationComplete) hc
    (obliged_if (obliged_call _ (ht.clears c.intent.targetSource) (.cleared c.intent.targetSource))
      (c.intent.level ≠ .access))
    hsmooth₁ hheld₁ rfl (.inl rfl)
  obtain ⟨w₃, hsave₃, hsmooth₃, hheld₃⟩ := save_smooth .accessReset
    (renewed c.defaultPassword (c.recordAt false .sourceSelected)) false hc hsmooth₂ hheld₂
    rfl (.inl rfl)
  obtain ⟨u₄, w₄, hu₄, hsave₄, hsmooth₄, hheld₄⟩ := phase_smooth .operationalErased
    (c.recordAt false .accessReset) hc
    (obliged_if (obliged_both (obliged_call _ ht.erasesOperational .erasedOperational)
      (obliged_call (fun s => (targets.operationalErased s, s)) ht.operational
        .verifiedOperational)) (c.intent.level = .full))
    hsmooth₃ hheld₃ rfl (.inr rfl)
  obtain ⟨u₅, w₅, hu₅, hsave₅, hsmooth₅, hheld₅⟩ := phase_smooth .bondsCleared
    (c.recordAt false .operationalErased) hc
    (obliged_both (obliged_call _ ht.erasesBonds .erasedBonds)
      (obliged_call (fun s => (targets.bondsErased s, s)) ht.bonds .verifiedBonds))
    hsmooth₄ hheld₄ rfl (.inr rfl)
  obtain ⟨w₆, hreplace₆, -, -, -⟩ := replace_smooth hsmooth₅ (hc.recordAt false .none) (by
    rw [hheld₅]
    exact fun hlt => absurd hlt (UInt64.lt_irrefl _))
  have hpreserve : preserve targets noFaults (c.recordAt false .intent) w =
      .ok (c.recordAt false .preservationComplete, w₁) := by
    unfold preserve
    refine (if_pos rfl).trans ?_
    exact called_then hu₁ hsave₁
  have hselect : selectSource targets noFaults (c.recordAt false .preservationComplete) w₁ =
      .ok (c.recordAt false .sourceSelected, w₂) := by
    unfold selectSource
    refine (if_pos rfl).trans ?_
    exact called_then hu₂ hsave₂
  have hrenew : renew c.defaultPassword noFaults (c.recordAt false .sourceSelected) w₂ =
      .ok (c.recordAt false .accessReset, w₃) := by
    unfold renew
    refine (if_pos rfl).trans ?_
    exact (if_neg hc.room).trans hsave₃
  have herase : eraseOperational targets noFaults (c.recordAt false .accessReset) w₃ =
      .ok (c.recordAt false .operationalErased, w₄) := by
    unfold eraseOperational
    refine (if_pos rfl).trans ?_
    exact called_then hu₄ hsave₄
  have hbonds : eraseBonds targets noFaults (c.recordAt false .operationalErased) w₄ =
      .ok (c.recordAt false .bondsCleared, w₅) := by
    unfold eraseBonds
    refine (if_pos rfl).trans ?_
    unfold ask
    rw [hu₅]
    exact hsave₅
  have hphases : phases targets c.defaultPassword noFaults (c.recordAt false .intent) w =
      .ok (c.recordAt false .bondsCleared, w₅) := by
    unfold phases
    simp only [hpreserve, hselect, hrenew, herase, hbonds, Bind.bind, Except.bind]
  have hhealthy : w.access.healthy = true := decide_eq_true h.healthy
  have hpending : w.pending = true := by
    rw [pending, hhealthy, hrecord, Bool.true_and]
    exact decide_eq_true hc.level
  refine ⟨{ w₆ with uncertainIntent := false }, ?_⟩
  unfold Reset.resume
  rw [hhealthy, hpending, ht.idle, if_neg (by decide), if_neg (by decide), if_neg (by decide),
    hrecord, hphases]
  show finish noFaults (c.recordAt false .bondsCleared) w₅ = _
  refine (if_neg fun h => h rfl).trans ?_
  show (match replace noFaults (c.recordAt false .none) w₅ with
    | (false, w) => _ | (true, w) => _) = _
  rw [hreplace₆]

/-- A reset that is admitted, on flash that works. -/
theorem begin_completes (ht : Obliging targets) (hprofiles : ∀ s, targets.profilesHealthy s = true)
    {n : Nat} (h : Smooth (n + 1) w) (hpending : w.pending = false) (hc : c.Valid)
    (horigin : w.access.record = c.origin) (hsource : c.intent.targetSource = .unprovisioned)
    (hdigest : zero c.intent.requestDigest = false) :
    ∃ w', begin targets noFaults c.intent.level c.intent.targetSource c.intent.requestDigest w =
      (.pending, w') ∧ Smooth n w' ∧ w'.access.record = c.recordAt false .intent := by
  have hhealthy : w.access.healthy = true := decide_eq_true h.healthy
  have hvalid := hc.recordAt false .intent
  have hstart : Smooth (n + 1) ({ w with uncertainIntent := true } : Reset σ) :=
    ⟨h.healthy, h.found, h.power, h.room⟩
  obtain ⟨w', hrun, hsmooth, hheld, -⟩ := replace_smooth hstart hvalid (by
    rw [horigin]
    exact fun hlt => absurd hlt (UInt64.lt_irrefl _))
  refine ⟨w', ?_, hsmooth, hheld⟩
  unfold begin
  rw [hhealthy, hprofiles, hpending, ht.idle, hsource, hdigest, if_neg (by simp), if_neg (by decide),
    if_neg (by decide), if_neg (by simp [hc.level])]
  unfold save
  dsimp only
  have hsaved : ({ w.access.record with
      reset := { level := c.intent.level, phase := .intent, targetSource := .unprovisioned,
                 requestDigest := c.intent.requestDigest } } : AccessRecord) =
      c.recordAt false .intent := by
    rw [horigin, ← hsource]
    rfl
  rw [hsaved, hrun]

/-- Targets with nothing in the way. -/
def calmTargets : ResetTargets Unit where
  activity _ := { outputKnown := true }
  profilesHealthy _ := true
  preserveOperational _ := (true, ())
  clearProfile _ _ := (true, ())
  eraseOperational _ := (true, ())
  operationalErased _ := true
  eraseBonds _ := (true, ())
  bondsErased _ := true

theorem obliging_calm : Obliging calmTargets :=
  ⟨fun _ => rfl, fun _ => rfl, fun _ _ => rfl, fun _ => rfl, fun _ => rfl, fun _ => rfl, fun _ => rfl⟩

/-- The access reset of a new device. -/
def firstReset : Course where
  defaultPassword := Access.firstRecord.password
  origin := Access.firstRecord
  intent :=
    { level := .access, phase := .intent, targetSource := .unprovisioned
      requestDigest := ⟨List.replicate 32 1, by decide⟩ }

theorem firstReset_valid : firstReset.Valid :=
  ⟨by decide, by decide, by decide, by decide⟩

/-- What a reset leaves of the access record in force before it. -/
def resetRecord (c : Course) : AccessRecord :=
  { epoch := c.origin.epoch + 1, password := c.defaultPassword, defaultPassword := true
    fieldMode := c.intent.level = .access, bleDisabled := false, bonds := .replicate 4 0
    bondCount := 0, reset := {}, radioPassword := [] }

end Reset

end WsprryPico.Provisioning
