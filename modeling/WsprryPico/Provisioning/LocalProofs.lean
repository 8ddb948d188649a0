import WsprryPico.Provisioning.LocalAccess
import Mathlib.Data.LawfulXor.Basic
import Mathlib.Data.List.Induction

/-!
# Proofs of local access

A sensitive operation needs a proof for its own binding, of the same epoch and not
expired, that the password in force was given for; the first operation that gets as
far as the proof uses it up.
-/

namespace WsprryPico.Provisioning

open Lib Standalone Wtp

theorem fold_or_eq_zero (f : Nat → Nat) (xs : List Nat) (n : Nat) :
    xs.foldl (fun d i => d ||| f i) n = 0 ↔ n = 0 ∧ ∀ i ∈ xs, f i = 0 := by
  induction xs generalizing n with
  | nil => simp
  | cons x xs ih =>
    simp only [List.foldl_cons, ih, Nat.or_eq_zero_iff, List.forall_mem_cons]
    exact and_assoc

/-- The comparison of every byte is equality. -/
theorem constantEqual_iff {left right : List UInt8} :
    constantEqual left right = true ↔ left = right := by
  unfold constantEqual
  rw [decide_eq_true_iff, fold_or_eq_zero, xor_eq_zero_iff]
  constructor
  · rintro ⟨hlength, hbytes⟩
    refine List.ext_getElem hlength fun i hi hi' => ?_
    have hbyte := hbytes i (List.mem_range.mpr (by omega))
    rw [List.getD_eq_getElem?_getD, List.getD_eq_getElem?_getD, List.getElem?_eq_getElem hi,
      List.getElem?_eq_getElem hi'] at hbyte
    exact UInt8.xor_eq_zero_iff.mp (UInt8.toNat_inj.mp hbyte)
  · rintro rfl
    exact ⟨rfl, fun i _ => by rw [UInt8.xor_self]; rfl⟩

theorem elapsed_iff {now since limit : UInt64} :
    elapsed now since limit = false ↔ since ≤ now ∧ now - since < limit := by
  unfold elapsed
  rw [Bool.or_eq_false_iff, decide_eq_false_iff_not, decide_eq_false_iff_not, UInt64.not_lt,
    ge_iff_le, UInt64.not_le]

namespace LocalAccess

variable {c : LocalAccess} {s : Surroundings} {call : LocalCall} {binding : RequestBinding}
  {now : UInt64}

/-- The call gets as far as the proof: nothing refuses it before. -/
def attempts (call : LocalCall) (c : LocalAccess) : Bool :=
  match call with
  | .initializeDefault _ activity _ => c.store.state = .erased && idleForAccess activity
  | .openEnrollment _ activity now =>
    c.store.healthy && idleForAccess activity && c.ble.peer = 0 && !c.enrollmentOpen now
  | .removeBond _ _ activity _ => c.store.healthy && idleForAccess activity
  | .changePassword replacement _ activity _ =>
    c.store.healthy && idleForAccess activity && validLocalPassword replacement
  | .setFieldMode _ _ activity _ => c.store.healthy && idleForAccess activity
  | .authorizeSensitive _ activity _ => c.store.healthy && idleForAccess activity
  | _ => false

/-- The operations that need a password, with their binding and time. -/
def sensitive : LocalCall → Option (RequestBinding × UInt64)
  | .removeBond _ binding _ now => some (binding, now)
  | .changePassword _ binding _ now => some (binding, now)
  | .setFieldMode _ binding _ now => some (binding, now)
  | .authorizeSensitive binding _ now => some (binding, now)
  | _ => none

/-- The operations that a confirmation is enough for. -/
def confirmable : LocalCall → Option (RequestBinding × UInt64)
  | .initializeDefault binding _ now => some (binding, now)
  | .openEnrollment binding _ now => some (binding, now)
  | _ => none

/-- The proof slot permits an operation. -/
structure Permits (binding : RequestBinding) (now : UInt64) (c : LocalAccess) : Prop where
  live : c.live binding now = true
  epoch : c.sameEpoch = true

theorem consume_ok {needPassword needConfirmation : Bool}
    (h : (c.consume binding needPassword needConfirmation now).1 = .ok) :
    Permits binding now c ∧ (needPassword = true → c.proof.password = true) ∧
      (needConfirmation = true → c.proof.confirmation = true) := by
  unfold consume at h
  by_cases hvalid : (c.live binding now && c.sameEpoch) = true
  · rw [if_neg (by rw [hvalid]; decide)] at h
    by_cases hpassword : (needPassword && !c.proof.password) = true
    · rw [if_pos hpassword] at h
      cases h
    · rw [if_neg hpassword] at h
      by_cases hconfirmation : (needConfirmation && !c.proof.confirmation) = true
      · rw [if_pos hconfirmation] at h
        cases h
      · rw [Bool.and_eq_true] at hvalid
        refine ⟨⟨hvalid.1, hvalid.2⟩, ?_, ?_⟩
        · rintro rfl
          simpa using hpassword
        · rintro rfl
          simpa using hconfirmation
  · rw [if_pos (by rw [Bool.not_eq_true] at hvalid; rw [hvalid]; rfl)] at h
    cases needPassword <;> exact nomatch h

theorem consumeEither_ok (h : (c.consumeEither binding now).1 = .ok) :
    Permits binding now c ∧ (c.proof.password = true ∨ c.proof.confirmation = true) := by
  unfold consumeEither at h
  dsimp only at h
  split at h
  · rename_i hvalid
    simp only [Bool.and_eq_true, Bool.or_eq_true] at hvalid
    exact ⟨⟨hvalid.1.1, hvalid.1.2⟩, hvalid.2⟩
  · cases h

theorem permitted_cases (permit : AccessCode × LocalAccess)
    (operation : LocalAccess → AccessCode × LocalAccess) :
    (permit.1 = .ok ∧ permitted permit operation = operation permit.2) ∨
      (permit.1 ≠ .ok ∧ permitted permit operation = permit) := by
  obtain ⟨code, c⟩ := permit
  cases code
  case ok => exact .inl ⟨rfl, rfl⟩
  all_goals exact .inr ⟨nofun, rfl⟩

/-- The operation leaves an empty proof slot empty. -/
def Leaves (operation : LocalAccess → AccessCode × LocalAccess) : Prop :=
  ∀ c, c.proof = {} → (operation c).2.proof = {}

theorem permitted_leaves {operation : LocalAccess → AccessCode × LocalAccess}
    (h : Leaves operation) {permit : AccessCode × LocalAccess} (hpermit : permit.2.proof = {}) :
    (permitted permit operation).2.proof = {} := by
  rcases permitted_cases permit operation with ⟨-, heq⟩ | ⟨-, heq⟩
  · rw [heq]
    exact h _ hpermit
  · rw [heq]
    exact hpermit

theorem markBleDisabled_proof (s : Surroundings) (c : LocalAccess) :
    (c.markBleDisabled s).2.proof = c.proof := by
  unfold markBleDisabled
  split <;> rfl

theorem eraseBond_proof (s : Surroundings) (c : LocalAccess) :
    (c.eraseBond s).proof = c.proof := by
  unfold eraseBond
  split
  · rfl
  · exact markBleDisabled_proof s c

def permit (call : LocalCall) (c : LocalAccess) : AccessCode × LocalAccess :=
  match call with
  | .initializeDefault binding _ now => c.consume binding false true now
  | .openEnrollment binding _ now =>
    if c.store.record.defaultPassword then c.consume binding false true now
    else c.consumeEither binding now
  | .removeBond _ binding _ now | .changePassword _ binding _ now | .setFieldMode _ binding _ now
  | .authorizeSensitive binding _ now => c.consume binding true c.store.record.defaultPassword now
  | _ => (.invalid, { c with proof := {} })

theorem permit_state (call : LocalCall) (c : LocalAccess) :
    (permit call c).2 = { c with proof := {} } := by
  cases call
  case openEnrollment =>
    unfold permit
    dsimp only
    split <;> rfl
  all_goals rfl

theorem attempts_initializeDefault {activity : Activity} :
    attempts (.initializeDefault binding activity now) c = true ↔
      c.store.state = .erased ∧ idleForAccess activity = true := by
  simp only [attempts, Bool.and_eq_true, decide_eq_true_eq]

/-- An operation is refused before it gets as far as the proof, or uses it up, and
without a permit does no more than that. -/
structure Guarded (s : Surroundings) (call : LocalCall) (c : LocalAccess) : Prop where
  refused : attempts call c = false →
    (c.perform s call).1 ≠ some .ok ∧ (c.perform s call).2 = c
  uses : attempts call c = true → (c.perform s call).2.proof = {}
  denied : attempts call c = true → (permit call c).1 ≠ .ok →
    (c.perform s call).1 ≠ some .ok ∧ (c.perform s call).2 = { c with proof := {} }

theorem Guarded.of_permitted {operation : LocalAccess → AccessCode × LocalAccess}
    (hreached : attempts call c = true →
      c.perform s call = (permitted (permit call c) operation).map some id)
    (hleaves : Leaves operation)
    (hrefused : attempts call c = false →
      (c.perform s call).1 ≠ some .ok ∧ (c.perform s call).2 = c) : Guarded s call c := by
  refine ⟨hrefused, fun h => ?_, fun h hdenied => ?_⟩
  · rw [hreached h]
    exact permitted_leaves hleaves (congrArg LocalAccess.proof (permit_state call c))
  · rcases permitted_cases (permit call c) operation with ⟨hok, -⟩ | ⟨-, heq⟩
    · exact absurd hok hdenied
    · rw [hreached h, heq]
      exact ⟨fun h => hdenied (Option.some.inj h), permit_state call c⟩

theorem write_proof {run : AccessStore → AccessMedia → Bool × AccessStore × AccessMedia}
    {unreadable : Nat → Bool} {ok : Bool} {c' : LocalAccess}
    (h : c.write run unreadable = (ok, c')) : c'.proof = c.proof :=
  (congrArg (fun out => out.2.proof) h).symm

theorem guarded_initializeDefault (activity : Activity) :
    Guarded s (.initializeDefault binding activity now) c := by
  apply Guarded.of_permitted
  · intro h
    obtain ⟨herased, hidle⟩ := attempts_initializeDefault.mp h
    unfold perform initializeDefault
    dsimp only
    rw [if_neg (not_not.mpr herased), hidle]
    rfl
  · intro c hc
    dsimp only
    split
    all_goals
      rename_i hrun
      exact (write_proof hrun).trans hc
  · intro h
    unfold perform initializeDefault
    by_cases herased : c.store.state = .erased
    · have hbusy : idleForAccess activity = false := by simpa [attempts, herased] using h
      simp [herased, hbusy]
    · simp [herased]

theorem guarded_openEnrollment (activity : Activity) :
    Guarded s (.openEnrollment binding activity now) c := by
  apply Guarded.of_permitted
  · intro h
    simp only [attempts, Bool.and_eq_true, decide_eq_true_eq, Bool.not_eq_true'] at h
    obtain ⟨⟨⟨hhealthy, hidle⟩, hpeer⟩, hclosed⟩ := h
    unfold perform openEnrollment
    dsimp only
    rw [hhealthy, hidle, hclosed, hpeer]
    rfl
  · exact fun c hc => hc
  · intro h
    unfold perform openEnrollment
    dsimp only
    split
    · exact ⟨nofun, rfl⟩
    · split
      · exact ⟨nofun, rfl⟩
      · split
        · exact ⟨nofun, rfl⟩
        · simp_all [attempts]

theorem guarded_removeBond (peer : UInt64) (activity : Activity) :
    Guarded s (.removeBond peer binding activity now) c := by
  apply Guarded.of_permitted
  · intro h
    simp only [attempts, Bool.and_eq_true] at h
    unfold perform removeBond
    dsimp only
    rw [h.1, h.2]
    rfl
  · intro c hc
    dsimp only
    split
    · exact hc
    · split
      · rename_i hrun
        exact (write_proof hrun).trans hc
      · rename_i c' hrun
        have hproof : c'.proof = {} := (write_proof hrun).trans hc
        have hdropped : (if c'.ble.peer = peer then { c' with ble := {} } else c').proof = {} := by
          split <;> exact hproof
        split
        · exact hdropped
        · exact (markBleDisabled_proof _ _).trans hdropped
  · intro h
    unfold perform removeBond
    obtain hhealthy | hbusy := Bool.and_eq_false_iff.mp h
    · simp [hhealthy]
    · cases c.store.healthy <;> simp [hbusy]

theorem guarded_changePassword (replacement : List UInt8) (activity : Activity) :
    Guarded s (.changePassword replacement binding activity now) c := by
  apply Guarded.of_permitted
  · intro h
    simp only [attempts, Bool.and_eq_true] at h
    unfold perform changePassword
    dsimp only
    rw [h.1.1, h.1.2, h.2]
    rfl
  · intro c hc
    dsimp only
    split
    · exact hc
    · split
      · rename_i hrun
        exact (write_proof hrun).trans hc
      · split
        · rfl
        · exact markBleDisabled_proof _ _
  · intro h
    unfold perform changePassword
    by_cases hhealthy : c.store.healthy = true
    · by_cases hidle : idleForAccess activity = true
      · have hinvalid : validLocalPassword replacement = false := by
          simpa [attempts, hhealthy, hidle] using h
        simp [hhealthy, hidle, hinvalid]
      · simp [hhealthy, hidle]
    · simp [hhealthy]

theorem guarded_setFieldMode (enabled : Bool) (activity : Activity) :
    Guarded s (.setFieldMode enabled binding activity now) c := by
  apply Guarded.of_permitted
  · intro h
    simp only [attempts, Bool.and_eq_true] at h
    unfold perform setFieldMode
    dsimp only
    rw [h.1, h.2]
    rfl
  · intro c hc
    dsimp only
    split
    all_goals
      rename_i hrun
      exact (write_proof hrun).trans hc
  · intro h
    unfold perform setFieldMode
    obtain hhealthy | hbusy := Bool.and_eq_false_iff.mp h
    · simp [hhealthy]
    · cases c.store.healthy <;> simp [hbusy]

theorem permitted_self (permit : AccessCode × LocalAccess) :
    permitted permit (fun c => (.ok, c)) = permit := by
  rcases permitted_cases permit (fun c => (.ok, c)) with ⟨hok, heq⟩ | ⟨-, heq⟩
  · rw [heq, ← hok]
  · exact heq

theorem guarded_authorizeSensitive (activity : Activity) :
    Guarded s (.authorizeSensitive binding activity now) c := by
  apply Guarded.of_permitted
  · intro h
    simp only [attempts, Bool.and_eq_true] at h
    unfold perform authorizeSensitive
    dsimp only
    rw [h.1, h.2]
    exact (congrArg (Prod.map some id) (permitted_self _)).symm
  · exact fun c hc => hc
  · intro h
    unfold perform authorizeSensitive
    obtain hhealthy | hbusy := Bool.and_eq_false_iff.mp h
    · simp [hhealthy]
    · cases c.store.healthy <;> simp [hbusy]

theorem guarded (h : (sensitive call).isSome ∨ (confirmable call).isSome) :
    Guarded s call c := by
  cases call with
  | initializeDefault binding activity now => exact guarded_initializeDefault activity
  | openEnrollment binding activity now => exact guarded_openEnrollment activity
  | removeBond peer binding activity now => exact guarded_removeBond peer activity
  | changePassword replacement binding activity now =>
    exact guarded_changePassword replacement activity
  | setFieldMode enabled binding activity now => exact guarded_setFieldMode enabled activity
  | authorizeSensitive binding activity now => exact guarded_authorizeSensitive activity
  | _ =>
    exact h.elim nofun nofun

theorem permit_ok (hguarded : Guarded s call c)
    (h : (c.perform s call).1 = some .ok ∨ (c.perform s call).2.store ≠ c.store) :
    attempts call c = true ∧ (permit call c).1 = .ok := by
  by_cases hattempts : attempts call c = true
  · refine ⟨hattempts, ?_⟩
    by_contra hdenied
    obtain ⟨hcode, hstate⟩ := hguarded.denied hattempts hdenied
    exact h.elim hcode fun hstore => hstore (by rw [hstate])
  · obtain ⟨hcode, hstate⟩ := hguarded.refused (by simpa using hattempts)
    exact absurd h (not_or.mpr ⟨hcode, not_not.mpr (congrArg LocalAccess.store hstate)⟩)

/-- What a call does to the proof slot. -/
inductive Slot (call : LocalCall) (c : LocalAccess) : Proof → Prop
  /-- It is as it was. -/
  | kept (h : attempts call c = false) : Slot call c c.proof
  /-- It is empty. -/
  | ended : Slot call c {}
  /-- It has a proof from the password in force. -/
  | proved (password : List UInt8) (binding : RequestBinding) (now : UInt64)
      (record : AccessRecord) (hcall : call = .provePassword password binding now)
      (hrecord : c.store.recorded = some record) (hpassword : password = record.password) :
      Slot call c { binding, issuedMs := now, epoch := record.epoch, password := true,
                    active := true }
  /-- The proof it has is confirmed. -/
  | confirmed (binding : RequestBinding) (now : UInt64) (hcall : call = .confirmLocal binding now)
      (hlive : c.live binding now = true) : Slot call c { c.proof with confirmation := true }
  /-- It has a proof from a confirmation. -/
  | begun (binding : RequestBinding) (now : UInt64) (hcall : call = .confirmLocal binding now) :
      Slot call c { binding, issuedMs := now, epoch := c.epoch, confirmation := true,
                    active := true }

theorem Slot.of_eq {proof : Proof} (h : proof = c.proof) (hno : attempts call c = false) :
    Slot call c proof := h ▸ .kept hno

theorem slot_bleAuthorize (password : List UInt8) :
    (c.bleAuthorize s password now).2.proof = c.proof := by
  have hdrop : ∀ c : LocalAccess, (c.dropBle s).proof = c.proof := fun c => eraseBond_proof s _
  unfold bleAuthorize
  split
  · rfl
  · split
    · exact hdrop c
    · split
      · exact hdrop c
      · dsimp only
        split
        · rename_i hrun
          exact (hdrop _).trans (write_proof hrun)
        · rename_i c' hrun
          have hkept : c'.proof = c.proof := write_proof hrun
          exact hkept

theorem slot_invalidateBinding (principal sessionId : List UInt8) (hno : attempts call c = false) :
    Slot call c (c.invalidateBinding principal sessionId).proof := by
  unfold invalidateBinding
  split
  · exact .ended
  · exact .kept hno

theorem slot_bleDisconnect (hno : attempts call c = false) :
    Slot call c (c.bleDisconnect s).2.proof := by
  unfold bleDisconnect
  dsimp only
  split
  · rw [eraseBond_proof]
    exact slot_invalidateBinding _ _ hno
  · exact slot_invalidateBinding _ _ hno

theorem slot_softapLogin (password : List UInt8) (protectedSession : List UInt8) :
    (c.softapLogin s password now protectedSession).2.proof = c.proof := by
  unfold softapLogin
  dsimp only
  repeat' split
  all_goals rfl

theorem slot_bindSoftapSession (token wtpSession : List UInt8) :
    (c.bindSoftapSession token wtpSession now).2.proof = c.proof := by
  unfold bindSoftapSession
  repeat' split
  all_goals rfl

theorem slot_softapAuthorize (token : List UInt8) (operation : SoftApOperation)
    (wtpSession activeOwnerSession : List UInt8) (activity : Activity) :
    (c.softapAuthorize token operation wtpSession activeOwnerSession activity now).2.proof =
      c.proof := by
  unfold softapAuthorize
  dsimp only
  repeat' split
  all_goals rfl

theorem slot_softapLogout (token wtpSession activeOwnerSession : List UInt8)
    (activity : Activity) (hno : attempts call c = false) :
    Slot call c (c.softapLogout token wtpSession activeOwnerSession activity).2.proof := by
  unfold softapLogout
  split
  · exact .kept hno
  · split
    · exact .kept hno
    · split
      · exact .kept hno
      · show Slot call c (if _ then _ else _)
        split
        · exact .ended
        · exact .kept hno

theorem slot_bleConnect (peer : UInt64) (encrypted newPairing : Bool) (sessionId : List UInt8) :
    (c.bleConnect peer encrypted newPairing sessionId now).2.proof = c.proof := by
  unfold bleConnect
  dsimp only
  repeat' split
  all_goals rfl

theorem slot_provePassword (password : List UInt8) :
    Slot (.provePassword password binding now) c (c.provePassword password binding now).2.proof := by
  unfold provePassword
  split
  · exact .kept rfl
  · split
    · exact .kept rfl
    · rename_i hhealthy _
      split
      · exact .kept rfl
      · rename_i hmatches
        have hrecorded : c.store.recorded = some c.store.record := if_pos (by simpa using hhealthy)
        rw [Bool.not_eq_true', Bool.not_eq_false, passwordMatches, hrecorded, Option.any_some,
          constantEqual_iff] at hmatches
        have hepoch : c.epoch = c.store.record.epoch := by
          unfold epoch
          rw [hrecorded]
          rfl
        show Slot _ c { binding, issuedMs := now, epoch := c.epoch, password := true,
                        active := true }
        rw [hepoch]
        exact .proved password binding now _ rfl hrecorded hmatches

theorem slot_confirmLocal :
    Slot (.confirmLocal binding now) c (c.confirmLocal binding now).2.proof := by
  unfold confirmLocal
  split
  · exact .kept rfl
  · split
    · rename_i hlive
      exact .confirmed binding now rfl hlive
    · exact .begun binding now rfl

theorem slot_guarded (hguarded : Guarded s call c) : Slot call c (c.perform s call).2.proof := by
  by_cases hattempts : attempts call c = true
  · rw [hguarded.uses hattempts]
    exact .ended
  · have hno : attempts call c = false := by simpa using hattempts
    exact .of_eq (congrArg LocalAccess.proof (hguarded.refused hno).2) hno

theorem slot_perform (s : Surroundings) (call : LocalCall) (c : LocalAccess) :
    Slot call c (c.perform s call).2.proof := by
  cases call with
  | provePassword password binding now => exact slot_provePassword password
  | confirmLocal binding now => exact slot_confirmLocal
  | invalidateBinding principal sessionId => exact slot_invalidateBinding principal sessionId rfl
  | bleConnect peer encrypted newPairing sessionId now =>
    exact .of_eq (slot_bleConnect peer encrypted newPairing sessionId) rfl
  | bleAuthorize password now => exact .of_eq (slot_bleAuthorize password) rfl
  | expireProvisionalBond now =>
    unfold perform expireProvisionalBond
    dsimp only
    split
    · exact .kept rfl
    · exact slot_bleDisconnect rfl
  | bleDisconnect => exact slot_bleDisconnect rfl
  | softapLogin password now protectedSession =>
    exact .of_eq (slot_softapLogin password protectedSession) rfl
  | bindSoftapSession token wtpSession now =>
    exact .of_eq (slot_bindSoftapSession token wtpSession) rfl
  | softapAuthorize token operation wtpSession owner activity now =>
    exact .of_eq (slot_softapAuthorize token operation wtpSession owner activity) rfl
  | softapLogout token wtpSession owner activity =>
    exact slot_softapLogout token wtpSession owner activity rfl
  | liveSoftapSessions now protectedSession => exact .kept rfl
  | invalidateAllVolatile => exact .ended
  | elsewhere store flash => exact .kept rfl
  | initializeDefault | openEnrollment => exact slot_guarded (guarded (.inr rfl))
  | _ =>
    exact slot_guarded (guarded (.inl rfl))

/-- No call of `rest` gets as far as the proof, after the calls of `before`. -/
def Untouched (start : LocalAccess) (before rest : List (Surroundings × LocalCall)) : Prop :=
  ∀ middle step later, rest = middle ++ step :: later →
    attempts step.2 (start.run (before ++ middle)) = false

/-- The step gave the proof: for the password in force, or for a confirmation. -/
def Gave (start : LocalAccess) (before : List (Surroundings × LocalCall))
    (step : Surroundings × LocalCall) (proof : Proof) : Prop :=
  if proof.password then
    ∃ password record, step.2 = .provePassword password proof.binding proof.issuedMs ∧
      (start.run before).store.recorded = some record ∧ password = record.password ∧
      record.epoch = proof.epoch
  else
    step.2 = .confirmLocal proof.binding proof.issuedMs ∧ (start.run before).epoch = proof.epoch

/-- The step confirms the proof before it expires. -/
def Confirms (proof : Proof) (step : Surroundings × LocalCall) : Prop :=
  ∃ now, step.2 = .confirmLocal proof.binding now ∧
    elapsed now proof.issuedMs proofLifetimeMs = false

/-- The run gave the proof, and nothing has got as far as the proof since. -/
def Issued (start : LocalAccess) (calls : List (Surroundings × LocalCall)) (proof : Proof) :
    Prop :=
  ∃ before step rest, calls = before ++ step :: rest ∧ Gave start before step proof ∧
    Untouched start (before ++ [step]) rest ∧
    (proof.confirmation = true → ∃ s ∈ step :: rest, Confirms proof s)

variable {start : LocalAccess} {calls : List (Surroundings × LocalCall)} {proof : Proof}

theorem run_snoc (start : LocalAccess) (calls : List (Surroundings × LocalCall))
    (step : Surroundings × LocalCall) :
    start.run (calls ++ [step]) = ((start.run calls).perform step.1 step.2).2 := by
  unfold run
  rw [List.foldl_append]
  rfl

theorem untouched_snoc {before rest : List (Surroundings × LocalCall)}
    (h : Untouched start before rest) {step : Surroundings × LocalCall}
    (hstep : attempts step.2 (start.run (before ++ rest)) = false) :
    Untouched start before (rest ++ [step]) := by
  intro middle x later hsplit
  rcases List.eq_nil_or_concat later with rfl | ⟨init, last, rfl⟩
  · obtain ⟨rfl, hx⟩ := List.append_inj' hsplit rfl
    obtain rfl := List.singleton_inj.mp hx
    exact hstep
  · have hsplit' : rest ++ [step] = (middle ++ x :: init) ++ [last] := by simpa using hsplit
    obtain ⟨rfl, -⟩ := List.append_inj' hsplit' rfl
    exact h middle x init rfl

theorem Issued.kept (h : Issued start calls proof) {step : Surroundings × LocalCall}
    (hno : attempts step.2 (start.run calls) = false) : Issued start (calls ++ [step]) proof := by
  obtain ⟨before, issue, rest, rfl, hgave, huntouched, hconfirmed⟩ := h
  refine ⟨before, issue, rest ++ [step], by simp, hgave, untouched_snoc huntouched ?_, fun h => ?_⟩
  · simpa using hno
  · obtain ⟨s, hmem, hs⟩ := hconfirmed h
    exact ⟨s, by rw [← List.cons_append]; exact List.mem_append_left _ hmem, hs⟩

theorem Issued.confirmed (h : Issued start calls proof) {step : Surroundings × LocalCall}
    (hconfirms : Confirms proof step) :
    Issued start (calls ++ [step]) { proof with confirmation := true } := by
  have hno : attempts step.2 (start.run calls) = false := by
    obtain ⟨now, hstep, -⟩ := hconfirms
    rw [hstep]
    rfl
  obtain ⟨before, issue, rest, rfl, hgave, huntouched, -⟩ := h
  refine ⟨before, issue, rest ++ [step], by simp, hgave, untouched_snoc huntouched ?_, fun _ => ?_⟩
  · simpa using hno
  · exact ⟨step, by simp, hconfirms⟩

theorem Issued.last {step : Surroundings × LocalCall} (hgave : Gave start calls step proof)
    (hconfirmed : proof.confirmation = true → Confirms proof step) :
    Issued start (calls ++ [step]) proof :=
  ⟨calls, step, [], rfl, hgave, fun middle x later h => by simp at h,
    fun h => ⟨step, List.mem_singleton_self step, hconfirmed h⟩⟩

theorem elapsed_self (now : UInt64) : elapsed now now proofLifetimeMs = false := by
  rw [elapsed_iff, UInt64.sub_self]
  exact ⟨UInt64.le_refl now, by decide⟩

/-- The invariant of the proof slot: what it holds was given in the run, for its
binding and epoch, and not used since. -/
theorem issued_run (hnone : start.proof.active = false)
    (calls : List (Surroundings × LocalCall)) :
    (start.run calls).proof.active = true → Issued start calls (start.run calls).proof := by
  induction calls using List.reverseRec with
  | nil => exact fun h => nomatch hnone.symm.trans h
  | append_singleton calls step ih =>
    rw [run_snoc]
    have hslot := slot_perform step.1 step.2 (start.run calls)
    generalize ((start.run calls).perform step.1 step.2).2.proof = proof at hslot
    intro hactive
    cases hslot with
    | kept hno => exact (ih hactive).kept hno
    | ended => exact nomatch hactive
    | proved password binding now record hcall hrecord hpassword =>
      exact .last ⟨password, record, hcall, hrecord, hpassword, rfl⟩ nofun
    | confirmed binding now hcall hlive =>
      simp only [live, Bool.and_eq_true, decide_eq_true_eq, Bool.not_eq_true'] at hlive
      obtain ⟨⟨hactive, rfl⟩, hlive⟩ := hlive
      exact (ih hactive).confirmed ⟨now, hcall, hlive⟩
    | begun binding now hcall =>
      exact .last ⟨hcall, rfl⟩ fun _ => ⟨now, hcall, elapsed_self now⟩

/-- The run has a proof for the binding from the password that was in force then,
not expired at `now` and of the epoch of the record, confirmed if that needs it;
nothing has got as far as the proof since. -/
def Authorized (start : LocalAccess) (calls : List (Surroundings × LocalCall))
    (binding : RequestBinding) (now : UInt64) (record : AccessRecord) : Prop :=
  ∃ before s password issued rest earlier,
    calls = before ++ (s, .provePassword password binding issued) :: rest ∧
    issued ≤ now ∧ now - issued < proofLifetimeMs ∧
    (start.run before).store.recorded = some earlier ∧ password = earlier.password ∧
    earlier.epoch = record.epoch ∧
    Untouched start (before ++ [(s, .provePassword password binding issued)]) rest ∧
    (record.defaultPassword = true → ∃ s ∈ rest, ∃ confirmed,
      s.2 = .confirmLocal binding confirmed ∧ issued ≤ confirmed ∧
        confirmed - issued < proofLifetimeMs)

theorem live_iff : c.live binding now = true ↔
    c.proof.active = true ∧ c.proof.binding = binding ∧ c.proof.issuedMs ≤ now ∧
      now - c.proof.issuedMs < proofLifetimeMs := by
  unfold live
  rw [Bool.and_eq_true, Bool.and_eq_true, decide_eq_true_eq, Bool.not_eq_true', elapsed_iff,
    and_assoc]

theorem authorized_of_permits (hnone : start.proof.active = false) {record : AccessRecord}
    (hpermits : Permits binding now (start.run calls))
    (hrecord : (start.run calls).store.recorded = some record)
    (hpassword : (start.run calls).proof.password = true)
    (hconfirmation : record.defaultPassword = true → (start.run calls).proof.confirmation = true) :
    Authorized start calls binding now record := by
  obtain ⟨hlive, hepoch⟩ := hpermits
  obtain ⟨hactive, rfl, hissued, hlifetime⟩ := live_iff.mp hlive
  obtain ⟨before, ⟨s, call⟩, rest, heq, hgave, huntouched, hconfirmed⟩ :=
    issued_run hnone calls hactive
  rw [Gave, if_pos hpassword] at hgave
  obtain ⟨password, earlier, rfl, hearlier, hmatch, hsame⟩ := hgave
  rw [sameEpoch, hrecord, Option.all_some, decide_eq_true_iff] at hepoch
  refine ⟨before, s, password, _, rest, earlier, heq, hissued, hlifetime, hearlier, hmatch,
    hsame.trans hepoch, huntouched, fun hdefault => ?_⟩
  obtain ⟨step, hmem, confirmed, hstep, hconfirms⟩ := hconfirmed (hconfirmation hdefault)
  rcases List.mem_cons.mp hmem with rfl | hmem
  · cases hstep
  · obtain ⟨hle, hlt⟩ := elapsed_iff.mp hconfirms
    exact ⟨step, hmem, confirmed, hstep, hle, hlt⟩

theorem sensitive_permit (hsensitive : sensitive call = some (binding, now)) :
    permit call c = c.consume binding true c.store.record.defaultPassword now := by
  cases call with
  | removeBond | changePassword | setFieldMode | authorizeSensitive =>
    cases hsensitive
    rfl
  | _ =>
    cases hsensitive

theorem confirmable_permits (hconfirmable : confirmable call = some (binding, now))
    (h : (permit call c).1 = .ok) :
    Permits binding now c ∧ (c.proof.password = true ∨ c.proof.confirmation = true) := by
  cases call
  case initializeDefault =>
    cases hconfirmable
    obtain ⟨hpermits, -, hconfirmation⟩ := consume_ok h
    exact ⟨hpermits, .inr (hconfirmation rfl)⟩
  case openEnrollment =>
    cases hconfirmable
    unfold permit at h
    dsimp only at h
    split at h
    · obtain ⟨hpermits, -, hconfirmation⟩ := consume_ok h
      exact ⟨hpermits, .inr (hconfirmation rfl)⟩
    · exact consumeEither_ok h
  all_goals exact nomatch hconfirmable

theorem recorded_of_attempt (hsensitive : sensitive call = some (binding, now))
    (h : attempts call c = true) : c.store.recorded = some c.store.record := by
  have hhealthy : c.store.healthy = true := by
    cases call with
    | removeBond | changePassword | setFieldMode | authorizeSensitive =>
      simp only [attempts, Bool.and_eq_true] at h
      simp [h]
    | _ =>
      cases hsensitive
  exact if_pos hhealthy

theorem asks_of_attempts (h : attempts call c = true) :
    (sensitive call).isSome ∨ (confirmable call).isSome := by
  cases call with
  | removeBond | changePassword | setFieldMode | authorizeSensitive => exact .inl rfl
  | initializeDefault | openEnrollment => exact .inr rfl
  | _ =>
    cases h

theorem sensitiveReady_permits {activity : Activity}
    (h : c.sensitiveReady binding activity now = .ok) :
    Permits binding now c ∧ c.store.recorded = some c.store.record ∧
      c.proof.password = true ∧
      (c.store.record.defaultPassword = true → c.proof.confirmation = true) := by
  unfold sensitiveReady at h
  by_cases hhealthy : c.store.healthy = true
  · rw [if_neg (by rw [hhealthy]; decide)] at h
    by_cases hidle : idleForAccess activity = true
    · rw [if_neg (by rw [hidle]; decide)] at h
      by_cases hbinding : c.validBinding binding = true
      · rw [if_neg (by rw [hbinding]; decide)] at h
        split at h
        · cases h
        · rename_i hvalid
          split at h
          · cases h
          · rename_i hconfirmed
            simp only [Bool.or_eq_true, Bool.not_eq_true', Bool.and_eq_false_iff, not_or,
              Bool.not_eq_false] at hvalid
            refine ⟨⟨hvalid.1.1.1, hvalid.1.2⟩, if_pos hhealthy, hvalid.2, fun hdefault => ?_⟩
            simpa [hdefault] using hconfirmed
      · rw [if_pos (by simpa using hbinding)] at h
        unfold bindingFault at h
        split at h <;> exact nomatch h
    · rw [if_pos (by simpa using hidle)] at h
      cases h
  · rw [if_pos (by simpa using hhealthy)] at h
    cases h

end LocalAccess

open LocalAccess

/-- In every run, an operation that needs a password succeeds, or changes the record,
only by getting as far as a proof for its own binding, of the same epoch, from the
right password less than the lifetime earlier, and not used before; one that a
confirmation is enough for needs a proof of its binding too. Whatever gets as far
as the proof uses it up, whether it succeeds or not. -/
theorem local_proof_single_use (store : AccessStore) (flash : Nor)
    (deviceId bootId defaultPassword : List UInt8) (limits : SoftApSessionLimits)
    (calls : List (Surroundings × LocalCall)) (s : Surroundings) (call : LocalCall)
    (binding : RequestBinding) (activity : Activity) (now : UInt64) :
    let start : LocalAccess := { store, flash, deviceId, bootId, defaultPassword, limits }
    let c := start.run calls
    let out := c.perform s call
    (sensitive call = some (binding, now) → out.1 = some .ok ∨ out.2.store ≠ c.store →
      attempts call c = true ∧
        ∃ record, c.store.recorded = some record ∧ Authorized start calls binding now record) ∧
    (c.sensitiveReady binding activity now = .ok →
      ∃ record, c.store.recorded = some record ∧ Authorized start calls binding now record) ∧
    (confirmable call = some (binding, now) → out.1 = some .ok ∨ out.2.store ≠ c.store →
      attempts call c = true ∧ Issued start calls c.proof ∧ c.proof.binding = binding ∧
        c.proof.issuedMs ≤ now ∧ now - c.proof.issuedMs < proofLifetimeMs ∧ c.sameEpoch = true) ∧
    (attempts call c = true → out.2.proof = {}) := by
  intro start c out
  have hnone : start.proof.active = false := rfl
  refine ⟨fun hsensitive hsuccess => ?_, fun hready => ?_, fun hconfirmable hsuccess => ?_,
    fun hattempts => ?_⟩
  · have hguarded : Guarded s call c := guarded (.inl (by rw [hsensitive]; rfl))
    obtain ⟨hattempts, hpermit⟩ := permit_ok hguarded hsuccess
    rw [sensitive_permit hsensitive] at hpermit
    obtain ⟨hpermits, hpassword, hconfirmation⟩ := consume_ok hpermit
    have hrecord := recorded_of_attempt hsensitive hattempts
    exact ⟨hattempts, _, hrecord,
      authorized_of_permits hnone hpermits hrecord (hpassword rfl) hconfirmation⟩
  · obtain ⟨hpermits, hrecord, hpassword, hconfirmation⟩ := sensitiveReady_permits hready
    exact ⟨_, hrecord, authorized_of_permits hnone hpermits hrecord hpassword hconfirmation⟩
  · have hguarded : Guarded s call c := guarded (.inr (by rw [hconfirmable]; rfl))
    obtain ⟨hattempts, hpermit⟩ := permit_ok hguarded hsuccess
    obtain ⟨⟨hlive, hepoch⟩, -⟩ := confirmable_permits hconfirmable hpermit
    obtain ⟨hactive, hbinding, hissued, hlifetime⟩ := live_iff.mp hlive
    exact ⟨hattempts, issued_run hnone calls hactive, hbinding, hissued, hlifetime, hepoch⟩
  · exact (guarded (asks_of_attempts hattempts)).uses hattempts

/-- A controller whose store has a record with a password of its owner. -/
def fieldController : LocalAccess where
  store :=
    { state := .healthy
      record := { epoch := 1, password := ascii "wspr-123456", defaultPassword := false } }
  flash := { bytes := fun _ => 255 }
  deviceId := [100]
  bootId := [98]
  defaultPassword := []

def fieldBinding : RequestBinding where
  deviceId := [100]
  principal := [112]
  sessionId := [115]
  operation := ascii "field-mode"
  nonce := [110]
  parameters := { bytes := 1 :: List.replicate 31 0, size := rfl }

def proving : Surroundings × LocalCall :=
  ({}, .provePassword (ascii "wspr-123456") fieldBinding 700000)

theorem local_proof_single_use_authorized :
    Authorized fieldController [proving] fieldBinding 819999 fieldController.store.record := by
  obtain ⟨-, record, hrecord, hauthorized⟩ :=
    (local_proof_single_use fieldController.store fieldController.flash [100] [98] [] {} [proving]
      {} (.authorizeSensitive fieldBinding {} 819999) fieldBinding {} 819999).1 rfl
      (.inl (by decide))
  rwa [← Option.some.inj hrecord] at hauthorized

/-- An operation that is refused because the device is busy does not use up the
proof: the next attempt succeeds with it. -/
theorem busy_keeps_proof :
    let c := fieldController.run [proving]
    let busy := c.authorizeSensitive fieldBinding { owned := true } 700021
    busy.1 = .busy ∧ (busy.2.authorizeSensitive fieldBinding {} 700022).1 = .ok := by
  decide

end WsprryPico.Provisioning
