import WsprryPico.Lib.History
import WsprryPico.Network.Identity

/-!
# The name of the device on the network

`network/mdns.cpp`: the owner of one hostname, which probes for it with the responder, keeps it
while the network stays, and gives it up again. The calls the responder has had are part of the
state; its answers come with the calls.
-/

namespace WsprryPico.Network

open Lib

inductive MdnsState
  | unconfigured
  | waiting
  | probing
  | active
  | withdrawing
  | conflict
  | failed
  deriving DecidableEq

inductive MdnsAdapterCall
  | initializeResponder (answer : Bool)
  | add (label : List UInt8) (answer : Bool)
  | withdraw
  | remove (goodbye : Bool)

structure Mdns where
  adapter : List MdnsAdapterCall := []
  hostname : List UInt8 := []
  label : List UInt8 := []
  reason : List UInt8 := []
  state : MdnsState := .unconfigured
  initialized : Bool := false
  registered : Bool := false
  permanentFailure : Bool := false
  pendingConflict : Bool := false
  restart : Bool := false
  address : UInt32 := 0
  probeStartedUs : UInt64 := 0
  registrations : Nat := 0
  conflicts : Nat := 0
  failures : Nat := 0
  addressChanges : Nat := 0

namespace Mdns

/-- The counters stop at their largest value. -/
def count (value : Nat) : Nat := if value ≠ 2 ^ 32 - 1 then value + 1 else value

def ask (call : MdnsAdapterCall) (s : Mdns) : Mdns := { s with adapter := s.adapter ++ [call] }

def stop (goodbye : Bool) (s : Mdns) : Mdns :=
  let s := if s.registered then s.ask (.remove goodbye) else s
  { s with registered := false, address := 0 }

def fail (reason : List UInt8) (s : Mdns) : Mdns :=
  let s := s.stop false
  { s with state := .failed, reason, failures := count s.failures }

def configureHostname (hostname : List UInt8) (s : Mdns) : Mdns × Bool :=
  if s.state ≠ .unconfigured then (s, hostname = s.hostname)
  else if hostname.isEmpty then (s, false)
  else
    match canonicalLocalHostname hostname with
    | none => ({ s with permanentFailure := true }.fail (ascii "invalid_hostname"), false)
    | some canonical =>
      ({ s with
        hostname := canonical
        label := canonical.take (canonical.length - 6)
        state := .waiting }, true)

def create (hostname : List UInt8) : Mdns :=
  if hostname.isEmpty then {} else (({} : Mdns).configureHostname hostname).1

def disable (linkUsable : Bool) (s : Mdns) : Mdns :=
  let s := s.stop (linkUsable && s.state = .active)
  let s := { s with pendingConflict := false }
  if s.state = .probing ∨ s.state = .active ∨ s.state = .withdrawing then
    { s with state := .waiting } else s

/-- What the responder answers in a poll, when it is asked. -/
structure Answers where
  initialized : Bool
  added : Bool

/-- A new registration; the network comes up once. -/
def register (answers : Answers) (address : UInt32) (nowUs : UInt64) (s : Mdns) : Mdns :=
  let s := if s.initialized then s else
    { s.ask (.initializeResponder answers.initialized) with initialized := answers.initialized }
  if !s.initialized then s.fail (ascii "initialization_failed")
  else
    let s := s.ask (.add s.label answers.added)
    if !answers.added then s.fail (ascii "registration_failed")
    else
      { s with
        registered := true
        address
        probeStartedUs := nowUs
        state := .probing
        registrations := count s.registrations }

/-- A responder registered for another address, or for a network that changed, is stopped. -/
def follow (address : UInt32) (s : Mdns) : Mdns :=
  if s.registered && (s.address ≠ address || s.restart) then
    let s := if s.address ≠ address then { s with addressChanges := count s.addressChanges } else s
    { s.stop false with state := .waiting }
  else s

/-- The responder still uses the name in its callback, so that a conflict waits for the poll. -/
def settleConflict (s : Mdns) : Mdns :=
  if s.pendingConflict then { s.stop false with pendingConflict := false } else s

def poll (answers : Answers) (enabled : Bool) (address : UInt32) (nowUs : UInt64) (s : Mdns) : Mdns :=
  let s := s.settleConflict
  if s.state = .unconfigured ∨ s.state = .failed ∨ s.state = .conflict then s
  else if s.state = .withdrawing then
    if !enabled || address = 0 || s.restart then s.disable false else s
  else if !enabled || address = 0 then { s.stop false with restart := false, state := .waiting }
  else
    let s := { s.follow address with restart := false }
    if !s.registered then s.register answers address nowUs
    else if s.state = .probing && 30000000 ≤ nowUs - s.probeStartedUs then
      s.fail (ascii "probe_timeout")
    else s

def nameResult (success : Bool) (s : Mdns) : Mdns :=
  if !s.registered || (s.state ≠ .probing && s.state ≠ .active) then s
  else if success then { s with state := .active }
  else
    { s with
      state := .conflict
      reason := ascii "name_conflict"
      pendingConflict := true
      conflicts := count s.conflicts }

def withdraw (linkUsable : Bool) (s : Mdns) : Mdns × Bool :=
  if s.state = .withdrawing then (s, true)
  else if !s.registered || s.state ≠ .active || !linkUsable then (s, false)
  else ({ s.ask .withdraw with state := .withdrawing }, true)

def retry (s : Mdns) : Mdns :=
  if s.permanentFailure || s.hostname.isEmpty then s
  else { s.stop false with pendingConflict := false, state := .waiting, reason := [] }

def identityFailure (s : Mdns) : Mdns :=
  { s with permanentFailure := true }.fail (ascii "device_identity_mismatch")

def networkChanged (s : Mdns) : Mdns := { s with restart := true }

def advertised (s : Mdns) : List UInt8 := if s.state = .active then s.hostname else []

inductive Call
  | configureHostname (hostname : List UInt8)
  | poll (answers : Answers) (enabled : Bool) (address : UInt32) (nowUs : UInt64)
  | nameResult (success : Bool)
  | withdraw (linkUsable : Bool)
  | disable (linkUsable : Bool)
  | retry
  | identityFailure
  | networkChanged

def step (s : Mdns) : Call → Mdns
  | .configureHostname hostname => (s.configureHostname hostname).1
  | .poll answers enabled address nowUs => s.poll answers enabled address nowUs
  | .nameResult success => s.nameResult success
  | .withdraw linkUsable => (s.withdraw linkUsable).1
  | .disable linkUsable => s.disable linkUsable
  | .retry => s.retry
  | .identityFailure => s.identityFailure
  | .networkChanged => s.networkChanged

def run (hostname : List UInt8) (calls : List Call) : Mdns := calls.foldl step (create hostname)

theorem run_snoc (hostname : List UInt8) (calls : List Call) (call : Call) :
    run hostname (calls ++ [call]) = (run hostname calls).step call := by
  unfold run
  rw [List.foldl_append]
  rfl

/-! ## Adding and removing -/

def Adds (c : MdnsAdapterCall) : Prop := ∃ label, c = .add label true

def Removes (c : MdnsAdapterCall) : Prop := ∃ goodbye, c = .remove goodbye

theorem not_removes_of_adds {c : MdnsAdapterCall} (h : Adds c) : ¬ Removes c := by
  obtain ⟨label, rfl⟩ := h
  rintro ⟨goodbye, hno⟩
  cases hno

/-- The adapter has a registration exactly while the owner says so. -/
structure Balanced (s : Mdns) : Prop where
  alternates : Alternates Adds Removes s.adapter
  standing : Standing Adds Removes s.adapter ↔ s.registered = true

variable {s : Mdns} {goodbye : Bool}

/-- A call that neither adds nor removes leaves the balance. -/
theorem Balanced.other (h : Balanced s) {t : Mdns} {c : MdnsAdapterCall} (hadd : ¬ Adds c)
    (hremove : ¬ Removes c) (hadapter : t.adapter = s.adapter ++ [c])
    (hregistered : t.registered = s.registered) : Balanced t := by
  refine ⟨?_, ?_⟩
  · rw [hadapter]
    exact h.alternates.snoc ⟨fun hno => absurd hno hadd, fun hno => absurd hno hremove⟩
  · rw [hadapter, hregistered, standing_snoc]
    simp only [hadd, hremove, not_false_eq_true, true_and, false_or]
    exact h.standing

theorem Balanced.same (h : Balanced s) {t : Mdns} (hadapter : t.adapter = s.adapter)
    (hregistered : t.registered = s.registered) : Balanced t :=
  ⟨hadapter ▸ h.alternates, by rw [hadapter, hregistered]; exact h.standing⟩

theorem stop_eq (s : Mdns) (goodbye : Bool) : s.stop goodbye =
    { s with
      adapter := if s.registered then s.adapter ++ [.remove goodbye] else s.adapter
      registered := false
      address := 0 } := by
  unfold stop
  cases s.registered <;> rfl

@[simp] theorem stop_state : (s.stop goodbye).state = s.state := by rw [stop_eq]

@[simp] theorem stop_pendingConflict : (s.stop goodbye).pendingConflict = s.pendingConflict := by
  rw [stop_eq]

@[simp] theorem stop_hostname : (s.stop goodbye).hostname = s.hostname := by rw [stop_eq]

theorem stop_balanced (goodbye : Bool) (h : Balanced s) : Balanced (s.stop goodbye) := by
  rw [stop_eq]
  split
  · rename_i hregistered
    have hremove : Removes (.remove goodbye) := ⟨goodbye, rfl⟩
    have hadd : ¬ Adds (.remove goodbye) := fun hadd => not_removes_of_adds hadd hremove
    refine ⟨h.alternates.snoc ⟨fun hno => absurd hno hadd, fun _ => h.standing.mpr hregistered⟩, ?_⟩
    rw [standing_snoc]
    simp [hadd, hremove]
  · rename_i hregistered
    refine ⟨h.alternates, ?_⟩
    rw [h.standing]
    simpa using hregistered

/-! ## The state and the registration -/

/-- A state in which the responder works on the name. -/
def Live (s : Mdns) : Prop := s.state = .probing ∨ s.state = .active ∨ s.state = .withdrawing

structure Sound (s : Mdns) : Prop where
  balanced : Balanced s
  live : s.Live → s.registered = true
  conflict : s.registered = true → s.Live ∨ s.state = .conflict ∧ s.pendingConflict = true
  pending : s.pendingConflict = true → s.state = .conflict ∨ s.state = .failed
  named : s.state ≠ .unconfigured → s.state ≠ .failed → s.hostname ≠ []

theorem Sound.stopped (h : Balanced s) (hregistered : s.registered = false) (hlive : ¬ s.Live)
    (hpending : s.pendingConflict = true → s.state = .conflict ∨ s.state = .failed)
    (hnamed : s.state ≠ .unconfigured → s.state ≠ .failed → s.hostname ≠ []) : Sound s :=
  ⟨h, fun hno => absurd hno hlive, fun hno => (nomatch hregistered.symm.trans hno), hpending, hnamed⟩

theorem fail_sound (h : Balanced s) (reason : List UInt8) : Sound (s.fail reason) := by
  have hstop := stop_balanced false h
  refine .stopped (hstop.same rfl rfl) rfl ?_ (fun _ => .inr rfl) (fun _ hno => absurd rfl hno)
  simp [Mdns.Live, fail]

theorem canonical_ne_nil {input name : List UInt8} (h : canonicalLocalHostname input = some name) :
    name ≠ [] := by
  unfold canonicalLocalHostname at h
  generalize (if input.getLast? = some 46 then input.dropLast else input) = input at h
  dsimp only at h
  split at h
  · cases h
  · split at h
    · cases h
    · split at h
      · cases h
      · split at h
        · cases h
          intro hnil
          have hempty : input.length = 0 := by simpa using congrArg List.length hnil
          omega
        · cases h

theorem configureHostname_sound (h : Sound s) (hostname : List UInt8) :
    Sound (s.configureHostname hostname).1 := by
  unfold configureHostname
  split
  · exact h
  · split
    · exact h
    · rename_i hstate _
      rw [ne_eq, not_not] at hstate
      split
      · have hbalanced : Balanced { s with permanentFailure := true } := h.balanced.same rfl rfl
        exact fail_sound hbalanced _
      · rename_i canonical hcanonical
        have hregistered : s.registered = false := by
          by_contra hregistered
          have hconflict := h.conflict (by simpa using hregistered)
          simp [Mdns.Live, hstate] at hconflict
        have hpending : s.pendingConflict = true → False := fun hpending => by
          simpa [hstate] using h.pending hpending
        exact .stopped (h.balanced.same rfl rfl) hregistered (by simp [Mdns.Live])
          (fun hno => (hpending hno).elim) (fun _ _ => canonical_ne_nil hcanonical)

theorem create_sound (hostname : List UInt8) : Sound (create hostname) := by
  have hempty : Sound {} := .stopped ⟨.nil, iff_of_false not_standing_nil Bool.false_ne_true⟩ rfl
    (by simp [Mdns.Live]) nofun (fun hno => absurd rfl hno)
  unfold create
  split
  · exact hempty
  · exact configureHostname_sound hempty hostname

theorem disable_sound (h : Sound s) (linkUsable : Bool) : Sound (s.disable linkUsable) := by
  have hstop := stop_balanced (linkUsable && s.state = .active) h.balanced
  unfold disable
  dsimp only
  rw [stop_state]
  split
  · rename_i hlive
    refine .stopped (hstop.same rfl rfl) rfl (by simp [Mdns.Live]) nofun ?_
    intro _ _
    rw [stop_hostname]
    refine h.named ?_ ?_
    all_goals
      intro hno
      simp [hno] at hlive
  · rename_i hlive
    refine .stopped (hstop.same rfl rfl) rfl ?_ nofun ?_
    · simpa [Mdns.Live] using hlive
    · simpa using h.named

theorem retry_sound (h : Sound s) : Sound s.retry := by
  unfold retry
  split
  · exact h
  · rename_i hretry
    simp only [Bool.or_eq_true, not_or, List.isEmpty_iff] at hretry
    have hstop := stop_balanced false h.balanced
    refine .stopped (hstop.same rfl rfl) rfl (by simp [Mdns.Live]) nofun ?_
    intro _ _
    rw [stop_hostname]
    exact hretry.2

theorem nameResult_sound (h : Sound s) (success : Bool) : Sound (s.nameResult success) := by
  unfold nameResult
  split
  · exact h
  · rename_i hcalled
    simp only [Bool.or_eq_true, Bool.not_eq_true', Bool.and_eq_true, decide_eq_true_eq, not_or, not_and,
      Bool.not_eq_false, ne_eq, not_not] at hcalled
    obtain ⟨hregistered, hstate⟩ := hcalled
    have hlive : s.Live := by
      by_cases hprobing : s.state = .probing
      · exact .inl hprobing
      · exact .inr (.inl (hstate hprobing))
    have hnamed : s.hostname ≠ [] := by
      refine h.named ?_ ?_
      all_goals
        intro hno
        simp [Mdns.Live, hno] at hlive
    have hpending : s.pendingConflict = true → False := fun hpending => by
      obtain hno | hno := h.pending hpending
      all_goals simp [Mdns.Live, hno] at hlive
    split
    · exact ⟨h.balanced.same rfl rfl, fun _ => hregistered, fun _ => .inl (.inr (.inl rfl)),
        fun hno => (hpending hno).elim, fun _ _ => hnamed⟩
    · exact ⟨h.balanced.same rfl rfl, fun _ => hregistered, fun _ => .inr ⟨rfl, rfl⟩,
        fun _ => .inl rfl, fun _ _ => hnamed⟩

theorem withdraw_sound (h : Sound s) (linkUsable : Bool) : Sound (s.withdraw linkUsable).1 := by
  unfold withdraw
  split
  · exact h
  · split
    · exact h
    · rename_i hgo
      simp only [Bool.or_eq_true, Bool.not_eq_true', decide_eq_true_eq, not_or, Bool.not_eq_false,
        ne_eq, not_not] at hgo
      obtain ⟨⟨hregistered, hactive⟩, -⟩ := hgo
      have hpending : s.pendingConflict = true → False := fun hpending => by
        simpa [hactive] using h.pending hpending
      have hadd : ¬ Adds .withdraw := fun ⟨_, hno⟩ => nomatch hno
      have hremove : ¬ Removes .withdraw := fun ⟨_, hno⟩ => nomatch hno
      refine ⟨h.balanced.other hadd hremove rfl rfl, fun _ => hregistered,
        fun _ => .inl (.inr (.inr rfl)), fun hno => (hpending hno).elim, fun _ _ => ?_⟩
      exact h.named (by simp [hactive]) (by simp [hactive])

theorem settleConflict_sound (h : Sound s) :
    Sound s.settleConflict ∧ s.settleConflict.pendingConflict = false := by
  unfold settleConflict
  split
  · rename_i hpending
    have hstop := stop_balanced false h.balanced
    refine ⟨.stopped (hstop.same rfl rfl) rfl ?_ nofun (by simpa using h.named), rfl⟩
    obtain hstate | hstate := h.pending hpending
    all_goals simp [Mdns.Live, hstate]
  · rename_i hpending
    exact ⟨h, by simpa using hpending⟩

/-- A registration of a stopped responder succeeds, or leaves it failed. -/
theorem register_sound (h : Balanced s) (hregistered : s.registered = false)
    (hpending : s.pendingConflict = false) (hnamed : s.hostname ≠ []) (answers : Answers)
    (address : UInt32) (nowUs : UInt64) : Sound (s.register answers address nowUs) := by
  unfold register
  dsimp only
  have hready : ∀ t : Mdns, Balanced t → t.registered = false → t.pendingConflict = false →
      t.hostname ≠ [] → Sound (if !answers.added then
        (t.ask (.add t.label answers.added)).fail (ascii "registration_failed")
      else
        { t.ask (.add t.label answers.added) with
          registered := true
          address
          probeStartedUs := nowUs
          state := .probing
          registrations := count (t.ask (.add t.label answers.added)).registrations }) := by
    intro t ht htregistered htpending htnamed
    have hremove : ¬ Removes (.add t.label answers.added) := fun ⟨_, hno⟩ => nomatch hno
    split
    · rename_i hrefused
      have hadd : ¬ Adds (.add t.label answers.added) := by
        rintro ⟨label, heq⟩
        simp only [MdnsAdapterCall.add.injEq] at heq
        simp [heq.2] at hrefused
      have hasked : Balanced (t.ask (.add t.label answers.added)) := ht.other hadd hremove rfl rfl
      exact fail_sound hasked _
    · rename_i hadded
      have hadd : Adds (.add t.label answers.added) := ⟨t.label, by simpa using hadded⟩
      have hnone : ¬ Standing Adds Removes t.adapter := by
        rw [ht.standing, htregistered]
        exact Bool.false_ne_true
      have hstanding : Standing Adds Removes (t.adapter ++ [.add t.label answers.added]) :=
        standing_snoc.mpr (.inl hadd)
      exact ⟨⟨ht.alternates.snoc ⟨fun _ => hnone, fun hno => absurd hno hremove⟩,
          iff_of_true hstanding rfl⟩, fun _ => rfl, fun _ => .inl (.inl rfl),
        fun hno => (nomatch htpending.symm.trans hno), fun _ _ => htnamed⟩
  cases hinitialized : s.initialized with
  | true =>
    rw [if_pos rfl, hinitialized]
    exact hready s h hregistered hpending hnamed
  | false =>
    rw [if_neg Bool.false_ne_true]
    have hasked : Balanced { s.ask (.initializeResponder answers.initialized) with
        initialized := answers.initialized } :=
      h.other (c := .initializeResponder answers.initialized) (fun ⟨_, hno⟩ => nomatch hno)
        (fun ⟨_, hno⟩ => nomatch hno) rfl rfl
    split
    · exact fail_sound hasked _
    · exact hready _ hasked hregistered hpending hnamed

theorem follow_sound (h : Sound s) (hpending : s.pendingConflict = false)
    (hstate : s.state = .waiting ∨ s.state = .probing ∨ s.state = .active) (address : UInt32) :
    Sound { s.follow address with restart := false } ∧
      (s.follow address).pendingConflict = false ∧ (s.follow address).hostname ≠ [] := by
  have hnamed : s.hostname ≠ [] := by
    refine h.named ?_ ?_
    all_goals
      intro hno
      simp [hno] at hstate
  unfold follow
  split
  · have hcounted : ∀ t : Mdns, t.adapter = s.adapter → t.registered = s.registered →
        t.pendingConflict = false → t.hostname ≠ [] →
        Sound { t.stop false with state := .waiting, restart := false } := by
      intro t hadapter hregistered htpending htnamed
      have hstop := stop_balanced false (h.balanced.same hadapter hregistered)
      exact .stopped (hstop.same rfl rfl) rfl (by simp [Mdns.Live])
        (fun hno => by simp [htpending] at hno) (by simpa using htnamed)
    split
    · exact ⟨hcounted _ rfl rfl hpending hnamed, by simpa using hpending, by simpa using hnamed⟩
    · exact ⟨hcounted _ rfl rfl hpending hnamed, by simpa using hpending, by simpa using hnamed⟩
  · exact ⟨⟨h.balanced.same rfl rfl, h.live, h.conflict, h.pending, h.named⟩, hpending, hnamed⟩

theorem poll_sound (h : Sound s) (answers : Answers) (enabled : Bool) (address : UInt32)
    (nowUs : UInt64) : Sound (s.poll answers enabled address nowUs) := by
  obtain ⟨hs, hpending⟩ := settleConflict_sound h
  unfold poll
  generalize s.settleConflict = s at hs hpending
  dsimp only
  split
  · exact hs
  rename_i hidle
  split
  · split
    · exact disable_sound hs false
    · exact hs
  rename_i hwithdrawing
  have hstate : s.state = .waiting ∨ s.state = .probing ∨ s.state = .active := by
    cases hstate : s.state <;> simp [hstate] at hidle hwithdrawing ⊢
  split
  · have hstop := stop_balanced false hs.balanced
    refine .stopped (hstop.same rfl rfl) rfl (by simp [Mdns.Live]) (fun hno => ?_) (fun _ _ => ?_)
    · simp [hpending] at hno
    · rw [stop_hostname]
      refine hs.named ?_ ?_
      all_goals
        intro hno
        simp [hno] at hstate
  · obtain ⟨hfollow, hfpending, hfnamed⟩ := follow_sound hs hpending hstate address
    split
    · rename_i hregistered
      exact register_sound hfollow.balanced (by simpa using hregistered) hfpending hfnamed _ _ _
    · split
      · exact fail_sound hfollow.balanced _
      · exact hfollow

theorem step_sound (h : Sound s) (call : Call) : Sound (s.step call) := by
  cases call with
  | configureHostname hostname => exact configureHostname_sound h hostname
  | poll answers enabled address nowUs => exact poll_sound h answers enabled address nowUs
  | nameResult success => exact nameResult_sound h success
  | withdraw linkUsable => exact withdraw_sound h linkUsable
  | disable linkUsable => exact disable_sound h linkUsable
  | retry => exact retry_sound h
  | identityFailure =>
    have hbalanced : Balanced { s with permanentFailure := true } := h.balanced.same rfl rfl
    exact fail_sound hbalanced _
  | networkChanged =>
    exact ⟨h.balanced.same rfl rfl, h.live, h.conflict, h.pending, h.named⟩

theorem run_sound (hostname : List UInt8) (calls : List Call) : Sound (run hostname calls) := by
  induction calls using List.reverseRecOn with
  | nil => exact create_sound hostname
  | append_singleton calls call ih =>
    rw [run_snoc]
    exact step_sound ih call

theorem poll_conflict (hstate : s.state = .conflict) (hpending : s.pendingConflict = true)
    (answers : Answers) (enabled : Bool) (address : UInt32) (nowUs : UInt64) :
    s.poll answers enabled address nowUs = { s.stop false with pendingConflict := false } := by
  unfold poll settleConflict
  rw [if_pos hpending]
  rw [if_pos (by simp [hstate])]

/-- Nothing is added while a name is withdrawn. -/
theorem step_withdrawing (hs : Sound s) (hstate : s.state = .withdrawing) (call : Call) :
    (s.step call).adapter = s.adapter ∨
      ∃ goodbye, (s.step call).adapter = s.adapter ++ [.remove goodbye] := by
  have hpending : s.pendingConflict = false := by
    by_contra hpending
    simpa [hstate] using hs.pending (by simpa using hpending)
  have hstop : ∀ goodbye, (s.stop goodbye).adapter = s.adapter ∨
      ∃ goodbye', (s.stop goodbye).adapter = s.adapter ++ [.remove goodbye'] := by
    intro goodbye
    rw [stop_eq]
    cases s.registered with
    | true => exact .inr ⟨goodbye, rfl⟩
    | false => exact .inl rfl
  have hdisable : ∀ linkUsable, (s.disable linkUsable).adapter = (s.stop (linkUsable &&
      s.state = .active)).adapter := by
    intro linkUsable
    unfold disable
    dsimp only
    split <;> rfl
  cases call with
  | configureHostname hostname => exact .inl (by simp [step, configureHostname, hstate])
  | poll answers enabled address nowUs =>
    have hsettled : s.settleConflict = s := by simp [settleConflict, hpending]
    rw [step, poll, hsettled]
    rw [if_neg (by simp [hstate]), if_pos hstate]
    split
    · rw [hdisable]
      exact hstop _
    · exact .inl rfl
  | nameResult success => exact .inl (by simp [step, nameResult, hstate])
  | withdraw linkUsable => exact .inl (by simp [step, withdraw, hstate])
  | disable linkUsable =>
    rw [step, hdisable]
    exact hstop _
  | retry =>
    simp only [step, retry]
    split
    · exact .inl rfl
    · exact hstop false
  | identityFailure =>
    rw [step, identityFailure, fail]
    rw [stop_eq]
    cases s.registered with
    | true => exact .inr ⟨false, rfl⟩
    | false => exact .inl rfl
  | networkChanged => exact .inl rfl

/-- Adding and removing alternate over every run, the state agrees with the registration, a
conflict that still holds one loses it at the next poll, a name that is withdrawn is not added
again, and only an active name is advertised. -/
theorem mdns_balanced (hostname : List UInt8) (calls : List Call) :
    let s := run hostname calls
    Alternates Adds Removes s.adapter ∧ (Standing Adds Removes s.adapter ↔ s.registered = true) ∧
    (s.Live → s.registered = true) ∧
    (s.registered = true → ¬ s.Live → s.pendingConflict = true ∧
      ∀ answers enabled address nowUs,
        (s.poll answers enabled address nowUs).registered = false ∧
        (s.poll answers enabled address nowUs).adapter = s.adapter ++ [.remove false]) ∧
    (s.state = .withdrawing → ∀ call c after, (s.step call).adapter = s.adapter ++ c :: after →
      ¬ ∃ label answer, MdnsAdapterCall.add label answer ∈ c :: after) ∧
    (s.advertised ≠ [] ↔ s.state = .active) := by
  have hs := run_sound hostname calls
  refine ⟨hs.balanced.alternates, hs.balanced.standing, hs.live, ?_, ?_, ?_⟩
  · intro hregistered hlive
    obtain hno | ⟨hstate, hpending⟩ := hs.conflict hregistered
    · exact absurd hno hlive
    · refine ⟨hpending, fun answers enabled address nowUs => ?_⟩
      rw [poll_conflict hstate hpending, stop_eq, hregistered]
      exact ⟨rfl, rfl⟩
  · rintro hstate call c after hadapter ⟨label, answer, hadd⟩
    obtain hsame | ⟨goodbye, hremove⟩ := step_withdrawing hs hstate call
    · rw [hsame] at hadapter
      exact absurd hadapter (by simp)
    · rw [hremove] at hadapter
      rw [← List.append_cancel_left hadapter] at hadd
      cases List.mem_singleton.mp hadd
  · unfold advertised
    constructor
    · intro hadvertised
      by_contra hno
      exact hadvertised (if_neg hno)
    · intro hstate
      rw [if_pos hstate]
      exact hs.named (by simp [hstate]) (by simp [hstate])

end Mdns

end WsprryPico.Network
