import WsprryPico.Provisioning.Staging
import WsprryPico.Lib.History

/-!
# The activation fails closed

The four steps of an activation run in order and once for a generation; a step that fails
leaves a fault, from which the platform is only asked to fail closed, until it confirms.
-/

namespace WsprryPico.Provisioning

open Lib
open Wtp.Json (Bytes)
open Manager

namespace PlatformCall

/-- A step that did not succeed. -/
def broken : PlatformCall → Bool
  | .closeAdmission _ ok => !ok
  | .prepare _ _ ok => !ok
  | .activity idle => !idle
  | .quiesce ok => !ok
  | .install _ _ ok => !ok
  | .restart ok => !ok
  | .failClosed .. => false

/-- The first step of the activation of a generation. -/
def prepares (generation : Nat) : PlatformCall → Bool
  | .prepare _ g _ => g = generation
  | _ => false

/-- The platform has confirmed that it failed closed. -/
def confirms : PlatformCall → Bool
  | .failClosed _ ok => ok
  | _ => false

end PlatformCall

open PlatformCall

/-- A later step comes directly behind the steps before it, which succeeded for its profile. -/
def Follows (before : List PlatformCall) : PlatformCall → Prop
  | .activity _ => ∃ init profile generation, before = init ++ [.prepare profile generation true]
  | .quiesce _ =>
    ∃ init profile generation, before = init ++ [.prepare profile generation true, .activity true]
  | .install profile generation _ =>
    ∃ init, before = init ++ [.prepare profile generation true, .activity true, .quiesce true]
  | .restart _ =>
    ∃ init profile generation, before =
      init ++ [.prepare profile generation true, .activity true, .quiesce true,
        .install profile generation true]
  | _ => True

/-- The steps of an activation that succeeded. -/
def completed (profile : Profile) (generation : Nat) : List PlatformCall :=
  [.prepare profile generation true, .activity true, .quiesce true,
    .install profile generation true, .restart true]

/-- The steps of an activation up to the first that failed. -/
inductive Broken (profile : Profile) (generation : Nat) : List PlatformCall → Prop where
  | prepare : Broken profile generation [.prepare profile generation false]
  | activity : Broken profile generation [.prepare profile generation true, .activity false]
  | quiesce :
    Broken profile generation
      [.prepare profile generation true, .activity true, .quiesce false]
  | install :
    Broken profile generation
      [.prepare profile generation true, .activity true, .quiesce true,
        .install profile generation false]
  | restart :
    Broken profile generation
      [.prepare profile generation true, .activity true, .quiesce true,
        .install profile generation true, .restart false]

namespace ActivationCoordinator

variable {b : PlatformAnswers} {c : ActivationCoordinator}

/-- The fault that a failure leaves: no profile, and the platform asked to fail closed. -/
def Latched (b : PlatformAnswers) (calls : List PlatformCall) (c c' : ActivationCoordinator) :
    Prop :=
  c'.platform = c.platform ++ calls ++ [.failClosed c'.generation b.failClosed] ∧
    c'.state = .fault ∧ c'.hasProfile = false ∧ c'.failClosedConfirmed = b.failClosed ∧
    (c.hasProfile = true ∨ c.profile = scrub c.profile → c'.profile = scrub c'.profile)

theorem latch_latched (fault : ActivationFault) (h : c.failClosedConfirmed = false) :
    Latched b [] c (c.latch b fault).2 ∧ (c.latch b fault).2.generation = c.generation ∧
      (c.latch b fault).2.requestId = c.requestId := by
  unfold latch retryFailClosed clearProfile
  by_cases hprofile : c.hasProfile = true
  · simp [Latched, ask, hprofile, h, scrub]
  · simp [Latched, ask, hprofile, h, scrub]

/-- The same, seen from before the steps that led to it. -/
theorem latch_behind {c' : ActivationCoordinator} {calls : List PlatformCall}
    (fault : ActivationFault) (h : c.failClosedConfirmed = false)
    (hasked : c' = { c with platform := c.platform ++ calls }) :
    Latched b calls c (c'.latch b fault).2 ∧ (c'.latch b fault).2.generation = c.generation := by
  subst hasked
  obtain ⟨⟨hplatform, hrest⟩, hgeneration, -⟩ :=
    latch_latched (b := b) (c := { c with platform := c.platform ++ calls }) fault h
  refine ⟨⟨?_, hrest⟩, hgeneration⟩
  rw [hplatform, List.append_nil]

/-- An activation ran through, or up to the step that failed. -/
def Executed (b : PlatformAnswers) (c c' : ActivationCoordinator) : Prop :=
  c'.generation = c.generation ∧
    ((c'.platform = c.platform ++ completed c.profile c.generation ∧ c'.state = .complete ∧
        c'.hasProfile = false ∧ c'.failClosedConfirmed = false ∧ c'.profile = scrub c'.profile) ∨
      ∃ calls, Broken c.profile c.generation calls ∧ Latched b calls c c')

theorem execute_executed (hprofile : c.hasProfile = true) (h : c.failClosedConfirmed = false) :
    Executed b c (c.execute b).2 := by
  have hbroken (fault : ActivationFault) {calls : List PlatformCall} {c' : ActivationCoordinator}
      (hcalls : Broken c.profile c.generation calls)
      (hasked : c' = { c with platform := c.platform ++ calls }) :
      Executed b c (c'.latch b fault).2 := by
    obtain ⟨hlatched, hgeneration⟩ := latch_behind (b := b) fault h hasked
    exact ⟨hgeneration, .inr ⟨calls, hcalls, hlatched⟩⟩
  unfold execute
  rw [if_neg (by simp [hprofile])]
  cases hprepare : b.prepare
  · exact hbroken .prepare .prepare rfl
  cases hidle : idleForAccess b.activity
  · exact hbroken .activityChanged .activity (by simp [ask])
  cases hquiesce : b.quiesce
  · exact hbroken .quiesce .quiesce (by simp [ask])
  cases hinstall : b.install
  · exact hbroken .install .install (by simp [ask])
  cases hrestart : b.restart
  · exact hbroken .restart .restart (by simp [ask])
  simp [Executed, clearProfile, ask, hprofile, completed, scrub]

/-! ## The invariant of the coordinator -/

/-- Nothing behind a confirmation that the platform failed closed. -/
def Silent (before : List PlatformCall) (_ : PlatformCall) : Prop :=
  ∀ call ∈ before, call.confirms = false

/-- What holds of a coordinator whose generations come from a store that has counted to `n`. -/
structure Sound (n : Nat) (c : ActivationCoordinator) : Prop where
  ordered : Each Follows c.platform
  silent : Each Silent c.platform
  single : ∀ g, c.platform.countP (prepares g) ≤ 1
  prepared : ∀ g, 0 < c.platform.countP (prepares g) → g ≤ c.generation
  unstarted : c.state = .pendingDelivery → c.platform.countP (prepares c.generation) = 0
  bound : c.generation ≤ n
  held : c.hasProfile = true ↔ c.state = .pendingDelivery
  wiped : c.hasProfile = false → c.profile = scrub c.profile
  complete : c.state = .complete →
    ∃ before profile, c.platform = before ++ completed profile c.generation
  broken : ∀ call ∈ c.platform, call.broken = true → c.state = .fault
  asked : ∀ g ok, .failClosed g ok ∈ c.platform → c.state = .fault ∧ g = c.generation
  confirmed : c.failClosedConfirmed = true ↔ ∃ call ∈ c.platform, call.confirms = true

variable {n : Nat}

theorem sound_new (n : Nat) : Sound n {} where
  ordered := .nil
  silent := .nil
  single g := Nat.zero_le _
  prepared g hg := absurd hg (Nat.lt_irrefl 0)
  unstarted := nofun
  bound := Nat.zero_le n
  held := by decide
  wiped _ := rfl
  complete := nofun
  broken := nofun
  asked := nofun
  confirmed := by decide

theorem Sound.mono {n' : Nat} (h : Sound n c) (hn : n ≤ n') : Sound n' c :=
  { h with bound := Nat.le_trans h.bound hn }

/-- What was asked before any fault. -/
structure Trail (generation : Nat) (l : List PlatformCall) : Prop where
  ordered : Each Follows l
  single : ∀ g, l.countP (prepares g) ≤ 1
  prepared : ∀ g, 0 < l.countP (prepares g) → g ≤ generation
  unasked : ∀ g ok, .failClosed g ok ∉ l

theorem Trail.unconfirmed {g : Nat} {l : List PlatformCall} (h : Trail g l) :
    ∀ call ∈ l, call.confirms = false := by
  intro call hcall
  cases call with
  | failClosed g ok => exact absurd hcall (h.unasked g ok)
  | _ => rfl

theorem Trail.silent {g : Nat} {l : List PlatformCall} (h : Trail g l) : Each Silent l :=
  .of_forall h.unconfirmed

theorem Trail.admission {g g' : Nat} {l : List PlatformCall} (h : Trail g l) (hg : g ≤ g')
    (ok : Bool) : Trail g' (l ++ [.closeAdmission g' ok]) where
  ordered := h.ordered.snoc trivial
  single g := by simpa [prepares] using h.single g
  prepared g hpos := Nat.le_trans (h.prepared g (by simpa [prepares] using hpos)) hg
  unasked g ok := by simpa using h.unasked g ok

/-- The steps of the activation of a generation that has not been prepared yet. -/
theorem Trail.steps {g : Nat} {l calls : List PlatformCall} (h : Trail g l)
    (hnew : l.countP (prepares g) = 0) (hfollows : Extends Follows l calls)
    (hunasked : ∀ g ok, .failClosed g ok ∉ calls)
    (hcount : ∀ g', calls.countP (prepares g') = if g = g' then 1 else 0) : Trail g (l ++ calls) where
  ordered := h.ordered.append hfollows
  single g' := by
    have hle := h.single g'
    rw [List.countP_append, hcount]
    by_cases heq : g = g'
    · rw [← heq, if_pos rfl]
      omega
    · rw [if_neg heq]
      exact hle
  prepared g' hpos := by
    rw [List.countP_append, hcount] at hpos
    by_cases heq : g = g'
    · exact Nat.le_of_eq heq.symm
    · rw [if_neg heq] at hpos
      exact h.prepared g' hpos
  unasked g' ok := by
    rw [List.mem_append, not_or]
    exact ⟨h.unasked g' ok, hunasked g' ok⟩

theorem Trail.completed {g : Nat} {l : List PlatformCall} (h : Trail g l)
    (hnew : l.countP (prepares g) = 0) (profile : Profile) :
    Trail g (l ++ completed profile g) := by
  refine h.steps hnew ?_ (by simp [Provisioning.completed])
    (by simp [Provisioning.completed, List.countP_cons, prepares])
  refine ⟨trivial, ⟨l, profile, g, rfl⟩, ⟨l, profile, g, by simp⟩, ⟨l, by simp⟩,
    ⟨l, profile, g, by simp⟩, trivial⟩

theorem Trail.broken {g : Nat} {l calls : List PlatformCall} {profile : Profile} (h : Trail g l)
    (hnew : l.countP (prepares g) = 0) (hcalls : Broken profile g calls) : Trail g (l ++ calls) := by
  cases hcalls with
  | prepare => exact h.steps hnew ⟨trivial, trivial⟩ (by simp) (by simp [List.countP_cons, prepares])
  | activity =>
    exact h.steps hnew ⟨trivial, ⟨l, profile, g, rfl⟩, trivial⟩ (by simp)
      (by simp [List.countP_cons, prepares])
  | quiesce =>
    exact h.steps hnew ⟨trivial, ⟨l, profile, g, rfl⟩, ⟨l, profile, g, by simp⟩, trivial⟩ (by simp)
      (by simp [List.countP_cons, prepares])
  | install =>
    exact h.steps hnew ⟨trivial, ⟨l, profile, g, rfl⟩, ⟨l, profile, g, by simp⟩, ⟨l, by simp⟩,
      trivial⟩ (by simp) (by simp [List.countP_cons, prepares])
  | restart =>
    exact h.steps hnew ⟨trivial, ⟨l, profile, g, rfl⟩, ⟨l, profile, g, by simp⟩, ⟨l, by simp⟩,
      ⟨l, profile, g, by simp⟩, trivial⟩ (by simp) (by simp [List.countP_cons, prepares])

theorem Sound.trail (h : Sound n c) (hstate : c.state ≠ .fault) : Trail c.generation c.platform where
  ordered := h.ordered
  single := h.single
  prepared := h.prepared
  unasked g ok hcall := hstate (h.asked g ok hcall).1

theorem Sound.unconfirmed (h : Sound n c) (hstate : c.state ≠ .fault) :
    c.failClosedConfirmed = false := by
  rw [Bool.eq_false_iff]
  intro hconfirmed
  obtain ⟨call, hcall, hconfirms⟩ := h.confirmed.mp hconfirmed
  exact absurd (((h.trail hstate).unconfirmed call hcall).symm.trans hconfirms) nofun

theorem Sound.unbroken (h : Sound n c) (hstate : c.state ≠ .fault) :
    ∀ call ∈ c.platform, call.broken = false := by
  intro call hcall
  rw [Bool.eq_false_iff]
  exact fun hbroken => hstate (h.broken call hcall hbroken)

theorem Trail.fault {l : List PlatformCall} {ok : Bool} (h : Trail c.generation l)
    (hplatform : c.platform = l ++ [.failClosed c.generation ok]) (hstate : c.state = .fault)
    (hprofile : c.hasProfile = false) (hwiped : c.profile = scrub c.profile)
    (hconfirmed : c.failClosedConfirmed = ok) (hbound : c.generation ≤ n) : Sound n c where
  ordered := by
    rw [hplatform]
    exact h.ordered.snoc trivial
  silent := by
    rw [hplatform]
    exact h.silent.snoc h.unconfirmed
  single g := by
    rw [hplatform]
    simpa [prepares] using h.single g
  prepared g hpos := by
    rw [hplatform] at hpos
    exact h.prepared g (by simpa [prepares] using hpos)
  unstarted hpending := absurd (hstate.symm.trans hpending) nofun
  bound := hbound
  held := by simp [hprofile, hstate]
  wiped _ := hwiped
  complete hcomplete := absurd (hstate.symm.trans hcomplete) nofun
  broken _ _ _ := hstate
  asked g ok' hcall := by
    refine ⟨hstate, ?_⟩
    rw [hplatform, List.mem_append, List.mem_singleton] at hcall
    rcases hcall with hcall | hcall
    · exact absurd hcall (h.unasked g ok')
    · injection hcall
  confirmed := by
    rw [hconfirmed, hplatform]
    constructor
    · intro hok
      exact ⟨.failClosed c.generation ok, by simp, hok⟩
    · rintro ⟨call, hcall, hconfirms⟩
      rw [List.mem_append, List.mem_singleton] at hcall
      rcases hcall with hcall | rfl
      · exact absurd ((h.unconfirmed call hcall).symm.trans hconfirms) nofun
      · exact hconfirms

theorem Sound.staged (h : Sound n c) (hadmits : c.blocksAdmission = false) {requestId : Bytes}
    {generation : Nat} {now : UInt64} {profile : Profile} (hgeneration : n < generation)
    (hstaged : (c.stage b requestId profile generation now).1 = true) :
    Sound generation (c.stage b requestId profile generation now).2 ∧
      (c.stage b requestId profile generation now).2.state = .pendingDelivery ∧
      (c.stage b requestId profile generation now).2.requestId = requestId ∧
      (c.stage b requestId profile generation now).2.generation = generation := by
  have hfault := (blocksAdmission_eq_false.mp hadmits).2
  have hle : c.generation ≤ generation := Nat.le_trans h.bound (Nat.le_of_lt hgeneration)
  have htrail := (h.trail hfault).admission hle b.closeAdmission
  unfold ActivationCoordinator.stage at hstaged ⊢
  split at hstaged
  · cases hstaged
  rename_i hready
  rw [if_neg hready]
  split at hstaged
  · cases hstaged
  rename_i hclosed
  rw [if_neg hclosed]
  rw [Bool.not_eq_true, Bool.not_eq_false'] at hclosed
  have hplatform : ((c.ask (.closeAdmission generation b.closeAdmission)).clearProfile).platform =
      c.platform ++ [.closeAdmission generation b.closeAdmission] := by
    unfold clearProfile ask
    split <;> rfl
  rw [← hplatform] at htrail
  refine ⟨?_, rfl, rfl, rfl⟩
  refine
    { ordered := htrail.ordered, silent := htrail.silent, single := htrail.single,
      prepared := htrail.prepared, unstarted := fun _ => ?_, bound := Nat.le_refl _,
      held := by simp, wiped := nofun, complete := nofun, broken := fun call hcall hbroken => ?_,
      asked := fun g ok hcall => absurd hcall (htrail.unasked g ok), confirmed := ?_ }
  · rw [hplatform]
    by_contra hpos
    have hlt : 0 < c.platform.countP (prepares generation) := by
      simpa [prepares] using Nat.pos_of_ne_zero hpos
    have hge := h.prepared generation hlt
    have hbound := h.bound
    omega
  · rw [hplatform, hclosed, List.mem_append, List.mem_singleton] at hcall
    rcases hcall with hcall | rfl
    · exact absurd ((h.unbroken hfault call hcall).symm.trans hbroken) nofun
    · cases hbroken
  · simp only [Bool.false_eq_true, false_iff, not_exists, not_and, Bool.not_eq_true]
    exact htrail.unconfirmed

theorem Sound.unheld (h : Sound n c) (hpending : c.state ≠ .pendingDelivery) :
    c.profile = scrub c.profile := by
  refine h.wiped ?_
  rw [Bool.eq_false_iff]
  exact fun hheld => hpending (h.held.mp hheld)

/-- Where nothing was staged the platform was asked once at most. -/
theorem Sound.unstaged (h : Sound n c) (hadmits : c.blocksAdmission = false) {requestId : Bytes}
    {generation : Nat} {now : UInt64} {profile : Profile} (hgeneration : n < generation)
    (hstaged : (c.stage b requestId profile generation now).1 = false) :
    ∃ l, Trail generation l ∧
      (c.stage b requestId profile generation now).2 = { c with platform := l } := by
  have hfault := (blocksAdmission_eq_false.mp hadmits).2
  have hle : c.generation ≤ generation := Nat.le_trans h.bound (Nat.le_of_lt hgeneration)
  have htrail := h.trail hfault
  unfold ActivationCoordinator.stage at hstaged ⊢
  split
  · exact ⟨c.platform, { htrail with
      prepared := fun g hg => Nat.le_trans (h.prepared g hg) hle }, rfl⟩
  · rename_i hready
    rw [if_neg hready] at hstaged
    split
    · exact ⟨_, htrail.admission hle b.closeAdmission, rfl⟩
    · rename_i hclosed
      rw [if_neg hclosed] at hstaged
      cases hstaged

/-- A profile that could not be staged leaves a fault. -/
theorem Trail.committedFault {l : List PlatformCall} {generation : Nat} (h : Trail generation l)
    (hconfirmed : c.failClosedConfirmed = false) (hwiped : c.profile = scrub c.profile)
    {requestId : Bytes} {c' : ActivationCoordinator}
    (hc' : c' = ({ c with platform := l }).committedFault b requestId generation .stage) :
    Sound generation c' ∧ c'.state = .fault ∧ c'.requestId = requestId ∧
      c'.generation = generation := by
  subst hc'
  unfold ActivationCoordinator.committedFault
  rw [if_neg (by decide)]
  obtain ⟨⟨hplatform, hstate, hprofile, hok, hscrubbed⟩, hsame, hid⟩ :=
    latch_latched (b := b)
      (c := { c with platform := l, requestId, generation, stagedMs := 0 }) .stage hconfirmed
  refine ⟨?_, hstate, hid, hsame⟩
  · refine Trail.fault (l := l) ?_ ?_ hstate hprofile (hscrubbed (.inr hwiped)) hok
      (Nat.le_of_eq hsame)
    · rw [hsame]
      exact h
    · rw [hplatform, List.append_nil]

theorem Sound.activated (h : Sound n c) (hadmits : c.blocksAdmission = false) (requestId : Bytes)
    {generation previous : Nat} (now : UInt64) (profile : Profile) (hgeneration : n < generation)
    (hprevious : generation ≠ previous) :
    Sound generation (activated b requestId profile generation previous now c) ∧
      (activated b requestId profile generation previous now c).requestId = requestId ∧
      (activated b requestId profile generation previous now c).generation = generation := by
  obtain ⟨hpending, hfault⟩ := blocksAdmission_eq_false.mp hadmits
  unfold Manager.activated
  rw [if_neg hprevious]
  split
  · rename_i hstaged
    obtain ⟨hsound, -, hid, hgen⟩ := h.staged hadmits hgeneration hstaged
    exact ⟨hsound, hid, hgen⟩
  · rename_i hstaged
    rw [Bool.not_eq_true] at hstaged
    obtain ⟨l, htrail, hl⟩ := h.unstaged hadmits hgeneration hstaged
    obtain ⟨hsound, -, hid, hgen⟩ :=
      htrail.committedFault (b := b) (h.unconfirmed hfault) (h.unheld hpending) rfl
    rw [hl]
    exact ⟨hsound, hid, hgen⟩

/-! ## Polls and releases -/

theorem Sound.execute (h : Sound n c) (hstate : c.state = .pendingDelivery) :
    Sound n (c.execute b).2 := by
  have hfault : c.state ≠ .fault := by simp [hstate]
  have htrail := h.trail hfault
  have hheld := h.held.mpr hstate
  obtain ⟨hgeneration, ⟨hplatform, hcomplete, hprofile, hconfirmed, hwiped⟩ |
    ⟨calls, hcalls, hplatform, hfaulted, hprofile, hok, hscrubbed⟩⟩ :=
    execute_executed (b := b) hheld (h.unconfirmed hfault)
  · have hdone := htrail.completed (h.unstarted hstate) c.profile
    rw [← hplatform] at hdone
    refine
      { ordered := hdone.ordered, silent := hdone.silent, single := hdone.single,
        prepared := fun g hg => ?_, unstarted := fun hpending => ?_,
        bound := ?_, held := by simp [hprofile, hcomplete], wiped := fun _ => hwiped,
        complete := fun _ => ⟨c.platform, c.profile, by rw [hplatform, hgeneration]⟩,
        broken := fun call hcall hbroken => ?_,
        asked := fun g ok hcall => absurd hcall (hdone.unasked g ok), confirmed := ?_ }
    · rw [hgeneration]
      exact hdone.prepared g hg
    · exact absurd (hcomplete.symm.trans hpending) nofun
    · rw [hgeneration]
      exact h.bound
    · rw [hplatform, List.mem_append] at hcall
      rcases hcall with hcall | hcall
      · exact absurd ((h.unbroken hfault call hcall).symm.trans hbroken) nofun
      · simp only [Provisioning.completed, List.mem_cons, List.not_mem_nil, or_false] at hcall
        rcases hcall with rfl | rfl | rfl | rfl | rfl <;> cases hbroken
    · rw [hconfirmed]
      simp only [Bool.false_eq_true, false_iff, not_exists, not_and, Bool.not_eq_true]
      exact hdone.unconfirmed
  · refine Trail.fault (l := c.platform ++ calls) ?_ hplatform hfaulted hprofile
      (hscrubbed (.inl hheld)) hok ?_
    · rw [hgeneration]
      exact htrail.broken (h.unstarted hstate) hcalls
    · rw [hgeneration]
      exact h.bound

theorem retry_eq (h : c.failClosedConfirmed = false) :
    c.retryFailClosed b =
      { c with platform := c.platform ++ [.failClosed c.generation b.failClosed],
               failClosedConfirmed := b.failClosed } := by
  simp [retryFailClosed, ask, h]

theorem Sound.retry (h : Sound n c) (hstate : c.state = .fault)
    (hunconfirmed : c.failClosedConfirmed = false) : Sound n (c.retryFailClosed b) := by
  have hnone : ∀ call ∈ c.platform, call.confirms = false := by
    intro call hcall
    rw [Bool.eq_false_iff]
    intro hconfirms
    exact absurd (hunconfirmed.symm.trans (h.confirmed.mpr ⟨call, hcall, hconfirms⟩)) nofun
  rw [retry_eq hunconfirmed]
  refine
    { ordered := h.ordered.snoc trivial, silent := h.silent.snoc hnone,
      single := fun g => by simpa [prepares] using h.single g,
      prepared := fun g hg => h.prepared g (by simpa [prepares] using hg),
      unstarted := fun hpending => absurd (hstate.symm.trans hpending) nofun,
      bound := h.bound, held := h.held, wiped := h.wiped,
      complete := fun hcomplete => absurd (hstate.symm.trans hcomplete) nofun,
      broken := fun _ _ _ => hstate, asked := fun g ok hcall => ?_, confirmed := ?_ }
  · rcases List.mem_append.mp hcall with hcall | hcall
    · exact h.asked g ok hcall
    · rw [List.mem_singleton] at hcall
      injection hcall with hg
      exact ⟨hstate, hg⟩
  · constructor
    · intro hok
      exact ⟨.failClosed c.generation b.failClosed, by simp, hok⟩
    · rintro ⟨call, hcall, hconfirms⟩
      rcases List.mem_append.mp hcall with hcall | hcall
      · exact absurd ((hnone call hcall).symm.trans hconfirms) nofun
      · rw [List.mem_singleton] at hcall
        rwa [hcall] at hconfirms

theorem Sound.poll (h : Sound n c) (now : UInt64) : Sound n (c.poll b now) := by
  unfold ActivationCoordinator.poll
  split
  · rename_i hdue
    exact h.execute hdue.1
  · split
    · rename_i hfault
      exact h.retry hfault.1 (by simpa using hfault.2)
    · exact h

theorem Sound.release (h : Sound n c) (requestId : Bytes) (generation : Nat) :
    Sound n (c.release b requestId generation).2 := by
  unfold ActivationCoordinator.release
  split
  · exact h
  split
  · rename_i hpending
    exact h.execute hpending
  split
  · rename_i hfault
    exact h.retry hfault.1 (by simpa using hfault.2)
  · exact h

end ActivationCoordinator

namespace Manager

variable {p : Parsers} {a : Answers} {m : Manager} {log : List ManagerEvent} {call : ManagerCall}
  {r : ManagerRequest} {c : ActivationCoordinator}

theorem perform_poll (now : UInt64) : (m.perform p a (.poll now)).2.activation =
    m.activation.map (·.poll a.platform now) := by
  unfold perform poll
  dsimp only
  rw [expire_activation]
  cases hc : m.activation with
  | none => exact expire_activation.trans hc
  | some c => rfl

theorem perform_release (requestId : Bytes) (generation : Nat) :
    (m.perform p a (.releaseActivation requestId generation)).2.activation =
      m.activation.map fun c => (c.release a.platform requestId generation).2 := by
  unfold perform releaseActivation
  cases hc : m.activation with
  | none => exact hc
  | some c => rfl

/-- The coordinator of a manager is sound for what its store has counted to. -/
def SoundActivation (m : Manager) : Prop :=
  ∀ c, m.activation = some c → c.Sound m.store.sequence

theorem SoundActivation.acts {after : Reply × Manager} (h : SoundActivation m) (hadmits : Admits m)
    (hacts : Acts p a m call after) : SoundActivation after.2 := by
  cases hacts with
  | refused | failed | opened | wrote | cancelled => exact h
  | @committed requestId _ _ _ _ now session profile store media _ _ activation hown _ _ _ _ _ _
      hselect hactivation =>
    intro c hc
    have hsequence := select_sequence p .runtimeProfile (serializeProfile profile) m.store m.media
    rw [hselect] at hsequence
    have hle : m.store.sequence ≤ store.sequence := by
      dsimp only at hsequence
      omega
    change activation = some c at hc
    rcases hactivation with hsame | hactivated
    · exact (h c (hsame ▸ hc)).mono hle
    · rw [hactivated, Option.map_eq_some_iff] at hc
      obtain ⟨c', hc', rfl⟩ := hc
      have hsound := h c' hc'
      rcases hsequence with hsequence | ⟨-, hsequence⟩
      · unfold activated
        rw [if_pos hsequence]
        exact hsound.mono hle
      · dsimp only at hsequence ⊢
        have hlt : m.store.sequence < store.sequence := by omega
        exact (hsound.activated (hadmits session c' hown.current hc') requestId now profile hlt
          (Nat.ne_of_gt hlt)).1

theorem soundActivation_ran (h : Ran p log m) : SoundActivation m := by
  induction h with
  | start deviceId store media activating =>
    intro c hc
    cases activating with
    | false => cases hc
    | true =>
      cases hc
      exact ActivationCoordinator.sound_new _
  | elsewhere _ _ _ hsequence ih => exact fun c hc => (ih c hc).mono hsequence
  | @call log m h a call ih =>
    have hexpired (now : UInt64) : SoundActivation (m.expire now) := by
      intro c hc
      rw [expire_activation] at hc
      rw [expire_store]
      exact ih c hc
    have hidle (hnone : call.request = none) : (m.perform p a call).2.store = m.store := by
      obtain ⟨_, _, hidle⟩ := perform_idle p a m hnone
      rw [hidle]
      exact entered_store
    obtain ⟨r, hrequest⟩ | ⟨now, rfl⟩ | ⟨requestId, generation, rfl⟩ := call.kinds
    · rcases perform_acts p a m hrequest with
        ⟨hm, -⟩ | ⟨code, -, hdo⟩ | ⟨after, hacts, hdo⟩
      · rw [hm]
        exact hexpired r.now
      · rw [hdo]
        exact hexpired r.now
      · rw [hdo]
        intro c hc
        rw [remember_activation] at hc
        rw [remember_store]
        exact (hexpired r.now).acts ((admits_ran h).expire r.now) hacts c hc
    · intro c hc
      rw [perform_poll, Option.map_eq_some_iff] at hc
      obtain ⟨c', hc', rfl⟩ := hc
      rw [hidle rfl]
      exact (ih c' hc').poll now
    · intro c hc
      rw [perform_release, Option.map_eq_some_iff] at hc
      obtain ⟨c', hc', rfl⟩ := hc
      rw [hidle rfl]
      exact (ih c' hc').release requestId generation

/-! ## While a profile is being activated -/

theorem Admits.unopened (hadmits : Admits m) (hc : m.activation = some c)
    (hblocks : c.blocksAdmission = true) : m.session = none := by
  cases hsession : m.session with
  | none => rfl
  | some s => exact absurd ((hadmits s c hsession hc).symm.trans hblocks) nofun

/-- An operation neither opens a session nor touches the activation. -/
theorem blocked_request (hadmits : Admits m) (hc : m.activation = some c)
    (hblocks : c.blocksAdmission = true) (hrequest : call.request = some r) :
    (m.perform p a call).2.activation = some c ∧ (m.perform p a call).2.session = none := by
  have hexpired : (m.expire r.now).activation = some c := by rw [expire_activation, hc]
  have hclosed := (hadmits.expire r.now).unopened hexpired hblocks
  rcases perform_acts p a m hrequest with
    ⟨hm, -⟩ | ⟨code, -, hdo⟩ | ⟨after, hacts, hdo⟩
  · rw [hm]
    exact ⟨hexpired, hclosed⟩
  · rw [hdo]
    exact ⟨hexpired, rfl⟩
  · rw [hdo]
    rw [remember_activation, remember_session]
    cases hacts with
    | refused => exact ⟨hexpired, hclosed⟩
    | failed => exact ⟨hexpired, rfl⟩
    | opened _ _ hopen => exact absurd ((hopen c hexpired).symm.trans hblocks) nofun
    | wrote hown => exact absurd (hclosed.symm.trans hown.current) nofun
    | committed hown => exact absurd (hclosed.symm.trans hown.current) nofun
    | cancelled hown => exact absurd (hclosed.symm.trans hown.current) nofun

/-- A fault stays, for its generation; a poll asks to fail closed until that is confirmed. -/
theorem fault_perform (h : Ran p log m) (hc : m.activation = some c) (hfault : c.state = .fault)
    (a : Answers) (call : ManagerCall) :
    ∃ c', (m.perform p a call).2.activation = some c' ∧ c'.state = .fault ∧
      c'.generation = c.generation ∧ c'.hasProfile = c.hasProfile ∧ c'.profile = c.profile ∧
      ∀ now, call = .poll now → c'.platform =
        if c.platform.any (·.confirms) then c.platform
        else c.platform ++ [.failClosed c.generation a.platform.failClosed] := by
  have hconfirmed := (soundActivation_ran h c hc).confirmed
  have hany : c.platform.any (·.confirms) = c.failClosedConfirmed := by
    rw [Bool.eq_iff_iff, List.any_eq_true]
    exact hconfirmed.symm
  have hblocks : c.blocksAdmission = true := by simp [ActivationCoordinator.blocksAdmission, hfault]
  obtain ⟨r, hrequest⟩ | ⟨now, rfl⟩ | ⟨requestId, generation, rfl⟩ := call.kinds
  · refine ⟨c, (blocked_request (admits_ran h) hc hblocks hrequest).1, hfault, rfl, rfl, rfl, ?_⟩
    rintro now rfl
    cases hrequest
  · rw [perform_poll, hc]
    refine ⟨c.poll a.platform now, rfl, ?_⟩
    unfold ActivationCoordinator.poll
    rw [if_neg (by simp [hfault]), hany]
    cases hunconfirmed : c.failClosedConfirmed with
    | false =>
      rw [if_pos ⟨hfault, rfl⟩, ActivationCoordinator.retry_eq hunconfirmed]
      exact ⟨hfault, rfl, rfl, rfl, fun _ _ => rfl⟩
    | true =>
      rw [if_neg (by simp)]
      exact ⟨hfault, rfl, rfl, rfl, fun _ _ => rfl⟩
  · rw [perform_release, hc]
    refine ⟨(c.release a.platform requestId generation).2, rfl, ?_⟩
    unfold ActivationCoordinator.release
    split
    · exact ⟨hfault, rfl, rfl, rfl, fun _ h => (by cases h)⟩
    rw [if_neg (by simp [hfault])]
    cases hunconfirmed : c.failClosedConfirmed with
    | false =>
      rw [if_pos ⟨hfault, rfl⟩, ActivationCoordinator.retry_eq hunconfirmed]
      exact ⟨hfault, rfl, rfl, rfl, fun _ h => (by cases h)⟩
    | true =>
      rw [if_neg (by simp)]
      exact ⟨hfault, rfl, rfl, rfl, fun _ h => (by cases h)⟩

theorem mem_eraseP {q : ReplayEntry → Bool} {entry : ReplayEntry} {l : List ReplayEntry}
    (hq : q entry = false) (h : entry ∈ l) : entry ∈ l.eraseP q :=
  (List.mem_eraseP_of_neg (by simp [hq])).mpr h

/-- A reply that the activation needs makes no room for another. -/
theorem remember_protects {entry : ReplayEntry} (h : entry ∈ m.replays)
    (hprotects : m.protects entry = true) (requestId : Bytes) (digest : Wtp.PayloadDigest)
    (result : Result) (now : UInt64) :
    entry ∈ (m.remember requestId digest result now).replays := by
  unfold remember
  split
  · exact h
  split
  · split
    · exact h
    · exact List.mem_append_left _ (mem_eraseP (by simp [hprotects]) h)
  · exact List.mem_append_left _ h

/-- The reply of the apply stays while its activation is pending or faulted. -/
theorem protected_reply (hadmits : Admits m) (hc : m.activation = some c)
    (hblocks : c.blocksAdmission = true) {entry : ReplayEntry} (call : ManagerCall)
    (hentry : entry ∈ (m.entered call).replays)
    (hprotects : c.protectsReplay entry.requestId entry.result.generation = true) :
    entry ∈ (m.perform p a call).2.replays := by
  cases hrequest : call.request with
  | none =>
    obtain ⟨_, _, hidle⟩ := perform_idle p a m hrequest
    rw [hidle]
    exact hentry
  | some r =>
    rw [entered_request hrequest, expire_replays] at hentry
    have hbody := blocked_request (p := p) (a := a) hadmits hc hblocks hrequest
    rw [perform_request hrequest] at hbody ⊢
    rcases once_cases r.requestId r.digest r.now (call.body p a) m with
      ⟨-, hdo⟩ | ⟨_, -, -, -, hdo⟩ | ⟨_, -, -, -, hdo⟩ | ⟨-, -, hdo⟩
    · rw [hdo]
      simpa [refuse] using hentry
    · rw [hdo]
      simpa [failed, terminate] using hentry
    · rw [hdo]
      simpa using hentry
    · rw [hdo] at hbody ⊢
      have hactivation := hbody.1
      simp only [Prod.map, id_eq, remember_activation] at hactivation
      refine remember_protects ?_ ?_ _ _ _ _
      · rw [body_replays, expire_replays]
        exact hentry
      · rw [protects, hactivation]
        exact hprotects

/-- A body that blocks admission has committed, and its reply names the generation. -/
theorem acts_blocks {after : Reply × Manager} (hsound : SoundActivation m)
    (hc : m.activation = some c) (hopen : c.blocksAdmission = false)
    (hrequest : call.request = some r) (hacts : Acts p a m call after) {c' : ActivationCoordinator}
    (hc' : after.2.activation = some c') (hblocks : c'.blocksAdmission = true) :
    c'.protectsReplay r.requestId after.1.result.generation = true := by
  have hother (hsame : some c = some c') : False := by
    cases hsame
    exact absurd (hopen.symm.trans hblocks) nofun
  cases hacts with
  | refused | failed | opened | wrote | cancelled => exact (hother (hc.symm.trans hc')).elim
  | @committed requestId _ _ _ _ now session profile store media _ _ activation hown _ _ _ _ _ _
      hselect hactivation =>
    cases hrequest
    have hsequence := select_sequence p .runtimeProfile (serializeProfile profile) m.store m.media
    rw [hselect] at hsequence
    dsimp only at hsequence hc' ⊢
    rcases hactivation with hsame | hactivated
    · exact (hother (hc.symm.trans (hsame.symm.trans hc'))).elim
    · rw [hactivated, hc, Option.map_some] at hc'
      cases hc'
      rcases hsequence with hsequence | ⟨-, hsequence⟩
      · refine (hother ?_).elim
        unfold activated
        rw [if_pos hsequence]
      · have hlt : m.store.sequence < store.sequence := by omega
        obtain ⟨-, hid, hgeneration⟩ := (hsound c hc).activated (b := a.platform) hopen requestId
          now profile hlt (Nat.ne_of_gt hlt)
        rw [ActivationCoordinator.protectsReplay, ActivationCoordinator.terminalMatches, hblocks, hid,
          hgeneration]
        simp only [ne_eq, decide_true, Bool.and_true, Bool.true_and, decide_eq_true_eq]
        omega

/-- An apply that stages an activation, or leaves a fault, has its reply kept for it. -/
theorem staged_reply (h : Ran p log m) (hc : m.activation = some c)
    (hopen : c.blocksAdmission = false) {c' : ActivationCoordinator}
    (hc' : (m.perform p a call).2.activation = some c') (hblocks : c'.blocksAdmission = true) :
    ∃ entry ∈ (m.perform p a call).2.replays,
      c'.protectsReplay entry.requestId entry.result.generation = true := by
  have hother (hsame : some c = some c') : False := by
    cases hsame
    exact absurd (hopen.symm.trans hblocks) nofun
  obtain ⟨r, hrequest⟩ | ⟨now, rfl⟩ | ⟨requestId, generation, rfl⟩ := call.kinds
  · have hexpired : (m.expire r.now).activation = some c := by rw [expire_activation, hc]
    rw [perform_request hrequest] at hc' ⊢
    rcases once_cases r.requestId r.digest r.now (call.body p a) m with
      ⟨-, hdo⟩ | ⟨_, -, -, -, hdo⟩ | ⟨_, -, -, -, hdo⟩ | ⟨hvalid, -, hdo⟩
    · rw [hdo] at hc'
      exact (hother (hexpired.symm.trans hc')).elim
    · rw [hdo] at hc'
      exact (hother (hexpired.symm.trans hc')).elim
    · rw [hdo] at hc'
      exact (hother (hexpired.symm.trans hc')).elim
    · rw [hdo] at hc' ⊢
      simp only [Prod.map, id_eq, remember_activation] at hc'
      have hsound : SoundActivation (m.expire r.now) := by
        intro c hc
        rw [expire_activation] at hc
        rw [expire_store]
        exact soundActivation_ran h c hc
      refine ⟨_, remember_mem hvalid ?_,
        acts_blocks hsound hexpired hopen hrequest (body_acts _ _ call _) hc' hblocks⟩
      rw [body_replays, expire_replays]
      exact (replays_nodup h).sublist (List.filter_sublist.map _)
  · rw [perform_poll, hc, Option.map_some, ActivationCoordinator.poll_admits hopen] at hc'
    exact (hother hc').elim
  · rw [perform_release, hc, Option.map_some, ActivationCoordinator.release_admits hopen] at hc'
    exact (hother hc').elim

theorem stage_fault {reply : Reply} (hreply : (m.perform p a call).1 = some reply)
    (hreplaced : reply.replaced ≠ none) (hcode : reply.result.code = .activationFault) :
    ∃ c, (m.perform p a call).2.activation = some c ∧ c.state = .fault := by
  obtain ⟨r, hrequest⟩ | ⟨_, rfl⟩ | ⟨_, _, rfl⟩ := call.kinds
  · rcases perform_acts p a m hrequest with
      ⟨-, other, hother, hnone, -⟩ | ⟨code, -, hdo⟩ | ⟨after, hacts, hdo⟩
    · cases hother.symm.trans hreply
      exact absurd hnone hreplaced
    · rw [hdo] at hreply
      cases hreply
      exact absurd rfl hreplaced
    · rw [hdo] at hreply ⊢
      cases hreply
      rw [remember_activation]
      cases hacts with
      | refused | failed | opened | wrote | cancelled => exact absurd rfl hreplaced
      | committed _ _ _ _ _ _ _ _ _ hfault => exact hfault hcode
  · cases hreply
  · cases hreply

/-- The activation that the apply has staged, polled until it is due. -/
def examplePolled (platform : PlatformAnswers) : Manager :=
  (exampleApplied.2.perform exampleParsers { platform } (.poll 5004)).2

theorem examplePolled_activation (platform : PlatformAnswers) :
    (examplePolled platform).activation = some (exampleActivation.poll platform 5004) := by
  unfold examplePolled
  rw [perform_poll, exampleApplied_staged.2]
  rfl

theorem examplePolled_ran (platform : PlatformAnswers) :
    ∃ log, Ran exampleParsers log (examplePolled platform) :=
  ⟨_, exampleApplied_ran.call { platform } (.poll 5004)⟩

end Manager

end WsprryPico.Provisioning
