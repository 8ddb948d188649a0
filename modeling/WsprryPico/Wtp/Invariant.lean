import WsprryPico.Wtp.Refine

/-!
# Invariants of the authority

`Held` ties the lifecycle state to the job, the arm record and the owner;
`Lockstep` ties the two histories to each other and to the held job. Every
step keeps both.
-/

namespace WsprryPico.Wtp

open Lib Relation

variable {ω : Type} {env : Env ω} {p : Permit ω}

/-! ## The lifecycle state -/

structure Held (a : Authority) : Prop where
  job : a.state = .loaded ∨ a.state = .armed ∨ a.state = .running → a.job.isSome ∧ a.owner.isSome
  arm : a.state = .armed ∨ a.state = .running → a.arm.isSome
  unarmed : a.state = .loaded → a.arm = none
  empty : a.state = .empty → a.job = none ∧ a.arm = none
  ready : a.ready = false → a.state = .failed

theorem Authority.Pending.not_failed {a : Authority} (h : a.Pending) : a.state ≠ .failed := by
  intro hf
  unfold Authority.Pending at h
  simp [hf] at h

/-- An ended or failed service holds the invariant whatever else it keeps. -/
theorem held_of_outcome {a : Authority} (h : a.state ∈ outcomes) (hready : a.ready = true) :
    Held a := by
  obtain ⟨hl, ha, hr⟩ := not_live_of_outcome h
  have he : a.state ≠ .empty := by
    intro he
    rw [he] at h
    revert h
    decide
  exact ⟨by simp [hl, ha, hr], by simp [ha, hr], by simp [hl], by simp [he], by simp [hready]⟩

theorem Held.ready_of_not_failed {a : Authority} (h : Held a) (hs : a.state ≠ .failed) :
    a.ready = true := by
  by_contra hready
  exact hs (h.ready (by simpa using hready))

theorem held_clearJob {a : Authority} (hready : a.ready = true) : Held a.clearJob :=
  ⟨by simp [Authority.clearJob], by simp [Authority.clearJob], fun _ => rfl, fun _ => ⟨rfl, rfl⟩,
    by simp [Authority.clearJob, hready]⟩

theorem held_armWith {a : Authority} {job : Job} {arm : ArmRecord} (harms : Arms a job arm)
    (h : Held a) : Held (a.armWith arm) := by
  have hready : a.ready = true := h.ready_of_not_failed (by simp [harms.state])
  have hjob := h.job (.inl harms.state)
  exact ⟨fun _ => hjob, fun _ => rfl, by simp [Authority.armWith], by simp [Authority.armWith],
    by simp [Authority.armWith, hready]⟩

theorem held_running {a : Authority} (hs : a.state = .armed) (h : Held a) :
    Held { a with state := .running } := by
  have hready : a.ready = true := h.ready_of_not_failed (by simp [hs])
  have hjob := h.job (.inr (.inl hs))
  have harm := h.arm (.inl hs)
  exact ⟨fun _ => hjob, fun _ => harm, by simp, by simp, by simp [hready]⟩

theorem step_held {s s' : AuthSys ω} (hstep : Step env p s s') (h : Held s.auth) : Held s'.auth := by
  cases hstep with
  | observe | clock | quiet | abortAccepted => exact h
  | inhibit | maintain | touch => exact ⟨h.job, h.arm, h.unarmed, h.empty, h.ready⟩
  | refused => exact h
  | lease howner =>
    exact ⟨fun hs => ⟨(h.job hs).1, rfl⟩, h.arm, h.unarmed, h.empty, h.ready⟩
  | claim => exact ⟨fun hs => ⟨(h.job hs).1, rfl⟩, h.arm, h.unarmed, h.empty, h.ready⟩
  | drop hl ha hr => exact ⟨by simp [hl, ha, hr], h.arm, h.unarmed, h.empty, h.ready⟩
  | @terminal a t w w' x deadline state error nowNs active loadActive hpending hhalts =>
    have hs := hhalts.outcome
    have hready : a.ready = true := h.ready_of_not_failed hpending.not_failed
    obtain ⟨hstate, -, -, hready', -⟩ := ended_terminal [state] (a := a)
      (List.mem_singleton_self state) error nowNs active loadActive
    refine held_of_outcome ?_ (hready'.trans hready)
    rw [List.mem_singleton.1 hstate]
    exact hs
  | @fault a t w w' deadline error nowNs active loadActive hs hhalts =>
    have hready : a.ready = true := h.ready_of_not_failed (by simp [hs])
    obtain ⟨hstate, -, -, hready', -⟩ := ended_terminal [State.failed] (a := { a with arm := none })
      (List.mem_singleton_self _) error nowNs active loadActive
    exact held_of_outcome (by simp_all [outcomes]) (hready'.trans hready)
  | @clear a t w ha hr hf =>
    have hready : a.ready = true := h.ready_of_not_failed hf
    exact held_clearJob hready
  | @prune a t w nowNs =>
    obtain hp | ⟨hs, hp⟩ := a.pruneTerminals_cases nowNs
    · rw [hp]
      exact ⟨h.job, h.arm, h.unarmed, h.empty, h.ready⟩
    · rw [hp]
      refine held_clearJob (a := a.dropExpired nowNs) (h.ready_of_not_failed ?_)
      rcases hs with hs | hs | hs <;> simp [hs]
  | @load a t w job digest hloads =>
    have hready : a.ready = true := h.ready_of_not_failed hloads.state.2.2
    exact ⟨fun _ => ⟨rfl, hloads.owned⟩, by simp [Authority.load], fun _ => rfl,
      by simp [Authority.load], by simp [Authority.load, hready]⟩
  | @arm a t w job arm harms =>
    exact held_armWith harms h
  | @armLocally a t w job arm conditions harms =>
    exact held_armWith harms h
  | @started a t w arm hs harm =>
    exact held_running hs h
  | @launch a t w now arm job hlaunches =>
    exact held_running hlaunches.state h
  | @stamp a t w launch hs =>
    refine ⟨h.job, fun hl => ?_, fun hl => ?_, fun he => ?_, h.ready⟩
    · simpa [Authority.setLaunch] using h.arm hl
    · exact absurd (hs.symm.trans hl) (by decide)
    · exact absurd (hs.symm.trans he) (by decide)
  | @spend a t w hs =>
    refine ⟨fun hl => ?_, h.arm, h.unarmed, fun he => ?_, h.ready⟩
    · simpa [Authority.clearEvents] using h.job hl
    · have he' : a.state = .empty := he
      simp [he'] at hs

theorem step_failed {s s' : AuthSys ω} (hstep : Step env p s s') (h : s.auth.state = .failed) :
    s'.auth.state = .failed := by
  cases hstep with
  | @terminal a t w w' x deadline state error nowNs active loadActive hpending hhalts =>
    exact absurd h hpending.not_failed
  | fault deadline error nowNs active loadActive hs hhalts => exact absurd (h.symm.trans hs) (by decide)
  | clear ha hr hf => exact absurd h hf
  | @prune a t w nowNs =>
    have hf : a.state = .failed := h
    obtain hp | ⟨hs, hp⟩ := a.pruneTerminals_cases nowNs
    · exact (congrArg Authority.state hp).trans h
    · simp [hf] at hs
  | load digest hloads => exact absurd h hloads.state.2.2
  | arm harms => exact absurd (h.symm.trans harms.state) (by decide)
  | armLocally conditions harms => exact absurd (h.symm.trans harms.state) (by decide)
  | started hs => exact absurd (h.symm.trans hs) (by decide)
  | launch hlaunches => exact absurd (h.symm.trans hlaunches.state) (by decide)
  | _ => exact h

/-! ## The histories -/

def Authority.recordIds (a : Authority) : List String := a.terminalRecords.map (·.jobId)

def Authority.retainedIds (a : Authority) : List String := a.retainedJobs.map (·.jobId)

structure Lockstep (a : Authority) : Prop where
  ids : a.recordIds = a.retainedIds
  nodup : a.recordIds.Nodup
  bound : a.terminalRecords.length ≤ a.config.terminalRecordEntries
  live : a.state = .loaded ∨ a.state = .armed ∨ a.state = .running →
    ∀ job, a.job = some job → job.jobId ∉ a.retainedIds

theorem findRetained_none {a : Authority} {jobId : String} (h : a.findRetained jobId = none) :
    jobId ∉ a.retainedIds := by
  intro hmem
  obtain ⟨item, hitem, rfl⟩ := List.mem_map.1 hmem
  exact absurd (List.find?_eq_none.1 h item hitem) (by simp)

/-- Trimming keeps the histories in lockstep and drops the oldest records. -/
theorem trimTerminals_ids (k : Nat) {a : Authority} (hids : a.recordIds = a.retainedIds)
    (hn : a.recordIds.Nodup) :
    (a.trimTerminals k).recordIds = (a.trimTerminals k).retainedIds ∧
    (a.trimTerminals k).recordIds.Nodup ∧
    (a.trimTerminals k).terminalRecords.length = a.terminalRecords.length - k := by
  induction k generalizing a with
  | zero => exact ⟨hids, hn, rfl⟩
  | succ k ih =>
    unfold Authority.trimTerminals
    split
    · rename_i hlast
      have hnil : a.terminalRecords = [] := List.getLast?_eq_none_iff.1 hlast
      exact ⟨hids, hn, by simp [hnil]⟩
    · rename_i back hlast
      have hretained := lockstep_dropLast (f := TerminalRecord.jobId) (g := RetainedJob.jobId)
        hids hn hlast
      have hlen : a.terminalRecords.dropLast.length = a.terminalRecords.length - 1 := by simp
      obtain ⟨h₁, h₂, h₃⟩ := ih (a := { a with
          retainedJobs := a.retainedJobs.filter (·.jobId != back.jobId)
          terminalRecords := a.terminalRecords.dropLast })
        (by
          unfold Authority.recordIds Authority.retainedIds at hids ⊢
          simp only [hretained, List.map_dropLast, hids])
        (by
          unfold Authority.recordIds at hn ⊢
          simp only [List.map_dropLast]
          exact hn.sublist (List.dropLast_sublist _))
      exact ⟨h₁, h₂, by simp only at h₃; omega⟩

theorem lockstep_trim {a : Authority} (hids : a.recordIds = a.retainedIds)
    (hn : a.recordIds.Nodup) (hs : a.state ∈ outcomes) :
    Lockstep (a.trimTerminals (a.terminalRecords.length - a.config.terminalRecordEntries)) := by
  obtain ⟨h₁, h₂, h₃⟩ := trimTerminals_ids
    (a.terminalRecords.length - a.config.terminalRecordEntries) hids hn
  have heq := a.trimTerminals_eq (a.terminalRecords.length - a.config.terminalRecordEntries)
  refine ⟨h₁, h₂, ?_, fun hlive => ?_⟩
  · rw [h₃, congrArg Authority.config heq]
    simp only
    omega
  · rw [congrArg Authority.state heq] at hlive
    obtain ⟨hl, ha, hr⟩ := not_live_of_outcome hs
    exact absurd hlive (by simp [hl, ha, hr])

theorem lockstep_terminal {a : Authority} (h : Lockstep a) {job : Job} (hjob : a.job = some job)
    (hfresh : job.jobId ∉ a.retainedIds) {state : State} (hs : state ∈ outcomes)
    (error : ErrorCode) (nowNs : UInt64) (active loadActive : Bool) :
    Lockstep (a.terminal state error nowNs active loadActive) := by
  have hids : job.jobId :: a.recordIds = job.jobId :: a.retainedIds := by rw [h.ids]
  have hn : (job.jobId :: a.recordIds).Nodup := by
    rw [List.nodup_cons, h.ids]
    exact ⟨hfresh, h.ids ▸ h.nodup⟩
  unfold Authority.terminal
  simp only [hjob]
  split
  · exact lockstep_trim hids hn hs
  · exact lockstep_trim hids hn hs

/-- Fewer live states and the same histories. -/
theorem Lockstep.of_eq {a a' : Authority} (h : Lockstep a) (hr : a'.terminalRecords = a.terminalRecords)
    (hj : a'.retainedJobs = a.retainedJobs) (hc : a'.config = a.config)
    (hl : a'.state = .loaded ∨ a'.state = .armed ∨ a'.state = .running →
      ∀ job, a'.job = some job → job.jobId ∉ a.retainedIds) : Lockstep a' := by
  refine ⟨?_, ?_, ?_, fun hlive job hjob => ?_⟩
  · unfold Authority.recordIds Authority.retainedIds
    rw [hr, hj]
    exact h.ids
  · unfold Authority.recordIds
    rw [hr]
    exact h.nodup
  · rw [hr, hc]
    exact h.bound
  · unfold Authority.retainedIds
    rw [hj]
    exact hl hlive job hjob

theorem lockstep_touch {a : Authority} (h : Lockstep a) (jobId : String) :
    Lockstep (a.touchTerminal jobId) := by
  have hrecords := map_moveToFront TerminalRecord.jobId jobId a.terminalRecords
  have hretained := map_moveToFront RetainedJob.jobId jobId a.retainedJobs
  have hids : (a.touchTerminal jobId).recordIds = moveToFront (· == jobId) a.recordIds := hrecords
  have hids' : (a.touchTerminal jobId).retainedIds = moveToFront (· == jobId) a.retainedIds :=
    hretained
  refine ⟨by rw [hids, hids', h.ids], ?_, ?_, fun hlive job hjob => ?_⟩
  · rw [hids]
    exact (moveToFront_perm _ _).nodup_iff.2 h.nodup
  · show (moveToFront _ a.terminalRecords).length ≤ _
    rw [(moveToFront_perm _ _).length_eq]
    exact h.bound
  · rw [hids', (moveToFront_perm _ _).mem_iff]
    exact h.live hlive job hjob

theorem lockstep_dropExpired {a : Authority} (h : Lockstep a) (nowNs : UInt64) :
    Lockstep (a.dropExpired nowNs) := by
  have hids := lockstep_filter (f := TerminalRecord.jobId) (g := RetainedJob.jobId)
    (fun record => !a.recordExpired nowNs record) h.ids h.nodup
  have hsub : (a.dropExpired nowNs).recordIds.Sublist a.recordIds :=
    List.filter_sublist.map TerminalRecord.jobId
  refine ⟨hids.symm, hsub.nodup h.nodup, ?_, fun hlive job hjob hmem => ?_⟩
  · exact Nat.le_trans (List.length_filter_le _ _) h.bound
  · have hsub' : (a.dropExpired nowNs).retainedIds.Sublist a.retainedIds :=
      List.filter_sublist.map RetainedJob.jobId
    exact h.live hlive job hjob (hsub'.mem hmem)

theorem step_lockstep {s s' : AuthSys ω} (hstep : Step env p s s') (hheld : Held s.auth)
    (h : Lockstep s.auth) : Lockstep s'.auth := by
  cases hstep with
  | @terminal a t w w' x deadline state error nowNs active loadActive hpending hhalts =>
    have hs := hhalts.outcome
    have hlive : a.state = .loaded ∨ a.state = .armed ∨ a.state = .running := by
      obtain hl | ha | hr | ⟨he, hjob⟩ := hpending
      · exact .inl hl
      · exact .inr (.inl ha)
      · exact .inr (.inr hr)
      · have hnone : a.job = none := (hheld.empty he).1
        simp [hnone] at hjob
    obtain ⟨job, hjob⟩ := Option.isSome_iff_exists.1 (hheld.job hlive).1
    exact lockstep_terminal h hjob (h.live hlive job hjob) hs error nowNs active loadActive
  | @fault a t w w' deadline error nowNs active loadActive hs hhalts =>
    have hlive : a.state = .loaded ∨ a.state = .armed ∨ a.state = .running := .inr (.inl hs)
    obtain ⟨job, hjob⟩ := Option.isSome_iff_exists.1 (hheld.job hlive).1
    have h' : Lockstep { a with arm := none } := h.of_eq rfl rfl rfl h.live
    exact lockstep_terminal h' hjob (h.live hlive job hjob) (by decide) error nowNs active loadActive
  | @clear a t w ha hr hf => exact h.of_eq rfl rfl rfl (by simp [Authority.clearJob])
  | @prune a t w nowNs =>
    obtain hp | ⟨-, hp⟩ := a.pruneTerminals_cases nowNs
    · rw [hp]
      exact lockstep_dropExpired h nowNs
    · rw [hp]
      exact (lockstep_dropExpired h nowNs).of_eq rfl rfl rfl (by simp [Authority.clearJob])
  | touch jobId => exact lockstep_touch h jobId
  | @load a t w job digest hloads =>
    refine h.of_eq rfl rfl rfl fun _ job' hjob' => ?_
    obtain rfl : job = job' := Option.some.inj hjob'
    exact findRetained_none hloads.unretained
  | arm harms => exact h.of_eq rfl rfl rfl fun _ => h.live (.inl harms.state)
  | armLocally conditions harms => exact h.of_eq rfl rfl rfl fun _ => h.live (.inl harms.state)
  | started hs => exact h.of_eq rfl rfl rfl fun _ => h.live (.inr (.inl hs))
  | launch hlaunches => exact h.of_eq rfl rfl rfl fun _ => h.live (.inr (.inl hlaunches.state))
  | @spend a t w hs =>
    refine h.of_eq rfl rfl rfl fun hlive job hjob => ?_
    obtain ⟨job', hjob', rfl⟩ := Option.map_eq_some_iff.1 hjob
    exact h.live hlive job' hjob'
  | observe | clock | quiet | abortAccepted | refused => exact h
  | _ => exact h.of_eq rfl rfl rfl h.live

end WsprryPico.Wtp
