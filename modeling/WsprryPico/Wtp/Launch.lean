import WsprryPico.Wtp.Run

/-!
# Launches

Every call of the engine's `begin` happens at a snapshot that satisfies the
launch conditions of `poll` (`Launchable`, in plain arithmetic). The trace also
says why a job is started at most once: a start, a terminal record and an abort
answered ok close a job id (`closes`), and only a LOAD that reaches the engine
while the id is neither current nor retained opens it again (`opens`).
-/

namespace WsprryPico.Wtp

open Lib Relation Time

variable {ω : Type} {env : Env ω} {p : Permit ω} {a : Authority} {t : List Event}

/-! ## The launch conditions -/

/-- The start second of `arm` ends within the range of a timestamp. -/
def Bounded (arm : ArmRecord) : Prop :=
  arm.startUtcNs.toNat + (startWindowNs arm.startUtcNs).toNat < 2 ^ 64

/-- What an engine `begin` of `job`, armed as `arm`, needs of snapshot `now`. -/
structure Launchable (config : ServiceConfig) (now : ClockSnapshot) (arm : ArmRecord)
    (job : Job) : Prop where
  due : arm.startMonotonicNs ≤ now.monotonicNowNs
  delay : ∃ delay, elapsedUtc (now.monotonicNowNs - arm.startMonotonicNs) now.ratePpb true =
    some delay ∧ delay < startWindowNs arm.startUtcNs
  clock : now.state = .synchronized ∨ now.state = .holdover ∧ 0 < config.maximumHoldoverAgeNs ∧
    now.syncAgeNs ≤ config.maximumHoldoverAgeNs
  uncertainty : now.uncertaintyNs ≤ arm.maxUncertaintyNs ∧
    now.uncertaintyNs ≤ config.maximumArmUncertaintyNs
  mapping : ∃ mapped, project now arm.startMonotonicNs = some mapped ∧
    mapped.toNat ≤ arm.startUtcNs.toNat + now.uncertaintyNs.toNat ∧
    arm.startUtcNs.toNat ≤ mapped.toNat + now.uncertaintyNs.toNat
  leap : now.leap ≠ .unknown ∧ (pendingLeap now = true ↔ now.leapTransitionUtcNs.isSome)
  horizon : ∃ duration, durationUtcBound job.totalDurationNs now = some duration ∧
    arm.startUtcNs.toNat + (startWindowNs arm.startUtcNs).toNat + duration.toNat ≤
      now.validUntilUtcNs.toNat
  exclusion : ∀ transition, now.leapTransitionUtcNs = some transition →
    exclusionEnd transition < arm.startUtcNs ∨
    ∃ duration, durationUtcBound job.totalDurationNs now = some duration ∧
      arm.startUtcNs.toNat + (startWindowNs arm.startUtcNs).toNat + duration.toNat ≤
        (exclusionStart transition).toNat

theorem startWindow_pos (utcNs : UInt64) : 0 < (startWindowNs utcNs).toNat := by
  unfold startWindowNs
  have hlt : utcNs % 1000000000 < 1000000000 := UInt64.mod_lt _ (by decide)
  have hle : utcNs % 1000000000 ≤ 1000000000 := UInt64.le_of_lt hlt
  rw [UInt64.toNat_sub_of_le _ _ hle]
  have := UInt64.lt_iff_toNat_lt.1 hlt
  omega

theorem latestStart_toNat {arm : ArmRecord} (h : Bounded arm) :
    (latestStart arm).toNat =
      arm.startUtcNs.toNat + (startWindowNs arm.startUtcNs).toNat - 1 := by
  have hpos := startWindow_pos arm.startUtcNs
  unfold latestStart
  unfold Bounded at h
  have hsum : (arm.startUtcNs + startWindowNs arm.startUtcNs).toNat =
      arm.startUtcNs.toNat + (startWindowNs arm.startUtcNs).toNat := by
    rw [UInt64.toNat_add, Nat.mod_eq_of_lt h]
  rw [UInt64.toNat_sub_of_le, hsum]
  · rfl
  · rw [UInt64.le_iff_toNat_le, hsum]
    exact Nat.le_trans hpos (Nat.le_add_left _ _)

theorem horizon_of_ok {now : ClockSnapshot} {arm : ArmRecord} {duration : UInt64}
    (hbounded : Bounded arm) (h : horizonOk now arm duration = true) :
    arm.startUtcNs.toNat + (startWindowNs arm.startUtcNs).toNat + duration.toNat ≤
      now.validUntilUtcNs.toNat := by
  have hpos := startWindow_pos arm.startUtcNs
  simp only [horizonOk, Bool.decide_and, Bool.and_eq_true, decide_eq_true_eq] at h
  obtain ⟨hlatest, hduration⟩ := h
  have hle := UInt64.le_of_lt hlatest
  rw [UInt64.lt_iff_toNat_lt, UInt64.toNat_sub_of_le _ _ hle, latestStart_toNat hbounded] at hduration
  omega

theorem exclusion_of_ok {now : ClockSnapshot} {arm : ArmRecord} {duration transition : UInt64}
    (hbounded : Bounded arm) (h : transitionOk now arm duration = true)
    (htransition : now.leapTransitionUtcNs = some transition) :
    exclusionEnd transition < arm.startUtcNs ∨
      arm.startUtcNs.toNat + (startWindowNs arm.startUtcNs).toNat + duration.toNat ≤
        (exclusionStart transition).toNat := by
  simp only [transitionOk, htransition, Bool.decide_and, Bool.decide_or, Bool.and_eq_true,
    Bool.or_eq_true, decide_eq_true_eq] at h
  obtain ⟨hfits, hafter | hbefore⟩ := h
  · exact .inl hafter
  · refine .inr ?_
    have hmax : (u64Max : UInt64).toNat = 2 ^ 64 - 1 := rfl
    have hlt := (latestStart arm).toNat_lt
    have hle : latestStart arm ≤ u64Max := by
      rw [UInt64.le_iff_toNat_le, hmax]
      omega
    have hlatest := latestStart_toNat hbounded
    rw [UInt64.le_iff_toNat_le, UInt64.toNat_sub_of_le _ _ hle, hmax] at hfits
    have hfit : (latestStart arm).toNat + duration.toNat < 2 ^ 64 := by omega
    rw [UInt64.lt_iff_toNat_lt, UInt64.toNat_add, Nat.mod_eq_of_lt hfit] at hbefore
    omega

theorem leap_of_ok {now : ClockSnapshot} {arm : ArmRecord} {job : Job}
    (h : leapOk now arm job = true) :
    now.leap ≠ .unknown ∧ (pendingLeap now = true ↔ now.leapTransitionUtcNs.isSome) ∧
    ∃ duration, durationUtcBound job.totalDurationNs now = some duration ∧
      horizonOk now arm duration = true ∧ transitionOk now arm duration = true := by
  unfold leapOk at h
  simp only [Bool.and_eq_true, decide_eq_true_eq] at h
  obtain ⟨⟨hknown, hpending⟩, hmatch⟩ := h
  refine ⟨hknown, by rw [hpending], ?_⟩
  split at hmatch
  · cases hmatch
  · rename_i duration hduration
    exact ⟨duration, hduration, Bool.and_eq_true_iff.1 hmatch⟩

/-- A difference taken from the smaller side is a distance. -/
theorem distance_le {x y bound : UInt64}
    (h : (if x > y then x - y else y - x) ≤ bound) :
    x.toNat ≤ y.toNat + bound.toNat ∧ y.toNat ≤ x.toNat + bound.toNat := by
  split at h
  · rename_i hlt
    have hle := UInt64.le_of_lt hlt
    rw [UInt64.le_iff_toNat_le, UInt64.toNat_sub_of_le _ _ hle] at h
    rw [UInt64.le_iff_toNat_le] at hle
    omega
  · rename_i hnlt
    have hle := UInt64.not_lt.1 hnlt
    rw [UInt64.le_iff_toNat_le, UInt64.toNat_sub_of_le _ _ hle] at h
    rw [UInt64.le_iff_toNat_le] at hle
    omega

/-- The launch test of `poll` in plain arithmetic. -/
theorem launchable_of_ok {config : ServiceConfig} {now : ClockSnapshot} {arm : ArmRecord}
    {job : Job} (hbounded : Bounded arm) (hdue : arm.startMonotonicNs ≤ now.monotonicNowNs)
    (h : launchOk config now arm job = true) : Launchable config now arm job := by
  unfold launchOk at h
  split at h
  case h_2 => exact nomatch h
  rename_i mapped delay hmapped hdelay
  simp only [clockOk, Bool.decide_and, Bool.and_eq_true, decide_eq_true_eq] at h
  obtain ⟨hwindow, hclock, hbudget, hmaximum, herror, hleap⟩ := h
  obtain ⟨hknown, hpending, duration, hduration, hhorizon, htransition⟩ := leap_of_ok hleap
  refine ⟨hdue, ⟨delay, hdelay, hwindow⟩, ?_, ⟨hbudget, hmaximum⟩,
    ⟨mapped, hmapped, distance_le herror⟩, ⟨hknown, hpending⟩,
    ⟨duration, hduration, horizon_of_ok hbounded hhorizon⟩, fun transition hsome => ?_⟩
  · simpa [clockStateOk] using hclock
  · exact (exclusion_of_ok hbounded htransition hsome).imp id fun h => ⟨duration, hduration, h⟩

/-- ARM accepts no start whose second leaves the range. -/
theorem bounded_of_valid {config : ServiceConfig} {job : Job} {resolution : UInt64} {body : ArmBody}
    {now : ClockSnapshot} {start : UInt64}
    (h : validateArm config job resolution body now = .ok start) :
    body.startUtcNs.toNat + (startWindowNs body.startUtcNs).toNat < 2 ^ 64 := by
  by_contra hbig
  have hmax : (u64Max : UInt64).toNat = 2 ^ 64 - 1 := rfl
  have hlt := (startWindowNs body.startUtcNs).toNat_lt
  have hle : startWindowNs body.startUtcNs ≤ u64Max := by
    rw [UInt64.le_iff_toNat_le, hmax]
    omega
  have hover : body.startUtcNs > u64Max - startWindowNs body.startUtcNs := by
    rw [gt_iff_lt, UInt64.lt_iff_toNat_lt, UInt64.toNat_sub_of_le _ _ hle, hmax]
    omega
  unfold validateArm at h
  simp only [hover, true_or, or_true, if_true, bind, Except.bind, throw, throwThe,
    MonadExceptOf.throw, pure, Except.pure] at h
  repeat' split at h
  all_goals simp at h

/-! ## Opened and closed job ids -/

/-- A start, a terminal record or an abort answered ok of `jobId`. -/
def Event.closes (e : Event) (jobId : String) : Prop :=
  match e with
  | .call _ c => c.launched.map (·.jobId) = some jobId
  | .terminal id _ => id = jobId
  | .abortAccepted id => id = jobId
  | _ => False

/-- A LOAD of `jobId` at the engine, the id being neither current nor retained. -/
def Event.opens (e : Event) (jobId : String) : Prop :=
  ∃ y job, e = .call y (.prepare job) ∧ job.jobId = jobId ∧ y.job.map (·.jobId) ≠ some jobId ∧
    jobId ∉ y.retainedIds

/-- Nothing closed `jobId` since it was opened last. -/
def Open (jobId : String) : List Event → Prop
  | [] => True
  | e :: past => e.opens jobId ∨ (¬ e.closes jobId ∧ Open jobId past)

theorem Open.cons {jobId : String} {e : Event} (h : Open jobId t) (he : ¬ e.closes jobId) :
    Open jobId (e :: t) := .inr ⟨he, h⟩

theorem Open.between {jobId : String} {mid before : List Event} {e : Event}
    (h : Open jobId (mid ++ e :: before)) (he : e.closes jobId) : ∃ e' ∈ mid, e'.opens jobId := by
  induction mid with
  | nil =>
    obtain ⟨y, job, rfl, -⟩ | ⟨hopen, -⟩ := h
    · simp [Event.closes, EngineCall.launched] at he
    · exact absurd he hopen
  | cons e' mid ih =>
    obtain hopens | ⟨-, hrest⟩ := h
    · exact ⟨e', List.mem_cons_self, hopens⟩
    · obtain ⟨e'', hmem, hopens⟩ := ih hrest
      exact ⟨e'', List.mem_cons_of_mem _ hmem, hopens⟩

/-- `P` holds of every event of a trace with its past. -/
def Everywhere (P : Event → List Event → Prop) (t : List Event) : Prop :=
  ∀ later e past, t = later ++ e :: past → P e past

theorem Everywhere.cons {P : Event → List Event → Prop} {e : Event} (h : Everywhere P t)
    (he : P e t) : Everywhere P (e :: t) := by
  intro later e' past heq
  cases later with
  | nil =>
    obtain ⟨rfl, rfl⟩ := List.cons_eq_cons.1 heq
    exact he
  | cons e₀ later =>
    obtain ⟨-, rfl⟩ := List.cons_eq_cons.1 heq
    exact h later e' past rfl

/-- A start is of an open job, and a `begin` meets the launch conditions. -/
def Justified (e : Event) (past : List Event) : Prop :=
  ∀ x c, e = .call x c → (∀ job, c.launched = some job → Open job.jobId past) ∧
    ∀ job n, c = .begin job n → x.state = .armed ∧ x.job = some job ∧
      ∃ now arm, lastClock past = some now ∧ n = now.monotonicNowNs ∧ x.arm = some arm ∧
        Launchable x.config now arm job

theorem justified_of_quiet {x : Authority} {c : EngineCall} (h : c.launched = none) :
    Justified (.call x c) t := by
  rintro _ _ ⟨⟩
  refine ⟨by simp [h], ?_⟩
  rintro job n rfl
  cases h

/-! ## The invariant -/

/-- A job waits for its launch by the service itself. -/
def Authority.Waiting (a : Authority) : Prop :=
  a.state = .loaded ∨ a.state = .armed ∧ a.arm.all (·.scheduledLocally) = false

structure Tracked (a : Authority) (t : List Event) : Prop where
  bounded : ∀ arm, a.arm = some arm → Bounded arm
  opened : a.Waiting → ∀ job, a.job = some job → Open job.jobId t
  justified : Everywhere Justified t

theorem Tracked.cons {e : Event} (h : Tracked a t) (hj : Justified e t)
    (hc : ∀ job, a.Waiting → a.job = some job → ¬ e.closes job.jobId) : Tracked a (e :: t) :=
  ⟨h.bounded, fun hw job hjob => (h.opened hw job hjob).cons (hc job hw hjob), h.justified.cons hj⟩

theorem not_waiting (hl : a.state ≠ .loaded) (ha : a.state ≠ .armed) : ¬ a.Waiting := by
  rintro (h | ⟨h, -⟩)
  · exact hl h
  · exact ha h

theorem Tracked.ended {a' : Authority} (h : Tracked a t)
    (harm : ∀ arm, a'.arm = some arm → Bounded arm) (hs : ¬ a'.Waiting) : Tracked a' t :=
  ⟨harm, fun hw => absurd hw hs, h.justified⟩

theorem Tracked.quiet {x : Authority} {c : EngineCall} (h : Tracked a t) (hc : c.launched = none) :
    Tracked a (.call x c :: t) :=
  h.cons (justified_of_quiet hc) fun job _ _ he => by simp [Event.closes, hc] at he

theorem not_waiting_terminal (state : State) (hs : state ∈ outcomes) (error : ErrorCode)
    (nowNs : UInt64) (active loadActive : Bool) :
    ¬ (a.terminal state error nowNs active loadActive).Waiting := by
  obtain ⟨hl, ha, -⟩ := not_live_of_outcome hs
  rw [Authority.terminal_eq]
  exact not_waiting hl ha

theorem bounded_of_arms {job : Job} {arm : ArmRecord} (harms : Arms a job arm) : Bounded arm := by
  obtain ⟨resolution, body, now, -, hstart, -, hvalid⟩ := harms.valid
  unfold Bounded
  rw [hstart]
  exact bounded_of_valid hvalid

theorem step_tracked {s s' : AuthSys ω} (hstep : Step env p s s') (h : Tracked s.auth s.trace) :
    Tracked s'.auth s'.trace := by
  cases hstep with
  | clock => exact h.cons (fun _ _ he => by cases he) fun _ _ _ => id
  | @quiet a t w c x hquiet =>
    have hnone : c.launched = none := by
      cases c <;> first | rfl | cases hquiet
    exact h.quiet hnone
  | abortAccepted hs =>
    refine h.cons (fun _ _ he => by cases he) fun _ hw => absurd hw (not_waiting ?_ ?_)
    · simp [hs]
    · simp [hs]
  | @terminal a t w w' x deadline state error nowNs active loadActive hpending hhalts =>
    have hs := hhalts.outcome
    have hidle := not_waiting_terminal _ (a := a) hs error nowNs active loadActive
    refine ((h.ended ?_ hidle).quiet rfl).cons (fun _ _ he => by cases he) fun _ hw => absurd hw hidle
    rw [Authority.terminal_eq]
    exact h.bounded
  | @fault a t w w' deadline error nowNs active loadActive hs hhalts =>
    have hidle := not_waiting_terminal .failed (a := { a with arm := none }) (by decide)
      error nowNs active loadActive
    refine ((h.ended ?_ hidle).quiet rfl).cons (fun _ _ he => by cases he) fun _ hw => absurd hw hidle
    rw [Authority.terminal_eq]
    exact fun arm harm => by cases harm
  | clear =>
    exact h.ended (fun _ harm => by cases harm) (not_waiting (fun h => by cases h) fun h => by cases h)
  | @prune a t w nowNs =>
    obtain hp | ⟨-, hp⟩ := a.pruneTerminals_cases nowNs
    · rw [hp]
      exact ⟨h.bounded, h.opened, h.justified⟩
    · rw [hp]
      exact h.ended (fun _ harm => by cases harm) (not_waiting (fun h => by cases h) fun h => by cases h)
  | refused =>
    exact h.quiet rfl
  | @load a t w job digest hloads =>
    refine ⟨fun _ harm => (by cases harm), fun _ job' hjob => ?_,
      h.justified.cons (justified_of_quiet rfl)⟩
    obtain rfl : job = job' := Option.some.inj hjob
    exact .inl ⟨a, job, rfl, rfl, hloads.fresh, findRetained_none hloads.unretained⟩
  | @arm a t w job arm harms =>
    refine ⟨fun arm' harm => ?_, fun _ job' hjob => h.opened (.inl harms.state) job' hjob, h.justified⟩
    obtain rfl : arm = arm' := Option.some.inj harm
    exact bounded_of_arms harms
  | @armLocally a t w job arm conditions harms hlocal =>
    have hidle : ¬ (a.armWith arm).Waiting := by
      rintro (hs | ⟨-, hs⟩)
      · cases hs
      · simp [Authority.armWith, hlocal] at hs
    refine Tracked.cons (h.ended (fun arm' harm => ?_) hidle) ?_ fun _ hw => absurd hw hidle
    · obtain rfl : arm = arm' := Option.some.inj harm
      exact bounded_of_arms harms
    · rintro _ _ ⟨⟩
      refine ⟨fun job' hjob => ?_, fun _ _ hc => (by cases hc)⟩
      obtain rfl : job = job' := Option.some.inj hjob
      exact h.opened (.inl harms.state) job harms.held
  | started => exact h.ended h.bounded (not_waiting (fun h => by cases h) fun h => by cases h)
  | @launch a t w now arm job hl =>
    have hidle : ¬ ({ a with state := .running } : Authority).Waiting :=
      not_waiting (fun h => by cases h) fun h => by cases h
    refine Tracked.cons (h.ended h.bounded hidle) ?_ fun _ hw => absurd hw hidle
    rintro _ _ ⟨⟩
    refine ⟨fun job' hjob => ?_, ?_⟩
    · obtain rfl : job = job' := Option.some.inj hjob
      refine h.opened (.inr ⟨hl.state, ?_⟩) job hl.held
      simp [hl.record, hl.foreground]
    · rintro _ _ ⟨⟩
      exact ⟨hl.state, hl.held, now, arm, hl.clock, rfl, hl.record,
        launchable_of_ok (h.bounded arm hl.record) hl.due hl.ok⟩
  | @stamp a t w launch hs =>
    refine h.ended (fun arm harm => ?_) (not_waiting ?_ ?_)
    · obtain ⟨arm₀, harm₀, rfl⟩ := Option.map_eq_some_iff.1 harm
      exact h.bounded arm₀ harm₀
    · simp [Authority.setLaunch, hs]
    · simp [Authority.setLaunch, hs]
  | @spend a t w hs =>
    refine ⟨h.bounded, fun hw job hjob => ?_, h.justified⟩
    obtain ⟨job₀, hjob₀, rfl⟩ := Option.map_eq_some_iff.1 hjob
    exact h.opened hw job₀ hjob₀
  | _ => exact ⟨h.bounded, h.opened, h.justified⟩

theorem sysStep_tracked {s s' : Sys ω} (hstep : SysStep env p s s') (h : Tracked s.auth s.trace) :
    Tracked s'.auth s'.trace := by
  cases hstep with
  | authority _ _ hstep => exact step_tracked hstep h
  | expire | remember => exact h.cons (fun _ _ he => nomatch he) fun _ _ _ => id
  | reset deadline bootId ready =>
    refine ((h.ended (by simp [Authority.reset, Authority.clearJob]) (not_waiting ?_ ?_)).quiet
      rfl).quiet rfl
    · cases ready <;> simp [Authority.reset]
    · cases ready <;> simp [Authority.reset]
  | _ => exact h

variable (env) in
theorem run_tracked (ops : List (Op ω)) (config : ServiceConfig) (w : ω) :
    Tracked (run env ops (construct env config w)).auth
      (run env ops (construct env config w)).trace := by
  refine run_keeps (I := fun s => Tracked s.auth s.trace) (fun _ _ h => h)
    (fun _ _ hs _ h => sysStep_tracked hs h) ops config w ?_
  obtain ⟨config', bootId, ready, now, x, deadline, w', h, -⟩ :=
    construct_cases env config w
  rw [h]
  refine ⟨fun _ harm => (nomatch harm), fun _ _ hjob => (nomatch hjob), ?_⟩
  have hempty : Everywhere Justified [] := fun later e past he => by simp at he
  have hclock : Everywhere Justified [.clock now] := hempty.cons fun _ _ he => nomatch he
  exact hclock.cons (justified_of_quiet rfl)

/-- Every launch meets the launch conditions, and a job id that was started, ended
or aborted is not started again before a LOAD takes it anew. -/
theorem launch_safety (ops : List (Op ω)) (config : ServiceConfig) (w : ω) :
    let t := (run env ops (construct env config w)).trace
    (∀ later x job n past, t = later ++ .call x (.begin job n) :: past →
      x.state = .armed ∧ x.job = some job ∧
      ∃ now arm, lastClock past = some now ∧ n = now.monotonicNowNs ∧ x.arm = some arm ∧
        Launchable x.config now arm job) ∧
    ∀ later x c job mid e before, t = later ++ .call x c :: (mid ++ e :: before) →
      c.launched = some job → e.closes job.jobId →
      ∃ y job', .call y (.prepare job') ∈ mid ∧ job'.jobId = job.jobId ∧
        y.job.map (·.jobId) ≠ some job.jobId ∧ job.jobId ∉ y.retainedJobs.map (·.jobId) := by
  intro t
  have htracked := run_tracked env ops config w
  constructor
  · intro later x job n past he
    exact (htracked.justified later _ past he x _ rfl).2 job n rfl
  · intro later x c job mid e before he hlaunched hcloses
    have hopen := (htracked.justified later _ _ he x c rfl).1 job hlaunched
    obtain ⟨_, hmem, y, job', rfl, hid, hcurrent, hretained⟩ := hopen.between hcloses
    exact ⟨y, job', hmem, hid, hcurrent, hretained⟩

/-! ## No started job is lost -/

/-- `jobId` was started, and its end was not recorded since. -/
def Owed (jobId : String) : List Event → Prop
  | [] => False
  | .call _ c :: past => c.launched.map (·.jobId) = some jobId ∨ Owed jobId past
  | .terminal id _ :: past => id ≠ jobId ∧ Owed jobId past
  | _ :: past => Owed jobId past

/-- What is owed is armed or on the air. -/
def Owing (a : Authority) (t : List Event) : Prop :=
  ∀ jobId, Owed jobId t → (a.state = .armed ∨ a.state = .running) ∧
    a.job.map (·.jobId) = some jobId

theorem Owing.call {x : Authority} {c : EngineCall} (h : Owing a t) (hc : c.launched = none) :
    Owing a (.call x c :: t) :=
  fun jobId howed => h jobId (howed.resolve_left (by simp [hc]))

theorem Owing.idle {a' : Authority} (h : Owing a t) (ha : a.state ≠ .armed)
    (hr : a.state ≠ .running) : Owing a' t :=
  fun jobId howed => absurd (h jobId howed).1 (not_or.2 ⟨ha, hr⟩)

theorem Owing.ended {a' x : Authority} {deadline : UInt64} {state : State} (h : Owing a t) :
    Owing a' (.terminal ((a.job.map (·.jobId)).getD "") state :: .call x (.disable deadline) :: t) := by
  rintro jobId ⟨hne, hnone | howed⟩
  · cases hnone
  · exact absurd (by rw [(h jobId howed).2]; rfl) hne

theorem Owing.start {a' x : Authority} {c : EngineCall} {job : Job} (h : Owing a t)
    (hc : c.launched = some job) (hjob : a.job = some job) (hjob' : a'.job = some job)
    (hs : a'.state = .armed ∨ a'.state = .running) : Owing a' (.call x c :: t) := by
  rintro jobId (hstart | howed)
  · exact ⟨hs, by simpa [hc, hjob'] using hstart⟩
  · exact ⟨hs, by rw [hjob', ← hjob]; exact (h jobId howed).2⟩

theorem step_owing {s s' : AuthSys ω} (hstep : Step env p s s') (h : Owing s.auth s.trace) :
    Owing s'.auth s'.trace := by
  cases hstep with
  | @quiet a t w c x hquiet =>
    have hnone : c.launched = none := by
      cases c <;> first | rfl | cases hquiet
    exact h.call hnone
  | refused => exact h.call rfl
  | terminal | fault => exact h.ended
  | clear ha hr => exact h.idle ha hr
  | @prune a t w nowNs =>
    obtain hp | ⟨hs, hp⟩ := a.pruneTerminals_cases nowNs
    · rw [hp]
      exact h
    · refine h.idle ?_ ?_ <;> rcases hs with hs | hs | hs <;> simp [hs]
  | load digest hloads => exact (h.call rfl).idle hloads.state.1 hloads.state.2.1
  | arm harms => exact h.idle (by simp [harms.state]) (by simp [harms.state])
  | armLocally conditions harms => exact h.start rfl harms.held harms.held (.inl rfl)
  | started => exact fun jobId howed => ⟨.inr rfl, (h jobId howed).2⟩
  | launch hl => exact h.start rfl hl.held hl.held (.inr rfl)
  | spend =>
    refine fun jobId howed => ⟨(h jobId howed).1, ?_⟩
    simpa [Authority.clearEvents, Function.comp_def] using (h jobId howed).2
  | _ => exact h

/-- Unless the service was reset, a started job is in hand until its end is recorded. -/
theorem starts_recorded (ops : List (Op ω)) (config : ServiceConfig) (w : ω) :
    let s := run env ops (construct env config w)
    .reset ∈ ops ∨ Owing s.auth s.trace := by
  refine or_iff_not_imp_left.2 fun hreset => ?_
  refine run_unreset (I := fun s => Owing s.auth s.trace) (fun _ _ h => h) (fun s s' hstep _ h => ?_)
    ops hreset (sound_construct config w) ?_
  · cases hstep with
    | authority _ _ hstep => exact step_owing hstep h
    | reset _ _ _ hp => exact absurd hp id
    | _ => exact h
  · obtain ⟨config', bootId, ready, now, x, deadline, w', h, -⟩ := construct_cases env config w
    rw [h]
    exact Owing.call (t := [.clock now]) (fun _ => False.elim) rfl

end WsprryPico.Wtp
