import WsprryPico.Standalone.Board

/-!
# A rejected LOAD and the loaded job

While a job is loaded, the streaming engine holds the plan of that job, and a
rejected LOAD leaves the service and the engine as they were, in every run
without a late refusal: one by the policy after the inner engine has taken the
new job. A late refusal leaves the inner engine with the plan of the refused
job, and the loaded job can no longer be started.
-/

namespace WsprryPico.Standalone

open Wtp Rf Lib Relation

variable {ε : Type} {wiring : PolicyWiring ε} {around : Surroundings ε} {p : Permit (Board ε)}

/-- The inner engine holds the plan of `job` and is ready to start it. -/
structure Board.Carries (wiring : PolicyWiring ε) (b : Board ε) (job : Job) : Prop where
  idle : b.engine.stream.state = .idle
  held : b.engine.stream.job = some (jobDigest job)
  planned : wiring.inner.rate.planJob job b.engine.stream.correctionPpb = some b.engine.stream.plan

/-- While a job is loaded, the engine holds its plan. -/
structure Planned (wiring : PolicyWiring ε) (a : Authority) (b : Board ε) : Prop where
  tuned : b.Tuned
  held : a.state = .loaded → ∃ job, a.job = some job ∧ b.Carries wiring job

/-! ## Steps -/

theorem effect_carries {b : Board ε} {job : Job} {c : EngineCall} (hcarries : b.Carries wiring job)
    (hquiet : c.admitted = none) (hdisable : ∀ deadline, c ≠ .disable deadline) :
    ∃ d, (RfEngine.effect wiring.rfEngine c b).engine = b.engine.withDevice d := by
  cases c with
  | prepare job => exact nomatch hquiet
  | schedule job start conditions => exact nomatch hquiet
  | begin job start => exact nomatch hquiet
  | poll now => exact ⟨_, poll_idle wiring.inner now hcarries.idle⟩
  | disable deadline => exact absurd rfl (hdisable deadline)
  | inhibitOutput | calibrationBoundary => exact ⟨b.engine.hardware.device, rfl⟩

/-- How a step ends with a loaded job: the job was loaded and the engine is as it
was, or this is its LOAD. -/
theorem step_loaded {s s' : AuthSys (Board ε)} (hstep : Step (wiring.env around) p s s')
    (h : Planned wiring s.auth s.world)
    (hlate : ∀ job, p.load s.auth s.world job → s.auth.state = .loaded →
      ¬ wiring.Late s.world job)
    (hloaded : s'.auth.state = .loaded) :
    (s.auth.state = .loaded ∧ s'.auth.job = s.auth.job ∧
      ∃ d, s'.world.engine = s.world.engine.withDevice d) ∨
    ∃ job plan hardware, p.Loads s.auth s.world job ∧ s'.auth.job = some job ∧
      wiring.inner.rate.planJob job (wiring.selected s.world).ppb = some plan ∧
      s.world.engine.stream.state = .idle ∧ s'.world = wiring.holding s.world job plan hardware := by
  have hterminal : ∀ {state : State}, state ∈ outcomes → state ≠ .loaded :=
    fun h => (not_live_of_outcome h).1
  cases hstep with
  | observe hobserve =>
    obtain ⟨d, rfl⟩ := looks_board (.observe hobserve)
    exact .inl ⟨hloaded, rfl, d, rfl⟩
  | clock => exact .inl ⟨hloaded, rfl, _, rfl⟩
  | quiet x hquiet hdisable =>
    obtain ⟨job, -, hcarries⟩ := h.held hloaded
    exact .inl ⟨hloaded, rfl, effect_carries hcarries hquiet
      fun deadline hc => (hdisable deadline hc).2 hloaded⟩
  | terminal _ _ _ _ _ _ _ _ hhalts =>
    rw [Authority.terminal_eq] at hloaded
    exact absurd hloaded (hterminal hhalts.outcome)
  | fault =>
    rw [Authority.terminal_eq] at hloaded
    cases hloaded
  | clear => exact nomatch hloaded
  | @prune a t w nowNs =>
    obtain hp | ⟨-, hp⟩ := a.pruneTerminals_cases nowNs
    · rw [hp] at hloaded ⊢
      exact .inl ⟨hloaded, rfl, w.engine.hardware.device, rfl⟩
    · rw [hp] at hloaded
      cases hloaded
  | @refused a t w job hloads hunusable =>
    obtain ⟨held, -, hcarries⟩ := h.held hloaded
    obtain ⟨d, hd⟩ | ⟨hjob, -⟩ :=
      prepare_refused h.tuned hunusable (hlate job hloads.permit hloaded)
    · exact .inl ⟨hloaded, rfl, d, congrArg Board.engine hd⟩
    · rw [hcarries.held] at hjob
      cases hjob
  | @load a t w job digest hloads husable =>
    obtain ⟨plan, hardware, hplan, hidle, heq⟩ := prepare_usable h.tuned husable
    exact .inr ⟨job, plan, hardware, hloads, rfl, hplan, hidle, heq⟩
  | arm | armLocally | started | launch => exact nomatch hloaded
  | stamp _ hs => exact absurd (hs.symm.trans hloaded) (by decide)
  | spend hs =>
    rcases hs with hs | hs
    · exact absurd (hs.symm.trans hloaded) (by decide)
    · exact absurd (hs.symm.trans hloaded) (by decide)
  | _ => exact .inl ⟨hloaded, rfl, _, rfl⟩

theorem Board.Carries.withDevice {b b' : Board ε} {job : Job} {d : ε}
    (h : b.Carries wiring job) (heq : b'.engine = b.engine.withDevice d) :
    b'.Carries wiring job := by
  have hstream : b'.engine.stream = b.engine.stream := by
    rw [heq]
    rfl
  exact ⟨hstream ▸ h.idle, hstream ▸ h.held, hstream ▸ h.planned⟩

theorem step_planned {s s' : AuthSys (Board ε)} (hstep : Step (wiring.env around) p s s')
    (h : Planned wiring s.auth s.world)
    (hlate : ∀ job, p.load s.auth s.world job → s.auth.state = .loaded →
      ¬ wiring.Late s.world job) : Planned wiring s'.auth s'.world := by
  refine ⟨step_tuned hstep h.tuned, fun hloaded => ?_⟩
  obtain ⟨hbefore, hjob, d, heq⟩ | ⟨job, plan, hardware, -, hjob, hplan, hidle, heq⟩ :=
    step_loaded hstep h hlate hloaded
  · obtain ⟨job, hheld, hcarries⟩ := h.held hbefore
    exact ⟨job, hjob.trans hheld, hcarries.withDevice heq⟩
  · rw [heq]
    exact ⟨job, hjob, hidle, rfl, hplan⟩

/-- The loads of `p` are not late while a job is loaded. -/
def Timely (wiring : PolicyWiring ε) (p : Permit (Board ε)) : Prop :=
  ∀ a b job, p.load a b job → a.state = .loaded → ¬ wiring.Late b job

theorem sysStep_planned {s s' : Sys (Board ε)} (hstep : SysStep (wiring.env around) p s s')
    (htimely : Timely wiring p) (h : Planned wiring s.auth s.world) :
    Planned wiring s'.auth s'.world := by
  cases hstep with
  | authority hp _ hstep =>
    exact step_planned hstep h fun job hload => htimely _ _ job (hp.load _ _ job hload)
  | @reset a t w w' tr deadline bootId ready _ _ hrests =>
    refine ⟨rests_tuned hrests (tuned_disable _ h.tuned deadline), fun hloaded => ?_⟩
    cases ready <;> simp [Authority.reset] at hloaded
  | _ => exact h

/-! ## Runs -/

theorem run_planned (ops : List (Op (Outside ε))) {s : Sys (Board ε)} (hsound : Sound s.auth)
    (h : Planned wiring s.auth s.world)
    (hlate : ∀ pre op post, ops = pre ++ op :: post → ¬ wiring.LateLoad around (· = .loaded)
      (run (wiring.env around) (pre.map boardOp) s) (boardOp op)) :
    Planned wiring (run (wiring.env around) (ops.map boardOp) s).auth
      (run (wiring.env around) (ops.map boardOp) s).world := by
  refine run_board (I := fun s => Planned wiring s.auth s.world)
    (fun s op h => op_within_timely (P := (· = .loaded)) h (.inr trivial)) ?_
    (fun s s' hs => sysStep_planned hs fun _ _ _ hload => hload)
    ops hsound h hlate
  intro s f hplanned
  refine ⟨hplanned.tuned, fun hloaded => ?_⟩
  obtain ⟨job, hjob, hcarries⟩ := hplanned.held hloaded
  exact ⟨job, hjob, hcarries.idle, hcarries.held, hcarries.planned⟩

theorem planned_construct (config : ServiceConfig) (hardware : Hardware ε) (store : StoreView) :
    Planned wiring
      (construct (wiring.env around) config (wiring.boot hardware store)).auth
      (construct (wiring.env around) config (wiring.boot hardware store)).world := by
  obtain ⟨config', bootId, ready, -, -, -, ha, -, -, htuned⟩ := construct_board config hardware store
  refine ⟨htuned, fun hloaded => ?_⟩
  rw [ha] at hloaded
  cases ready <;> simp [Authority.initial] at hloaded

/-! ## Rejected LOADs -/

/-- The loaded job is the one of `a` and the engine is as in `b`, or another job is loaded. -/
def Unmoved (a : Authority) (b : Board ε) (s : Sys (Board ε)) : Prop :=
  s.auth.state = .loaded → s.auth.job = a.job → ∃ d, s.world.engine = b.engine.withDevice d

theorem sysStep_unmoved {a : Authority} {b : Board ε} {s s' : Sys (Board ε)}
    (hstep : SysStep (wiring.env around) p s s') (htimely : Timely wiring p)
    (hother : ∀ a' b' job, p.load a' b' job → a.job ≠ some job)
    (hplanned : Planned wiring s.auth s.world) (h : Unmoved a b s) : Unmoved a b s' := by
  cases hstep with
  | authority hp _ hstep =>
    intro hloaded hjob
    obtain ⟨hbefore, hsame, d, heq⟩ | ⟨job, plan, hardware, hloads, hnew, -⟩ :=
      step_loaded hstep hplanned (fun job hload => htimely _ _ job (hp.load _ _ job hload)) hloaded
    · obtain ⟨d', heq'⟩ := h hbefore (hsame.symm.trans hjob)
      exact ⟨d, by rw [heq, heq']; rfl⟩
    · exact absurd (hjob.symm.trans hnew) (hother _ _ job (hp.load _ _ job hloads.permit))
  | @reset a t w w' tr deadline bootId ready _ _ hrests =>
    intro hloaded
    cases ready <;> simp [Authority.reset] at hloaded
  | _ => exact h

/-- A LOAD that is rejected while a job is loaded leaves the authority and the
engine as the expiries of its call left them. -/
theorem rejected_unmoved {s : Sys (Board ε)} {op : Op (Board ε)} {request : Request}
    {retainResponse : Bool} (h : Planned wiring s.auth s.world)
    (hlate : ¬ wiring.LateLoad around (· = .loaded) s op)
    (hrequest : op.request = some (request, retainResponse)) (hload : request.operation = .load)
    (hloaded : (enter (wiring.env around) s).2.auth.state = .loaded)
    (hrejected : (handleOwned (wiring.env around) request retainResponse s).1.ok = false) :
    (handleOwned (wiring.env around) request retainResponse s).2.auth =
        (enter (wiring.env around) s).2.auth ∧
      ∃ d, (handleOwned (wiring.env around) request retainResponse s).2.world.engine =
        (enter (wiring.env around) s).2.world.engine.withDevice d := by
  have henter := enter_moves (wiring.env around) {} s.auth s.trace s.world s.transport
  have hentered : Planned wiring (enter (wiring.env around) s).2.auth
      (enter (wiring.env around) s).2.world :=
    invariant_star (I := fun s : Sys (Board ε) => Planned wiring s.auth s.world)
      (fun _ _ hs => sysStep_planned hs fun _ _ _ => False.elim) henter.1 h
  rw [handleOwned_eq] at hrejected ⊢
  rcases heq : enter (wiring.env around) s with ⟨now, s₁⟩
  rw [heq] at hentered hrejected hloaded
  have hexpired : lastExpired s₁.trace = some now.monotonicNowNs := by
    have hlast := henter.2.2.2.2
    change lastExpired (enter (wiring.env around) s).2.trace = _ at hlast
    rwa [heq] at hlast
  -- only the job of the request may be loaded, and it is not the loaded one
  let p : Permit (Board ε) :=
    { load := fun a b job => LoadsJob s₁.auth request job ∧ (a.state = .loaded → ¬ wiring.Late b job) }
  have hadmits : p.Admits (wiring.env around) s₁ now.monotonicNowNs request := by
    refine ⟨fun hdispatched job hloads b hlooks => ⟨hloads, fun _ => ?_⟩, fun _ hrelease => ?_⟩
    · refine admits_of_not_late hlate hrequest ?_ ?_ ?_ ?_ <;> rw [heq] <;> assumption
    · exact absurd (hload.symm.trans hrelease.operation) (by decide)
  have htimely : Timely wiring p := fun _ _ _ hload => hload.2
  have hother : ∀ a b job, p.load a b job → s₁.auth.job ≠ some job := by
    rintro a b job ⟨hloads, -⟩ hjob
    exact hloads.fresh (by rw [hjob]; rfl)
  have hmoves := respond_kept (wiring.env around) p s₁.auth s₁.trace s₁.world s₁.transport request
    retainResponse hexpired hadmits
  have hkept := hmoves.2 hload hrejected
  obtain ⟨-, hunmoved⟩ := invariant_star
    (I := fun s => Planned wiring s.auth s.world ∧ Unmoved s₁.auth s₁.world s)
    (fun _ _ hs hi => ⟨sysStep_planned hs htimely hi.1,
      sysStep_unmoved hs htimely hother hi.1 hi.2⟩)
    hmoves.1 ⟨hentered, fun _ _ => ⟨_, rfl⟩⟩
  exact ⟨hkept, hunmoved ((congrArg Authority.state hkept).trans hloaded)
    (congrArg Authority.job hkept)⟩

/-! ## Rejected LOADs over runs -/

/-- Without a late refusal while a job is loaded, the engine holds the plan of the
loaded job, and a LOAD rejected in that state changes neither side. What the policy
keeps of its own, as the correction it programmed, is not part of either. -/
theorem rejected_load_atomic (wiring : PolicyWiring ε) (around : Surroundings ε)
    (config : ServiceConfig) (hardware : Hardware ε) (store : StoreView)
    (ops : List (Op (Outside ε)))
    (hlate : ∀ pre op post, ops = pre ++ op :: post → ¬ wiring.LateLoad around (· = .loaded)
      (wiring.after around config hardware store pre) (boardOp op)) :
    (let s := wiring.after around config hardware store ops
     s.auth.state = .loaded → ∃ job, s.auth.job = some job ∧ s.world.Carries wiring job) ∧
    ∀ pre op post request retainResponse, ops = pre ++ op :: post →
      (boardOp op).request = some (request, retainResponse) → request.operation = .load →
      let s := wiring.after around config hardware store pre
      let entered := (enter (wiring.env around) s).2
      let r := handleOwned (wiring.env around) request retainResponse s
      entered.auth.state = .loaded → r.1.ok = false →
        r.2.auth = entered.auth ∧ ∃ d, r.2.world.engine = entered.world.engine.withDevice d := by
  have hplanned : ∀ pre post, ops = pre ++ post →
      Planned wiring (wiring.after around config hardware store pre).auth
        (wiring.after around config hardware store pre).world := by
    intro pre post heq
    refine run_planned pre (sound_construct config _) (planned_construct config hardware store) ?_
    intro pre' op post' heq'
    exact hlate pre' op (post' ++ post) (by rw [heq, heq', List.append_assoc, List.cons_append])
  refine ⟨(hplanned ops [] (List.append_nil ops).symm).held, ?_⟩
  intro pre op post request retainResponse heq hrequest hload s entered r hloaded hrejected
  exact rejected_unmoved (hplanned pre (op :: post) heq) (hlate pre op post heq) hrequest
    hload hloaded hrejected

/-- A LOAD that reuses the id of the loaded job for another one. -/
def conflictRequest : Request :=
  benchRequest .load "30000000000000000000000000000005"
    (.job (toneJob "11111111111111111111111111111111" 14097200))

def conflictLoad : Op (Outside ClockSnapshot) := .handle conflictRequest

theorem conflict_timely : ∀ pre op post, benchLoad ++ [conflictLoad] = pre ++ op :: post →
    ¬ benchWiring.LateLoad benchAround (· = .loaded) (benchAfter pre) (boardOp op) := by
  refine splits_cons (benchCall_not_late (by decide)) (splits_cons (benchCall_not_late (by decide))
    (splits_cons ?_ (splits_cons ?_ splits_nil)))
  · rintro ⟨request, retainResponse, job, -, -, -, hs, -⟩
    exact absurd hs (by decide +kernel)
  · rintro ⟨request, retainResponse, job, hrequest, -, hloads, -⟩
    cases hrequest
    obtain rfl := RequestBody.job.inj hloads.body
    exact hloads.fresh (by decide +kernel)

theorem rejected_load_atomic_bench :
    (benchAfter (benchLoad ++ [conflictLoad])).auth.job = some loadedJob ∧
      (benchAfter (benchLoad ++ [conflictLoad])).world.Carries benchWiring loadedJob ∧
      (handleOwned (benchWiring.env benchAround) conflictRequest true
        (benchAfter benchLoad)).2.auth =
        (enter (benchWiring.env benchAround) (benchAfter benchLoad)).2.auth := by
  obtain ⟨hheld, hrejected⟩ := rejected_load_atomic benchWiring benchAround {}
    ⟨{}, benchClock 1000000000⟩ { healthy := true } (benchLoad ++ [conflictLoad]) conflict_timely
  have hjob : (benchAfter (benchLoad ++ [conflictLoad])).auth.job = some loadedJob := by
    decide +kernel
  have hstate : (benchAfter (benchLoad ++ [conflictLoad])).auth.state = .loaded := by
    decide +kernel
  have hloaded : (enter (benchWiring.env benchAround) (benchAfter benchLoad)).2.auth.state =
      .loaded := by
    decide +kernel
  have hrefused : (handleOwned (benchWiring.env benchAround) conflictRequest true
      (benchAfter benchLoad)).1.ok = false := by
    decide +kernel
  unfold benchAfter at hjob hstate hloaded hrefused ⊢
  obtain ⟨job, hjob', hcarries⟩ := hheld hstate
  rw [hjob] at hjob'
  cases hjob'
  refine ⟨hjob, hcarries, ?_⟩
  exact (hrejected benchLoad conflictLoad [] conflictRequest true rfl rfl rfl hloaded hrefused).1

/-! ## A late refusal -/

def edgeLoad : Op (Outside ClockSnapshot) :=
  benchCall .load "30000000000000000000000000000003" (.job edgeJob)

/-- The loaded job is armed for second two and polled there. -/
def benchLaunch : List (Op (Outside ClockSnapshot)) :=
  [benchCall .arm "30000000000000000000000000000004" (.arm ⟨loadedJob.jobId, 2000000000, 1000000⟩),
   .world fun outside => { outside with hardware := ⟨{}, benchClock 2000000000⟩ },
   .poll]

/-- After the late refusal the engine does not hold the plan of the loaded job,
and the launch that would have succeeded fails. -/
theorem late_refusal_drifts :
    (let s := benchAfter (benchLoad ++ [edgeLoad])
     ¬ (s.auth.state = .loaded → ∃ job, s.auth.job = some job ∧ s.world.Carries benchWiring job)) ∧
    (benchAfter (benchLoad ++ benchLaunch)).auth.state = .running ∧
    (benchAfter (benchLoad ++ edgeLoad :: benchLaunch)).auth.state = .failed := by
  have hdrift : (benchAfter (benchLoad ++ [edgeLoad])).auth.state = .loaded ∧
      (benchAfter (benchLoad ++ [edgeLoad])).world.engine.stream.job ≠
        (benchAfter (benchLoad ++ [edgeLoad])).auth.job.map jobDigest := by
    decide +kernel
  refine ⟨fun h => ?_, by decide +kernel, by decide +kernel⟩
  obtain ⟨job, hjob, hcarries⟩ := h hdrift.1
  exact hdrift.2 (hcarries.held.trans (by rw [hjob]; rfl))

end WsprryPico.Standalone
