import WsprryPico.Standalone.Board

/-!
# The plan of the engine and the job of the service

The engine holds no plan once the service has neither a loaded, armed or running
job nor a failure, in every run without a RELEASE of a loaded job, which clears
the job of the service but not the one of the engine, and without a late refusal
outside `Loaded`. The correction can then be changed.
-/

namespace WsprryPico.Standalone

open Wtp Rf Lib Relation

variable {ε : Type} {wiring : PolicyWiring ε} {around : Surroundings ε} {p : Permit (Board ε)}

/-- The states without a job that the engine has to hold. -/
structure Settled (a : Authority) : Prop where
  loaded : a.state ≠ .loaded
  armed : a.state ≠ .armed
  running : a.state ≠ .running
  failed : a.state ≠ .failed

/-- The engine holds no job and, but for a stop it refused, is idle. -/
structure Board.Unloaded (b : Board ε) (inhibited : Bool) : Prop where
  job : b.engine.stream.job = none
  idle : inhibited = false → b.engine.stream.state = .idle

structure Released (a : Authority) (b : Board ε) : Prop where
  tuned : b.Tuned
  unloaded : Settled a → b.Unloaded a.outputInhibited

theorem Board.Unloaded.of_stream {b b' : Board ε} {inhibited : Bool} (h : b.Unloaded inhibited)
    (heq : b'.engine.stream = b.engine.stream) : b'.Unloaded inhibited :=
  ⟨heq ▸ h.job, fun hfree => heq ▸ h.idle hfree⟩

/-! ## Steps -/

variable (wiring) in
theorem disable_unloaded {b : Board ε} {deadline : UInt64} {inhibited : Bool}
    (h : (wiring.rfEngine.disable deadline b).1 = true) :
    (wiring.rfEngine.disable deadline b).2.Unloaded inhibited := by
  obtain ⟨hardware, heq | heq⟩ := disable_eq wiring deadline b
  · rw [heq]
    exact ⟨rfl, fun _ => rfl⟩
  · rw [heq] at h
    cases h

/-- A command without a job leaves an engine without a job; a stop does so under
the interlock. -/
theorem effect_unloaded {b : Board ε} {c : EngineCall} {inhibited : Bool}
    (h : b.Unloaded inhibited) (hquiet : c.admitted = none)
    (hdisable : ∀ deadline, c = .disable deadline → inhibited = true) :
    (RfEngine.effect wiring.rfEngine c b).Unloaded inhibited := by
  cases c with
  | prepare job => exact nomatch hquiet
  | schedule job start conditions => exact nomatch hquiet
  | begin job start => exact nomatch hquiet
  | poll now =>
    refine ⟨?_, fun hfree => ?_⟩
    · have hheld := effect_holds wiring (b := b) (c := .poll now) nofun
        nofun
      simp only [Board.holds, Engine.held, Prod.mk.injEq] at hheld
      exact hheld.2.1.trans h.job
    · have hpoll : (wiring.inner.poll now b.engine).2 = b.engine.withDevice _ :=
        poll_idle _ now (h.idle hfree)
      show (wiring.inner.poll now b.engine).2.stream.state = .idle
      rw [hpoll]
      exact h.idle hfree
  | disable deadline =>
    have hset := hdisable deadline rfl
    obtain ⟨hardware, heq | heq⟩ := disable_eq wiring deadline b
    · exact disable_unloaded wiring (by rw [heq])
    · refine ⟨?_, fun hfree => absurd (hfree.symm.trans hset) (by decide)⟩
      show (wiring.rfEngine.disable deadline b).2.engine.stream.job = none
      rw [heq]
      exact h.job
  | inhibitOutput => exact h
  | calibrationBoundary => exact h.of_stream rfl

theorem undisturbed_unloaded {b b' : Board ε} {inhibited : Bool} (h : b.Unloaded inhibited)
    (hundisturbed : b.Undisturbed b') : b'.Unloaded inhibited := by
  obtain ⟨d, rfl⟩ | ⟨-, ppb, d, rfl⟩ := hundisturbed
  · exact h.of_stream rfl
  · exact ⟨h.job, h.idle⟩

theorem halts_unloaded {deadline : UInt64} {state : State} {b b' : Board ε} {inhibited : Bool}
    (h : (wiring.env around).Halts deadline state b b') (hstate : state ≠ .failed) :
    b'.Unloaded inhibited := by
  obtain ⟨d, rfl⟩ := observes_star h.observed
  exact (disable_unloaded wiring (h.off hstate)).of_stream rfl

/-- A step keeps the engine free of a plan without a job, where it releases no
loaded job and no LOAD is refused late outside `Loaded`. -/
theorem step_released {s s' : AuthSys (Board ε)} (hstep : Step (wiring.env around) p s s')
    (h : Released s.auth s.world) (hrelease : ¬ p.release)
    (hlate : ∀ job, p.load s.auth s.world job → s.auth.state ≠ .loaded →
      ¬ wiring.Late s.world job) : Released s'.auth s'.world := by
  refine ⟨step_tuned hstep h.tuned, fun hsettled => ?_⟩
  cases hstep with
  | observe hobserve =>
    obtain ⟨d, rfl⟩ := looks_board (.observe hobserve)
    exact (h.unloaded hsettled).of_stream rfl
  | clock => exact (h.unloaded hsettled).of_stream rfl
  | quiet x hquiet hdisable =>
    exact effect_unloaded (h.unloaded hsettled) hquiet fun deadline hc => (hdisable deadline hc).1
  | terminal x deadline state error nowNs active loadActive hpending hhalts =>
    rw [Authority.terminal_eq] at hsettled
    exact halts_unloaded hhalts hsettled.failed
  | fault =>
    rw [Authority.terminal_eq] at hsettled
    exact absurd rfl hsettled.failed
  | clear harmed hrunning hfailed hloaded =>
    exact h.unloaded ⟨fun hs => hrelease (hloaded hs), harmed, hrunning, hfailed⟩
  | @prune a t w nowNs =>
    obtain hp | ⟨hstate, hp⟩ := a.pruneTerminals_cases nowNs
    · rw [hp] at hsettled ⊢
      exact h.unloaded ⟨hsettled.1, hsettled.2, hsettled.3, hsettled.4⟩
    · rw [hp]
      refine h.unloaded ?_
      constructor <;> rcases hstate with hs | hs | hs <;> simp [hs]
  | @refused a t w job hloads hunusable =>
    have hundisturbed := prepare_refused h.tuned hunusable
      (hlate job hloads.permit hsettled.loaded)
    exact undisturbed_unloaded (h.unloaded hsettled) hundisturbed
  | load => exact absurd rfl hsettled.loaded
  | arm | armLocally => exact absurd rfl hsettled.armed
  | started | launch => exact absurd rfl hsettled.running
  | stamp _ hs => exact absurd hs hsettled.running
  | spend hs =>
    rcases hs with hs | hs
    · exact absurd hs hsettled.armed
    · exact absurd hs hsettled.running
  | inhibit =>
    have hbefore := h.unloaded ⟨hsettled.1, hsettled.2, hsettled.3, hsettled.4⟩
    exact ⟨hbefore.job, nofun⟩
  | _ => exact h.unloaded ⟨hsettled.1, hsettled.2, hsettled.3, hsettled.4⟩

/-- What a permit has to exclude for the engine to stay free of leftovers. -/
structure Tidy (wiring : PolicyWiring ε) (p : Permit (Board ε)) : Prop where
  release : ¬ p.release
  load : ∀ a b job, p.load a b job → a.state ≠ .loaded → ¬ wiring.Late b job

theorem sysStep_released {s s' : Sys (Board ε)} (hstep : SysStep (wiring.env around) p s s')
    (htidy : Tidy wiring p) (h : Released s.auth s.world) : Released s'.auth s'.world := by
  cases hstep with
  | authority hp _ hstep =>
    exact step_released hstep h (fun hrelease => htidy.release (hp.release hrelease))
      fun job hload => htidy.load _ _ job (hp.load _ _ job hload)
  | @reset a t w w' tr deadline bootId ready _ hoff hrests =>
    refine ⟨rests_tuned hrests (tuned_disable _ h.tuned deadline), fun hsettled => ?_⟩
    cases ready with
    | false => exact absurd rfl hsettled.failed
    | true => exact (disable_unloaded _ (hoff rfl)).of_stream (rests_board hrests).1
  | _ => exact h

/-! ## Runs -/

/-- `op` neither releases a loaded job nor is refused late outside `Loaded`. -/
structure PolicyWiring.Orderly (wiring : PolicyWiring ε) (around : Surroundings ε)
    (s : Sys (Board ε)) (op : Op (Board ε)) : Prop where
  release : ¬ wiring.LoadedRelease around s op
  load : ¬ wiring.LateLoad around (· ≠ .loaded) s op

theorem released_construct (config : ServiceConfig) (hardware : Hardware ε) (store : StoreView) :
    Released (construct (wiring.env around) config (wiring.boot hardware store)).auth
      (construct (wiring.env around) config (wiring.boot hardware store)).world := by
  obtain ⟨config', bootId, ready, deadline, d, d', ha, hw, hoff, htuned⟩ :=
    construct_board config hardware store
  refine ⟨htuned, fun hsettled => ?_⟩
  rw [ha] at hsettled ⊢
  rw [hw]
  cases ready with
  | false => exact absurd rfl hsettled.failed
  | true => exact (disable_unloaded wiring (hoff rfl)).of_stream rfl

theorem run_released (ops : List (Op (Outside ε))) {s : Sys (Board ε)} (hsound : Sound s.auth)
    (h : Released s.auth s.world)
    (hcalls : ∀ pre op post, ops = pre ++ op :: post →
      wiring.Orderly around (run (wiring.env around) (pre.map boardOp) s) (boardOp op)) :
    Released (run (wiring.env around) (ops.map boardOp) s).auth
      (run (wiring.env around) (ops.map boardOp) s).world := by
  refine run_board (I := fun s => Released s.auth s.world)
    (fun s op h => op_within_timely (P := (· ≠ .loaded)) h.load (.inl h.release)) ?_
    (fun s s' hs => sysStep_released hs ⟨id, fun _ _ _ hload => hload⟩) ops hsound h hcalls
  exact fun s f hreleased => ⟨hreleased.tuned, fun hs => (hreleased.unloaded hs).of_stream rfl⟩

/-- The correction may be changed: the engine accepts it and the policy programs it. -/
def Board.Correctable (wiring : PolicyWiring ε) (b : Board ε) : Prop :=
  ∀ ppb, correctionInRange ppb = true →
    (wiring.inner.sink.outputActive b.engine.hardware.device).1 = false →
      (wiring.inner.setFrequencyCorrectionPpb ppb b.engine).1 = true ∧
        (wiring.program ppb b).1 = true

theorem Board.Unloaded.correctable {b : Board ε} (h : b.Unloaded false) :
    b.Correctable wiring := by
  intro ppb hrange hactive
  have hset := setFrequencyCorrectionPpb_free (h.idle rfl) h.job hactive hrange
  refine ⟨hset, ?_⟩
  by_cases hprogrammed : b.policy.programmed = some ppb
  · simp [PolicyWiring.program, bind, StateT.bind, BoardM.board, hprogrammed, Rf.pure_at]
  · simp [PolicyWiring.program, bind, StateT.bind, BoardM.board, hprogrammed, BoardM.onEngine, hset,
      BoardM.onPolicy, Rf.pure_at]

/-- In a run without a RELEASE of a loaded job and without a late refusal outside
`Loaded`, an empty service has an engine without a plan, and the correction can be
changed unless the service is stopped. -/
theorem plan_released (wiring : PolicyWiring ε) (around : Surroundings ε)
    (config : ServiceConfig) (hardware : Hardware ε) (store : StoreView)
    (ops : List (Op (Outside ε)))
    (hcalls : ∀ pre op post, ops = pre ++ op :: post → wiring.Orderly around
      (wiring.after around config hardware store pre) (boardOp op)) :
    let s := wiring.after around config hardware store ops
    s.auth.state = .empty →
      s.world.engine.stream.job = none ∧
        (s.auth.outputInhibited = false → s.world.Correctable wiring) := by
  intro s hempty
  have hreleased : Released s.auth s.world :=
    run_released ops (sound_construct config _) (released_construct config hardware store) hcalls
  have hunloaded := hreleased.unloaded (by constructor <;> simp [hempty])
  exact ⟨hunloaded.job, fun hfree => (hfree ▸ hunloaded).correctable⟩

/-! ## The bench -/

def benchRelease : Op (Outside ClockSnapshot) :=
  benchCall .release "30000000000000000000000000000004" .monostate

/-- The loaded job is aborted, then released. -/
def benchAbort : List (Op (Outside ClockSnapshot)) :=
  [benchCall .abort "30000000000000000000000000000003" (.abort loadedJob.jobId), benchRelease]

theorem abort_orderly : ∀ pre op post, benchLoad ++ benchAbort = pre ++ op :: post →
    benchWiring.Orderly benchAround (benchAfter pre) (boardOp op) := by
  have hrelease : ∀ {operation requestId body s}, operation ≠ .release →
      ¬ benchWiring.LoadedRelease benchAround s
        (boardOp (benchCall operation requestId body)) := by
    rintro operation requestId body s hop ⟨request, retainResponse, hrequest, -, hreleases⟩
    cases hrequest
    exact hop hreleases.operation
  have hallowed : ∀ plan ∈ SampleRate.mhz138.planJob loadedJob 0,
      benchWiring.realizedAllowed { healthy := true } loadedJob
        (SampleRate.mhz138.adjustments 0 loadedJob.events.events plan.segments) = true := by
    decide +kernel
  refine splits_cons ⟨hrelease (by decide), benchCall_not_late (by decide)⟩ (splits_cons
    ⟨hrelease (by decide), benchCall_not_late (by decide)⟩ (splits_cons ⟨hrelease (by decide), ?_⟩
      (splits_cons ⟨hrelease (by decide), benchCall_not_late (by decide)⟩
        (splits_cons ⟨?_, benchCall_not_late (by decide)⟩ splits_nil))))
  · rintro ⟨request, retainResponse, job, hrequest, -, hloads, -, hlate⟩
    cases hrequest
    obtain rfl := RequestBody.job.inj hloads.body
    obtain ⟨plan, hplan, -, hrefused⟩ := hlate.refused
    exact absurd ((hallowed plan hplan).symm.trans hrefused) (by decide)
  · rintro ⟨request, retainResponse, -, -, hreleases⟩
    exact absurd hreleases.loaded (by decide +kernel)

theorem plan_released_bench :
    (benchAfter (benchLoad ++ benchAbort)).auth.state = .empty ∧
      (benchAfter (benchLoad ++ benchAbort)).world.engine.stream.job = none ∧
      (benchAfter (benchLoad ++ benchAbort)).world.Correctable benchWiring := by
  have hempty : (benchAfter (benchLoad ++ benchAbort)).auth.state = .empty := by decide +kernel
  have hfree : (benchAfter (benchLoad ++ benchAbort)).auth.outputInhibited = false := by
    decide +kernel
  have hreleased := plan_released benchWiring benchAround {} ⟨{}, benchClock 1000000000⟩
    { healthy := true } (benchLoad ++ benchAbort) abort_orderly
  unfold benchAfter at hempty hfree ⊢
  exact ⟨hempty, (hreleased hempty).1, (hreleased hempty).2 hfree⟩

/-- Another correction is saved, then a new session owner loads another job. -/
def benchCorrect : List (Op (Outside ClockSnapshot)) :=
  [.world fun outside => { outside with
     store := { outside.store with config := some { manualCorrectionPpb := 1000 } } },
   benchCall .claim "30000000000000000000000000000005"
     (.claim "44444444444444444444444444444444" 60000),
   benchCall .load "30000000000000000000000000000006"
     (.job (toneJob "55555555555555555555555555555555" 14097200))]

/-- A RELEASE of the loaded job leaves its plan in the engine, and the next LOAD
under another correction is refused where a board without the first job takes it. -/
theorem released_plan_remains :
    (let s := benchAfter (benchLoad ++ [benchRelease])
     ¬ (s.auth.state = .empty → s.world.engine.stream.job = none)) ∧
    (benchAfter (benchLoad ++ benchRelease :: benchCorrect)).auth.state = .empty ∧
    (benchAfter (benchLoad.take 1 ++ benchCorrect)).auth.state = .loaded := by
  have hempty : (benchAfter (benchLoad ++ [benchRelease])).auth.state = .empty := by decide +kernel
  have hjob : (benchAfter (benchLoad ++ [benchRelease])).world.engine.stream.job =
      some (jobDigest loadedJob) := by
    decide +kernel
  refine ⟨fun h => ?_, by decide +kernel, by decide +kernel⟩
  cases hjob.symm.trans (h hempty)

end WsprryPico.Standalone
