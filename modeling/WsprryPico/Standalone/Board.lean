import WsprryPico.Standalone.FrequencyPolicyEngine
import WsprryPico.Wtp.Stop

/-!
# `JobService` on the board

`PolicyWiring.env` as the world of the service: what each look and each command
does to the held job, and the runs of the two together. Between two calls only
the outside of the engines changes: `Outside` is the hardware, the saved
configuration and what the setters of the policy are told.
-/

namespace WsprryPico.Standalone

open Wtp Rf Lib Relation

variable {ε : Type}

/-! ## Runs -/

/-- What may change between two calls of the service. -/
structure Outside (ε : Type) where
  hardware : Hardware ε
  store : StoreView
  gps : GpsInput
  pairFrozen : Bool

def Board.change (f : Outside ε → Outside ε) (b : Board ε) : Board ε :=
  let outside := f ⟨b.engine.hardware, b.store, b.policy.gps, b.policy.pairFrozen⟩
  { policy := { b.policy with gps := outside.gps, pairFrozen := outside.pairFrozen }
    engine := ⟨b.engine.stream, outside.hardware⟩
    store := outside.store }

/-- A call of the service, or a change of the outside of its engines. -/
def boardOp : Op (Outside ε) → Op (Board ε)
  | .handle request => .handle request
  | .handleInternal request => .handleInternal request
  | .poll => .poll
  | .localAbort => .localAbort
  | .localInhibitOutput => .localInhibitOutput
  | .beginMaintenance => .beginMaintenance
  | .endMaintenance => .endMaintenance
  | .holdUpdateVerification => .holdUpdateVerification
  | .finishUpdateVerification => .finishUpdateVerification
  | .reset => .reset
  | .world f => .world (Board.change f)

theorem boardOp_world {op : Op (Outside ε)} {f : Board ε → Board ε} (h : boardOp op = .world f) :
    ∃ g, f = Board.change g := by
  cases op with
  | world g => exact ⟨g, (Op.world.inj h).symm⟩
  | _ => exact nomatch h

namespace PolicyWiring

variable (wiring : PolicyWiring ε) (around : Surroundings ε)

def boot (hardware : Hardware ε) (store : StoreView) : Board ε :=
  { policy := {}, engine := ⟨StreamEngine.initial wiring.inner.rate, hardware⟩, store := store }

/-- The service after the calls `ops` of a fresh board. -/
def after (config : ServiceConfig) (hardware : Hardware ε) (store : StoreView)
    (ops : List (Op (Outside ε))) : Sys (Board ε) :=
  run (wiring.env around) (ops.map boardOp)
    (construct (wiring.env around) config (wiring.boot hardware store))

/-- `op` is a LOAD of a job that may be loaded in a state of `P`, and that the policy refuses
after the inner engine took it, if nothing before refuses it. -/
def LateLoad (P : State → Prop) (s : Sys (Board ε)) (op : Op (Board ε)) : Prop :=
  ∃ request retainResponse job, op.request = some (request, retainResponse) ∧
    Dispatched (wiring.env around) (enter (wiring.env around) s).2
      (enter (wiring.env around) s).1.monotonicNowNs request ∧
    LoadsJob (enter (wiring.env around) s).2.auth request job ∧
    P (enter (wiring.env around) s).2.auth.state ∧
    wiring.Late (enter (wiring.env around) s).2.world job

/-- `op` is a RELEASE of a loaded job that reaches the service. -/
def LoadedRelease (s : Sys (Board ε)) (op : Op (Board ε)) : Prop :=
  ∃ request retainResponse, op.request = some (request, retainResponse) ∧
    Dispatched (wiring.env around) (enter (wiring.env around) s).2
      (enter (wiring.env around) s).1.monotonicNowNs request ∧
    ReleasesLoaded (enter (wiring.env around) s).2.auth request

end PolicyWiring

/-! ## The commands of the service on the board -/

variable {wiring : PolicyWiring ε} {around : Surroundings ε} {b b' : Board ε}

theorem looks_board (h : (wiring.env around).Looks b b') : ∃ d, b' = b.withDevice d := by
  cases h with
  | observe h => cases h <;> exact ⟨_, rfl⟩
  | clock => exact ⟨_, rfl⟩

theorem looks_star (h : ReflTransGen (wiring.env around).Looks b b') :
    ∃ d, b' = b.withDevice d := by
  refine invariant_star (I := fun b' => ∃ d, b' = b.withDevice d) ?_ h ⟨_, rfl⟩
  rintro b₁ b₂ hlook ⟨d, rfl⟩
  obtain ⟨d', rfl⟩ := looks_board hlook
  exact ⟨d', rfl⟩

theorem observes_star (h : ReflTransGen (wiring.env around).Observes b b') :
    ∃ d, b' = b.withDevice d :=
  looks_star (ReflTransGen.mono (fun _ _ => .observe) _ _ h)

theorem PolicyWiring.Late.of_withDevice {job : Job} {d : ε}
    (h : wiring.Late (b.withDevice d) job) : wiring.Late b job :=
  ⟨h.admitted, h.tunable, h.idle, h.refused⟩

/-- The held job and the programmed correction. -/
def Board.holds (b : Board ε) : Option Int × Option PayloadDigest × Plan × Int :=
  (b.policy.programmed, b.engine.held)

theorem Board.Tuned.of_holds (h : b.Tuned) (heq : b'.holds = b.holds) : b'.Tuned := by
  intro ppb hprogrammed
  simp only [Board.holds, Engine.held, Prod.mk.injEq] at heq
  rw [heq.2.2.2]
  exact h ppb (heq.1 ▸ hprogrammed)

theorem holds_onEngine {α : Type} {m : StreamM ε α} (h : Leaves Engine.held m) :
    (BoardM.onEngine m b).2.holds = b.holds :=
  congrArg (Prod.mk b.policy.programmed) (h b.engine)

theorem holds_whileHealthy {m : StreamM ε Bool} (h : Leaves Engine.held m) :
    (PolicyWiring.whileHealthy m b).2.holds = b.holds := by
  cases hhealthy : b.store.healthy with
  | false => simp [PolicyWiring.whileHealthy, bind, StateT.bind, BoardM.board, hhealthy]; rfl
  | true =>
    simp only [PolicyWiring.whileHealthy, bind, StateT.bind, BoardM.board, hhealthy]
    exact holds_onEngine h

variable (wiring) in
/-- Every command but a preparation and a stop leaves what the board holds. -/
theorem effect_holds {c : EngineCall} (hprepare : ∀ job, c ≠ .prepare job)
    (hdisable : ∀ deadline, c ≠ .disable deadline) :
    (RfEngine.effect wiring.rfEngine c b).holds = b.holds := by
  cases c with
  | prepare job => exact absurd rfl (hprepare job)
  | disable deadline => exact absurd rfl (hdisable deadline)
  | schedule job start conditions => exact holds_whileHealthy (leaves_schedule job start conditions)
  | begin job start => exact holds_whileHealthy (leaves_begin job start)
  | poll now => exact holds_onEngine (leaves_poll now)
  | inhibitOutput | calibrationBoundary => rfl

variable (wiring) in
theorem disable_eq (deadline : UInt64) (b : Board ε) : ∃ hardware,
    wiring.rfEngine.disable deadline b =
      (true, { b with engine := ⟨b.engine.stream.release wiring.inner.rate, hardware⟩ }) ∨
    wiring.rfEngine.disable deadline b =
      (false, { b with engine :=
        ⟨{ b.engine.stream with state := .failed, filterObservation := -2 }, hardware⟩ }) := by
  show ∃ hardware, BoardM.onEngine (wiring.inner.disable deadline) b = _ ∨
    BoardM.onEngine (wiring.inner.disable deadline) b = _
  unfold BoardM.onEngine
  obtain ⟨hardware, h | h⟩ := disable_cases wiring.inner b.engine deadline
  · exact ⟨hardware, .inl (by rw [h])⟩
  · exact ⟨hardware, .inr (by rw [h])⟩

variable (wiring) in
theorem tuned_disable (h : b.Tuned) (deadline : UInt64) :
    (wiring.rfEngine.disable deadline b).2.Tuned := by
  obtain ⟨hardware, heq | heq⟩ := disable_eq wiring deadline b
  · rw [heq]
    exact h
  · rw [heq]
    exact h

theorem Board.Undisturbed.tuned (htuned : b.Tuned) (h : b.Undisturbed b') : b'.Tuned := by
  obtain ⟨d, rfl⟩ | ⟨-, ppb, d, rfl⟩ := h
  · exact htuned
  · exact fun ppb' h => Option.some.inj h

theorem tuned_prepare (htuned : b.Tuned) (job : Job) :
    (wiring.rfEngine.prepare job b).2.Tuned := by
  show (wiring.prepare job b).2.Tuned
  obtain ⟨b', h, hundisturbed⟩ | ⟨-, b', h, h'⟩ | ⟨plan, hardware, -, -, h⟩ :=
    PolicyWiring.prepare_cases wiring htuned job
  · rw [h]
    exact hundisturbed.tuned htuned
  · rw [h]
    exact h'
  · rw [h]
    exact fun ppb h => Option.some.inj h

variable (wiring) in
theorem tuned_effect (h : b.Tuned) (c : EngineCall) :
    (RfEngine.effect wiring.rfEngine c b).Tuned := by
  cases c with
  | prepare job => exact tuned_prepare h job
  | disable deadline => exact tuned_disable _ h deadline
  | _ => exact h.of_holds (effect_holds _ nofun nofun)

theorem prepare_usable (htuned : b.Tuned) {job : Job}
    (h : (wiring.rfEngine.prepare job b).1.usable job) : ∃ plan hardware,
      wiring.inner.rate.planJob job (wiring.selected b).ppb = some plan ∧
      b.engine.stream.state = .idle ∧
      (wiring.rfEngine.prepare job b).2 = wiring.holding b job plan hardware := by
  change (wiring.prepare job b).1.usable job at h
  show ∃ plan hardware, _ ∧ _ ∧ (wiring.prepare job b).2 = _
  obtain ⟨b', heq, -⟩ | ⟨-, b', heq, -⟩ | ⟨plan, hardware, hplan, hidle, heq⟩ :=
    PolicyWiring.prepare_cases wiring htuned job
  · rw [heq] at h
    cases h.1
  · rw [heq] at h
    cases h.1
  · exact ⟨plan, hardware, hplan, hidle, by rw [heq]⟩

/-- A refusal of the policy that is not late does not disturb the held job. -/
theorem prepare_refused (htuned : b.Tuned) {job : Job}
    (h : ¬ (wiring.rfEngine.prepare job b).1.usable job) (hlate : ¬ wiring.Late b job) :
    b.Undisturbed (wiring.rfEngine.prepare job b).2 := by
  change ¬ (wiring.prepare job b).1.usable job at h
  show b.Undisturbed (wiring.prepare job b).2
  obtain ⟨b', heq, hundisturbed⟩ | ⟨h', -⟩ | ⟨plan, hardware, hplan, -, heq⟩ :=
    PolicyWiring.prepare_cases wiring htuned job
  · rw [heq]
    exact hundisturbed
  · exact absurd h' hlate
  · rw [heq] at h
    exact absurd (adjustments_usable hplan) h

/-! ## Steps on the board -/

section

variable {p : Permit (Board ε)}

theorem step_tuned {s s' : AuthSys (Board ε)} (hstep : Step (wiring.env around) p s s')
    (h : s.world.Tuned) : s'.world.Tuned := by
  have hhalts : ∀ {deadline state} {b b' : Board ε}, b.Tuned →
      (wiring.env around).Halts deadline state b b' → b'.Tuned := by
    intro deadline state b b' htuned hhalts
    obtain ⟨d, rfl⟩ := observes_star hhalts.observed
    exact tuned_disable _ htuned deadline
  cases hstep with
  | observe hobserve =>
    obtain ⟨d, rfl⟩ := looks_board (.observe hobserve)
    exact h
  | clock => exact h
  | quiet => exact tuned_effect _ h _
  | terminal _ _ _ _ _ _ _ _ hhalt => exact hhalts h hhalt
  | fault _ _ _ _ _ _ hhalt => exact hhalts h hhalt
  | refused | load => exact tuned_prepare h _
  | armLocally conditions =>
    exact tuned_effect wiring h (.schedule _ _ conditions)
  | launch => exact tuned_effect wiring h (.begin _ _)
  | _ => exact h

/-- The rest of a reset leaves the stream and the correction. -/
theorem rests_board {b b' : Board ε} (h : ReflTransGen (wiring.env around).Rests b b') :
    b'.engine.stream = b.engine.stream ∧ b'.policy.programmed = b.policy.programmed := by
  refine invariant_star (I := fun b' => b'.engine.stream = b.engine.stream ∧
    b'.policy.programmed = b.policy.programmed) (fun b₁ b₂ hrest heq => ?_) h ⟨rfl, rfl⟩
  cases hrest with
  | observe hobserve =>
    obtain ⟨d, rfl⟩ := looks_board (.observe hobserve)
    exact heq
  | boundary => exact heq

theorem rests_tuned {b b' : Board ε} (h : ReflTransGen (wiring.env around).Rests b b')
    (htuned : b.Tuned) : b'.Tuned := by
  obtain ⟨hstream, hprogrammed⟩ := rests_board h
  intro ppb hppb
  rw [hstream]
  exact htuned ppb (hprogrammed.symm.trans hppb)

/-- No LOAD of the call is late in a state of `P`: what `p` allows follows. -/
theorem admits_of_not_late {P : State → Prop} {s : Sys (Board ε)} {op : Op (Board ε)}
    {request : Request} {retainResponse : Bool} {job : Job} {b : Board ε}
    (hlate : ¬ wiring.LateLoad around P s op) (hrequest : op.request = some (request, retainResponse))
    (hdispatched : Dispatched (wiring.env around) (enter (wiring.env around) s).2
      (enter (wiring.env around) s).1.monotonicNowNs request)
    (hloads : LoadsJob (enter (wiring.env around) s).2.auth request job)
    (hlooks : ReflTransGen (wiring.env around).Looks (enter (wiring.env around) s).2.world b)
    (hP : P (enter (wiring.env around) s).2.auth.state) : ¬ wiring.Late b job := by
  obtain ⟨d, rfl⟩ := looks_star hlooks
  exact fun h => hlate ⟨request, retainResponse, job, hrequest, hdispatched, hloads, hP,
    h.of_withDevice⟩

/-- A permit for a call that loads nothing late in a state of `P`. -/
def Permit.timely (wiring : PolicyWiring ε) (P : State → Prop) (release : Prop) :
    Permit (Board ε) :=
  { load := fun a b job => P a.state → ¬ wiring.Late b job
    launch := True, release, inhibit := True, reset := True }

theorem op_within_timely {P : State → Prop} {release : Prop} {s : Sys (Board ε)}
    {op : Op (Board ε)} (hlate : ¬ wiring.LateLoad around P s op)
    (hrelease : ¬ wiring.LoadedRelease around s op ∨ release) :
    op.Within (wiring.env around) (Permit.timely wiring P release) s := by
  have hadmits : ∀ {request retainResponse}, op.request = some (request, retainResponse) →
      (Permit.timely wiring P release).Admits (wiring.env around) (enter (wiring.env around) s).2
        (enter (wiring.env around) s).1.monotonicNowNs request := fun hrequest =>
    ⟨fun hdispatched _ hloads _ hlooks hs =>
      admits_of_not_late hlate hrequest hdispatched hloads hlooks hs,
     fun hdispatched hreleases => hrelease.resolve_left fun h =>
      h ⟨_, _, hrequest, hdispatched, hreleases⟩⟩
  cases op with
  | handle request => exact hadmits rfl
  | handleInternal request => exact hadmits rfl
  | _ => simp [Op.Within, Permit.timely]

/-- The board of a fresh service, behind the stop of its constructor. -/
theorem construct_board (config : ServiceConfig) (hardware : Hardware ε) (store : StoreView) :
    let s := construct (wiring.env around) config (wiring.boot hardware store)
    ∃ config' bootId ready deadline d d',
      s.auth = .initial config' bootId ready ∧
      s.world = ((wiring.rfEngine.disable deadline
        ((wiring.boot hardware store).withDevice d)).2).withDevice d' ∧
      (ready = true → (wiring.rfEngine.disable deadline
        ((wiring.boot hardware store).withDevice d)).1 = true) ∧
      s.world.Tuned := by
  obtain ⟨config', bootId, ready, now, x, deadline, w', h, -, deadline', w₀, hlooks, hoff,
    hobserves⟩ := construct_cases (wiring.env around) config (wiring.boot hardware store)
  obtain ⟨d, rfl⟩ := looks_star hlooks
  obtain ⟨d', rfl⟩ := observes_star hobserves
  have htuned : ((wiring.boot hardware store).withDevice d).Tuned :=
    nofun
  rw [h]
  exact ⟨config', bootId, ready, deadline', d, d', rfl, rfl, hoff, tuned_disable wiring htuned _⟩

/-- What the steps of the calls and the changes between them keep, a run keeps,
where the permit covers every call. -/
theorem run_board {I : Sys (Board ε) → Prop} {C : Sys (Board ε) → Op (Board ε) → Prop}
    (hwithin : ∀ s op, C s op → op.Within (wiring.env around) p s)
    (hchange : ∀ s f, I s → I { s with world := s.world.change f })
    (hstep : ∀ s s', SysStep (wiring.env around) p s s' → I s → I s')
    (ops : List (Op (Outside ε))) {s : Sys (Board ε)} (hsound : Sound s.auth) (h : I s)
    (hcalls : ∀ pre op post, ops = pre ++ op :: post →
      C (run (wiring.env around) (pre.map boardOp) s) (boardOp op)) :
    I (run (wiring.env around) (ops.map boardOp) s) := by
  induction ops generalizing s with
  | nil => exact h
  | cons op ops ih =>
    have hop : I ((boardOp op).exec (wiring.env around) s) := by
      obtain ⟨f, hf⟩ | hpath := (boardOp op).path hsound (hwithin s _ (hcalls [] op ops rfl))
      · obtain ⟨g, rfl⟩ := boardOp_world hf
        rw [hf]
        exact hchange s g h
      · exact invariant_star hstep hpath h
    refine ih ((boardOp op).sound _ hsound) hop ?_
    intro pre op' post heq
    exact hcalls (op :: pre) op' post (by rw [heq]; rfl)

end

/-! ## The bench -/

def benchSink : BlockSink ClockSnapshot where
  amplifierLeadNs _ := 0
  amplifierTailNs _ := 0
  schedulesLocally _ := false
  startResolutionNs _ := 1000
  stop _ h := (true, h)
  submit _ _ _ h := (true, h)
  arm _ _ _ _ h := (true, h)
  poll _ h := ({ state := .running, epoch := 1 }, h)
  executionStarted d := (false, d)
  outputActive d := (false, d)
  snapshot d := (d, d)

def benchWiring : PolicyWiring ClockSnapshot where
  inner := { rate := .mhz138, sink := benchSink, filters := none }
  minimumNhz := minimumFrequencyNhz
  maximumNhz := SampleRate.mhz138.maximumFrequencyNhz
  bootFilters := {}
  bootEngine := .direct

def benchAround : Surroundings ClockSnapshot where
  newBootId d := ("00000000000000000000000000000000", d)
  memoryAdmitted _ d := (true, d)
  armObserver _ _ _ _ d := d

def benchAfter (ops : List (Op (Outside ClockSnapshot))) : Sys (Board ClockSnapshot) :=
  benchWiring.after benchAround {} ⟨{}, benchClock 1000000000⟩ { healthy := true } ops

/-- One second of carrier at `hz`, adjustable. -/
def toneJob (jobId : String) (hz : UInt64) : Job :=
  { jobId := jobId
    mode := "tone"
    totalDurationNs := 1000000000
    events := { events := [⟨0, 1000000000, true, some (hz * 1000000000)⟩] }
    allowFrequencyAdjustment := true }

def loadedJob : Job := toneJob "11111111111111111111111111111111" 14097100

/-- The lower edge of the 30 m band, whose realized frequency lies below it. -/
def edgeJob : Job := toneJob "55555555555555555555555555555555" 10100000

def benchCall (operation : Operation) (requestId : String) (body : RequestBody) :
    Op (Outside ClockSnapshot) := .handle (benchRequest operation requestId body)

/-- A session, an owner and a loaded job. -/
def benchLoad : List (Op (Outside ClockSnapshot)) :=
  [benchCall .hello "30000000000000000000000000000000" (.hello ["WTP/1"]),
   benchCall .claim "30000000000000000000000000000001"
     (.claim "44444444444444444444444444444444" 60000),
   benchCall .load "30000000000000000000000000000002" (.job loadedJob)]

theorem benchCall_not_late {P : State → Prop} {operation : Operation} {requestId : String}
    {body : RequestBody} {s : Sys (Board ClockSnapshot)} (hop : operation ≠ .load) :
    ¬ benchWiring.LateLoad benchAround P s (boardOp (benchCall operation requestId body)) := by
  rintro ⟨request, retainResponse, job, hrequest, -, hloads, -⟩
  cases hrequest
  exact hop hloads.operation

end WsprryPico.Standalone
