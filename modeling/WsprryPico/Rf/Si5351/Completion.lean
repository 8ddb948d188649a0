import WsprryPico.Rf.Si5351.Output

/-!
# The completion of a Si5351 job

What a job in execution has done (`Playing`) and what it has done when the engine
reports its completion (`Finished`): the events it entered, in order and in time, and
the commands of the output. A poll at or after the end of the job finishes it
whatever event it is in; the run theorem is about the runs whose polls do not find
the end with an event that sounds still to come (`Attends`).
-/

namespace WsprryPico.Rf.Si5351

open Wtp Lib EngineM

variable {ω α β : Type}

/-- The end of event `index` of a job that was launched at `start`. -/
def JobPlan.boundary (plan : JobPlan) (start : UInt64) (index : Nat) : UInt64 :=
  addSat start (plan.endNs index)

/-- The events entered up to event `index`, newest first: none is skipped, and each
after the launch was entered within the budget of its boundary. -/
inductive Entered (plan : JobPlan) (start : UInt64) : Nat → List (Nat × UInt64) → Prop where
  | launch : Entered plan start 0 [(0, start)]
  | next {index : Nat} {now : UInt64} {events : List (Nat × UInt64)}
      (before : Entered plan start index events) (due : plan.boundary start index ≤ now)
      (inTime : now ≤ addSat (plan.boundary start index) Wiring.transitionBudgetNs)
      (planned : index + 1 < plan.count) :
      Entered plan start (index + 1) ((index + 1, now) :: events)

/-- The newest command of the transmit output turns it on or off. -/
def Commanded.requests (o : Commanded) (value : Bool) : Prop :=
  ∃ x, o.request = some x ∧ x.action.request = some value

/-- The newest command of the transmit output was granted, turns it off and was done by `limit`. -/
def Commanded.offBy (o : Commanded) (limit : UInt64) : Prop :=
  ∃ x, o.request = some x ∧ x.action = .requestTransmitEnabled false ∧ x.ok = true ∧
    x.done ≤ limit

/-- What was commanded is what event `index` asks for. -/
structure Follows (plan : JobPlan) (index : Nat) (e : Engine) (o : Commanded) (d : Device) :
    Prop where
  primed : ∀ tone, e.primedTone = some tone → o.tone = plan.toneAt tone
  sounds : ∀ tone, plan.tone index = some tone →
    o.gate = true ∧ o.requests true ∧ o.tone = plan.toneAt tone ∧ ¬ Shows .registerDisabled d
  rests : plan.tone index = none → o.gate = false ∧ o.requests false ∧
    ((∃ i ≤ index, (plan.tone i).isSome) → o.offBy e.disableCommandNs)

/-- A job in execution. -/
structure Playing (plan : JobPlan) (e : Engine) (o : Commanded) (d : Device) : Prop where
  held : e.plan = some plan
  playable : plan.Playable
  launched : e.launchNs = some e.startNs
  finish : e.endNs = addSat e.startNs plan.spanNs
  entered : Entered plan e.startNs e.event o.events
  follows : Follows plan e.event e o d

/-- A job that is over: every event up to the last that sounds was entered, and the
output was requested off within the budget of the planned end. -/
structure Finished (plan : JobPlan) (e : Engine) (o : Commanded) : Prop where
  held : e.plan = some plan
  launched : e.launchNs = some e.startNs
  finish : e.endNs = addSat e.startNs plan.spanNs
  entered : ∃ last, Entered plan e.startNs last o.events ∧
    ∀ index, (plan.tone index).isSome → index ≤ last
  gate : o.gate = false
  off : o.offBy (addSat e.endNs Wiring.transitionBudgetNs)

/-- A prepared job: its first tone is programmed and the output is commanded off. -/
structure Ready (plan : JobPlan) (e : Engine) (o : Commanded) : Prop where
  held : e.plan = some plan
  playable : plan.Playable
  gate : o.gate = false
  request : o.requests false
  primed : e.primedTone = some 0
  tone : o.tone = plan.toneAt 0
  event : e.state = .armed → e.event = 0

/-- What holds of the job of an engine in each of its states. -/
structure Truth (m : Machine ω) : Prop where
  ready : m.engine.state = .idle ∨ m.engine.state = .armed → ∀ plan, m.engine.plan = some plan →
    Ready plan m.engine m.output
  running : m.engine.state = .running → ∃ plan,
    if m.engine.phase = .tail then Finished plan m.engine m.output
    else Playing plan m.engine m.output m.device
  complete : m.engine.state = .complete → ∃ plan, Finished plan m.engine m.output

/-- The engine holds no job that it could execute. -/
def Ended (m : Machine ω) : Prop :=
  m.engine.state = .failed ∨ m.engine.state = .missed ∨
    m.engine.state = .idle ∧ m.engine.plan = none

theorem Ended.truth {m : Machine ω} (h : Ended m) : Truth m := by
  rcases h with h | h | ⟨h, hplan⟩ <;> refine ⟨fun hs plan hp => ?_, ?_, ?_⟩ <;> simp_all

/-- The members of the engine that its job is read from. -/
def Engine.job (e : Engine) :=
  (e.state, e.phase, e.plan, e.launchNs, e.startNs, e.endNs, e.event, e.primedTone,
    e.disableCommandNs)

section Congruence

variable {plan : JobPlan} {e e' : Engine} {o : Commanded} {d : Device}

theorem Playing.congr (h : Playing plan e o d) (hjob : e'.job = e.job) :
    Playing plan e' o d := by
  cases e
  cases e'
  obtain ⟨rfl, rfl, rfl, rfl, rfl, rfl, rfl, rfl, rfl⟩ := hjob
  exact ⟨h.held, h.playable, h.launched, h.finish, h.entered, h.follows.primed, h.follows.sounds,
    h.follows.rests⟩

theorem Finished.congr (h : Finished plan e o) (hjob : e'.job = e.job) : Finished plan e' o := by
  cases e
  cases e'
  obtain ⟨rfl, rfl, rfl, rfl, rfl, rfl, rfl, rfl, rfl⟩ := hjob
  exact ⟨h.held, h.launched, h.finish, h.entered, h.gate, h.off⟩

theorem Ready.congr (h : Ready plan e o) (hjob : e'.job = e.job) : Ready plan e' o := by
  cases e
  cases e'
  obtain ⟨rfl, rfl, rfl, rfl, rfl, rfl, rfl, rfl, rfl⟩ := hjob
  exact ⟨h.held, h.playable, h.gate, h.request, h.primed, h.tone, h.event⟩

end Congruence

/-- A step that changes nothing the truth reads. -/
theorem Truth.congr {m m' : Machine ω} (h : Truth m) (hjob : m'.engine.job = m.engine.job)
    (houtput : m'.output = m.output)
    (hdevice : m'.device = m.device ∨ m.engine.state ≠ .running) : Truth m' := by
  have hjob' := hjob
  simp only [Engine.job, Prod.mk.injEq] at hjob'
  obtain ⟨hstate, hphase, hplan, -⟩ := hjob'
  constructor
  · intro hs plan hp
    rw [hstate] at hs
    rw [hplan] at hp
    exact houtput ▸ (h.ready hs plan hp).congr hjob
  · intro hs
    rw [hstate] at hs
    obtain ⟨plan, hr⟩ := h.running hs
    refine ⟨plan, ?_⟩
    rw [hphase, houtput, hdevice.resolve_right (absurd hs ·)]
    split
    · rw [if_pos ‹_›] at hr
      exact hr.congr hjob
    · rw [if_neg ‹_›] at hr
      exact hr.congr hjob
  · intro hs
    rw [hstate] at hs
    rw [houtput]
    exact (h.complete hs).imp fun _ hf => hf.congr hjob

/-! ## The calls of a job -/

/-- A granted step ends in `R`, a refused one in a failed engine. -/
def Attempt (R : Machine ω → Prop) (ok : Bool) (m : Machine ω) : Prop :=
  if ok then R m else m.engine.state = .failed

namespace Wiring

variable (wiring : Wiring ω) {e : Engine} {o : Commanded} {D : Device → Prop} {deadline : UInt64}
  {P R : Machine ω → Prop} {Q : Bool → Machine ω → Prop}

theorem whatever_bind {c : EngineM ω α} {k : α → EngineM ω β} {Q : β → Machine ω → Prop}
    (hk : ∀ a, Triple (fun _ => True) (k a) Q) : Triple P (c >>= k) Q := fun m _ =>
  hk (c m).1 (c m).2 trivial

theorem disable_triple : Triple P (wiring.disable deadline) fun _ => Ended := by
  refine whatever_bind fun e => whatever_bind fun stopped => .ite (fun _ => ?_) fun _ => ?_
  · exact fun m _ => .inl rfl
  · exact whatever_bind fun _ => whatever_bind fun _ => fun m _ => .inr (.inr ⟨rfl, rfl⟩)

theorem disable_ended (m : Machine ω) : Ended (wiring.disable deadline m).2 :=
  wiring.disable_triple (P := fun _ => True) m trivial

theorem fail_triple (reason : String) (outcome : EngineState) :
    Triple P (wiring.fail reason outcome) fun ok m => ok = false ∧
      (m.engine.state = .failed ∨ m.engine.state = outcome) := by
  refine whatever_bind fun now => whatever_bind fun stopped => fun m _ => ⟨rfl, ?_⟩
  cases stopped with
  | false => exact .inl rfl
  | true => exact .inr rfl

theorem fail_failed (reason : String) :
    Triple P (wiring.fail reason) fun ok m => ok = false ∧ m.engine.state = .failed :=
  (wiring.fail_triple reason .failed).weaken fun _ _ h => ⟨h.1, h.2.elim id id⟩

theorem fail_ended (reason : String) :
    Triple P (wiring.fail reason .missed) fun _ => Ended :=
  (wiring.fail_triple reason .missed).weaken fun _ _ h => h.2.imp id .inl

/-- A call whose failure is the engine's. -/
theorem orFail_triple {c k : EngineM ω Bool} {reason : String}
    (hc : Triple P c fun ok m => ok = true → R m) (hk : Triple R k Q)
    (hfail : ∀ m, m.engine.state = .failed → Q false m) : Triple P (do
      if !(← c) then
        return ← wiring.fail reason
      k) Q :=
  hc.bind fun
    | true => hk.strengthen fun _ h => h rfl
    | false => (wiring.fail_failed reason).bind fun _ m h => h.1 ▸ hfail m h.2

theorem perform_gives {a : Action} {f : DeviceM (Tapped ω) Bool} {P Q : Device → Prop}
    (hf : Gives P Q f) (m : Machine ω) (h : P m.device)
    (hok : (wiring.perform a (onDevice f) m).1 = true) :
    Q (wiring.perform a (onDevice f) m).2.device := hf ⟨m.device, ⟨m.world, m.accesses⟩⟩ h hok

theorem setGate_at (active : Bool) :
    Triple (At e o D) (wiring.setGate active) fun _ => At e { o with gate := active } D :=
  fun m h => ⟨(wiring.setGate_calls active m).engine.trans h.engine,
    by rw [(wiring.setGate_calls active m).output, h.output]; rfl,
    (wiring.setGate_calls active m).device rfl ▸ h.device⟩

/-- A call of the transmit output is its newest command. -/
theorem command_at {a : Action} {c : EngineM ω Bool} (hc : Calls wiring a c) {value : Bool}
    (ha : a.request = some value) : Triple (At e o D) c fun ok m => ∃ x, x.action = a ∧ x.ok = ok ∧
      x.done = wiring.time m.world ∧ At e { o with request := some x } (fun _ => True) m := by
  intro m h
  refine ⟨⟨a, (c m).1, m.engine.epoch, wiring.time m.world, wiring.time (c m).2.world⟩, rfl, rfl,
    rfl, (hc m).engine.trans h.engine, (hc m).output.trans ?_, trivial⟩
  rw [h.output]
  cases a with
  | requestTransmitEnabled value => rfl
  | transmitEnabled value => rfl
  | quiesce => rfl
  | _ => exact nomatch ha

theorem request_at (value : Bool) : Triple (At e o D)
    (wiring.requestTransmitEnabled value deadline) fun ok m => ok = true →
      ∃ x, x.action = .requestTransmitEnabled value ∧ x.ok = true ∧ x.done = wiring.time m.world ∧
        At e { o with request := some x } (fun d => value = true → d.pending = .enable) m := by
  intro m h hok
  obtain ⟨x, hx, hxok, hdone, he, ho, -⟩ :=
    wiring.command_at (wiring.requestTransmitEnabled_calls value deadline) rfl m h
  refine ⟨x, hx, hxok.trans hok, hdone, he, ho, fun hv => ?_⟩
  subst hv
  exact wiring.perform_gives wiring.bus.tapped.request_gives m trivial hok

theorem verify_at : Triple (At e o (·.pending = .enable)) (wiring.verifyTransmit deadline)
    fun ok m => ok = true → At e o (Shows .registerEnabled) m := fun m h hok =>
  ⟨(wiring.verifyTransmit_calls deadline m).engine.trans h.engine,
    by rw [(wiring.verifyTransmit_calls deadline m).output, h.output]; rfl,
    wiring.perform_gives wiring.bus.tapped.verify_gives m h.device hok⟩

theorem transmitTone_at (tone : Tone) : Triple (At e o D) (wiring.transmitTone tone deadline)
    fun ok m => ok = true →
      At e { o with tone := tone } (fun d => ∃ d', D d' ∧ Shows d'.transmitState d) m :=
  fun m h hok =>
    ⟨(wiring.transmitTone_calls tone deadline m).engine.trans h.engine,
      by rw [(wiring.transmitTone_calls tone deadline m).output, h.output]; rfl,
      m.device, h.device,
      wiring.perform_gives (wiring.bus.tapped.transmitTone_gives tone) m rfl hok⟩

theorem prime_at : Triple (At e o D) (wiring.primeTransmit deadline) fun ok m => ok = true →
    At e o (fun _ => True) m := fun m h _ =>
  (wiring.primeTransmit_calls deadline).unchanged rfl m h

theorem nowNs_at : Keeps (At e o D) wiring.nowNs := wiring.nowNs_reads.rests

/-! ## Preparation -/

/-- RF off: the newest command of the output turns it off. -/
theorem maskOutput_at : Triple (At e o D) (wiring.maskOutput deadline) fun ok m => ok = true →
    ∃ x, x.action.request = some false ∧ At e { o with request := some x } (fun _ => True) m := by
  refine Triple.bind (R := fun _ => At e o D) reads_machine.rests fun m₀ =>
    Triple.ite (fun _ => ?_) fun _ => ?_
  · refine (wiring.command_at (wiring.transmitEnabled_calls false deadline) rfl).weaken ?_
    rintro _ _ ⟨x, hx, -, -, h⟩ -
    exact ⟨x, hx ▸ rfl, h⟩
  · refine (wiring.command_at (wiring.quiesce_calls deadline) rfl).weaken ?_
    rintro _ _ ⟨x, hx, -, -, h⟩ -
    exact ⟨x, hx ▸ rfl, h⟩

theorem configure_at (plan : Plan) : Triple (At e o D) (wiring.configure plan deadline)
    fun _ => At e { o with tone := plan.tones.head?.getD {} } fun _ => True := fun m h =>
  ⟨(wiring.configure_calls plan deadline m).engine.trans h.engine,
    by rw [(wiring.configure_calls plan deadline m).output, h.output]; rfl, trivial⟩

theorem acquireLock_at (attempts : Nat) :
    Keeps (At e o fun _ => True) (wiring.acquireLock deadline attempts) := by
  induction attempts with
  | zero => exact .pure false
  | succ attempts ih =>
    refine wiring.nowNs_at.bind fun now => .ite (fun _ => .pure _) fun _ => ?_
    refine reads_machine.rests.bind fun m => .ite (fun _ => .pure _) fun _ => ?_
    refine Triple.bind ((wiring.locked_calls deadline).unchanged rfl) fun
      | true => Keeps.pure _
      | false => ih

theorem lockAndPrime_at : Triple (At e o fun _ => True) (wiring.lockAndPrime deadline)
    fun _ => At e o fun _ => True := by
  refine Triple.bind (wiring.acquireLock_at 128) fun
    | false => Keeps.pure _
    | true => ?_
  refine Keeps.bind reads_machine.rests fun m => .ite (fun _ => .pure _) fun _ => ?_
  refine Keeps.bind wiring.nowNs_at fun now => .ite (fun _ => .pure _) fun _ => ?_
  exact (wiring.primeTransmit_calls deadline).unchanged rfl

/-- A programmed plan: its first tone, the output commanded off. -/
theorem program_at (plan : Plan) : Triple (At e o D) (wiring.program plan) <|
    Attempt fun m => ∃ x, x.action.request = some false ∧
      At e { o with gate := false, request := some x, tone := plan.tones.head?.getD {} }
        (fun _ => True) m := by
  refine Triple.bind wiring.nowNs_at fun now => ?_
  refine wiring.orFail_triple (R := At e o fun _ => True)
    (((wiring.pauseReference_calls _).unchanged rfl).weaken fun _ _ h _ => h) ?_ fun _ h => h
  refine wiring.orFail_triple ((wiring.setGate_at false).weaken fun _ _ h _ => h) ?_ fun _ h => h
  refine wiring.orFail_triple wiring.maskOutput_at ?_ fun _ h => h
  rintro m ⟨x, hx, hm⟩
  refine (wiring.orFail_triple ((wiring.configure_at plan).weaken fun _ _ h _ => h)
    (wiring.orFail_triple (wiring.lockAndPrime_at.weaken fun _ _ h _ => h)
      (Triple.pure fun m h => ?_) fun _ h => h) fun _ h => h) m hm
  exact ⟨x, hx, h⟩

/-! ## Steps that leave the job alone -/

theorem reads_truth {c : EngineM ω α} (hc : Reads c) : Keeps Truth c := fun m h =>
  h.congr (congrArg Engine.job (hc.engine m)) (by unfold Machine.output; rw [hc.log m])
    (.inl (hc.device m))

theorem update_truth {f : Engine → Engine} (hf : ∀ e, (f e).job = e.job) :
    Keeps Truth (update f : EngineM ω Unit) := fun m h => h.congr (hf m.engine) rfl (.inl rfl)

variable {wiring} in
theorem neutral_truth {a : Action} {c : EngineM ω Bool} (hc : Calls wiring a c)
    (ha : a.neutral = true) (hd : a.drivesDevice = false) : Keeps Truth c := fun m h =>
  h.congr (congrArg Engine.job (hc m).engine)
    ((hc m).output.trans (Commanded.after_neutral ha)) (.inl ((hc m).device hd))

/-- The truth about an engine that is in state `state`. -/
def In (state : EngineState) (m : Machine ω) : Prop := Truth m ∧ m.engine.state = state

variable {wiring} in
theorem neutral_in {a : Action} {c : EngineM ω Bool} (hc : Calls wiring a c)
    (ha : a.neutral = true) {state : EngineState} (hrunning : state ≠ .running) :
    Keeps (In state) c := fun m h =>
  ⟨h.1.congr (congrArg Engine.job (hc m).engine)
    ((hc m).output.trans (Commanded.after_neutral ha)) (.inr (h.2 ▸ hrunning)),
    (congrArg Engine.state (hc m).engine).trans h.2⟩

theorem reads_in {c : EngineM ω α} (hc : Reads c) {state : EngineState} : Keeps (In state) c :=
  fun m h => ⟨reads_truth hc m h.1, (congrArg Engine.state (hc.engine m)).trans h.2⟩

theorem notify_in {a : Action} {f : EngineM ω Unit} (ha : a.neutral = true)
    (hf : ∀ m, (f m).2.engine = m.engine ∧ (f m).2.log = m.log) {state : EngineState}
    (hrunning : state ≠ .running) : Keeps (In state) (wiring.notify a f) := fun m h => by
  have hengine : (wiring.notify a f m).2.engine = m.engine := (hf m).1
  refine ⟨h.1.congr (congrArg Engine.job hengine) ?_ (.inr (h.2 ▸ hrunning)),
    (congrArg Engine.state hengine).trans h.2⟩
  have houtput : (wiring.notify a f m).2.output = Commanded.after m.output _ :=
    congrArg (fun log => Commanded.after (List.foldr (fun x o => o.after x) {} log) _) (hf m).2
  exact houtput.trans (Commanded.after_neutral ha)

theorem in_cases {state : EngineState} {c : EngineM ω α} {Q : α → Machine ω → Prop}
    (h : ∀ m : Machine ω, In state m → Triple (At m.engine m.output (· = m.device)) c Q) :
    Triple (In state) c Q := fun m hm => h m hm m ⟨rfl, rfl, rfl⟩

/-- `prepare` from a plan of its own on. -/
theorem prepareHardware_truth (candidate : JobPlan) (hplayable : candidate.Playable) :
    Triple (In .idle) (wiring.prepareHardware candidate) fun _ => Truth := by
  have hcover : Reads (wiring.coverTones candidate.synthesis.tones) := by
    unfold coverTones
    split
    · exact .pure true
    · exact reads_onFilters _
  have hopen : Triple (In .idle) wiring.initializeEngine fun (ok : Bool) m =>
      if ok then In .idle m else Truth m := by
    refine Triple.bind (neutral_in (wiring.perform_reads (reads_onWorld _)) rfl nofun) fun opened => ?_
    intro m h
    cases opened with
    | true => exact ⟨h.1.congr rfl rfl (.inl rfl), h.2⟩
    | false => exact Ended.truth (.inl rfl)
  refine Triple.bind (reads_in hcover) fun
    | false => ?_
    | true => ?_
  · exact Triple.bind (R := fun _ => Truth) (fun m h => h.1.congr rfl rfl (.inl rfl))
      fun _ => Triple.pure fun _ h => h
  refine hopen.guarded ?_ (Triple.pure fun _ h => h)
  refine in_cases fun m h => Triple.bind (wiring.program_at candidate.synthesis) fun
    | false => Triple.pure fun _ hm => Ended.truth (.inl hm)
    | true => ?_
  rintro m' ⟨x, hx, he, ho, -⟩
  have hstate : m'.engine.state = .idle := (congrArg Engine.state he).trans h.2
  refine ⟨fun _ plan hp => ?_, fun hr => ?_, fun hc => ?_⟩
  · cases hp
    refine ⟨rfl, hplayable, congrArg Commanded.gate ho, ⟨x, congrArg Commanded.request ho, hx⟩, rfl,
      (congrArg Commanded.tone ho).trans ?_, fun harmed => nomatch hstate.symm.trans harmed⟩
    unfold JobPlan.toneAt
    rw [List.head?_eq_getElem?]
  · cases hstate.symm.trans hr
  · cases hstate.symm.trans hc

theorem prepare_truth (job : Job) : Keeps Truth (wiring.prepare job) := by
  refine engine_bind fun m hm => Triple.ite (fun _ => ?_) fun hadmits => ?_
  · rintro _ rfl
    exact hm.congr rfl rfl (.inl rfl)
  have hidle : m.engine.state = .idle := by
    by_contra hne
    exact hadmits (by simp [hne])
  rintro m rfl
  rcases hplan : planJob wiring.synthesis wiring.configuration job _ minimumTransitionNs with
    error | candidate
  · exact hm.congr rfl rfl (.inl rfl)
  · rcases hr : wiring.prepareHardware candidate m with ⟨ok, m'⟩
    have hhardware := wiring.prepareHardware_truth candidate (planJob_playable hplan) m ⟨hm, hidle⟩
    rw [hr] at hhardware
    simp only [bind, StateT.bind, hr]
    cases ok <;> exact hhardware

/-! ## Start -/

theorem begin_truth (job : Job) (start : UInt64) : Keeps Truth (wiring.begin job start) := by
  refine engine_bind fun m hm => Triple.ite (fun _ => ?_) fun hadmits => ?_
  · exact Triple.pure fun _ h => h ▸ hm
  have hstart : wiring.startable job start m.engine = true := by simpa using hadmits
  have hidle : m.engine.state = .idle := by
    unfold startable at hstart
    cases hplan : m.engine.plan with
    | none =>
      rw [hplan] at hstart
      cases hstart
    | some plan =>
      rw [hplan] at hstart
      simp only [Bool.and_eq_true] at hstart
      exact of_decide_eq_true hstart.1.1.1.2
  refine Triple.strengthen (P := In .idle) ?_ fun _ h => h ▸ ⟨hm, hidle⟩
  refine Triple.bind (reads_in wiring.outputActive_reads) fun active => ?_
  refine Triple.ite (fun _ => Triple.pure fun _ h => h.1) fun _ => ?_
  refine Triple.ite (fun _ => Triple.pure fun _ h => h.1) fun _ => ?_
  refine Triple.bind (reads_in wiring.nowNs_reads) fun now => ?_
  refine Triple.ite (fun _ => Triple.pure fun _ h => h.1) fun _ => ?_
  refine Triple.bind (reads_in wiring.nowNs_reads) fun now => ?_
  have hpause : Keeps (In .idle) (wiring.pauseReference (addSat now transitionBudgetNs)) :=
    neutral_in (wiring.pauseReference_calls _) rfl (by decide)
  refine wiring.orFail_triple (hpause.weaken fun _ _ h _ => h) ?_ fun _ h => Ended.truth (.inl h)
  rintro m ⟨hm, hidle⟩
  refine ⟨fun _ plan hp => ?_, fun hr => (nomatch (hr : EngineState.armed = .running)),
    fun hc => (nomatch (hc : EngineState.armed = .complete))⟩
  obtain ⟨h₁, h₂, h₃, h₄, h₅, h₆, -⟩ := hm.ready (.inl hidle) plan hp
  exact ⟨h₁, h₂, h₃, h₄, h₅, h₆, fun _ => rfl⟩

theorem schedule_truth (job : Job) (start : UInt64) (conditions : LocalStartConditions) :
    Keeps Truth (wiring.schedule job start conditions) := by
  refine Keeps.bind (reads_truth reads_engine) fun e => ?_
  refine Keeps.bind (reads_truth reads_engine) fun e' => ?_
  split
  · refine .bind (update_truth fun _ => rfl) fun _ => .ite (fun _ => .pure _) fun _ => ?_
    refine Keeps.bind (reads_truth (reads_onWorld _)) fun now => ?_
    split
    · exact .pure _
    · refine .bind (update_truth fun _ => rfl) fun _ => ?_
      refine Keeps.bind (reads_truth (wiring.projectStart_reads _)) fun projected => ?_
      exact .ite (fun _ => .pure _) fun _ => wiring.begin_truth job _
  · exact .pure _

/-! ## The chain of an armed job -/

/-- An armed engine with a job of plan `plan`. -/
def Waits (plan : JobPlan) (m : Machine ω) : Prop := In .armed m ∧ m.engine.plan = some plan

/-- A step of an armed job goes on with it, or ends it. -/
def Armed (plan : JobPlan) (ok : Bool) (m : Machine ω) : Prop := if ok then Waits plan m else Truth m

variable {plan : JobPlan}

variable {wiring} in
theorem neutral_waits {a : Action} {c : EngineM ω Bool} (hc : Calls wiring a c)
    (ha : a.neutral = true) : Keeps (Waits plan) c := fun m h =>
  ⟨neutral_in hc ha (by decide) m h.1, (congrArg Engine.plan (hc m).engine).trans h.2⟩

theorem reads_waits {c : EngineM ω α} (hc : Reads c) : Keeps (Waits plan) c := fun m h =>
  ⟨reads_in hc m h.1, (congrArg Engine.plan (hc.engine m)).trans h.2⟩

theorem update_waits {f : Engine → Engine}
    (hf : ∀ e, (f e).state = e.state ∧ (f e).plan = e.plan ∧ (f e).primedTone = e.primedTone ∧
      (f e).event = e.event) : Keeps (Waits plan) (update f : EngineM ω Unit) := by
  rintro m ⟨⟨hm, harmed⟩, hplan₀⟩
  obtain ⟨hstate, hplan, hprimed, hevent⟩ := hf m.engine
  have hstill : (f m.engine).state = .armed := hstate.trans harmed
  refine ⟨⟨⟨fun _ plan hp => ?_, fun hr => ?_, fun hc => ?_⟩, hstill⟩, hplan.trans hplan₀⟩
  · obtain ⟨h₁, h₂, h₃, h₄, h₅, h₆, h₇⟩ := hm.ready (.inr harmed) plan (hplan.symm.trans hp)
    exact ⟨hplan.trans h₁, h₂, h₃, h₄, hprimed.trans h₅, h₆,
      fun _ => hevent.trans (h₇ harmed)⟩
  · cases hstill.symm.trans hr
  · cases hstill.symm.trans hc

theorem armed_call {c k : EngineM ω Bool} {reason : String}
    (hc : Keeps (Waits plan) c) (hk : Triple (Waits plan) k (Armed plan)) :
    Triple (Waits plan) (do
      if !(← c) then
        return ← wiring.fail reason
      k) (Armed plan) :=
  wiring.orFail_triple (hc.weaken fun _ _ h _ => h) hk fun _ h => Ended.truth (.inl h)

theorem filterCall_armed {a : Action} (ha : a.neutral = true)
    (f : FilterBank ω → FilterSelector → ω → Bool × FilterSelector × ω) :
    Keeps (Waits plan) (wiring.filterCall a f) := by
  unfold filterCall
  split
  · exact .pure true
  · exact neutral_waits (wiring.perform_reads (reads_onFilters _)) ha

theorem amplifierCall_armed {a : Action} (ha : a.neutral = true)
    (f : Amplifier ω → AmplifierEnable → ω → Bool × AmplifierEnable × ω) :
    Keeps (Waits plan) (wiring.amplifierCall a f) := by
  unfold amplifierCall
  split
  · exact .pure true
  · exact neutral_waits (wiring.perform_reads (reads_onAmplifier _)) ha

theorem settleFilters_armed (now : UInt64) :
    Triple (Waits plan) (wiring.settleFilters now) (Armed plan) := by
  have hgo : ∀ ok : Bool, Triple (Waits plan) (Pure.pure ok : EngineM ω Bool) (Armed plan) := by
    intro ok m h
    cases ok
    · exact h.1.1
    · exact h
  have hread : Keeps (Waits plan) wiring.nowNs := reads_waits wiring.nowNs_reads
  have hrelease : Triple (Waits plan) (wiring.releaseFilters now) (Armed plan) := by
    refine Triple.bind (reads_waits reads_engine) fun e => Triple.ite (fun _ => hgo true) fun _ => ?_
    refine wiring.armed_call (wiring.filterCall_armed rfl _) (Triple.bind hread fun released => ?_)
    exact Triple.bind (update_waits fun _ => ⟨rfl, rfl, rfl, rfl⟩) fun _ => hgo true
  have hselect : Triple (Waits plan) (wiring.selectFilters now) (Armed plan) := by
    refine Triple.bind (reads_waits reads_engine) fun e => ?_
    refine Triple.bind (reads_waits reads_engine) fun e' => ?_
    split
    · refine Triple.ite (fun _ => hgo true) fun _ => ?_
      refine wiring.armed_call (wiring.filterCall_armed rfl _) (Triple.bind hread fun selected => ?_)
      exact Triple.bind (update_waits fun _ => ⟨rfl, rfl, rfl, rfl⟩) fun _ => hgo true
    · exact hgo true
  refine Triple.ite (fun _ => hgo true) fun _ => ?_
  refine hrelease.guarded ?_ (Triple.pure fun _ h => h)
  refine hselect.guarded ?_ (Triple.pure fun _ h => h)
  refine Triple.bind (reads_waits reads_engine) fun e => ?_
  split
  · exact hgo false
  · exact hgo _

theorem leadAmplifier_armed (now : UInt64) :
    Triple (Waits plan) (wiring.leadAmplifier now) (Armed plan) := by
  have hgo : ∀ ok : Bool, Triple (Waits plan) (Pure.pure ok : EngineM ω Bool) (Armed plan) := by
    intro ok m h
    cases ok
    · exact h.1.1
    · exact h
  have henable : Triple (Waits plan) (wiring.enableAmplifier now) (Armed plan) := by
    refine Triple.bind (reads_waits reads_engine) fun e => Triple.ite (fun _ => hgo true) fun _ => ?_
    refine wiring.armed_call (wiring.amplifierCall_armed rfl _)
      (Triple.bind (reads_waits wiring.nowNs_reads) fun enabled => ?_)
    exact Triple.bind (update_waits fun _ => ⟨rfl, rfl, rfl, rfl⟩) fun _ => hgo true
  refine Triple.ite (fun _ => hgo true) fun _ => henable.guarded ?_ (Triple.pure fun _ h => h)
  refine Triple.bind (reads_waits reads_engine) fun e => Triple.ite (fun _ => hgo true) fun _ => ?_
  refine Triple.ite (fun _ => ?_) fun _ => hgo false
  refine (wiring.fail_triple "shortened_amplifier_lead" .missed).weaken ?_
  rintro _ m ⟨rfl, h⟩
  exact Ended.truth (h.imp id .inl)

/-! ## Launch -/

/-- The output at the launch of a plan, before it is entered: its first tone is
programmed, and requested where the first event sounds. -/
structure Launching (plan : JobPlan) (o : Commanded) : Prop where
  tone : o.tone = plan.toneAt 0
  gate : o.gate = (plan.tone 0).isSome
  request : o.requests (plan.tone 0).isSome

/-- The engine from its launch at `completed` on. -/
def launched (plan : JobPlan) (completed : UInt64) (active : Bool) (e : Engine) : Engine :=
  { e with
    launchNs := some completed
    startNs := completed
    enableCommandNs := if active then completed else 0
    endNs := addSat completed plan.spanNs
    observation.rfStartNs := if active then completed else 0
    state := .running
    phase := .rf }

theorem Launching.playing {plan : JobPlan} {e : Engine} {o : Commanded} {d : Device}
    {completed : UInt64} {active : Bool} (h : Launching plan o) (hready : e.plan = some plan)
    (hplayable : plan.Playable) (hevent : e.event = 0) (hprimed : e.primedTone = some 0)
    (hd : (plan.tone 0).isSome → Shows .registerEnabled d) :
    Playing plan (launched plan completed active e) { o with events := [(0, completed)] } d := by
  have hzero : (launched plan completed active e).event = 0 := hevent
  refine ⟨hready, hplayable, rfl, rfl, ?_, fun tone htone => ?_, ?_, ?_⟩
  · rw [hzero]
    exact .launch
  · rw [← Option.some.inj (hprimed.symm.trans htone)]
    exact h.tone
  · rw [hzero]
    intro tone htone
    obtain rfl := hplayable.first tone htone
    have hsome : (plan.tone 0).isSome = true := by rw [htone]; rfl
    refine ⟨h.gate.trans hsome, hsome ▸ h.request, h.tone, fun hdisabled => ?_⟩
    cases (hd hsome).symm.trans hdisabled
  · rw [hzero]
    intro hnone
    have hsome : (plan.tone 0).isSome = false := by rw [hnone]; rfl
    refine ⟨h.gate.trans hsome, hsome ▸ h.request, ?_⟩
    rintro ⟨index, hle, hon⟩
    obtain rfl := Nat.le_zero.mp hle
    cases hsome.symm.trans hon

theorem notify_entered (index : Nat) (now : UInt64) :
    Triple (At e o D) (wiring.notify (.entered index now) (return ())) fun _ =>
      At e { o with events := if index = 0 then [(0, now)] else (index, now) :: o.events } D := by
  intro m h
  refine ⟨h.engine, ?_, h.device⟩
  show Commanded.after m.output _ = _
  rw [h.output]
  cases index with
  | zero => rfl
  | succ index => rfl

/-- The confirmation of a requested output. -/
theorem confirm_at (active : Bool) :
    Triple (At e o fun d => active → d.pending = .enable)
      (ifNeeded active (wiring.verifyTransmit deadline)) fun ok m => ok = true →
        At e o (fun d => active → Shows .registerEnabled d) m := by
  cases active with
  | false => exact fun m h _ => ⟨h.engine, h.output, nofun⟩
  | true =>
    intro m h hok
    have h' := wiring.verify_at m ⟨h.engine, h.output, h.device rfl⟩ hok
    exact ⟨h'.engine, h'.output, fun _ => h'.device⟩

theorem Truth.playing {m : Machine ω} (plan : JobPlan) (hstate : m.engine.state = .running)
    (hphase : m.engine.phase ≠ .tail) (h : Playing plan m.engine m.output m.device) : Truth m := by
  refine ⟨fun hs => ?_, fun _ => ⟨plan, by rwa [if_neg hphase]⟩, fun hs => ?_⟩
  · rcases hs with hs | hs
    · cases hstate.symm.trans hs
    · cases hstate.symm.trans hs
  · cases hstate.symm.trans hs

theorem launchOutput_truth (plan : JobPlan) {m₀ : Machine ω} (hready : Ready plan m₀.engine m₀.output)
    (harmed : m₀.engine.state = .armed) :
    Triple (At m₀.engine m₀.output D) (wiring.launchOutput plan) fun _ => Truth := by
  have hfailed : ∀ m : Machine ω, m.engine.state = .failed → Truth m := fun m h => Ended.truth (.inl h)
  have hrequest : ∀ deadline, Triple (At m₀.engine m₀.output D)
      (ifNeeded (plan.tone 0).isSome (wiring.requestTransmitEnabled true deadline)) fun ok m =>
        ok = true → ∃ request, Commanded.requests { request := request } (plan.tone 0).isSome ∧
          At m₀.engine { m₀.output with request := request }
            (fun d => (plan.tone 0).isSome → d.pending = .enable) m := by
    intro deadline
    cases hfirst : plan.tone 0 with
    | none =>
      rintro m h -
      exact ⟨m₀.output.request, hready.request, h.engine, h.output, nofun⟩
    | some tone =>
      refine (wiring.request_at true).weaken fun ok m h hok => ?_
      obtain ⟨x, hx, -, -, h⟩ := h hok
      exact ⟨some x, ⟨x, rfl, hx ▸ rfl⟩, h.engine, h.output, fun _ => h.device rfl⟩
  refine Triple.bind wiring.nowNs_at fun now => ?_
  refine wiring.orFail_triple (hrequest _) ?_ hfailed
  rintro m ⟨request, hvalue, h⟩
  refine (Triple.bind wiring.nowNs_at fun completed => ?_ : Triple (At m₀.engine
    { m₀.output with request := request } fun d => (plan.tone 0).isSome → d.pending = .enable)
      _ fun _ => Truth) m h
  refine Triple.bind reads_engine.rests fun e => Triple.ite (fun _ => ?_) fun _ => ?_
  · exact (wiring.fail_failed _).weaken fun _ _ h => hfailed _ h.2
  refine wiring.orFail_triple ((wiring.setGate_at _).weaken fun _ _ h _ => h) ?_ hfailed
  refine Triple.bind (update_at _) fun _ => ?_
  refine wiring.orFail_triple (((wiring.armCutoff_calls _).rests rfl rfl).weaken fun _ _ h _ => h)
    ?_ hfailed
  refine Triple.bind (update_at _) fun _ => ?_
  refine Triple.bind (wiring.notify_entered 0 completed) fun _ => ?_
  have hlaunching : Launching plan
      { m₀.output with request := request, gate := (plan.tone 0).isSome } :=
    ⟨hready.tone, rfl, hvalue⟩
  have hplaying : ∀ m : Machine ω, At (launched plan completed (plan.tone 0).isSome m₀.engine)
      { m₀.output with
        gate := (plan.tone 0).isSome, request := request, events := [(0, completed)] }
      (fun d => (plan.tone 0).isSome → Shows .registerEnabled d) m → Truth m := fun m h => by
    refine Truth.playing plan (by rw [h.engine]; rfl) (by rw [h.engine]; exact nofun) ?_
    rw [h.engine, h.output]
    exact hlaunching.playing hready.held hready.playable (hready.event harmed) hready.primed h.device
  exact wiring.orFail_triple (wiring.confirm_at _) (Triple.pure fun m h => hplaying m h) hfailed

theorem launch_truth : Triple (Waits plan) (wiring.launch plan) fun _ => Truth := by
  have hfailed : ∀ m : Machine ω, m.engine.state = .failed → Truth m := fun m h => Ended.truth (.inl h)
  have hrequest : Reads wiring.requestLaunch := .ite (reads_onIndicator _) (.pure _)
  have hamplifier : Keeps (Waits plan) wiring.verifyAmplifier := by
    unfold verifyAmplifier
    split
    · exact .pure _
    · exact .ite (fun _ => .pure _) fun _ =>
        neutral_waits (wiring.perform_reads (reads_onAmplifier _)) rfl
  refine Triple.bind (reads_waits hrequest) fun
    | false => Triple.pure fun _ h => h.1.1
    | true => ?_
  refine wiring.orFail_triple ((wiring.filterCall_armed rfl _).weaken fun _ _ h _ => h) ?_ hfailed
  refine wiring.orFail_triple (hamplifier.weaken fun _ _ h _ => h) ?_ hfailed
  rintro m ⟨⟨hm, harmed⟩, hp⟩
  exact wiring.launchOutput_truth (D := fun _ => True) plan (hm.ready (.inr harmed) plan hp) harmed m
    ⟨rfl, rfl, trivial⟩

theorem pollArmed_truth : Triple (Waits plan) (wiring.pollArmed plan) fun _ => Truth := by
  refine Triple.bind (reads_waits wiring.nowNs_reads) fun now => ?_
  refine Triple.bind (reads_waits (wiring.projectStart_reads plan)) fun projected => ?_
  split
  · exact Triple.bind (wiring.fail_ended _) fun _ => Triple.pure fun _ h => Ended.truth h
  · rename_i projected
    refine Triple.bind (update_waits fun _ => ⟨rfl, rfl, rfl, rfl⟩) fun _ => ?_
    refine Triple.bind (reads_waits wiring.nowNs_reads) fun now => ?_
    have hlaunch : Triple (Waits plan) (if now ≥ projected then do
        let _ ← wiring.launch plan
        else return () : EngineM ω Unit) fun _ => Truth :=
      Triple.ite (fun _ => Triple.bind wiring.launch_truth fun _ => Triple.pure fun _ h => h)
        fun _ => Triple.pure fun _ h => h.1.1
    refine (wiring.settleFilters_armed now).guarded ?_ (Triple.pure fun _ h => h)
    exact (wiring.leadAmplifier_armed now).guarded hlaunch (Triple.pure fun _ h => h)

end Wiring

end WsprryPico.Rf.Si5351
