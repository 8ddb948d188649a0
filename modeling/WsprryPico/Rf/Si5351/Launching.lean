import WsprryPico.Rf.Si5351.Arming
import WsprryPico.Rf.Si5351.Stop

/-!
# The launch of an armed Si5351 job

A launch verifies the chain, requests the output, checks that the request was
completed before the deadline, and opens the gate. Each of its calls that put the
job on the air is `Due`; the poll ends as `Ends` says.
-/

namespace WsprryPico.Rf.Si5351

open Wtp Lib EngineM

variable {ω α : Type}

/-- The call `x` of the poll that acts on its reading `now`, after the entries `older`
of that poll, launches the job of `m` that starts at `start`. -/
structure Due (wiring : Wiring ω) (m : Machine ω) (start now : UInt64) (older : List Entry)
    (x : Entry) : Prop where
  issued : now ≤ x.issued
  cleared : Cleared wiring m.engine.epoch start now older m.log
  window : m.engine.conditions.clock = true → x.action ≠ .requestTransmitEnabled true →
    ∃ completed, completed < m.engine.deadlineNs ∧ completed ≤ x.issued ∧
      ∀ y ∈ older, y.action = .requestTransmitEnabled true → y.done ≤ completed

/-- The first event of the engine's job was entered. -/
def Launched (m : Machine ω) : Prop :=
  ∃ x ∈ m.log, x.epoch = m.engine.epoch ∧ ∃ now, x.action = .entered 0 now

/-- What a poll that began at `m₀` leaves in each state of the engine. -/
structure Ends (wiring : Wiring ω) (m₀ : Machine ω) (Q : List Entry → Entry → Prop)
    (m : Machine ω) : Prop where
  trail : Trail m₀ Q m
  armed : m.engine.state = .armed → Stages wiring m.engine m.log ∧
    m.engine.conditions = m₀.engine.conditions ∧ m.engine.deadlineNs = m₀.engine.deadlineNs
  running : m.engine.state = .running → Launched m
  exits : m.engine.state = .missed ∨ m.engine.state = .failed → Shut wiring m₀.log m.log

/-- The requests of the poll so far satisfy `P`. -/
def Requests (m₀ : Machine ω) (P : Entry → Prop) (m : Machine ω) : Prop :=
  ∀ recent, m.log = recent ++ m₀.log →
    ∀ y ∈ recent, y.action = .requestTransmitEnabled true → P y

/-- A launch whose enable was requested in time, or failed. -/
def InTime (m₀ m : Machine ω) : Prop :=
  m.engine.state = .failed ∨ (m₀.engine.conditions.clock = true →
    Requests m₀ (fun y => y.done < m₀.engine.deadlineNs) m)

section Rules

variable {wiring : Wiring ω} {m₀ m m' : Machine ω} {now : UInt64} {Q : List Entry → Entry → Prop}
  {P P' : Entry → Prop}

theorem Dead.ends (h : Dead wiring m₀ Q m)
    (hstate : m.engine.state = .failed ∨ m.engine.state = .missed) : Ends wiring m₀ Q m := by
  refine ⟨h.trail, fun harmed => ?_, fun hrunning => ?_, fun _ => h.shut⟩
  · rcases hstate with h | h
    · cases h.symm.trans harmed
    · cases h.symm.trans harmed
  · rcases hstate with h | h
    · cases h.symm.trans hrunning
    · cases h.symm.trans hrunning

theorem Requests.weaken (h : Requests m₀ P m) (hp : ∀ y, P y → P' y) : Requests m₀ P' m :=
  fun recent hlog y hy hrequest => hp y (h recent hlog y hy hrequest)

theorem Requests.of_log (h : Requests m₀ P m) (hlog : m'.log = m.log) : Requests m₀ P m' := by
  unfold Requests
  rw [hlog]
  exact h

theorem Performed.recent {a : Action} {ok : Bool} {base older recent : List Entry}
    (hp : Performed wiring a m ok m') (holder : m.log = older ++ base)
    (hlog : m'.log = recent ++ base) :
    recent = ⟨a, ok, m.engine.epoch, wiring.time m.world, wiring.time m'.world⟩ :: older := by
  rw [hp.log, holder] at hlog
  exact (List.append_cancel_right ((List.cons_append ..).trans hlog)).symm

theorem Trail.requests (h : Trail m₀ (fun _ _ => False) m) : Requests m₀ P m := by
  obtain ⟨recent, hlog, hquiet⟩ := h.entries
  intro recent' hlog' y hy hrequest
  obtain rfl := List.append_cancel_right (hlog'.symm.trans hlog)
  obtain ⟨newer, older, rfl⟩ := List.append_of_mem hy
  exact (hquiet newer y older rfl (by rw [hrequest]; rfl)).elim

theorem Requests.performed {a : Action} {ok : Bool} (h : Requests m₀ P m)
    (htrail : Trail m₀ Q m) (hp : Performed wiring a m ok m')
    (ha : a = .requestTransmitEnabled true →
      P ⟨a, ok, m.engine.epoch, wiring.time m.world, wiring.time m'.world⟩) :
    Requests m₀ P m' := by
  obtain ⟨recent, hlog, -⟩ := htrail.entries
  intro recent' hlog' y hy hrequest
  obtain rfl := hp.recent hlog hlog'
  rcases List.mem_cons.mp hy with rfl | hy
  · exact ha hrequest
  · exact h recent hlog y hy hrequest

theorem Poised.performed {a : Action} {ok : Bool} (h : Poised wiring m₀ now m)
    (hp : Performed wiring a m ok m') (htime : wiring.time m.world ≤ wiring.time m'.world)
    (hstarts : a.starts = false) (hfilters : a.movesFilters = false)
    (hamplifier : a.movesAmplifier = false) : Poised wiring m₀ now m' := by
  refine ⟨h.trail.performed hp fun hs => (nomatch hstarts.symm.trans hs),
    (congrArg Engine.arming hp.engine).trans h.arming, ⟨?_, ?_⟩, UInt64.le_trans h.time htime⟩
  · rw [hp.engine, hp.log, moves_cons_of_not hfilters]
    exact h.stages.filters
  · rw [hp.engine, hp.log, moves_cons_of_not hamplifier]
    exact h.stages.amplifier

theorem Poised.ends (h : Poised wiring m₀ now m) (harmed : m₀.engine.state = .armed) :
    Ends wiring m₀ Q m := by
  have harming := h.arming
  simp only [Engine.arming, Prod.mk.injEq] at harming
  obtain ⟨hstate, -, -, hconditions, hdeadline, -⟩ := harming
  refine ⟨h.trail.weaken fun _ _ h => h.elim, fun _ => ⟨h.stages, hconditions, hdeadline⟩,
    fun hrunning => ?_, fun hexit => ?_⟩
  · cases (harmed.symm.trans hstate.symm).trans hrunning
  · rcases hexit with hexit | hexit
    · cases (harmed.symm.trans hstate.symm).trans hexit
    · cases (harmed.symm.trans hstate.symm).trans hexit

end Rules

/-- The filters an engine requires were verified in this poll. -/
def Verified (wiring : Wiring ω) (m₀ m : Machine ω) : Prop :=
  wiring.filtersRequired = true → ∀ recent, m.log = recent ++ m₀.log →
    ∃ y ∈ recent, y.action = .verifyFilters ∧ y.ok = true

/-- What the stages of a poised engine and the verification come to. -/
theorem Poised.cleared {wiring : Wiring ω} {m₀ m : Machine ω} {now : UInt64}
    (h : Poised wiring m₀ now m) (hsettled : Settled wiring now m.engine)
    (hleads : Leads wiring m.engine) (hverified : Verified wiring m₀ m) {recent : List Entry}
    (hlog : m.log = recent ++ m₀.log) :
    Cleared wiring m₀.engine.epoch m₀.engine.startNs now recent m₀.log := by
  have harming := h.arming
  simp only [Engine.arming, Prod.mk.injEq] at harming
  obtain ⟨-, -, hepoch, -, -, hstart⟩ := harming
  obtain ⟨hfilters, hamplifier⟩ := h.stages
  rw [hepoch, hlog] at hfilters hamplifier
  refine ⟨fun hrequired => ?_, fun henabled => ?_⟩
  · obtain ⟨verified, hmem, haction, hok⟩ := hverified hrequired recent hlog
    obtain ⟨selected, hselected, hle⟩ := hsettled hrequired
    rw [hselected] at hfilters
    generalize m.engine.releaseNs = release at hfilters
    generalize hmoves : moves _ m₀.engine.epoch _ = moved at hfilters
    cases hfilters with
    | selected hreleased haction' hok' hrested hdone =>
      exact ⟨_, _, verified, rfl, hreleased.1, hreleased.2, haction', hok', hrested,
        UInt64.le_trans (addSat_mono hdone _) hle, hmem, haction, hok⟩
  · obtain ⟨enabled, henabledNs, hle⟩ := hleads henabled
    rw [henabledNs] at hamplifier
    rw [hstart] at hle
    generalize hmoves : moves Action.movesAmplifier m₀.engine.epoch _ = moved at hamplifier
    cases hamplifier with
    | leading haction hok hdone hlater =>
      refine ⟨_, rfl, haction, hok, UInt64.le_trans (addSat_mono hdone _) hle, ?_⟩
      intro hrequired selection release hmoves'
      obtain ⟨chosen, hchosen, hsettle⟩ := hlater hrequired
      rw [hchosen, hmoves'] at hfilters
      generalize m.engine.releaseNs = noted at hfilters
      cases hfilters with
      | selected _ _ _ _ hdone => exact UInt64.le_trans (addSat_mono hdone _) hsettle

theorem Ticks.request_forward {wiring : Wiring ω} (h : Ticks wiring) (value : Bool)
    (deadline : UInt64) : Forward wiring (wiring.requestTransmitEnabled value deadline) := by
  have hupdate : ∀ (t : UInt64) (f : Device → Device),
      Keeps (fun c => t ≤ wiring.time c.world.world)
        (DeviceM.update f : DeviceM (Tapped ω) Unit) := fun _ _ _ ht => ht
  have hwrite : ∀ (t : UInt64) (bytes : List UInt8),
      Keeps (fun c => t ≤ wiring.time c.world.world)
        (DeviceM.onWorld (wiring.bus.tapped.write 3 bytes deadline)) := fun _ bytes c ht =>
    UInt64.le_trans ht (h.write 3 bytes deadline c.world.world)
  have hdevice : ∀ t : UInt64, Keeps (fun c => t ≤ wiring.time c.world.world)
      (wiring.bus.tapped.requestTransmitEnabled value deadline) := fun t => by
    refine Keeps.bind (fun _ ht => ht : Keeps _ DeviceM.device) fun d => ?_
    split
    · refine .ite (fun _ => .pure _) fun _ => (hupdate t _).bind fun _ => ?_
      refine (hwrite t _).guarded ?_ ((hupdate t _).bind fun _ => .pure _)
      exact (hupdate t _).bind fun _ => .pure _
    · exact .pure _
  exact fun m => hdevice _ ⟨m.device, ⟨m.world, m.accesses⟩⟩ (UInt64.le_refl _)

/-! ## Before the output -/

/-- The chain before the output: poised, settled, leading and verified. -/
structure Aimed (wiring : Wiring ω) (m₀ : Machine ω) (now : UInt64) (m : Machine ω) : Prop where
  poised : Poised wiring m₀ now m
  settled : Settled wiring now m.engine
  leads : Leads wiring m.engine
  verified : Verified wiring m₀ m

/-- The launch after its request was granted, at `completed`. -/
structure Firing (wiring : Wiring ω) (m₀ : Machine ω) (now completed : UInt64) (m : Machine ω) :
    Prop where
  trail : Trail m₀ (Due wiring m₀ m₀.engine.startNs now) m
  cleared : ∀ recent, m.log = recent ++ m₀.log →
    Cleared wiring m₀.engine.epoch m₀.engine.startNs now recent m₀.log
  requests : Requests m₀ (·.done ≤ completed) m
  window : m₀.engine.conditions.clock = true → completed < m₀.engine.deadlineNs
  time : now ≤ wiring.time m.world ∧ completed ≤ wiring.time m.world

/-- A running engine at the end of its launch. -/
structure Flies (wiring : Wiring ω) (m₀ : Machine ω) (now : UInt64) (m : Machine ω) : Prop where
  trail : Trail m₀ (Due wiring m₀ m₀.engine.startNs now) m
  requests : m₀.engine.conditions.clock = true →
    Requests m₀ (fun y => y.done < m₀.engine.deadlineNs) m
  state : m.engine.state = .running
  launched : Launched m

/-- How a launch ends. -/
def Over (wiring : Wiring ω) (m₀ : Machine ω) (now : UInt64) (m : Machine ω) : Prop :=
  Ends wiring m₀ (Due wiring m₀ m₀.engine.startNs now) m ∧ InTime m₀ m

namespace Firing

variable {wiring : Wiring ω} {m₀ m m' : Machine ω} {now completed : UInt64}

theorem performed {a : Action} {ok : Bool} (h : Firing wiring m₀ now completed m)
    (hp : Performed wiring a m ok m') (htime : wiring.time m.world ≤ wiring.time m'.world)
    (hrequest : a ≠ .requestTransmitEnabled true) (hfilters : a.movesFilters = false)
    (hamplifier : a.movesAmplifier = false) : Firing wiring m₀ now completed m' := by
  refine ⟨h.trail.performed hp fun _ recent hlog => ⟨h.time.1, h.cleared recent hlog, ?_⟩,
    fun recent hlog => ?_, h.requests.performed h.trail hp fun ha => absurd ha hrequest, h.window,
    UInt64.le_trans h.time.1 htime, UInt64.le_trans h.time.2 htime⟩
  · exact fun hclock _ => ⟨completed, h.window hclock, h.time.2, h.requests recent hlog⟩
  · obtain ⟨older, holder, -⟩ := h.trail.entries
    obtain rfl := hp.recent holder hlog
    exact (h.cleared older holder).cons hfilters hamplifier

theorem of_engine (h : Firing wiring m₀ now completed m) (hlog : m'.log = m.log)
    (hepoch : m'.engine.epoch = m.engine.epoch) (hworld : m'.world = m.world) :
    Firing wiring m₀ now completed m' := by
  refine ⟨h.trail.of_engine hlog hepoch, ?_, h.requests.of_log hlog, h.window, hworld ▸ h.time⟩
  rw [hlog]
  exact h.cleared

end Firing

namespace Wiring

variable (wiring : Wiring ω) {m₀ : Machine ω} {now completed deadline : UInt64}

theorem fail_over (reason : String) :
    Triple (Trail m₀ (Due wiring m₀ m₀.engine.startNs now)) (wiring.fail reason) fun _ =>
      Over wiring m₀ now := by
  refine (wiring.fail_dead reason .failed).weaken fun ok m h => ?_
  have hfailed : m.engine.state = .failed := h.2.2.elim id id
  exact ⟨h.2.1.ends (.inl hfailed), .inl hfailed⟩

theorem over_call {c k : EngineM ω Bool} {reason : String} {P R : Machine ω → Prop}
    (hc : Triple P c fun ok m =>
      if ok then R m else Trail m₀ (Due wiring m₀ m₀.engine.startNs now) m)
    (hk : Triple R k fun _ => Over wiring m₀ now) : Triple P (do
      if !(← c) then
        return ← wiring.fail reason
      k) fun _ => Over wiring m₀ now :=
  hc.guarded hk ((wiring.fail_over reason).bind fun _ => Triple.pure fun _ h => h)

theorem firing_call {a : Action} {c : EngineM ω Bool} (hc : Calls wiring a c)
    (hforward : Forward wiring c) (hrequest : a ≠ .requestTransmitEnabled true)
    (hfilters : a.movesFilters = false) (hamplifier : a.movesAmplifier = false) :
    Triple (Firing wiring m₀ now completed) c fun ok m =>
      if ok then Firing wiring m₀ now completed m
      else Trail m₀ (Due wiring m₀ m₀.engine.startNs now) m := by
  intro m h
  have hafter := h.performed (hc m) (hforward m) hrequest hfilters hamplifier
  split
  · exact hafter
  · exact hafter.trail

theorem request_goes (hticks : Ticks wiring) (active : Bool) :
    Triple (Aimed wiring m₀ now)
      (ifNeeded active (wiring.requestTransmitEnabled true deadline)) fun ok m =>
        if ok then Trail m₀ (Due wiring m₀ m₀.engine.startNs now) m ∧
          (∀ recent, m.log = recent ++ m₀.log →
            Cleared wiring m₀.engine.epoch m₀.engine.startNs now recent m₀.log) ∧
          Requests m₀ (·.done ≤ wiring.time m.world) m ∧ now ≤ wiring.time m.world ∧
          m.engine.arming = m₀.engine.arming
        else Trail m₀ (Due wiring m₀ m₀.engine.startNs now) m := by
  intro m h
  have hcleared : ∀ recent, m.log = recent ++ m₀.log →
      Cleared wiring m₀.engine.epoch m₀.engine.startNs now recent m₀.log := fun _ hlog =>
    h.poised.cleared h.settled h.leads h.verified hlog
  have htrail : Trail m₀ (Due wiring m₀ m₀.engine.startNs now) m :=
    h.poised.trail.weaken fun _ _ h => h.elim
  cases active with
  | false => exact ⟨htrail, hcleared, h.poised.trail.requests, h.poised.time, h.poised.arming⟩
  | true =>
    have hp := wiring.requestTransmitEnabled_calls true deadline m
    have hforward := hticks.request_forward true deadline m
    have htrail' := htrail.performed hp fun _ recent hlog =>
      ⟨h.poised.time, hcleared recent hlog, fun _ hne => absurd rfl hne⟩
    show if (wiring.requestTransmitEnabled true deadline m).1 = true then _ else _
    split
    · refine ⟨htrail', fun recent hlog => ?_, ?_, UInt64.le_trans h.poised.time hforward,
        (congrArg Engine.arming hp.engine).trans h.poised.arming⟩
      · obtain ⟨older, holder, -⟩ := htrail.entries
        obtain rfl := hp.recent holder hlog
        exact (hcleared older holder).cons rfl rfl
      · exact h.poised.trail.requests.performed h.poised.trail hp fun _ => UInt64.le_refl _
    · exact htrail'

theorem aimed_nowNs (hticks : Ticks wiring) : Keeps (Aimed wiring m₀ now) wiring.nowNs :=
  fun m h => ⟨wiring.poised_reads wiring.nowNs_reads hticks.nowNs_forward m h.poised, h.settled,
    h.leads, h.verified⟩

theorem enterFirst_over (active : Bool) : Triple
    (Firing wiring m₀ now completed) (do
      update fun e => { e with
        observation.rfStartNs := e.enableCommandNs, state := .running, phase := .rf }
      wiring.notify (.entered 0 completed) (return ())
      if !(← ifNeeded active (wiring.verifyTransmit deadline)) then
        return ← wiring.fail "si5351_launch_unconfirmed"
      return true) fun _ => Over wiring m₀ now := by
  refine update_bind fun m hm => ?_
  have hnotify : Triple (· = { m with engine := { m.engine with
      observation.rfStartNs := m.engine.enableCommandNs, state := .running, phase := .rf } })
      (wiring.notify (.entered 0 completed) (return ())) fun _ => Flies wiring m₀ now := by
    rintro _ rfl
    have hp := wiring.perform_reads (a := .entered 0 completed)
      ((Reads.pure ()).bind_reads fun _ => Reads.pure true) { m with engine := { m.engine with
        observation.rfStartNs := m.engine.enableCommandNs, state := .running, phase := .rf } }
    have hsame : Firing wiring m₀ now completed { m with engine := { m.engine with
        observation.rfStartNs := m.engine.enableCommandNs, state := .running, phase := .rf } } :=
      hm.of_engine rfl rfl rfl
    have hfiring := hsame.performed hp (UInt64.le_refl _) nofun rfl rfl
    refine ⟨hfiring.trail, fun hclock => hfiring.requests.weaken fun y hy =>
      UInt64.lt_of_le_of_lt hy (hm.window hclock), rfl, _, List.mem_cons_self, rfl, _, rfl⟩
  refine hnotify.bind fun _ => ?_
  have hover : ∀ m, Flies wiring m₀ now m → Over wiring m₀ now m := fun m h => by
    refine ⟨⟨h.trail, fun harmed => ?_, fun _ => h.launched, fun hexit => ?_⟩, .inr h.requests⟩
    · cases h.state.symm.trans harmed
    · rcases hexit with hexit | hexit
      · cases h.state.symm.trans hexit
      · cases h.state.symm.trans hexit
  refine wiring.over_call (R := Flies wiring m₀ now) ?_ (Triple.pure hover)
  intro m h
  have hstays : ∀ b : Bool, if b then Flies wiring m₀ now m else
      Trail m₀ (Due wiring m₀ m₀.engine.startNs now) m := fun b => by
    cases b
    · exact h.trail
    · exact h
  cases active with
  | false => exact hstays true
  | true =>
    have hp := wiring.verifyTransmit_calls deadline m
    have hflies : Flies wiring m₀ now (wiring.verifyTransmit deadline m).2 := by
      refine ⟨h.trail.performed hp nofun, fun hclock =>
        (h.requests hclock).performed h.trail hp nofun,
        (congrArg Engine.state hp.engine).trans h.state, ?_⟩
      obtain ⟨x, hx, hepoch, hentered⟩ := h.launched
      exact ⟨x, hp.log ▸ List.mem_cons_of_mem _ hx,
        hepoch.trans (congrArg Engine.epoch hp.engine.symm), hentered⟩
    show if (wiring.verifyTransmit deadline m).1 = true then _ else _
    split
    · exact hflies
    · exact hflies.trail

theorem launchOutput_over (hticks : Ticks wiring) (plan : JobPlan) :
    Triple (Aimed wiring m₀ now) (wiring.launchOutput plan) fun _ => Over wiring m₀ now := by
  refine Triple.bind (wiring.aimed_nowNs hticks) fun read => ?_
  refine wiring.over_call (wiring.request_goes hticks _) ?_
  rintro m ⟨htrail, hcleared, hrequests, htime, harming⟩
  simp only [Engine.arming, Prod.mk.injEq] at harming
  obtain ⟨-, -, -, hconditions, hdeadline, -⟩ := harming
  have hread := hticks.reads m.world
  rcases hrun : wiring.nowNs m with ⟨completed, m'⟩
  obtain ⟨rfl, rfl⟩ : (wiring.platform.nowNs m.world).1 = completed ∧
      { m with world := (wiring.platform.nowNs m.world).2 } = m' := Prod.mk.inj hrun
  simp only [bind, StateT.bind, hrun, engine]
  split
  · exact ((wiring.fail_over "si5351_launch_control_late").bind fun _ => Triple.pure fun _ h => h) _
      (htrail.of_engine rfl rfl)
  rename_i hontime
  have hfiring : Firing wiring m₀ now (wiring.platform.nowNs m.world).1
      { m with world := (wiring.platform.nowNs m.world).2 } := by
    refine ⟨htrail.of_engine rfl rfl, hcleared, ?_, fun hclock => ?_, ?_, hread.2⟩
    · exact (hrequests.weaken fun y hy => UInt64.le_trans hy hread.1).of_log rfl
    · rw [hconditions, hdeadline, hclock] at hontime
      exact UInt64.not_le.mp (by simpa using hontime)
    · exact UInt64.le_trans htime (UInt64.le_trans hread.1 hread.2)
  refine (wiring.over_call (wiring.firing_call (wiring.setGate_calls _)
    (fun m => hticks.setGate _ m.world) (fun h => by cases h) rfl rfl) ?_) _ hfiring
  refine Triple.bind (R := fun _ => Firing wiring m₀ now (wiring.platform.nowNs m.world).1)
    (fun s hs => hs.of_engine rfl rfl rfl) fun _ => ?_
  refine wiring.over_call (wiring.firing_call (wiring.armCutoff_calls _)
    (fun m => hticks.armCutoff _ m.world) (fun h => by cases h) rfl rfl) ?_
  exact wiring.enterFirst_over _

/-- The poised chain, settled and leading. -/
def Led (wiring : Wiring ω) (m₀ : Machine ω) (now : UInt64) (m : Machine ω) : Prop :=
  Poised wiring m₀ now m ∧ Settled wiring now m.engine ∧ Leads wiring m.engine

theorem verifyFilters_cases :
    wiring.filtersRequired = false ∧ wiring.verifyFilters = Pure.pure true ∨
      Calls wiring .verifyFilters wiring.verifyFilters := by
  unfold filtersRequired verifyFilters filterCall
  cases wiring.filters with
  | none => exact .inl ⟨rfl, rfl⟩
  | some bank => exact .inr (wiring.perform_reads (reads_onFilters _))

theorem verifyAmplifier_cases : wiring.verifyAmplifier = Pure.pure true ∨
    Calls wiring .verifyAmplifier wiring.verifyAmplifier := by
  unfold verifyAmplifier
  cases wiring.amplifier with
  | none => exact .inl rfl
  | some amplifier =>
    dsimp only
    split
    · exact .inl rfl
    · exact .inr (wiring.perform_reads (reads_onAmplifier _))

theorem verifyFilters_aims (hticks : Ticks wiring) :
    Triple (Led wiring m₀ now) wiring.verifyFilters fun ok m =>
      if ok then Aimed wiring m₀ now m
      else Trail m₀ (Due wiring m₀ m₀.engine.startNs now) m := by
  intro m hm
  rcases wiring.verifyFilters_cases with ⟨hno, hpure⟩ | hcalls
  · rw [hpure]
    exact ⟨hm.1, hm.2.1, hm.2.2, fun hrequired => nomatch hno.symm.trans hrequired⟩
  · have hp := hcalls m
    have hpoised := hm.1.performed hp (hticks.verifyFilters_forward m) rfl rfl rfl
    split
    · rename_i hok
      refine ⟨hpoised, hp.engine ▸ hm.2.1, hp.engine ▸ hm.2.2, fun _ recent hlog => ?_⟩
      obtain ⟨older, holder, -⟩ := hm.1.trail.entries
      obtain rfl := hp.recent holder hlog
      exact ⟨_, List.mem_cons_self, rfl, hok⟩
    · exact hpoised.trail.weaken fun _ _ h => h.elim

theorem verifyAmplifier_aims (hticks : Ticks wiring) :
    Keeps (Aimed wiring m₀ now) wiring.verifyAmplifier := by
  intro m hm
  rcases wiring.verifyAmplifier_cases with hpure | hcalls
  · rw [hpure]
    exact hm
  · have hp := hcalls m
    refine ⟨hm.poised.performed hp (hticks.verifyAmplifier_forward m) rfl rfl rfl,
      hp.engine ▸ hm.settled, hp.engine ▸ hm.leads, fun hrequired recent hlog => ?_⟩
    obtain ⟨older, holder, -⟩ := hm.poised.trail.entries
    obtain rfl := hp.recent holder hlog
    obtain ⟨y, hy, hverified⟩ := hm.verified hrequired older holder
    exact ⟨y, List.mem_cons_of_mem _ hy, hverified⟩

theorem launch_over (hticks : Ticks wiring) (plan : JobPlan) (harmed : m₀.engine.state = .armed) :
    Triple (Led wiring m₀ now) (wiring.launch plan) fun _ => Over wiring m₀ now := by
  have hindicator : Keeps (Led wiring m₀ now) wiring.requestLaunch := fun m hm => by
    have hread : Reads wiring.requestLaunch := .ite (reads_onIndicator _) (.pure _)
    have hforward : Forward wiring wiring.requestLaunch := fun m => by
      unfold requestLaunch
      split <;> exact UInt64.le_refl _
    refine ⟨wiring.poised_reads hread hforward m hm.1, ?_⟩
    rw [hread.engine m]
    exact hm.2
  have haimed : Triple (Aimed wiring m₀ now) wiring.verifyAmplifier fun ok m =>
      if ok then Aimed wiring m₀ now m
      else Trail m₀ (Due wiring m₀ m₀.engine.startNs now) m :=
    (wiring.verifyAmplifier_aims hticks).weaken fun ok m h => by
      split
      · exact h
      · exact h.poised.trail.weaken fun _ _ h => h.elim
  refine Triple.bind hindicator fun requested => ?_
  cases requested with
  | false => exact Triple.pure fun m hm => ⟨hm.1.ends harmed, .inr fun _ => hm.1.trail.requests⟩
  | true =>
    refine wiring.over_call (wiring.verifyFilters_aims hticks) ?_
    exact wiring.over_call haimed (wiring.launchOutput_over hticks plan)

/-! ## The poll -/

/-- The start that a poll of `m` projects. -/
def projection (plan : JobPlan) (m : Machine ω) : Option UInt64 :=
  (wiring.projectStart plan (wiring.nowNs m).2).1

/-- The calls that a poll of the armed job of `m` may launch it with. -/
def launches (plan : JobPlan) (m : Machine ω) (older : List Entry) (x : Entry) : Prop :=
  ∃ start now, wiring.projection plan m = some start ∧ start ≤ now ∧ Due wiring m start now older x

/-- The poll from its projection on. -/
theorem pursue_over (m₀ : Machine ω) (hticks : Ticks wiring) (plan : JobPlan)
    (harmed : m₀.engine.state = .armed) :
    Triple (Poised wiring m₀ now) (do
      if !(← wiring.settleFilters now) then
        return
      if !(← wiring.leadAmplifier now) then
        return
      if now ≥ m₀.engine.startNs then
        let _ ← wiring.launch plan) fun _ m =>
      Ends wiring m₀ (fun older x => m₀.engine.startNs ≤ now ∧
        Due wiring m₀ m₀.engine.startNs now older x) m ∧ InTime m₀ m := by
  have hrests : ∀ m, Rests wiring m₀ now m → Ends wiring m₀ (fun older x =>
      m₀.engine.startNs ≤ now ∧ Due wiring m₀ m₀.engine.startNs now older x) m ∧ InTime m₀ m := by
    rintro m (hpoised | ⟨hdead, hstate⟩)
    · exact ⟨hpoised.ends harmed, .inr fun _ => hpoised.trail.requests⟩
    · have htrail := hdead.trail.requests (P := fun y => y.done < m₀.engine.deadlineNs)
      exact ⟨Dead.ends ⟨hdead.trail.weaken fun _ _ h => h.elim, hdead.shut⟩ hstate,
        .inr fun _ => htrail⟩
  have hlaunch : Triple (Led wiring m₀ now) (if now ≥ m₀.engine.startNs then do
      let _ ← wiring.launch plan
      else return () : EngineM ω Unit) fun _ m => Ends wiring m₀ (fun older x =>
        m₀.engine.startNs ≤ now ∧ Due wiring m₀ m₀.engine.startNs now older x) m ∧ InTime m₀ m := by
    refine Triple.ite (fun hdue => ?_) fun _ => Triple.pure fun m hm => hrests m (.inl hm.1)
    refine (wiring.launch_over hticks plan harmed).bind fun _ => Triple.pure fun m hm => ⟨?_, hm.2⟩
    exact ⟨hm.1.trail.weaken fun _ _ h => ⟨hdue, h⟩, hm.1.armed, hm.1.running, hm.1.exits⟩
  refine (wiring.settleFilters_goes hticks).guarded
    (R := fun m => Poised wiring m₀ now m ∧ Settled wiring now m.engine) ?_ (Triple.pure hrests)
  exact (wiring.leadAmplifier_goes hticks).guarded (R := Led wiring m₀ now) hlaunch
    (Triple.pure hrests)

theorem pollArmed_ends (hticks : Ticks wiring) (plan : JobPlan) {m : Machine ω}
    (harmed : m.engine.state = .armed) (hepochs : ∀ x ∈ m.log, x.epoch ≤ m.engine.epoch)
    (hstages : Stages wiring m.engine m.log) :
    Ends wiring m (wiring.launches plan m) (wiring.pollArmed plan m).2 ∧
      InTime m (wiring.pollArmed plan m).2 := by
  have hread := wiring.nowNs_reads
  have hproject := wiring.projectStart_reads plan
  unfold launches projection
  rcases hn : wiring.nowNs m with ⟨read, m₁⟩
  have hengine₁ : m₁.engine = m.engine := by
    have h := hread.engine m
    rwa [hn] at h
  have hlog₁ : m₁.log = m.log := by
    have h := hread.log m
    rwa [hn] at h
  rcases hp : wiring.projectStart plan m₁ with ⟨projected, m₂⟩
  have hengine₂ : m₂.engine = m.engine := by
    have h := hproject.engine m₁
    rw [hp] at h
    exact h.trans hengine₁
  have hlog₂ : m₂.log = m.log := by
    have h := hproject.log m₁
    rw [hp] at h
    exact h.trans hlog₁
  have htrail : Trail m (fun _ _ => False) m₂ :=
    (Trail.refl hepochs).of_engine hlog₂ (congrArg Engine.epoch hengine₂)
  unfold pollArmed
  simp only [bind, StateT.bind, hn, hp]
  cases projected with
  | none =>
    obtain ⟨-, hdead, hstate⟩ := wiring.fail_dead "si5351_launch_clock_rejected" .missed m₂ htrail
    have hquiet := hdead.trail.requests (P := fun y => y.done < m.engine.deadlineNs)
    exact ⟨Dead.ends ⟨hdead.trail.weaken fun _ _ h => h.elim, hdead.shut⟩ hstate,
      .inr fun _ => hquiet⟩
  | some start =>
    have hpoised : Poised wiring { m with engine.startNs := start }
        (wiring.platform.nowNs m₂.world).1
        { m₂ with engine.startNs := start, world := (wiring.platform.nowNs m₂.world).2 } := by
      refine ⟨⟨⟨[], hlog₂, fun newer x older heq => by simp at heq⟩, ?_, ?_⟩, ?_, ?_,
        (hticks.reads m₂.world).2⟩
      · show m₂.engine.epoch = m.engine.epoch
        rw [hengine₂]
      · exact htrail.epochs
      · simp only [Engine.arming, hengine₂]
      · rw [hengine₂, hlog₂]
        exact hstages.of_engine rfl rfl rfl rfl
    obtain ⟨hends, htime⟩ :=
      wiring.pursue_over { m with engine.startNs := start } hticks plan harmed _ hpoised
    refine ⟨⟨⟨?_, hends.trail.epoch, hends.trail.epochs⟩, hends.armed, hends.running, hends.exits⟩,
      htime⟩
    obtain ⟨recent, hlog, hentries⟩ := hends.trail.entries
    refine ⟨recent, hlog, fun newer x older heq hstarts => ?_⟩
    obtain ⟨hle, hdue⟩ := hentries newer x older heq hstarts
    exact ⟨start, _, rfl, hle, hdue.issued, hdue.cleared, hdue.window⟩

end Wiring

end WsprryPico.Rf.Si5351
