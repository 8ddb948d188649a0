import WsprryPico.Rf.Si5351.Completion

/-!
# The events of a Si5351 job

A transition leaves what its event asks for commanded, `finish_rf` an output that was
requested off in time, and so every run of polls that do not skip an event that sounds
is truthful about the job it completes.
-/

namespace WsprryPico.Rf.Si5351

open Wtp Lib EngineM

variable {ω α β : Type}

/-- The members of the engine that a transition leaves alone. -/
def Engine.course (e : Engine) :=
  (e.state, e.phase, e.plan, e.launchNs, e.startNs, e.endNs, e.event)

/-- A reading of the timer is not before the time it is taken at. -/
def Wiring.Timed (wiring : Wiring ω) : Prop := ∀ w, wiring.time w ≤ (wiring.platform.nowNs w).1

/-- The engine is on the course of `e`, its events are `events`, and what was commanded
is what event `index` asks for. -/
def Turned (plan : JobPlan) (index : Nat) (e : Engine) (events : List (Nat × UInt64))
    (m : Machine ω) : Prop :=
  m.engine.course = e.course ∧ m.output.events = events ∧
    Follows plan index m.engine m.output m.device

section Follows

variable {plan : JobPlan} {e : Engine} {o : Commanded} {d : Device} {index : Nat}

/-- An event like the one before it. -/
theorem Follows.same (h : Follows plan index e o d) (heq : plan.tone (index + 1) = plan.tone index) :
    Follows plan (index + 1) e o d := by
  refine ⟨h.primed, heq ▸ h.sounds, fun hnone => ?_⟩
  obtain ⟨hgate, hrequest, hoff⟩ := h.rests (heq ▸ hnone)
  refine ⟨hgate, hrequest, ?_⟩
  rintro ⟨i, hle, hon⟩
  refine hoff ⟨i, ?_, hon⟩
  by_contra hgt
  obtain rfl : i = index + 1 := by omega
  rw [hnone] at hon
  cases hon

/-- The output of an event that sounds. -/
theorem Follows.sounding {next : Nat} (hnext : plan.tone index = some next)
    (hprimed : e.primedTone = some next) (hgate : o.gate = true) (hrequest : o.requests true)
    (htone : o.tone = plan.toneAt next) (hd : ¬ Shows .registerDisabled d) :
    Follows plan index e o d := by
  refine ⟨fun tone ht => ?_, fun tone ht => ?_, fun hnone => nomatch hnone.symm.trans hnext⟩
  · rw [← Option.some.inj (hprimed.symm.trans ht)]
    exact htone
  · rw [← Option.some.inj (hnext.symm.trans ht)]
    exact ⟨hgate, hrequest, htone, hd⟩

end Follows

namespace Wiring

variable (wiring : Wiring ω) {plan : JobPlan} {e : Engine} {o : Commanded} {D : Device → Prop}
  {d : Device} {deadline : UInt64} {index : Nat}

theorem nowNs_done (htimed : wiring.Timed) {o' : Entry → Commanded} {a : Action} :
    Triple (fun m => ∃ x, x.action = a ∧ x.ok = true ∧ x.done = wiring.time m.world ∧
      At e (o' x) D m) wiring.nowNs fun now m => ∃ x, x.action = a ∧ x.ok = true ∧ x.done ≤ now ∧
        At e (o' x) D m := by
  rintro m ⟨x, ha, hok, hdone, h⟩
  exact ⟨x, ha, hok, hdone ▸ htimed m.world, wiring.nowNs_at m h⟩

/-- The next tone is programmed in a gap, or there is none. -/
theorem prepareGapTone_turned (hnone : plan.tone index = none)
    (hprimed : ∀ tone, e.primedTone = some tone → o.tone = plan.toneAt tone)
    (hgate : o.gate = false) (hrequest : o.requests false) (hoff : o.offBy e.disableCommandNs)
    (next : Nat) : Triple (At e o D) (wiring.prepareGapTone plan next deadline)
      (Attempt (Turned plan index e o.events)) := by
  have hturned : ∀ (e' : Engine) {tone : Tone} {m : Machine ω}, e'.course = e.course →
      e'.disableCommandNs = e.disableCommandNs →
      (∀ index, e'.primedTone = some index → tone = plan.toneAt index) →
      At e' { o with tone := tone } (fun _ => True) m → Turned plan index e o.events m := by
    rintro e' tone m hcourse hdisable hp ⟨rfl, ho, -⟩
    refine ⟨hcourse, by rw [ho], by rw [ho]; exact hp, fun tone htone => ?_, fun _ => ?_⟩
    · cases hnone.symm.trans htone
    · rw [ho, hdisable]
      exact ⟨hgate, hrequest, fun _ => hoff⟩
  unfold prepareGapTone
  split
  · exact Triple.pure fun m h => hturned e rfl rfl hprimed ⟨h.engine, h.output, trivial⟩
  · refine wiring.orFail_triple (wiring.transmitTone_at _) ?_ fun _ h => h
    refine wiring.orFail_triple wiring.prime_at ?_ fun _ h => h
    refine Triple.bind (update_at _) fun _ => Triple.pure fun m h =>
      hturned { e with primedTone := some _ } rfl rfl (fun i hi => ?_) h
    rw [← Option.some.inj hi]

theorem keyOff_turned (htimed : wiring.Timed) (h : Follows plan index e o d)
    (hnone : plan.tone (index + 1) = none) :
    Triple (At e o D) (wiring.keyOff plan (index + 1) deadline)
      (Attempt (Turned plan (index + 1) e o.events)) := by
  refine wiring.orFail_triple ((wiring.setGate_at false).weaken fun _ _ h _ => h) ?_ fun _ h => h
  refine wiring.orFail_triple (wiring.request_at false) ?_ fun _ h => h
  refine Triple.bind (wiring.nowNs_done htimed) fun now => ?_
  rintro m ⟨x, hx, hok, hdone, hm⟩
  refine (Triple.bind (update_at _) fun _ => ?_ : Triple (At e
    { o with gate := false, request := some x } fun _ => True) _
      (Attempt (Turned plan (index + 1) e o.events))) m ⟨hm.engine, hm.output, trivial⟩
  refine wiring.orFail_triple
    (((wiring.verifyTransmit_calls deadline).unchanged rfl).weaken fun _ _ h _ => h) ?_ fun _ h => h
  exact wiring.prepareGapTone_turned (e := { e with disableCommandNs := now })
    (o := { o with gate := false, request := some x }) hnone h.primed rfl ⟨x, rfl, hx ▸ rfl⟩
    ⟨x, rfl, hx, hok, hdone⟩ _

theorem engine_at {k : Engine → EngineM ω α} {Q : α → Machine ω → Prop}
    (h : Triple (At e o D) (k e) Q) : Triple (At e o D) (engine >>= k) Q := by
  rintro m ⟨rfl, ho, hd⟩
  exact h m ⟨rfl, ho, hd⟩

theorem restart_at : Triple (At e o D) (wiring.restart deadline) <| Attempt fun m =>
    ∃ e' x, e'.course = e.course ∧ x.action.request = some true ∧
      At e' { o with gate := true, request := some x } (Shows .registerEnabled) m := by
  refine wiring.orFail_triple wiring.prime_at ?_ fun _ h => h
  refine wiring.orFail_triple (wiring.request_at true) ?_ fun _ h => h
  rintro m ⟨x, hx, -, -, hm⟩
  refine (Triple.bind wiring.nowNs_at fun now => ?_ : Triple (At e { o with request := some x }
    (·.pending = .enable)) _ _) m ⟨hm.engine, hm.output, hm.device rfl⟩
  refine Triple.bind (update_at _) fun _ => ?_
  refine wiring.orFail_triple ((wiring.setGate_at true).weaken fun _ _ h _ => h) ?_ fun _ h => h
  refine wiring.orFail_triple wiring.verify_at (Triple.pure fun m h => ?_) fun _ h => h
  exact ⟨_, x, by exact rfl, hx ▸ rfl, h⟩

theorem keyOn_turned {next : Nat} (h : Follows plan index e o d)
    (hnext : plan.tone (index + 1) = some next) :
    Triple (At e o (· = d)) (wiring.keyOn plan (plan.tone index) next deadline)
      (Attempt (Turned plan (index + 1) e o.events)) := by
  refine engine_at ?_
  cases hprevious : plan.tone index with
  | some tone =>
    obtain ⟨hgate, hrequest, -, hd⟩ := h.sounds tone hprevious
    refine wiring.orFail_triple (wiring.transmitTone_at _) ?_ fun _ h => h
    rintro m ⟨rfl, ho, d₀, rfl, hshows⟩
    have hsame : m.output.events = o.events ∧ m.output.gate = o.gate ∧
        m.output.request = o.request ∧ m.output.tone = plan.toneAt next := by simp [ho]
    have hrequest' : m.output.requests true := by
      unfold Commanded.requests
      rw [hsame.2.2.1]
      exact hrequest
    exact ⟨rfl, hsame.1, Follows.sounding hnext rfl (hsame.2.1.trans hgate) hrequest' hsame.2.2.2
      fun hdisabled => hd (hshows.symm.trans hdisabled)⟩
  | none =>
    have hprogrammed : Triple (At e o (· = d))
        (ifNeeded ((none : Option Nat).isSome || e.primedTone ≠ some next)
          (wiring.transmitTone (plan.toneAt next) deadline)) fun ok m => ok = true →
        At e { o with tone := plan.toneAt next } (fun _ => True) m := by
      cases hneeded : decide (e.primedTone ≠ some next) with
      | true =>
        exact (wiring.transmitTone_at _).weaken fun _ _ h hok =>
          ⟨(h hok).engine, (h hok).output, trivial⟩
      | false =>
        rintro m ⟨he, ho, -⟩ -
        refine ⟨he, ho.trans ?_, trivial⟩
        have hprimed : e.primedTone = some next := by simpa using hneeded
        rw [← h.primed next hprimed]
    refine wiring.orFail_triple hprogrammed ?_ fun _ h => h
    refine Triple.bind wiring.restart_at fun
      | false => Triple.pure fun _ h => h
      | true => ?_
    rintro m ⟨e', x, hcourse, hx, rfl, ho, hshows⟩
    have hsame : m.output.events = o.events ∧ m.output.gate = true ∧
        m.output.request = some x ∧ m.output.tone = plan.toneAt next := by simp [ho]
    exact ⟨hcourse, hsame.1, Follows.sounding hnext rfl hsame.2.1 ⟨x, hsame.2.2.1, hx⟩ hsame.2.2.2
      fun hdisabled => nomatch hshows.symm.trans hdisabled⟩

theorem transition_turned (htimed : wiring.Timed) (h : Follows plan index e o d) :
    Triple (At e o (· = d)) (wiring.transition plan (index + 1))
      (Attempt (Turned plan (index + 1) e o.events)) := by
  refine Triple.bind wiring.nowNs_at fun now => Triple.ite (fun heq => ?_) fun hchanges => ?_
  · rintro m ⟨rfl, rfl, rfl⟩
    exact ⟨rfl, rfl, h.same heq⟩
  cases hnext : plan.tone (index + 1) with
  | none => exact wiring.keyOff_turned htimed h hnext
  | some next => exact wiring.keyOn_turned h hnext

/-! ## The end -/

/-- The off request of a job that has entered every event that sounds. -/
theorem requestFinalOff_at (htimed : wiring.Timed) (h : Playing plan e o d)
    (hlast : ∀ i, (plan.tone i).isSome → i ≤ e.event) :
    Triple (At e { o with gate := false } (· = d)) wiring.requestFinalOff fun ok m => ok = true →
      ∃ limit request, Commanded.offBy { request := request } limit ∧
        At { e with disableCommandNs := limit } { o with gate := false, request := request }
          (fun _ => True) m := by
  refine machine_bind fun m hm => Triple.ite (fun hoff => ?_) fun _ => ?_
  · have hnone : plan.tone e.event = none := by
      cases htone : plan.tone e.event with
      | none => rfl
      | some tone =>
        obtain ⟨-, -, -, hd⟩ := h.follows.sounds tone htone
        exact absurd (show Shows .registerDisabled d from hm.device ▸ hoff) hd
    obtain ⟨i, hi⟩ := h.playable.sounds
    have hoffBy := (h.follows.rests hnone).2.2 ⟨i, hlast i hi, hi⟩
    rintro _ rfl -
    exact ⟨e.disableCommandNs, o.request, hoffBy, hm.engine, hm.output, trivial⟩
  · refine Triple.strengthen (P := At e { o with gate := false } (· = d)) ?_ fun _ h => h ▸ hm
    refine Triple.bind (wiring.request_at false) fun
      | false => Triple.pure fun _ _ h => nomatch h
      | true => ?_
    refine Triple.strengthen ?_ fun _ h => h rfl
    refine Triple.bind (wiring.nowNs_done htimed) fun now => ?_
    rintro m' ⟨x, hx, hok, hdone, hm'⟩ -
    refine ⟨now, some x, ⟨x, rfl, hx, hok, hdone⟩, ?_, hm'.output, trivial⟩
    exact congrArg (fun e : Engine => { e with disableCommandNs := now }) hm'.engine

/-- A job whose end was commanded in time. -/
theorem Playing.finished (h : Playing plan e o d) (hlast : ∀ i, (plan.tone i).isSome → i ≤ e.event)
    {e' : Engine} {request : Option Entry} {limit : UInt64}
    (hcourse : e'.plan = e.plan ∧ e'.launchNs = e.launchNs ∧ e'.startNs = e.startNs ∧
      e'.endNs = e.endNs) (hoff : Commanded.offBy { request := request } limit)
    (hlimit : limit ≤ addSat e.endNs transitionBudgetNs) :
    Finished plan e' { o with gate := false, request := request } := by
  obtain ⟨hplan, hlaunch, hstart, hend⟩ := hcourse
  obtain ⟨x, hx, haction, hok, hdone⟩ := hoff
  refine ⟨hplan.trans h.held, ?_, ?_, ⟨e.event, hstart ▸ h.entered, hlast⟩, rfl, x, hx, haction, hok, ?_⟩
  · rw [hlaunch, hstart]
    exact h.launched
  · rw [hend, hstart]
    exact h.finish
  · rw [hend]
    exact UInt64.le_trans hdone hlimit

theorem Truth.tail (plan : JobPlan) {m : Machine ω} (hstate : m.engine.state = .running)
    (hphase : m.engine.phase = .tail) (h : Finished plan m.engine m.output) : Truth m := by
  refine ⟨fun hs => ?_, fun _ => ⟨plan, by rwa [if_pos hphase]⟩, fun hs => ?_⟩
  · rcases hs with hs | hs
    · cases hstate.symm.trans hs
    · cases hstate.symm.trans hs
  · cases hstate.symm.trans hs

theorem Truth.completed (plan : JobPlan) {m : Machine ω} (hstate : m.engine.state = .complete)
    (h : Finished plan m.engine m.output) : Truth m := by
  refine ⟨fun hs => ?_, fun hs => ?_, fun _ => ⟨plan, h⟩⟩
  · rcases hs with hs | hs
    · cases hstate.symm.trans hs
    · cases hstate.symm.trans hs
  · cases hstate.symm.trans hs

/-- A poll of a running engine leaves it running, complete or failed. -/
def Outcome (m : Machine ω) : Prop :=
  Truth m ∧ (m.engine.state = .running ∨ m.engine.state = .complete ∨ m.engine.state = .failed)

theorem Outcome.failed (m : Machine ω) (h : m.engine.state = .failed) : Outcome m :=
  ⟨Ended.truth (.inl h), .inr (.inr h)⟩

theorem finishRf_outcome (htimed : wiring.Timed) (h : Playing plan e o d)
    (hstate : e.state = .running) (hlast : ∀ i, (plan.tone i).isSome → i ≤ e.event) :
    Triple (At e o (· = d)) wiring.finishRf fun _ => Outcome := by
  refine wiring.orFail_triple ((wiring.setGate_at false).weaken fun _ _ h _ => h) ?_ Outcome.failed
  refine wiring.orFail_triple (wiring.requestFinalOff_at htimed h hlast) ?_ Outcome.failed
  rintro m ⟨limit, request, hoff, hm⟩
  refine (engine_at (Triple.ite (fun _ => ?_) fun hin => ?_) : Triple (At
    { e with disableCommandNs := limit } { o with gate := false, request := request } fun _ => True)
      _ fun _ => Outcome) m hm
  · exact (wiring.fail_failed _).weaken fun _ m h => Outcome.failed m h.2
  have hlimit : limit ≤ addSat e.endNs transitionBudgetNs := UInt64.not_lt.mp hin
  refine Triple.ite (fun _ => ?_) fun _ => ?_
  · refine Triple.bind (update_at _) fun _ => Triple.pure fun m hm => ?_
    have hcomplete : m.engine.state = .complete := by rw [hm.engine]
    refine ⟨Truth.completed plan hcomplete ?_, .inr (.inl hcomplete)⟩
    rw [hm.engine, hm.output]
    exact Playing.finished h hlast ⟨rfl, rfl, rfl, rfl⟩ hoff hlimit
  · refine Triple.bind wiring.nowNs_at fun now => ?_
    refine wiring.orFail_triple
      (((wiring.verifyTransmit_calls _).unchanged rfl).weaken fun _ _ h _ => h) ?_ Outcome.failed
    refine Triple.bind wiring.nowNs_at fun now => Triple.bind (update_at _) fun _ =>
      Triple.pure fun m hm => ?_
    have hrunning : m.engine.state = .running := by rw [hm.engine]; exact hstate
    refine ⟨Truth.tail plan hrunning (by rw [hm.engine]) ?_, .inl hrunning⟩
    rw [hm.engine, hm.output]
    exact Playing.finished h hlast ⟨rfl, rfl, rfl, rfl⟩ hoff hlimit

/-! ## Poll -/

/-- The entry of the next event. -/
theorem enter_outcome (htimed : wiring.Timed) (h : Playing plan e o d) (hstate : e.state = .running)
    (hphase : e.phase ≠ .tail) {now : UInt64} (hdue : plan.boundary e.startNs e.event ≤ now)
    (hin : now ≤ addSat (plan.boundary e.startNs e.event) transitionBudgetNs)
    (hplanned : e.event + 1 < plan.count) : Triple (At e o (· = d)) (do
      if ← wiring.transition plan (e.event + 1) then
        wiring.notify (.entered (e.event + 1) now) (return ())
        update fun e => { e with event := e.event + 1 }) fun _ => Outcome := by
  refine Triple.bind (wiring.transition_turned htimed h.follows) fun
    | false => Triple.pure fun m hm => Outcome.failed m hm
    | true => ?_
  rintro m ⟨hcourse, hevents, hfollows⟩
  simp only [Engine.course, Prod.mk.injEq] at hcourse
  obtain ⟨hs, hp, hplan, hlaunch, hstart, hend, hevent⟩ := hcourse
  refine (Triple.bind (wiring.notify_entered (e.event + 1) now) fun _ => ?_ :
    Triple (At m.engine m.output (· = m.device)) _ fun _ => Outcome) m ⟨rfl, rfl, rfl⟩
  rintro m' ⟨he, ho, hd⟩
  have hrunning : m'.engine.state = .running := by rw [he, hs, hstate]
  refine ⟨Truth.playing plan hrunning (by show m'.engine.phase ≠ _; rwa [he, hp]) ?_, .inl hrunning⟩
  show Playing plan { m'.engine with event := m'.engine.event + 1 } m'.output m'.device
  rw [he, ho, hd]
  refine ⟨hplan.trans h.held, h.playable, ?_, ?_, ?_, ?_⟩
  · show m.engine.launchNs = some m.engine.startNs
    rw [hlaunch, hstart]
    exact h.launched
  · show m.engine.endNs = addSat m.engine.startNs plan.spanNs
    rw [hend, hstart]
    exact h.finish
  · show Entered plan m.engine.startNs (m.engine.event + 1) _
    rw [hstart, hevent, if_neg (Nat.succ_ne_zero _), hevents]
    exact .next h.entered hdue hin hplanned
  · show Follows plan (m.engine.event + 1) _ _ _
    rw [hevent]
    exact ⟨hfollows.primed, hfollows.sounds, hfollows.rests⟩

/-- A poll of a running job finds its planned end with an event that sounds still to
come. -/
def overruns (m : Machine ω) : Prop :=
  m.engine.state = .running ∧ m.engine.phase ≠ .tail ∧ (wiring.nowNs m).1 ≥ m.engine.endNs ∧
    m.engine.plan.any (fun plan => (plan.nextTone (m.engine.event + 1)).isSome) = true

instance (m : Machine ω) : Decidable (wiring.overruns m) := inferInstanceAs (Decidable (_ ∧ _))

theorem nextTone_isSome {from_ i : Nat} (hle : from_ ≤ i) (hi : (plan.tone i).isSome) :
    (plan.nextTone from_).isSome := by
  unfold JobPlan.nextTone
  obtain ⟨tone, htone⟩ := Option.isSome_iff_exists.mp hi
  obtain ⟨event, hevent, hsome⟩ := Option.bind_eq_some_iff.mp htone
  rw [List.findSome?_isSome_iff]
  refine ⟨event, ?_, by rw [hsome]; rfl⟩
  rw [List.mem_iff_getElem?]
  exact ⟨i - from_, by rw [List.getElem?_drop, Nat.add_sub_cancel' hle, hevent]⟩

theorem pollRf_outcome (htimed : wiring.Timed) {m : Machine ω} (hstate : m.engine.state = .running)
    (hphase : m.engine.phase ≠ .tail) (h : Playing plan m.engine m.output m.device)
    (hin : ¬ wiring.overruns m) : Outcome (wiring.pollRf plan m).2 := by
  have hread := wiring.nowNs_at (e := m.engine) (o := m.output) (D := (· = m.device)) m
    ⟨rfl, rfl, rfl⟩
  unfold overruns at hin
  rcases hn : wiring.nowNs m with ⟨now, m₁⟩
  rw [hn] at hread hin
  unfold pollRf
  simp only [bind, StateT.bind, hn, engine]
  rw [hread.engine]
  by_cases hend : now ≥ m.engine.endNs
  · rw [if_pos hend]
    have hlast : ∀ i, (plan.tone i).isSome → i ≤ m.engine.event := fun i hi => by
      by_contra hgt
      refine hin ⟨hstate, hphase, hend, ?_⟩
      rw [h.held]
      exact nextTone_isSome (Nat.lt_of_not_le hgt) hi
    exact wiring.finishRf_outcome htimed h hstate hlast m₁ hread
  rw [if_neg hend]
  by_cases hboundary : now ≥ addSat m.engine.startNs (plan.endNs m.engine.event)
  case neg =>
    rw [if_neg hboundary]
    have hrunning : m₁.engine.state = .running := by rw [hread.engine]; exact hstate
    refine ⟨Truth.playing plan hrunning ?_ ?_, .inl hrunning⟩
    · show m₁.engine.phase ≠ .tail
      rw [hread.engine]
      exact hphase
    · show Playing plan m₁.engine m₁.output m₁.device
      rw [hread.engine, hread.output, hread.device]
      exact h
  rw [if_pos hboundary]
  split
  · exact Outcome.failed _ (wiring.fail_failed _ m₁ hread).2
  · rename_i hlate
    rw [Bool.or_eq_true, not_or, decide_eq_true_iff, decide_eq_true_iff] at hlate
    exact wiring.enter_outcome htimed h hstate hphase hboundary (UInt64.not_lt.mp hlate.1)
      (Nat.lt_of_not_le hlate.2) m₁ hread

theorem releaseChain_rests : Keeps (At e o D) wiring.releaseChain := by
  refine Keeps.bind ?_ fun ok => .ite (fun _ => .pure _) fun _ => ?_
  · unfold deactivateAmplifier amplifierCall
    split
    · exact .pure true
    · exact (wiring.perform_reads (reads_onAmplifier _)).rests rfl rfl
  · unfold deactivateFilters filterCall
    split
    · exact .pure true
    · exact (wiring.perform_reads (reads_onFilters _)).rests rfl rfl

theorem pollTail_outcome (hstate : e.state = .running) (hphase : e.phase = .tail)
    (h : Finished plan e o) : Triple (At e o D) wiring.pollTail fun _ => Outcome := by
  refine Triple.bind wiring.nowNs_at fun now => engine_at (Triple.ite (fun _ => ?_) fun _ => ?_)
  · refine Triple.bind wiring.releaseChain_rests fun
      | false => Triple.bind (wiring.fail_failed _) fun _ => Triple.pure fun m h => Outcome.failed m h.2
      | true => ?_
    refine Triple.bind wiring.nowNs_at fun disabled => (update_at _).weaken fun _ m hm => ?_
    have hcomplete : m.engine.state = .complete := by rw [hm.engine]
    refine ⟨Truth.completed plan hcomplete ?_, .inr (.inl hcomplete)⟩
    rw [hm.engine, hm.output]
    exact ⟨h.held, h.launched, h.finish, h.entered, h.gate, h.off⟩
  · refine Triple.pure fun m hm => ?_
    have hrunning : m.engine.state = .running := by rw [hm.engine]; exact hstate
    refine ⟨Truth.tail plan hrunning (by rw [hm.engine]; exact hphase) ?_, .inl hrunning⟩
    rw [hm.engine, hm.output]
    exact h

theorem pollIdle_truth : Triple (In .idle) wiring.pollIdle fun _ => Truth := by
  refine Triple.bind (reads_in reads_engine) fun e => ?_
  have hservice : Keeps (In .idle) (wiring.serviceReference (e.initialized && e.plan.isNone &&
      (wiring.engineeringAllowed || wiring.ordinaryQualified) && !e.inhibited &&
        !e.backgroundSuspended)) :=
    wiring.notify_in rfl (fun _ => ⟨rfl, rfl⟩) (by decide)
  exact hservice.weaken fun _ _ h => h.1

theorem running_outcome (htimed : wiring.Timed) {m : Machine ω} (h : Truth m)
    (hstate : m.engine.state = .running) (hin : ¬ wiring.overruns m) :
    Outcome (wiring.advance m).2 := by
  obtain ⟨plan, hr⟩ := h.running hstate
  have hadvance : Triple (· = m) wiring.advance fun _ => Outcome := by
    refine engine_bind fun m' hm => ?_
    subst hm
    by_cases hphase : m'.engine.phase = .tail
    · rw [if_pos hphase] at hr
      rw [hstate, hr.held]
      refine Triple.ite (fun _ => ?_) (absurd hphase)
      rintro m rfl
      exact wiring.pollTail_outcome (D := fun _ => True) hstate hphase hr m ⟨rfl, rfl, trivial⟩
    · rw [if_neg hphase] at hr
      rw [hstate, hr.held]
      refine Triple.ite (absurd · hphase) fun _ => ?_
      rintro _ rfl
      exact wiring.pollRf_outcome htimed hstate hphase hr hin
  exact hadvance m rfl

theorem advance_truth (htimed : wiring.Timed) {m : Machine ω} (h : Truth m)
    (hin : ¬ wiring.overruns m) : Truth (wiring.advance m).2 := by
  by_cases hrunning : m.engine.state = .running
  · exact (wiring.running_outcome htimed h hrunning hin).1
  have hread : Triple (· = m) (do let _ ← wiring.nowNs) fun _ => Truth := by
    rintro m rfl
    exact reads_truth wiring.nowNs_reads m h
  have hadvance : Triple (· = m) wiring.advance fun _ => Truth := by
    refine engine_bind fun m' hm => ?_
    subst hm
    split
    · rename_i hidle
      rintro m rfl
      exact wiring.pollIdle_truth m ⟨h, hidle⟩
    · rename_i plan harmed hplan
      rintro m rfl
      exact wiring.pollArmed_truth m ⟨⟨h, harmed⟩, hplan⟩
    · exact absurd ‹_› hrunning
    · exact hread
  exact hadvance m rfl

theorem poll_truth (htimed : wiring.Timed) {m : Machine ω} (h : Truth m)
    (hin : ¬ wiring.overruns m) : Truth (wiring.poll m).2 :=
  reads_truth wiring.report_reads _ (wiring.advance_truth htimed h hin)

/-- A poll of a running engine does not find the end of its job with an event that
sounds still to come. -/
def attends (command : Command ω) (m : Machine ω) : Prop := command.isPoll → ¬ wiring.overruns m

instance (command : Command ω) (m : Machine ω) : Decidable (wiring.attends command m) :=
  inferInstanceAs (Decidable (_ → _))

theorem suspendBackground_truth : Keeps Truth (wiring.suspendBackground deadline) := by
  refine engine_bind fun m hm => Triple.ite (fun _ => ?_) fun hadmits => ?_
  · exact Triple.pure fun _ h => h ▸ hm
  have hidle : m.engine.state = .idle := by
    by_contra hne
    exact hadmits (by simp [hne])
  have hactive : Keeps (In .idle) wiring.outputActive := reads_in wiring.outputActive_reads
  have hupdate : ∀ value, Keeps (In .idle) (update fun e => { e with backgroundSuspended := value } :
      EngineM ω Unit) := fun value m h => ⟨h.1.congr rfl rfl (.inl rfl), h.2⟩
  have hquieted : Keeps (In .idle) (wiring.quieted deadline) :=
    Keeps.bind (neutral_in (wiring.pauseReference_calls deadline) rfl (by decide)) fun ok =>
      .ite (fun _ => .pure _) fun _ => hactive.bind fun _ => .pure _
  refine Triple.strengthen (P := In .idle) ?_ fun _ h => h ▸ ⟨hm, hidle⟩
  refine Triple.weaken (Q := fun _ => In .idle) ?_ fun _ _ h => h.1
  refine Keeps.bind hactive fun active => .ite (fun _ => .pure _) fun _ => ?_
  refine Keeps.bind (hupdate true) fun _ => Keeps.bind hquieted fun quiet => ?_
  exact .ite (fun _ => .pure _) fun _ => Keeps.bind (hupdate false) fun _ => .pure _

theorem step_truth (htimed : wiring.Timed) (command : Command ω) (m : Machine ω) (h : Truth m)
    (hattends : wiring.attends command m) : Truth (wiring.step command m) := by
  cases command with
  | setFrequencyCorrectionPpb value =>
    refine Keeps.bind (reads_truth reads_engine) (fun e => .ite (fun _ => .pure _) fun _ => ?_) m h
    exact .bind (update_truth fun _ => rfl) fun _ => .pure _
  | prepare job => exact wiring.prepare_truth job m h
  | schedule job start conditions => exact wiring.schedule_truth job start conditions m h
  | begin job start => exact wiring.begin_truth job start m h
  | poll => exact wiring.poll_truth htimed h (hattends rfl)
  | disable deadline => exact (wiring.disable_ended m).truth
  | inhibitOutput =>
    have hcall : Calls wiring .inhibitReference (wiring.perform .inhibitReference (do
        onWorld fun w => ((), wiring.platform.inhibitReference w)
        return true)) :=
      wiring.perform_reads ((reads_onWorld _).bind_reads fun _ => .pure _)
    have hinhibit : Keeps Truth wiring.inhibitOutput :=
      .bind (update_truth fun _ => rfl) fun _ => .bind (neutral_truth hcall rfl rfl) fun _ => .pure _
    exact hinhibit m h
  | suspendBackground deadline => exact wiring.suspendBackground_truth m h
  | resumeBackground => exact h.congr rfl rfl (.inl rfl)
  | elapse world acknowledged => exact h.congr rfl rfl (.inl rfl)

/-- In every run whose polls do not overrun a job, an engine in execution has commanded
what its event asks for, every poll of it leaves it running, complete or failed, and a
completed job was executed to its end: every event up to the last that sounds was
entered, in order and in time, and the output was requested off in time. -/
theorem completion_truthful (htimed : wiring.Timed) {m : Machine ω} (hfresh : m.Fresh)
    (commands : List (Command ω)) (hattends : wiring.Meets wiring.attends m commands) :
    let m' := wiring.run m commands
    (m'.engine.state = .running → m'.engine.phase ≠ .tail →
      ∃ plan, Playing plan m'.engine m'.output m'.device) ∧
    (m'.engine.state = .running → wiring.attends .poll m' →
      (wiring.poll m').2.engine.state = .running ∨ (wiring.poll m').2.engine.state = .complete ∨
        (wiring.poll m').2.engine.state = .failed) ∧
    (m'.engine.state = .complete → ∃ plan, Finished plan m'.engine m'.output) := by
  have hstart : Truth m := Ended.truth (.inr (.inr (by rw [hfresh.engine]; exact ⟨rfl, rfl⟩)))
  have h := wiring.meets_run (wiring.step_truth htimed) commands hstart hattends
  refine ⟨fun hrunning hphase => ?_, fun hrunning hpoll => ?_, h.complete⟩
  · obtain ⟨plan, hplan⟩ := h.running hrunning
    rw [if_neg hphase] at hplan
    exact ⟨plan, hplan⟩
  · have houtcome := wiring.running_outcome htimed h hrunning (hpoll rfl)
    have hreport := wiring.report_reads.engine (wiring.advance (wiring.run m commands)).2
    have hstate : (wiring.poll (wiring.run m commands)).2.engine =
        (wiring.advance (wiring.run m commands)).2.engine := hreport
    rw [hstate]
    exact houtcome.2

end Wiring

/-- A poll that comes at the planned end finds the job in its first event and completes
it: the tone after the gap was never sent. -/
theorem late_poll_completes :
    let launched := Bench.wiring.run Bench.armed [Bench.reach 1000000000 Bench.armed, .poll]
    let ended := Bench.wiring.run launched [Bench.reach 1300000000 launched, .poll]
    ended.engine.state = .complete ∧ ended.output.events = [(0, 1000000000)] ∧
      ended.engine.plan.any (fun plan => (plan.tone 2).isSome) = true := by decide +kernel

/-- Polls of the bench at these times. -/
def Bench.polls : List UInt64 → Machine Bench → List (Command Bench)
  | [], _ => []
  | now :: rest, m =>
    Bench.reach now m :: .poll ::
      Bench.polls rest (Bench.wiring.run m [Bench.reach now m, .poll])

/-- The bench job, polled at each boundary. -/
def Bench.keyed : List (Command Bench) :=
  .prepare Bench.job :: .schedule Bench.job 1000000000 Bench.conditions ::
    Bench.polls [1000000000, 1100000000, 1200000000, 1300000000] Bench.armed

theorem completion_truthful_keyed :
    let m := Bench.wiring.run { world := {} } Bench.keyed
    m.engine.state = .complete ∧ ∃ plan, Finished plan m.engine m.output := by
  have hcomplete : (Bench.wiring.run { world := {} } Bench.keyed).engine.state = .complete := by
    decide +kernel
  have hattends : Bench.wiring.Meets Bench.wiring.attends { world := {} } Bench.keyed := by
    decide +kernel
  exact ⟨hcomplete, (Bench.wiring.completion_truthful (fun _ => UInt64.le_refl _) ⟨rfl, rfl⟩
    Bench.keyed hattends).2.2 hcomplete⟩

end WsprryPico.Rf.Si5351
