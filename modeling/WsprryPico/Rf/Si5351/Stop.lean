import WsprryPico.Rf.Si5351.Chip
import WsprryPico.Rf.Si5351.Steady

/-!
# The stop of the Si5351 engine

`inhibit_output` latches `inhibited_`, and `prepare` and `begin` read the latch;
`poll` does not. `Stopped base` says that the engine is inhibited and that no call
entered in the log after `base` turns an output on. Every function keeps it but
the launch of a job that starts keyed on and the restart after a gap.
-/

namespace WsprryPico.Rf.Si5351

open Wtp Lib EngineM

variable {ω α β : Type}

structure Stopped (base : List Entry) (m : Machine ω) : Prop where
  inhibited : m.engine.inhibited = true
  since : Since base m

section Rules

variable {wiring : Wiring ω} {a : Action} {base : List Entry}

theorem Calls.stopped {c : EngineM ω Bool} (hc : Calls wiring a c) (ha : a.enabling = false) :
    Keeps (Stopped base) c := fun m h =>
  ⟨(congrArg Engine.inhibited (hc m).engine).trans h.inhibited, h.since.trans ((hc m).since ha)⟩

theorem Reads.stopped {c : EngineM ω α} (hc : Reads c) : Keeps (Stopped base) c := fun m h =>
  ⟨(congrArg Engine.inhibited (hc.engine m)).trans h.inhibited, h.since.of_log (hc.log m)⟩

theorem update_stopped {f : Engine → Engine} (hf : ∀ e, (f e).inhibited = e.inhibited) :
    Keeps (Stopped base) (update f : EngineM ω Unit) := fun m h =>
  ⟨(hf m.engine).trans h.inhibited, h.since.of_log rfl⟩

theorem stopped_steady : Steady wiring (Stopped base) where
  calls {a _} hc ha := hc.stopped <| by
    cases a with
    | entered => exact nomatch ha
    | _ => exact (Bool.not_eq_true' _).mp ha
  reads hc := hc.stopped
  updates hf := update_stopped fun e => (hf e).1

end Rules

def Command.isPoll : Command ω → Bool
  | .poll => true
  | _ => false

namespace Wiring

variable (wiring : Wiring ω) {base : List Entry}

theorem steady : Steady wiring (Stopped base) := stopped_steady

theorem notify_stopped {a : Action} {f : EngineM ω Unit} (ha : a.enabling = false)
    (hf : ∀ m, (f m).2.engine = m.engine ∧ (f m).2.log = m.log) :
    Keeps (Stopped base) (wiring.notify a f) := fun m h =>
  ⟨(congrArg Engine.inhibited (hf m).1).trans h.inhibited,
    h.since.trans ⟨[_], congrArg (_ :: ·) (hf m).2, by simpa using ha⟩⟩

/-! ## Start -/

theorem begin_stopped (job : Job) (start : UInt64) :
    Keeps (Stopped base) (wiring.begin job start) := by
  refine engine_bind fun m hm => Triple.ite
    (fun _ => Triple.pure fun s h => by rw [h]; exact hm) fun hadmits => ?_
  refine absurd ?_ hadmits
  unfold startable
  cases m.engine.plan with
  | none => rfl
  | some plan => simp [hm.inhibited]

theorem projectStart_reads (plan : JobPlan) : Reads (wiring.projectStart plan) :=
  reads_engine.bind_reads fun _ => .ite (wiring.nowNs_reads.bind_reads fun _ => .pure _)
    ((reads_onWorld _).bind_reads fun _ => .pure _)

theorem schedule_stopped (job : Job) (start : UInt64) (conditions : LocalStartConditions) :
    Keeps (Stopped base) (wiring.schedule job start conditions) := by
  refine reads_engine.stopped.bind fun e => reads_engine.stopped.bind fun e' => ?_
  split
  · refine .bind (update_stopped fun _ => rfl) fun _ => .ite (fun _ => .pure _) fun _ => ?_
    refine (reads_onWorld _).stopped.bind fun now => ?_
    split
    · exact .pure _
    · refine .bind (update_stopped fun _ => rfl) fun _ => ?_
      refine (wiring.projectStart_reads _).stopped.bind fun projected => ?_
      exact .ite (fun _ => .pure _) fun _ => wiring.begin_stopped job _
  · exact .pure _

/-! ## The chain of an armed job -/

theorem settleFilters_stopped (now : UInt64) :
    Keeps (Stopped base) (wiring.settleFilters now) := by
  have hrelease : Keeps (Stopped base) (wiring.releaseFilters now) :=
    reads_engine.stopped.bind fun e => .ite (fun _ => .pure _) fun _ =>
      wiring.steady.orFail (wiring.steady.filterCall rfl _) <|
        wiring.steady.nowNs.bind fun released =>
          .bind (update_stopped fun _ => rfl) fun _ => .pure _
  have hselect : Keeps (Stopped base) (wiring.selectFilters now) := by
    refine reads_engine.stopped.bind fun e => reads_engine.stopped.bind fun e' => ?_
    split
    · refine .ite (fun _ => .pure _) fun _ => ?_
      refine wiring.steady.orFail (wiring.steady.filterCall rfl _) <|
        wiring.steady.nowNs.bind fun selected => ?_
      exact .bind (update_stopped fun _ => rfl) fun _ => .pure _
    · exact .pure _
  refine .ite (fun _ => .pure _) fun _ => Keeps.guarded hrelease ?_ (.pure _)
  refine Keeps.guarded hselect ?_ (.pure _)
  refine reads_engine.stopped.bind fun e => ?_
  split <;> exact .pure _

theorem leadAmplifier_stopped (now : UInt64) :
    Keeps (Stopped base) (wiring.leadAmplifier now) := by
  have henable : Keeps (Stopped base) (wiring.enableAmplifier now) :=
    reads_engine.stopped.bind fun e => .ite (fun _ => .pure _) fun _ =>
      wiring.steady.orFail (wiring.steady.amplifierCall rfl _) <|
        wiring.steady.nowNs.bind fun enabled => .bind (update_stopped fun _ => rfl) fun _ => .pure _
  refine .ite (fun _ => .pure _) fun _ => Keeps.guarded henable ?_ (.pure _)
  refine reads_engine.stopped.bind fun e => .ite (fun _ => .pure _) fun _ =>
    .ite (fun _ => ?_) fun _ => .pure _
  exact (wiring.steady.fail _ _ (.inr rfl)).bind fun r => .pure r

/-- The launch of a job that starts keyed off turns nothing on. -/
theorem launch_stopped (plan : JobPlan) (hoff : plan.tone 0 = none) :
    Keeps (Stopped base) (wiring.launch plan) := by
  have houtput : Keeps (Stopped base) (wiring.launchOutput plan) := by
    unfold launchOutput
    simp only [hoff, Option.isSome_none, ifNeeded, Bool.false_eq_true, if_false]
    refine wiring.steady.nowNs.bind fun now => wiring.steady.orFail (.pure _) ?_
    refine wiring.steady.nowNs.bind fun completed => reads_engine.stopped.bind fun e => ?_
    refine .ite (fun _ => (wiring.steady.fail _ _ (.inl rfl)).bind fun r => .pure r) fun _ => ?_
    refine wiring.steady.orFail ((wiring.setGate_calls false).stopped rfl) ?_
    refine .bind (update_stopped fun _ => rfl) fun _ => ?_
    refine wiring.steady.orFail ((wiring.armCutoff_calls _).stopped rfl) ?_
    refine .bind (update_stopped fun _ => rfl) fun _ => ?_
    refine .bind (wiring.notify_stopped rfl fun _ => ⟨rfl, rfl⟩) fun _ => ?_
    exact wiring.steady.orFail (.pure _) (.pure _)
  have hrequest : Keeps (Stopped base) wiring.requestLaunch :=
    .ite (fun _ => (reads_onIndicator _).stopped) fun _ => .pure _
  have hverify : Keeps (Stopped base) wiring.verifyAmplifier := by
    unfold verifyAmplifier
    split
    · exact .pure _
    · exact .ite (fun _ => .pure _) fun _ =>
        (wiring.perform_reads (reads_onAmplifier _)).stopped rfl
  refine Keeps.guarded hrequest ?_ (.pure _)
  exact wiring.steady.orFail (wiring.steady.filterCall rfl _) (wiring.steady.orFail hverify houtput)

/-! ## The events of a running job -/

theorem prepareGapTone_stopped (plan : JobPlan) (index : Nat) (deadline : UInt64) :
    Keeps (Stopped base) (wiring.prepareGapTone plan index deadline) := by
  unfold prepareGapTone
  split
  · exact .pure _
  · refine wiring.steady.orFail ((wiring.transmitTone_calls _ deadline).stopped rfl) ?_
    refine wiring.steady.orFail ((wiring.primeTransmit_calls deadline).stopped rfl) ?_
    exact .bind (update_stopped fun _ => rfl) fun _ => .pure _

theorem keyOff_stopped (plan : JobPlan) (index : Nat) (deadline : UInt64) :
    Keeps (Stopped base) (wiring.keyOff plan index deadline) := by
  refine wiring.steady.orFail ((wiring.setGate_calls false).stopped rfl) ?_
  refine wiring.steady.orFail ((wiring.requestTransmitEnabled_calls false deadline).stopped rfl) ?_
  refine wiring.steady.nowNs.bind fun now => .bind (update_stopped fun _ => rfl) fun _ => ?_
  exact wiring.steady.orFail ((wiring.verifyTransmit_calls deadline).stopped rfl)
    (wiring.prepareGapTone_stopped plan _ deadline)

theorem keyOn_stopped (plan : JobPlan) (tone next : Nat) (deadline : UInt64) :
    Keeps (Stopped base) (wiring.keyOn plan (some tone) next deadline) := by
  refine reads_engine.stopped.bind fun e => wiring.steady.orFail ?_ ?_
  · exact .ite (fun _ => (wiring.transmitTone_calls _ deadline).stopped rfl) fun _ => .pure _
  · exact Keeps.guarded (.pure _) (.bind (update_stopped fun _ => rfl) fun _ => .pure _) (.pure _)

/-- Every transition but one out of a gap keeps the output as it is or turns it off. -/
theorem transition_stopped (plan : JobPlan) (index : Nat)
    (h : plan.tone (index - 1) = none → plan.tone index = none) :
    Keeps (Stopped base) (wiring.transition plan index) := by
  refine wiring.steady.nowNs.bind fun now => .ite (fun _ => .pure _) fun _ => ?_
  cases hnext : plan.tone index with
  | none => exact wiring.keyOff_stopped plan index _
  | some next =>
    cases hprevious : plan.tone (index - 1) with
    | none => exact nomatch (h hprevious).symm.trans hnext
    | some tone => exact wiring.keyOn_stopped plan tone next _

theorem finishRf_stopped : Keeps (Stopped base) wiring.finishRf := by
  have hoff : Keeps (Stopped base) wiring.requestFinalOff := by
    refine reads_machine.stopped.bind fun m => .ite (fun _ => .pure _) fun _ => ?_
    refine Keeps.guarded ((wiring.requestTransmitEnabled_calls false _).stopped rfl) ?_ (.pure _)
    exact wiring.steady.nowNs.bind fun now => .bind (update_stopped fun _ => rfl) fun _ => .pure _
  have htail : Keeps (Stopped base) wiring.startTail := by
    refine wiring.steady.nowNs.bind fun now => ?_
    refine wiring.steady.orFail ((wiring.verifyTransmit_calls _).stopped rfl) ?_
    exact wiring.steady.nowNs.bind fun now => .bind (update_stopped fun _ => rfl) fun _ => .pure _
  refine wiring.steady.orFail ((wiring.setGate_calls false).stopped rfl) ?_
  refine wiring.steady.orFail hoff (reads_engine.stopped.bind fun e => ?_)
  refine .ite (fun _ => (wiring.steady.fail _ _ (.inl rfl)).bind fun r => .pure r) fun _ => ?_
  exact .ite (fun _ => .bind (update_stopped fun _ => rfl) fun _ => .pure _) fun _ => htail

theorem pollTail_stopped : Keeps (Stopped base) wiring.pollTail := by
  refine wiring.steady.nowNs.bind fun now => reads_engine.stopped.bind fun e => .ite (fun _ => ?_)
    fun _ => .pure _
  have hrelease : Keeps (Stopped base) wiring.releaseChain :=
    Keeps.guarded (wiring.steady.amplifierCall rfl _) (wiring.steady.filterCall rfl _) (.pure _)
  refine Keeps.guarded hrelease ?_ ((wiring.steady.fail _ _ (.inl rfl)).bind fun r => .pure _)
  exact wiring.steady.nowNs.bind fun disabled => update_stopped fun _ => rfl

/-! ## Poll -/

/-- The start of an armed job, projected in this poll, is reached in it. -/
def startDue (plan : JobPlan) : EngineM ω Bool := do
  let _ ← wiring.nowNs
  match ← wiring.projectStart plan with
  | none => return false
  | some projected => return (← wiring.nowNs) ≥ projected

/-- A poll is due to turn the output on: an armed job that starts keyed on has
reached its start, or a running one the end of a gap. -/
def turnsOn (m : Machine ω) : Prop :=
  ∃ plan, m.engine.plan = some plan ∧
    (m.engine.state = .armed ∧ (plan.tone 0).isSome ∧ (wiring.startDue plan m).1 = true ∨
      m.engine.state = .running ∧ m.engine.phase ≠ .tail ∧
        plan.tone m.engine.event = none ∧ (plan.tone (m.engine.event + 1)).isSome ∧
        (wiring.nowNs m).1 < m.engine.endNs ∧
        (wiring.nowNs m).1 ≥ addSat m.engine.startNs (plan.endNs m.engine.event) ∧
        (wiring.nowNs m).1 ≤
          addSat (addSat m.engine.startNs (plan.endNs m.engine.event)) transitionBudgetNs)

/-- An armed poll from its reading of the clock on. -/
theorem pursue_stopped (plan : JobPlan) {now projected : UInt64}
    (hoff : plan.tone 0 = none ∨ ¬ now ≥ projected) : Keeps (Stopped base) (do
      if !(← wiring.settleFilters now) then
        return
      if !(← wiring.leadAmplifier now) then
        return
      if now ≥ projected then
        let _ ← wiring.launch plan) := by
  have hlaunch : Keeps (Stopped base)
      (if now ≥ projected then do let _ ← wiring.launch plan else return () : EngineM ω Unit) :=
    .ite (fun hdue => (wiring.launch_stopped plan (hoff.resolve_right (absurd hdue ·))).bind
      fun _ => .pure _) fun _ => .pure _
  refine Keeps.guarded (wiring.settleFilters_stopped now) ?_ (.pure _)
  exact Keeps.guarded (wiring.leadAmplifier_stopped now) hlaunch (.pure _)

theorem idle_rests {m : Machine ω} (h : m.engine.state = .idle) : ¬ wiring.turnsOn m := by
  rintro ⟨plan, -, ⟨harmed, -⟩ | ⟨hrunning, -⟩⟩
  · cases h.symm.trans harmed
  · cases h.symm.trans hrunning

theorem pollArmed_stopped (plan : JobPlan) {m : Machine ω} (h : Stopped base m)
    (hoff : (plan.tone 0).isSome → (wiring.startDue plan m).1 = false) :
    Stopped base (wiring.pollArmed plan m).2 := by
  have hread := wiring.steady.nowNs m h
  rcases hn : wiring.nowNs m with ⟨now, m₁⟩
  rw [hn] at hread
  have hproject := (wiring.projectStart_reads plan).stopped _ hread
  rcases hp : wiring.projectStart plan m₁ with ⟨projected, m₂⟩
  rw [hp] at hproject
  unfold startDue at hoff
  simp only [bind, StateT.bind, hn, hp] at hoff
  unfold pollArmed
  simp only [bind, StateT.bind, hn, hp]
  cases projected with
  | none => exact ((wiring.steady.fail _ _ (.inr rfl)).bind fun _ => .pure ()) m₂ hproject
  | some projected =>
    refine wiring.pursue_stopped plan ?_ _
      (wiring.steady.nowNs _ (update_stopped (f := fun e => { e with startNs := projected })
        (fun _ => rfl) _ hproject))
    cases hfirst : plan.tone 0 with
    | none => exact .inl rfl
    | some tone =>
      rw [hfirst] at hoff
      exact .inr (of_decide_eq_false (hoff rfl))

theorem enter_stopped (plan : JobPlan) (index : Nat) (now : UInt64)
    (h : plan.tone (index - 1) = none → plan.tone index = none) : Keeps (Stopped base) (do
      if ← wiring.transition plan index then
        wiring.notify (.entered index now) (return ())
        update fun e => { e with event := e.event + 1 }) := by
  refine Keeps.guarded (wiring.transition_stopped plan index h) ?_ (.pure _)
  refine .bind (wiring.notify_stopped rfl fun _ => ⟨rfl, rfl⟩) fun _ => ?_
  exact update_stopped fun _ => rfl

theorem pollRf_stopped (plan : JobPlan) {m : Machine ω} (h : Stopped base m)
    (hplan : m.engine.plan = some plan) (hstate : m.engine.state = .running)
    (hphase : m.engine.phase ≠ .tail) (hoff : ¬ wiring.turnsOn m) :
    Stopped base (wiring.pollRf plan m).2 := by
  have hread := wiring.steady.nowNs m h
  have hengine := wiring.nowNs_reads.engine m
  unfold turnsOn at hoff
  rcases hn : wiring.nowNs m with ⟨now, m₁⟩
  rw [hn] at hread hengine hoff
  unfold pollRf
  simp only [bind, StateT.bind, hn, engine]
  rw [hengine]
  by_cases hend : now ≥ m.engine.endNs
  · rw [if_pos hend]
    exact (wiring.finishRf_stopped.bind fun _ => .pure ()) m₁ hread
  rw [if_neg hend]
  by_cases hboundary : now ≥ addSat m.engine.startNs (plan.endNs m.engine.event)
  case neg =>
    rw [if_neg hboundary]
    exact hread
  rw [if_pos hboundary]
  split
  · exact ((wiring.steady.fail _ _ (.inl rfl)).bind fun _ => .pure ()) m₁ hread
  · rename_i hlate
    rw [Bool.or_eq_true, not_or, decide_eq_true_iff] at hlate
    refine wiring.enter_stopped plan _ now (fun hgap => ?_) m₁ hread
    by_contra hon
    refine hoff ⟨plan, hplan, .inr ⟨hstate, hphase, hgap, Option.isSome_iff_ne_none.mpr hon, ?_⟩⟩
    exact ⟨UInt64.not_le.mp hend, hboundary, UInt64.not_lt.mp hlate.1⟩

theorem poll_stopped {m : Machine ω} (h : Stopped base m) (hoff : ¬ wiring.turnsOn m) :
    Stopped base (wiring.poll m).2 := by
  have hadvance : Triple (· = m) wiring.advance fun _ => Stopped base := by
    refine engine_bind fun m' hm => ?_
    subst hm
    split
    · refine engine_bind fun m' hm => ?_
      subst hm
      rintro _ rfl
      refine wiring.notify_stopped ?_ (fun _ => ⟨rfl, rfl⟩) _ h
      simp [Action.enabling, h.inhibited]
    · rename_i plan hstate hplan
      rintro _ rfl
      refine wiring.pollArmed_stopped plan h fun hon => ?_
      by_contra hdue
      exact hoff ⟨plan, hplan, .inl ⟨hstate, hon, by simpa using hdue⟩⟩
    · rename_i plan hstate hplan
      rintro _ rfl
      split
      · exact wiring.pollTail_stopped _ h
      · exact wiring.pollRf_stopped plan h hplan hstate ‹_› hoff
    · rintro _ rfl
      exact (wiring.steady.nowNs.bind fun _ => .pure ()) _ h
  exact wiring.report_reads.stopped _ (hadvance m rfl)

/-! ## A run -/

theorem inhibitOutput_stopped {m : Machine ω} (h : Since base m) :
    Stopped base (wiring.inhibitOutput m).2 := by
  have hlatched : Stopped base (update (fun e => { e with inhibited := true }) m).2 :=
    ⟨rfl, h.of_log rfl⟩
  have hcall : Keeps (Stopped base) wiring.inhibitReference :=
    wiring.notify_stopped rfl fun _ => ⟨rfl, rfl⟩
  exact hcall _ hlatched

/-- The stop is honoured in a step: a poll is not due to turn the output on. -/
def honours (command : Command ω) (m : Machine ω) : Prop := command.isPoll → ¬ wiring.turnsOn m

theorem step_stopped {command : Command ω} {m : Machine ω} (h : Stopped base m)
    (hhonours : wiring.honours command m) : Stopped base (wiring.step command m) := by
  cases command with
  | setFrequencyCorrectionPpb value => exact wiring.steady.setFrequencyCorrectionPpb value m h
  | prepare job => exact wiring.steady.prepare job m h
  | schedule job start conditions => exact wiring.schedule_stopped job start conditions m h
  | begin job start => exact wiring.begin_stopped job start m h
  | poll => exact wiring.poll_stopped h (hhonours rfl)
  | disable deadline => exact wiring.steady.disable m h
  | inhibitOutput => exact wiring.inhibitOutput_stopped h.since
  | suspendBackground deadline => exact wiring.steady.suspendBackground m h
  | resumeBackground => exact ⟨h.inhibited, h.since.of_log rfl⟩
  | elapse world acknowledged => exact ⟨h.inhibited, h.since.of_log rfl⟩

/-- Every step of a run meets `P` where it is taken. -/
def Meets (P : Command ω → Machine ω → Prop) : Machine ω → List (Command ω) → Prop
  | _, [] => True
  | m, command :: rest => P command m ∧ Meets P (wiring.step command m) rest

instance decidableMeets (P : Command ω → Machine ω → Prop) [∀ command m, Decidable (P command m)] :
    ∀ (m : Machine ω) (commands : List (Command ω)), Decidable (wiring.Meets P m commands)
  | _, [] => .isTrue trivial
  | m, command :: rest =>
    @instDecidableAnd _ _ _ (decidableMeets P (wiring.step command m) rest)

theorem meets_run {P : Command ω → Machine ω → Prop} {I : Machine ω → Prop}
    (hstep : ∀ command m, I m → P command m → I (wiring.step command m)) :
    ∀ (commands : List (Command ω)) {m : Machine ω}, I m → wiring.Meets P m commands →
      I (wiring.run m commands)
  | [], _, h, _ => h
  | command :: rest, _, h, hmeets => meets_run hstep rest (hstep command _ h hmeets.1) hmeets.2

end Wiring

/-! ## A bench -/

/-- A chip, the timer and the gate. -/
structure Bench where
  memory : Memory := {}
  now : UInt64 := 0
  gate : Bool := false

namespace Bench

def bus : Bus Bench where
  read reg count deadline w :=
    let (answer, memory) := Memory.bus.read reg count deadline w.memory
    (answer, { w with memory := memory })
  write reg bytes deadline w :=
    let (done, memory) := Memory.bus.write reg bytes deadline w.memory
    (done, { w with memory := memory })

def platform : ExecutionPlatform Bench where
  nowNs w := (w.now, w)
  initializePlatform w := (true, w)
  setGate active w := (true, { w with gate := active })
  gateActiveOrUnknown w := (w.gate, w)
  armCutoff _ w := (true, w)
  cancelCutoff w := w
  pauseReference _ c := (true, c)
  serviceReference _ c := c
  inhibitReference w := w

def snapshot (w : Bench) : ClockSnapshot × Bench :=
  ({ state := .synchronized
     utcNowNs := 1000000000000 + w.now
     monotonicNowNs := w.now
     uncertaintyNs := 1000
     leap := .normal }, w)

def configuration : Configuration := { referenceHz := 25000000, reference := .externalXa }

/-- 14.5 MHz from the 899 MHz of the fixed PLL. -/
def tone : Tone where
  requestedNhz := 14500000000000000
  realizedNhz := 14500000000000000
  multisynth := { integer := 62, p1 := 7424, registers := #v[0, 1, 0, 29, 0, 0, 0, 0] }
  control := 0x4c

def plan : Plan where
  configuration := configuration
  transmitPll :=
    { integer := 35, numerator := 24, denominator := 25, p1 := 4090, p2 := 22, p3 := 25
      registers := #v[0, 25, 0, 15, 250, 0, 0, 22] }
  tones := [tone]
  loopbackPll := none
  loopback := none

/-- The planner at the one frequency of the bench. -/
def synthesis : Synthesis where
  plan config frequencies correction :=
    if config = configuration ∧ frequencies = [tone.requestedNhz] ∧ correction = 0 then .ok plan
    else .error "unsupported_frequency_or_quantization"
  validPlan supplied := supplied = plan
  validReferencePlan _ := false

def wiring : Wiring Bench where
  synthesis := synthesis
  configuration := configuration
  engineeringAllowed := true
  ordinaryQualified := false
  platform := platform
  bus := bus
  snapshot := snapshot
  indicated := false
  amplifier := none
  filters := none
  time := Bench.now

/-- A tone, a gap and the tone again, 100 ms each. -/
def job : Job where
  jobId := "11111111111111111111111111111111"
  mode := "qrss"
  totalDurationNs := 300000000
  events :=
    { events :=
        [⟨0, 100000000, true, some tone.requestedNhz⟩, ⟨100000000, 100000000, false, none⟩,
         ⟨200000000, 100000000, true, some tone.requestedNhz⟩] }

def conditions : LocalStartConditions where
  clock := true
  startUtcNs := 1001000000000
  maximumUncertaintyNs := 1000000

/-- The engine armed for second 1. -/
def armed : Machine Bench :=
  wiring.run { world := {} } [.prepare job, .schedule job 1000000000 conditions]

/-- The board at time `now`. -/
def reach (now : UInt64) (m : Machine Bench) : Command Bench :=
  .elapse { m.world with now := now } m.indicator.acknowledged

/-- The engine stopped while it is armed. -/
def inhibited : Machine Bench := (wiring.inhibitOutput armed).2

end Bench

end WsprryPico.Rf.Si5351
