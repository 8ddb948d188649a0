import WsprryPico.Rf.Si5351.Calls

/-!
# What the passive functions of the Si5351 engine keep

Most functions of the engine neither turn an output on nor enter an event of a job,
leave `inhibited_` and `epoch_` as they are, and keep the state or end the job.
`Steady I` says that the invariant `I` rests on nothing else, and each of these
functions keeps such an invariant.
-/

namespace WsprryPico.Rf.Si5351

open Wtp Lib EngineM

variable {ω : Type}

/-- The calls that neither turn an output on nor enter an event. -/
def Action.passive : Action → Bool
  | .entered _ _ => false
  | a => !a.enabling

/-- The engine executes no job. -/
def Engine.off (e : Engine) : Prop := e.state = .idle ∨ e.state = .failed ∨ e.state = .missed

/-- The invariant is kept by what the passive functions are made of. -/
structure Steady (wiring : Wiring ω) (I : Machine ω → Prop) : Prop where
  calls {a : Action} {c : EngineM ω Bool} (hc : Calls wiring a c) (ha : a.passive = true) :
    Keeps I c
  reads {α : Type} {c : EngineM ω α} (hc : Reads c) : Keeps I c
  updates {f : Engine → Engine}
    (hf : ∀ e, (f e).inhibited = e.inhibited ∧ (f e).epoch = e.epoch ∧
      ((f e).state = e.state ∨ (f e).off)) :
    Keeps I (update f : EngineM ω Unit)

namespace Steady

variable {wiring : Wiring ω} {I : Machine ω → Prop} (h : Steady wiring I) {deadline : UInt64}
include h

/-! ## Shutdown -/

theorem notify {a : Action} {f : EngineM ω Unit} (hf : Reads f) (ha : a.passive = true) :
    Keeps I (wiring.notify a f) :=
  (h.calls (wiring.perform_reads (hf.bind_reads fun _ => .pure true)) ha).bind fun _ => .pure ()

theorem nowNs : Keeps I wiring.nowNs := h.reads wiring.nowNs_reads

theorem amplifierCall {a : Action} (ha : a.passive = true)
    (f : Amplifier ω → AmplifierEnable → ω → Bool × AmplifierEnable × ω) :
    Keeps I (wiring.amplifierCall a f) := by
  unfold Wiring.amplifierCall
  split
  · exact .pure true
  · exact h.calls (wiring.perform_reads (reads_onAmplifier _)) ha

theorem filterCall {a : Action} (ha : a.passive = true)
    (f : FilterBank ω → FilterSelector → ω → Bool × FilterSelector × ω) :
    Keeps I (wiring.filterCall a f) := by
  unfold Wiring.filterCall
  split
  · exact .pure true
  · exact h.calls (wiring.perform_reads (reads_onFilters _)) ha

theorem initializeEngine : Keeps I wiring.initializeEngine := by
  refine (h.calls (wiring.perform_reads (reads_onWorld _)) rfl).bind fun opened => ?_
  refine (h.updates fun e => ?_).bind fun _ => .pure opened
  split
  · exact ⟨rfl, rfl, .inl rfl⟩
  · exact ⟨rfl, rfl, .inr (.inr (.inl rfl))⟩

theorem cancelCutoff : Keeps I wiring.cancelCutoff := h.notify (reads_onWorld _) rfl

theorem silenceClocks : Keeps I (wiring.silenceClocks deadline) := by
  refine (h.reads reads_machine).bind fun m => .ite (fun _ => ?_) fun _ =>
    h.calls (wiring.quiesce_calls deadline) rfl
  refine (h.calls (wiring.transmitEnabled_calls false deadline) rfl).bind fun transmit => ?_
  refine (h.calls (wiring.referenceEnabled_calls false deadline) rfl).bind fun reference => ?_
  exact (h.reads reads_machine).bind fun m => .ite
    (fun _ => h.calls (wiring.quiesce_calls deadline) rfl) fun _ => .pure _

theorem shutDown : Keeps I (wiring.shutDown deadline) := by
  refine h.initializeEngine.bind fun opened => ?_
  refine h.cancelCutoff.bind fun _ => ?_
  refine (h.calls (wiring.setGate_calls false) rfl).bind fun gate => ?_
  refine (h.amplifierCall rfl _).bind fun amplifier => ?_
  refine (h.calls (wiring.pauseReference_calls deadline) rfl).bind fun reference => ?_
  refine Keeps.bind (.ite (fun _ => h.silenceClocks) fun _ => .pure _) fun clocks => ?_
  exact Keeps.bind (.ite (fun _ => h.filterCall rfl _) fun _ => .pure _) fun filters => .pure _

theorem observeCompletion : Keeps I wiring.observeCompletion := by
  have hrf : Keeps I wiring.observeRfOff :=
    (h.reads reads_engine).bind fun e => .ite (fun _ => h.nowNs.bind fun now =>
      h.updates fun _ => ⟨rfl, rfl, .inl rfl⟩) fun _ => .pure _
  have hdisable : Keeps I wiring.observeDisable :=
    (h.reads reads_engine).bind fun e => .ite (fun _ => h.nowNs.bind fun now =>
      h.updates fun _ => ⟨rfl, rfl, .inl rfl⟩) fun _ => .pure _
  exact hrf.bind fun _ => .bind (h.updates fun _ => ⟨rfl, rfl, .inl rfl⟩) fun _ => hdisable

theorem disable : Keeps I (wiring.disable deadline) := by
  have hstopped : Keeps I (wiring.stopped deadline) :=
    h.shutDown.guarded ((h.reads wiring.outputActive_reads).bind fun _ => .pure _) (.pure _)
  refine (h.reads reads_engine).bind fun e => hstopped.guarded ?_ ?_
  · refine Keeps.bind (.ite (fun _ => h.reads (reads_onIndicator _)) fun _ => .pure _)
      fun _ => ?_
    refine Keeps.bind (.ite (fun _ => h.observeCompletion) fun _ => .pure _) fun _ => ?_
    exact .bind (h.updates fun _ => ⟨rfl, rfl, .inr (.inl rfl)⟩) fun _ => .pure true
  · exact .bind (h.updates fun _ => ⟨rfl, rfl, .inr (.inr (.inl rfl))⟩) fun _ => .pure false

theorem fail (reason : String) (outcome : EngineState)
    (houtcome : outcome = .failed ∨ outcome = .missed) : Keeps I (wiring.fail reason outcome) := by
  refine h.nowNs.bind fun now => h.disable.bind fun stopped => ?_
  refine .bind (h.updates fun _ => ⟨rfl, rfl, .inr ?_⟩) fun _ => .pure false
  cases stopped with
  | false => exact .inr (.inl rfl)
  | true => exact .inr houtcome

theorem orFail {c k : EngineM ω Bool} {reason : String} (hc : Keeps I c) (hk : Keeps I k) :
    Keeps I (do
      if !(← c) then
        return ← wiring.fail reason
      k) :=
  hc.guarded hk ((h.fail reason .failed (.inl rfl)).bind fun r => .pure r)

/-! ## Preparation -/

theorem setFrequencyCorrectionPpb (value : Int) :
    Keeps I (Wiring.setFrequencyCorrectionPpb value : EngineM ω Bool) :=
  (h.reads reads_engine).bind fun _ => .ite (fun _ => .pure _) fun _ =>
    .bind (h.updates fun _ => ⟨rfl, rfl, .inl rfl⟩) fun _ => .pure _

theorem acquireLock (attempts : Nat) : Keeps I (wiring.acquireLock deadline attempts) := by
  induction attempts with
  | zero => exact .pure false
  | succ attempts ih =>
    refine h.nowNs.bind fun now => .ite (fun _ => .pure _) fun _ => ?_
    refine (h.reads reads_machine).bind fun m => .ite (fun _ => .pure _) fun _ => ?_
    exact (h.calls (wiring.locked_calls deadline) rfl).guarded (.pure _) ih

theorem program (plan : Plan) : Keeps I (wiring.program plan) := by
  have hmask : ∀ deadline, Keeps I (wiring.maskOutput deadline) := fun deadline =>
    (h.reads reads_machine).bind fun m =>
      .ite (fun _ => h.calls (wiring.transmitEnabled_calls false deadline) rfl) fun _ =>
        h.calls (wiring.quiesce_calls deadline) rfl
  have hprime : ∀ deadline, Keeps I (wiring.lockAndPrime deadline) := fun deadline => by
    refine (h.acquireLock 128).guarded ?_ (.pure _)
    refine (h.reads reads_machine).bind fun m => .ite (fun _ => .pure _) fun _ => ?_
    refine h.nowNs.bind fun now => .ite (fun _ => .pure _) fun _ => ?_
    exact h.calls (wiring.primeTransmit_calls deadline) rfl
  refine h.nowNs.bind fun now => ?_
  refine h.orFail (h.calls (wiring.pauseReference_calls _) rfl) ?_
  refine h.orFail (h.calls (wiring.setGate_calls false) rfl) ?_
  refine h.orFail (hmask _) ?_
  exact h.orFail (h.calls (wiring.configure_calls plan _) rfl) (h.orFail (hprime _) (.pure _))

theorem prepare (job : Job) : Keeps I (wiring.prepare job) := by
  have hcover : ∀ tones, Keeps I (wiring.coverTones tones) := fun tones => by
    unfold Wiring.coverTones
    split
    · exact .pure _
    · exact h.reads (reads_onFilters _)
  have hhardware : ∀ candidate, Keeps I (wiring.prepareHardware candidate) := fun candidate => by
    refine (hcover _).guarded ?_ (.bind (h.updates fun _ => ⟨rfl, rfl, .inl rfl⟩) fun _ => .pure _)
    refine h.initializeEngine.guarded ((h.program _).guarded ?_ (.pure _)) (.pure _)
    exact .bind (h.updates fun _ => ⟨rfl, rfl, .inl rfl⟩) fun _ => .pure _
  refine (h.reads reads_engine).bind fun e => .ite (fun _ => ?_) fun _ => ?_
  · exact .bind (h.updates fun _ => ⟨rfl, rfl, .inl rfl⟩) fun _ => .pure _
  · split
    · exact .bind (h.updates fun _ => ⟨rfl, rfl, .inl rfl⟩) fun _ => .pure _
    · exact (hhardware _).guarded (.pure _) (.pure _)

/-! ## Background work -/

theorem suspendBackground : Keeps I (wiring.suspendBackground deadline) := by
  have hactive : Keeps I wiring.outputActive := h.reads wiring.outputActive_reads
  have hquieted : Keeps I (wiring.quieted deadline) :=
    (h.calls (wiring.pauseReference_calls deadline) rfl).guarded (hactive.bind fun _ => .pure _)
      (.pure _)
  refine (h.reads reads_engine).bind fun e => .ite (fun _ => .pure _) fun _ => ?_
  refine hactive.guarded (.pure _) ?_
  refine .bind (h.updates fun _ => ⟨rfl, rfl, .inl rfl⟩) fun _ => ?_
  refine hquieted.guarded (.pure _) ?_
  exact .bind (h.updates fun _ => ⟨rfl, rfl, .inl rfl⟩) fun _ => .pure _

end Steady

end WsprryPico.Rf.Si5351
