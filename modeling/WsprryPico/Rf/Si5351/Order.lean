import WsprryPico.Rf.Si5351.Steady

/-!
# The order of the Si5351 chain

What the log says about the chain before the output: the filters of a job are
released and selected once, its amplifier is activated once (`Stages`), and a
launch finds them settled (`Cleared`). An exit to Missed or Failed ends in the
calls of a shutdown (`Shut`), whatever they answer: the gate, the amplifier, the
reference, the clocks where the platform opened, and the filters only after the
clocks were confirmed off.
-/

namespace WsprryPico.Rf.Si5351

open Wtp Lib EngineM

variable {ω α β : Type}

/-- A call with its answer. -/
def Entry.call (x : Entry) : Action × Bool := (x.action, x.ok)

/-- `c` enters in the log calls that `T` allows with its result, oldest first. -/
def Traces (c : EngineM ω α) (T : α → List (Action × Bool) → Prop) : Prop :=
  ∀ m, ∃ trace, (c m).2.log = trace ++ m.log ∧ T (c m).1 (trace.reverse.map Entry.call)

namespace Traces

variable {c : EngineM ω α} {T : α → List (Action × Bool) → Prop}

theorem bind {k : α → EngineM ω β} {U : α → β → List (Action × Bool) → Prop} (hc : Traces c T)
    (hk : ∀ x, Traces (k x) (U x)) :
    Traces (c >>= k) fun y calls =>
      ∃ x first rest, calls = first ++ rest ∧ T x first ∧ U x y rest := by
  intro m
  obtain ⟨trace, hlog, ht⟩ := hc m
  obtain ⟨trace', hlog', hu⟩ := hk (c m).1 (c m).2
  refine ⟨trace' ++ trace, ?_, (c m).1, _, _, ?_, ht, hu⟩
  · rw [List.append_assoc, ← hlog]
    exact hlog'
  · rw [List.reverse_append, List.map_append]

theorem weaken {T' : α → List (Action × Bool) → Prop} (hc : Traces c T)
    (h : ∀ x calls, T x calls → T' x calls) : Traces c T' := fun m =>
  (hc m).imp fun _ ht => ⟨ht.1, h _ _ ht.2⟩

theorem ite {p : Prop} [Decidable p] {d : EngineM ω α} (hc : p → Traces c T)
    (hd : ¬ p → Traces d T) : Traces (if p then c else d) T := by
  split
  · exact hc ‹_›
  · exact hd ‹_›

theorem after {k : α → EngineM ω β} {U : β → List (Action × Bool) → Prop}
    (hc : Traces c fun _ calls => calls = []) (hk : ∀ x, Traces (k x) U) :
    Traces (c >>= k) U := by
  refine (hc.bind hk).weaken fun y calls h => ?_
  obtain ⟨_, _, rest, rfl, rfl, hu⟩ := h
  exact hu

end Traces

theorem Reads.traces {c : EngineM ω α} (hc : Reads c) : Traces c fun _ calls => calls = [] :=
  fun m => ⟨[], hc.log m, rfl⟩

theorem Calls.traces {wiring : Wiring ω} {a : Action} {c : EngineM ω Bool}
    (hc : Calls wiring a c) : Traces c fun ok calls => calls = [(a, ok)] :=
  fun m => ⟨[_], (hc m).log, rfl⟩

theorem traces_pure (x : α) :
    Traces (pure x : EngineM ω α) fun y calls => y = x ∧ calls = [] :=
  fun _ => ⟨[], rfl, rfl, rfl⟩

theorem traces_update (f : Engine → Engine) :
    Traces (update f : EngineM ω Unit) fun _ calls => calls = [] :=
  fun _ => ⟨[], rfl, rfl⟩

/-- The calls that turn the clocks off, and whether they are confirmed off. -/
inductive ClocksOff : List (Action × Bool) → Bool → Prop where
  | outputs (transmit reference : Bool) :
      ClocksOff [(.transmitEnabled false, transmit), (.referenceEnabled false, reference)]
        (transmit && reference)
  | chip (quiesced : Bool) : ClocksOff [(.quiesce, quiesced)] quiesced
  | both (transmit reference quiesced : Bool) (failed : (transmit && reference) = false) :
      ClocksOff [(.transmitEnabled false, transmit), (.referenceEnabled false, reference),
        (.quiesce, quiesced)] quiesced

/-- The calls of a shutdown, oldest first. -/
structure Shutdown (wiring : Wiring ω) (calls : List (Action × Bool)) : Prop where
  shape : ∃ opened gate reference clocksOff amplifier clocks filters,
    calls = [(.initializePlatform, opened), (.cancelCutoff, true), (.setGate false, gate)] ++
      amplifier ++ [(.pauseReference, reference)] ++ clocks ++ filters ∧
    (if wiring.amplifier.isSome then ∃ done, amplifier = [(.amplifier false, done)]
      else amplifier = []) ∧
    (if opened then ClocksOff clocks clocksOff else clocks = [] ∧ clocksOff = false) ∧
    (filters = [] ∨ clocksOff = true ∧ ∃ done, filters = [(.filters false, done)])

namespace Wiring

variable (wiring : Wiring ω)

theorem notify_traces {a : Action} {f : EngineM ω Unit} (hf : Traces f fun _ calls => calls = []) :
    Traces (wiring.notify a f) fun _ calls => calls = [(a, true)] := by
  intro m
  obtain ⟨trace, hlog, ht⟩ := hf m
  have htrace : trace = [] := by simpa using ht
  subst htrace
  exact ⟨[_], congrArg (_ :: ·) hlog, rfl⟩

theorem amplifierCall_traces (a : Action)
    (f : Amplifier ω → AmplifierEnable → ω → Bool × AmplifierEnable × ω) :
    Traces (wiring.amplifierCall a f) fun ok calls =>
      if wiring.amplifier.isSome then calls = [(a, ok)] else calls = [] := by
  unfold amplifierCall
  cases wiring.amplifier with
  | none => exact (traces_pure true).weaken fun _ _ h => h.2
  | some amplifier => exact (wiring.perform_reads (reads_onAmplifier _)).traces

theorem filterCall_traces (a : Action)
    (f : FilterBank ω → FilterSelector → ω → Bool × FilterSelector × ω) :
    Traces (wiring.filterCall a f) fun ok calls => calls = [] ∨ calls = [(a, ok)] := by
  unfold filterCall
  cases wiring.filters with
  | none => exact (traces_pure true).weaken fun _ _ h => .inl h.2
  | some bank => exact (wiring.perform_reads (reads_onFilters _)).traces.weaken fun _ _ h => .inr h

theorem initializeEngine_traces :
    Traces wiring.initializeEngine fun ok calls => calls = [(.initializePlatform, ok)] := by
  have hopen := (wiring.perform_reads (a := .initializePlatform)
    (reads_onWorld wiring.platform.initializePlatform)).traces
  refine (hopen.bind fun opened => (traces_update _).after fun _ =>
    traces_pure opened).weaken fun ok calls h => ?_
  obtain ⟨opened, first, rest, rfl, rfl, rfl, rfl⟩ := h
  rfl

theorem silenceClocks_traces (deadline : UInt64) :
    Traces (wiring.silenceClocks deadline) fun off calls => ClocksOff calls off := by
  refine reads_machine.traces.after fun m => .ite (fun _ => ?_) fun _ => ?_
  · have htransmit := (wiring.transmitEnabled_calls false deadline).traces
    have hreference := (wiring.referenceEnabled_calls false deadline).traces
    refine (htransmit.bind fun transmit => hreference.bind fun reference =>
      reads_machine.traces.after fun m => Traces.ite
        (T := fun off calls => calls = [] ∧ off = (transmit && reference) ∨
          (transmit && reference) = false ∧ calls = [(.quiesce, off)])
        (fun hc => ?_) fun _ => ?_).weaken fun off calls h => ?_
    · have hfailed : (transmit && reference) = false := by
        rw [Bool.and_eq_true, Bool.not_eq_true'] at hc
        exact hc.1
      exact (wiring.quiesce_calls deadline).traces.weaken fun _ _ h => .inr ⟨hfailed, h⟩
    · exact (traces_pure _).weaken fun _ _ h => .inl ⟨h.2, h.1⟩
    · obtain ⟨transmit, _, _, rfl, rfl, reference, _, rest, rfl, rfl, h⟩ := h
      rcases h with ⟨rfl, rfl⟩ | ⟨hfailed, rfl⟩
      · exact .outputs transmit reference
      · exact .both transmit reference off hfailed
  · exact (wiring.quiesce_calls deadline).traces.weaken fun off calls h => h ▸ .chip off

theorem clocksOff_traces (opened : Bool) (deadline : UInt64) :
    Traces (wiring.clocksOff opened deadline) fun off calls =>
      if opened then ClocksOff calls off else calls = [] ∧ off = false := by
  cases opened with
  | false => exact (traces_pure false).weaken fun _ _ h => ⟨h.2, h.1⟩
  | true => exact wiring.silenceClocks_traces deadline

theorem filtersOff_traces (off : Bool) :
    Traces (wiring.filtersOff off) fun _ calls =>
      calls = [] ∨ off = true ∧ ∃ done, calls = [(.filters false, done)] := by
  cases off with
  | false => exact (traces_pure _).weaken fun _ _ h => .inl h.2
  | true =>
    exact (wiring.filterCall_traces _ _).weaken fun done _ h => h.imp_right fun h => ⟨rfl, done, h⟩

theorem shutDown_traces (deadline : UInt64) :
    Traces (wiring.shutDown deadline) fun _ calls => Shutdown wiring calls := by
  have hcancel := wiring.notify_traces (a := .cancelCutoff)
    (reads_onWorld fun w => ((), wiring.platform.cancelCutoff w)).traces
  refine (wiring.initializeEngine_traces.bind fun opened => hcancel.bind fun _ =>
    (wiring.setGate_calls false).traces.bind fun gate =>
    (wiring.amplifierCall_traces (.amplifier false) (·.deactivate)).bind fun amplifier =>
    (wiring.pauseReference_calls deadline).traces.bind fun reference =>
    (wiring.clocksOff_traces opened deadline).bind fun off => (wiring.filtersOff_traces off).bind
      fun filters => traces_pure _).weaken fun _ calls h => ?_
  obtain ⟨opened, _, _, rfl, rfl, _, _, _, rfl, rfl, gate, _, _, rfl, rfl, done, amplifier, _, rfl,
    ha, reference, _, _, rfl, rfl, off, clocks, _, rfl, hc, _, filters, _, rfl, hf, _, rfl⟩ := h
  refine ⟨opened, gate, reference, off, amplifier, clocks, filters, by simp, ?_, hc, hf⟩
  by_cases hsome : wiring.amplifier.isSome
  · rw [if_pos hsome] at ha ⊢
    exact ⟨done, ha⟩
  · rw [if_neg hsome] at ha ⊢
    exact ha

theorem stopped_traces (deadline : UInt64) :
    Traces (wiring.stopped deadline) fun _ calls => Shutdown wiring calls := by
  refine ((wiring.shutDown_traces deadline).bind (U := fun _ _ calls => calls = []) fun off =>
    .ite (fun _ => (Reads.pure _).traces) fun _ =>
      (wiring.outputActive_reads.bind_reads fun _ => .pure _).traces).weaken fun ok calls h => ?_
  obtain ⟨off, first, rest, rfl, hs, rfl⟩ := h
  rwa [List.append_nil]

theorem observeCompletion_traces :
    Traces wiring.observeCompletion fun _ calls => calls = [] := by
  have hnow := wiring.nowNs_reads.traces
  have hrf : Traces wiring.observeRfOff fun _ calls => calls = [] :=
    reads_engine.traces.after fun e =>
      .ite (fun _ => hnow.after fun now => traces_update _) fun _ => (Reads.pure _).traces
  have hdisable : Traces wiring.observeDisable fun _ calls => calls = [] :=
    reads_engine.traces.after fun e =>
      .ite (fun _ => hnow.after fun now => traces_update _) fun _ => (Reads.pure _).traces
  exact hrf.after fun _ => (traces_update _).after fun _ => hdisable

theorem disable_traces (deadline : UInt64) :
    Traces (wiring.disable deadline) fun _ calls => Shutdown wiring calls := by
  have hindicator : Traces wiring.indicatorInactive fun _ calls => calls = [] :=
    (Reads.ite (reads_onIndicator _) (.pure _)).traces
  have hobserve : ∀ needed : Bool,
      Traces (onlyIf needed wiring.observeCompletion) fun _ calls => calls = [] := fun needed =>
    .ite (fun _ => wiring.observeCompletion_traces) fun _ => (Reads.pure _).traces
  refine reads_engine.traces.after fun e =>
    ((wiring.stopped_traces deadline).bind (U := fun _ _ calls => calls = []) fun off =>
      .ite (fun _ => ?_) fun _ => ?_).weaken fun ok calls h => ?_
  · exact (traces_update _).after fun _ => (Reads.pure _).traces
  · exact hindicator.after fun _ => (hobserve _).after fun _ =>
      (traces_update _).after fun _ => (Reads.pure _).traces
  · obtain ⟨off, first, rest, rfl, hs, rfl⟩ := h
    rwa [List.append_nil]

end Wiring

/-- The timer does not go back, and a reading of it lies between the times around
the reading. -/
structure Ticks (wiring : Wiring ω) : Prop where
  reads (w : ω) : wiring.time w ≤ (wiring.platform.nowNs w).1 ∧
    (wiring.platform.nowNs w).1 ≤ wiring.time (wiring.platform.nowNs w).2
  setGate (active : Bool) (w : ω) : wiring.time w ≤ wiring.time (wiring.platform.setGate active w).2
  armCutoff (endNs : UInt64) (w : ω) :
    wiring.time w ≤ wiring.time (wiring.platform.armCutoff endNs w).2
  write (reg : Nat) (bytes : List UInt8) (deadline : UInt64) (w : ω) :
    wiring.time w ≤ wiring.time (wiring.bus.write reg bytes deadline w).2
  amplifier {amplifier : Amplifier ω} {output : EnableOutput ω}
    (hamplifier : wiring.amplifier = some amplifier) (houtput : amplifier.output = some output)
    (w : ω) : (∀ active, wiring.time w ≤ wiring.time (output.write active w).2) ∧
      wiring.time w ≤ wiring.time (output.verifyActive w).2
  filters {bank : FilterBank ω} {outputs : FilterOutputs ω} (hbank : wiring.filters = some bank)
    (houtputs : bank.outputs = some outputs) (w : ω) :
    wiring.time w ≤ wiring.time (outputs.initializeInactive w).2 ∧
    wiring.time w ≤ wiring.time (outputs.inactive w).2 ∧
    ∀ output, wiring.time w ≤ wiring.time (outputs.activate output w).2 ∧
      wiring.time w ≤ wiring.time (outputs.verify output w).2

/-! ## What the log shows -/

namespace Action

def movesFilters : Action → Bool
  | .filters _ => true
  | _ => false

def movesAmplifier : Action → Bool
  | .amplifier _ => true
  | _ => false

/-- The calls that put a job on the air, and the entry of its first event. -/
def starts : Action → Bool
  | .requestTransmitEnabled value | .setGate value => value
  | .entered 0 _ => true
  | _ => false

end Action

/-- The calls of `kind` that epoch `epoch` made, newest first. -/
def moves (kind : Action → Bool) (epoch : UInt64) (log : List Entry) : List Entry :=
  log.filter fun x => x.epoch = epoch && kind x.action

theorem moves_cons_of_not {kind : Action → Bool} {epoch : UInt64} {x : Entry} {log : List Entry}
    (h : kind x.action = false) : moves kind epoch (x :: log) = moves kind epoch log := by
  simp [moves, h]

theorem moves_cons_of {kind : Action → Bool} {epoch : UInt64} {x : Entry} {log : List Entry}
    (hepoch : x.epoch = epoch) (h : kind x.action = true) :
    moves kind epoch (x :: log) = x :: moves kind epoch log := by
  simp [moves, h, hepoch]

/-- The filters of an armed job, from what the engine has noted of their release and
their selection. -/
inductive FilterStage (wiring : Wiring ω) : Option UInt64 → Option UInt64 → List Entry → Prop where
  | waiting : FilterStage wiring none none []
  | released {noted : UInt64} {release : Entry} (action : release.action = .filters false)
      (ok : release.ok = true) (done : release.done ≤ noted) :
      FilterStage wiring (some noted) none [release]
  | selected {noted settled : UInt64} {release selection : Entry}
      (released : release.action = .filters false ∧ release.ok = true)
      (action : selection.action = .filters true) (ok : selection.ok = true)
      (rested : addSat release.done wiring.filterReleaseNs ≤ selection.issued)
      (done : selection.done ≤ settled) :
      FilterStage wiring (some noted) (some settled) [selection, release]

/-- The amplifier of an armed job: where filters are required it is activated after
they settled. -/
inductive AmplifierStage (wiring : Wiring ω) (selected : Option UInt64) :
    Option UInt64 → List Entry → Prop where
  | waiting : AmplifierStage wiring selected none []
  | leading {noted : UInt64} {activation : Entry} (action : activation.action = .amplifier true)
      (ok : activation.ok = true) (done : activation.done ≤ noted)
      (settled : wiring.filtersRequired = true → ∃ chosen, selected = some chosen ∧
        addSat chosen wiring.filterSettleNs ≤ activation.issued) :
      AmplifierStage wiring selected (some noted) [activation]

/-- The stages of the chain of an armed job. -/
structure Stages (wiring : Wiring ω) (e : Engine) (log : List Entry) : Prop where
  filters : FilterStage wiring e.releaseNs e.selectionNs (moves Action.movesFilters e.epoch log)
  amplifier : AmplifierStage wiring e.selectionNs e.enableNs
    (moves Action.movesAmplifier e.epoch log)

/-- The chain is ready for a launch at `now` of a job that starts at `start`, by the
entries of the poll so far (`older`) and those before it (`log`). -/
structure Cleared (wiring : Wiring ω) (epoch start now : UInt64) (older log : List Entry) :
    Prop where
  filters : wiring.filtersRequired = true → ∃ release selection verified,
    moves Action.movesFilters epoch (older ++ log) = [selection, release] ∧
    release.action = .filters false ∧ release.ok = true ∧
    selection.action = .filters true ∧ selection.ok = true ∧
    addSat release.done wiring.filterReleaseNs ≤ selection.issued ∧
    addSat selection.done wiring.filterSettleNs ≤ now ∧
    verified ∈ older ∧ verified.action = .verifyFilters ∧ verified.ok = true
  amplifier : wiring.amplifierEnabled = true → ∃ activation,
    moves Action.movesAmplifier epoch (older ++ log) = [activation] ∧
    activation.action = .amplifier true ∧ activation.ok = true ∧
    addSat activation.done wiring.amplifierLeadNs ≤ start ∧
    (wiring.filtersRequired = true → ∀ selection release,
      moves Action.movesFilters epoch (older ++ log) = [selection, release] →
      addSat selection.done wiring.filterSettleNs ≤ activation.issued)

theorem Cleared.cons {wiring : Wiring ω} {epoch start now : UInt64} {older log : List Entry}
    {x : Entry} (h : Cleared wiring epoch start now older log)
    (hfilters : x.action.movesFilters = false) (hamplifier : x.action.movesAmplifier = false) :
    Cleared wiring epoch start now (x :: older) log := by
  have hf : moves Action.movesFilters epoch (x :: older ++ log) =
      moves Action.movesFilters epoch (older ++ log) := moves_cons_of_not hfilters
  have ha : moves Action.movesAmplifier epoch (x :: older ++ log) =
      moves Action.movesAmplifier epoch (older ++ log) := moves_cons_of_not hamplifier
  refine ⟨fun hrequired => ?_, fun henabled => ?_⟩
  · obtain ⟨release, selection, verified, hmoves, h₁, h₂, h₃, h₄, h₅, h₆, hmem, h₇⟩ :=
      h.filters hrequired
    exact ⟨release, selection, verified, hf.trans hmoves, h₁, h₂, h₃, h₄, h₅, h₆,
      List.mem_cons_of_mem _ hmem, h₇⟩
  · obtain ⟨activation, hmoves, h₁, h₂, h₃, hsettled⟩ := h.amplifier henabled
    exact ⟨activation, ha.trans hmoves, h₁, h₂, h₃, fun hrequired selection release heq =>
      hsettled hrequired selection release (hf.symm.trans heq)⟩

/-- The log ends in the calls of a shutdown that began after `base`. -/
def Shut (wiring : Wiring ω) (base log : List Entry) : Prop :=
  ∃ shutdown before, log = shutdown ++ (before ++ base) ∧
    Shutdown wiring (shutdown.reverse.map Entry.call)

/-- Since `m₀` the log has grown by entries of the same epoch or older, and those
that start a job satisfy `Q` of the entries before them. -/
structure Trail (m₀ : Machine ω) (Q : List Entry → Entry → Prop) (m : Machine ω) : Prop where
  entries : ∃ recent, m.log = recent ++ m₀.log ∧
    ∀ newer x older, recent = newer ++ x :: older → x.action.starts = true → Q older x
  epoch : m.engine.epoch = m₀.engine.epoch
  epochs : ∀ x ∈ m.log, x.epoch ≤ m.engine.epoch

namespace Trail

variable {m₀ m m' : Machine ω} {Q Q' : List Entry → Entry → Prop} {wiring : Wiring ω}

theorem refl (h : ∀ x ∈ m.log, x.epoch ≤ m.engine.epoch) : Trail m Q m :=
  ⟨⟨[], rfl, fun newer x older heq => by simp at heq⟩, rfl, h⟩

theorem weaken (h : Trail m₀ Q m) (hq : ∀ older x, Q older x → Q' older x) : Trail m₀ Q' m := by
  obtain ⟨recent, hlog, hentries⟩ := h.entries
  exact ⟨⟨recent, hlog, fun newer x older heq hs => hq older x (hentries newer x older heq hs)⟩,
    h.epoch, h.epochs⟩

theorem of_engine (h : Trail m₀ Q m) (hlog : m'.log = m.log)
    (hepoch : m'.engine.epoch = m.engine.epoch) : Trail m₀ Q m' := by
  refine ⟨by rw [hlog]; exact h.entries, hepoch.trans h.epoch, ?_⟩
  rw [hlog, hepoch]
  exact h.epochs

theorem performed {a : Action} {ok : Bool} (h : Trail m₀ Q m) (hp : Performed wiring a m ok m')
    (hq : a.starts = true → ∀ recent, m.log = recent ++ m₀.log →
      Q recent ⟨a, ok, m.engine.epoch, wiring.time m.world, wiring.time m'.world⟩) :
    Trail m₀ Q m' := by
  obtain ⟨recent, hlog, hentries⟩ := h.entries
  have hepoch : m'.engine.epoch = m.engine.epoch := congrArg Engine.epoch hp.engine
  refine ⟨⟨_ :: recent, by rw [hp.log, hlog]; rfl, fun newer x older heq hs => ?_⟩,
    hepoch.trans h.epoch, fun x hx => ?_⟩
  · rcases List.cons_eq_append_iff.mp heq with ⟨-, hcons⟩ | ⟨rest, -, hcons⟩
    · obtain ⟨rfl, rfl⟩ := List.cons.inj hcons
      exact hq hs _ hlog
    · exact hentries rest x older hcons hs
  · rw [hepoch]
    rw [hp.log] at hx
    rcases List.mem_cons.mp hx with rfl | hx
    · exact UInt64.le_refl _
    · exact h.epochs x hx

theorem steady : Steady wiring (Trail m₀ Q) where
  calls {a _} hc ha := fun m h => h.performed (hc m) fun hs => by
    cases a with
    | entered => exact nomatch ha
    | setGate active => exact nomatch hs.symm.trans ((Bool.not_eq_true' _).mp ha)
    | requestTransmitEnabled value => exact nomatch hs.symm.trans ((Bool.not_eq_true' _).mp ha)
    | _ => exact nomatch hs
  reads hc := fun m h => h.of_engine (hc.log m) (congrArg Engine.epoch (hc.engine m))
  updates hf := fun m h => h.of_engine rfl (hf m.engine).2.1

end Trail

/-- A machine whose last step ended in a shutdown. -/
structure Dead (wiring : Wiring ω) (m₀ : Machine ω) (Q : List Entry → Entry → Prop)
    (m : Machine ω) : Prop where
  trail : Trail m₀ Q m
  shut : Shut wiring m₀.log m.log

namespace Wiring

variable (wiring : Wiring ω) {m₀ : Machine ω} {Q : List Entry → Entry → Prop}

theorem disable_dead (deadline : UInt64) :
    Triple (Trail m₀ Q) (wiring.disable deadline) fun _ => Dead wiring m₀ Q := by
  intro m h
  obtain ⟨trace, hlog, hshutdown⟩ := wiring.disable_traces deadline m
  obtain ⟨recent, hrecent, -⟩ := h.entries
  exact ⟨Trail.steady.disable m h, trace, recent, hlog.trans (by rw [hrecent]), hshutdown⟩

theorem fail_dead (reason : String) (outcome : EngineState) :
    Triple (Trail m₀ Q) (wiring.fail reason outcome) fun ok m => ok = false ∧
      Dead wiring m₀ Q m ∧ (m.engine.state = .failed ∨ m.engine.state = outcome) := by
  have hverdict : ∀ stopped : Bool, Triple (Dead wiring m₀ Q) (do
      update fun e => { e with
        failure := reason, state := if stopped then outcome else .failed, phase := .fault }
      return false : EngineM ω Bool) fun ok m => ok = false ∧ Dead wiring m₀ Q m ∧
        (m.engine.state = .failed ∨ m.engine.state = outcome) := fun stopped m h => by
    refine ⟨rfl, ⟨h.trail.of_engine rfl rfl, h.shut⟩, ?_⟩
    cases stopped with
    | false => exact .inl rfl
    | true => exact .inr rfl
  have hnow : Keeps (Trail m₀ Q) wiring.nowNs := Trail.steady.nowNs
  exact Triple.bind hnow fun now => (wiring.disable_dead _).bind fun stopped => hverdict stopped

end Wiring

end WsprryPico.Rf.Si5351
