import WsprryPico.Rf.Si5351.Completion
import WsprryPico.Rf.Si5351.Launching

/-!
# The order of the Si5351 chain in every run

`Ordered` is what a step of the engine may do with the output of a job and with a
job that it ends, and `Chained` the invariant that carries it from step to step.
-/

namespace WsprryPico.Rf.Si5351

open Wtp Lib EngineM

variable {ω α : Type}

/-- The calls of a running engine: none of them enters the first event. -/
def Resumes (_ : List Entry) (x : Entry) : Prop := ∀ now, x.action ≠ .entered 0 now

/-- The engine of `m₀` goes on with its job. -/
structure Onward (m₀ m : Machine ω) : Prop where
  trail : Trail m₀ Resumes m
  state : m.engine.state = .running ∨ m.engine.state = .complete

theorem Trail.launched {m₀ m : Machine ω} {Q : List Entry → Entry → Prop} (h : Trail m₀ Q m)
    (hlaunched : Launched m₀) : Launched m := by
  obtain ⟨recent, hlog, -⟩ := h.entries
  obtain ⟨x, hx, hepoch, hentered⟩ := hlaunched
  exact ⟨x, hlog ▸ List.mem_append_right _ hx, hepoch.trans h.epoch.symm, hentered⟩

theorem Onward.ends {wiring : Wiring ω} {m₀ m : Machine ω} (h : Onward m₀ m)
    (hlaunched : Launched m₀) : Ends wiring m₀ Resumes m := by
  refine ⟨h.trail, fun harmed => ?_, fun _ => h.trail.launched hlaunched, fun hexit => ?_⟩
  · rcases h.state with h | h
    · cases h.symm.trans harmed
    · cases h.symm.trans harmed
  · rcases h.state with h | h
    · exact hexit.elim (fun hs => nomatch h.symm.trans hs) fun hs => nomatch h.symm.trans hs
    · exact hexit.elim (fun hs => nomatch h.symm.trans hs) fun hs => nomatch h.symm.trans hs

/-! ## The poll of a running engine -/

/-- A step of a running job goes on with it, or ends it. -/
def Proceeds (wiring : Wiring ω) (m₀ : Machine ω) (ok : Bool) (m : Machine ω) : Prop :=
  if ok then Onward m₀ m else Ends wiring m₀ Resumes m

namespace Wiring

variable (wiring : Wiring ω) {m₀ : Machine ω} {deadline : UInt64}

variable {wiring} in
theorem onward_call {a : Action} {c : EngineM ω Bool} (hc : Calls wiring a c)
    (ha : ∀ now, a ≠ .entered 0 now) : Keeps (Onward m₀) c := fun m h =>
  ⟨h.trail.performed (hc m) fun _ _ _ => ha,
    (congrArg Engine.state (hc m).engine).symm ▸ h.state⟩

theorem onward_reads {c : EngineM ω α} (hc : Reads c) : Keeps (Onward m₀) c := fun m h =>
  ⟨h.trail.of_engine (hc.log m) (congrArg Engine.epoch (hc.engine m)),
    (congrArg Engine.state (hc.engine m)).symm ▸ h.state⟩

theorem onward_update {f : Engine → Engine} (hf : ∀ e, (f e).epoch = e.epoch ∧
    ((f e).state = e.state ∨ (f e).state = .complete)) :
    Keeps (Onward m₀) (update f : EngineM ω Unit) := fun m h => by
  refine ⟨h.trail.of_engine rfl (hf m.engine).1, ?_⟩
  rcases (hf m.engine).2 with hstate | hstate
  · exact hstate.symm ▸ h.state
  · exact .inr hstate

theorem fail_ends (reason : String) : Triple (Onward m₀) (wiring.fail reason) fun ok m =>
    ok = false ∧ Ends wiring m₀ Resumes m :=
  ((wiring.fail_dead reason .failed).strengthen fun _ h => h.trail).weaken fun _ _ h =>
    ⟨h.1, h.2.1.ends (.inl (h.2.2.elim id id))⟩

/-- A call of a running job, whose failure is the engine's. -/
theorem onward_step {c k : EngineM ω Bool} {reason : String} (hc : Keeps (Onward m₀) c)
    (hk : Triple (Onward m₀) k (Proceeds wiring m₀)) : Triple (Onward m₀) (do
      if !(← c) then
        return ← wiring.fail reason
      k) (Proceeds wiring m₀) :=
  Triple.bind hc fun
    | true => hk
    | false => (wiring.fail_ends reason).bind fun _ => Triple.pure fun _ h => by
      obtain ⟨rfl, h⟩ := h
      exact h

theorem onward_pure : Triple (Onward m₀) (Pure.pure true : EngineM ω Bool) (Proceeds wiring m₀) :=
  fun _ h => h

theorem prepareGapTone_proceeds (plan : JobPlan) (index : Nat) :
    Triple (Onward m₀) (wiring.prepareGapTone plan index deadline) (Proceeds wiring m₀) := by
  unfold prepareGapTone
  split
  · exact wiring.onward_pure
  · refine wiring.onward_step (onward_call (wiring.transmitTone_calls _ deadline) nofun) ?_
    refine wiring.onward_step (onward_call (wiring.primeTransmit_calls deadline) nofun) ?_
    exact Triple.bind (onward_update fun _ => ⟨rfl, .inl rfl⟩) fun _ => wiring.onward_pure

theorem keyOff_proceeds (plan : JobPlan) (index : Nat) :
    Triple (Onward m₀) (wiring.keyOff plan index deadline) (Proceeds wiring m₀) := by
  refine wiring.onward_step (onward_call (wiring.setGate_calls false) nofun) ?_
  refine wiring.onward_step
    (onward_call (wiring.requestTransmitEnabled_calls false deadline) nofun) ?_
  refine Triple.bind (onward_reads wiring.nowNs_reads) fun now => ?_
  refine Triple.bind (onward_update fun _ => ⟨rfl, .inl rfl⟩) fun _ => ?_
  exact wiring.onward_step (onward_call (wiring.verifyTransmit_calls deadline) nofun)
    (wiring.prepareGapTone_proceeds plan _)

theorem restart_proceeds :
    Triple (Onward m₀) (wiring.restart deadline) (Proceeds wiring m₀) := by
  refine wiring.onward_step (onward_call (wiring.primeTransmit_calls deadline) nofun) ?_
  refine wiring.onward_step
    (onward_call (wiring.requestTransmitEnabled_calls true deadline) nofun) ?_
  refine Triple.bind (onward_reads wiring.nowNs_reads) fun now => ?_
  refine Triple.bind (onward_update fun _ => ⟨rfl, .inl rfl⟩) fun _ => ?_
  refine wiring.onward_step (onward_call (wiring.setGate_calls true) nofun) ?_
  exact wiring.onward_step (onward_call (wiring.verifyTransmit_calls deadline) nofun)
    wiring.onward_pure

theorem keyOn_proceeds (plan : JobPlan) (previous : Option Nat) (next : Nat) :
    Triple (Onward m₀) (wiring.keyOn plan previous next deadline) (Proceeds wiring m₀) := by
  refine Triple.bind (onward_reads reads_engine) fun e => ?_
  refine wiring.onward_step (.ite
    (fun _ => onward_call (wiring.transmitTone_calls _ deadline) nofun) fun _ => .pure _) ?_
  have hrestart : Triple (Onward m₀) (ifNeeded previous.isNone (wiring.restart deadline))
      (Proceeds wiring m₀) :=
    Triple.ite (fun _ => wiring.restart_proceeds) fun _ => wiring.onward_pure
  refine hrestart.guarded ?_ (Triple.pure fun _ h => h)
  exact Triple.bind (onward_update fun _ => ⟨rfl, .inl rfl⟩) fun _ => wiring.onward_pure

theorem transition_proceeds (plan : JobPlan) (index : Nat) :
    Triple (Onward m₀) (wiring.transition plan index) (Proceeds wiring m₀) := by
  refine Triple.bind (onward_reads wiring.nowNs_reads) fun now =>
    Triple.ite (fun _ => wiring.onward_pure) fun _ => ?_
  split
  · exact wiring.keyOff_proceeds plan index
  · exact wiring.keyOn_proceeds plan _ _

theorem finishRf_proceeds : Triple (Onward m₀) wiring.finishRf (Proceeds wiring m₀) := by
  have hoff : Keeps (Onward m₀) wiring.requestFinalOff := by
    refine (onward_reads reads_machine).bind fun m => .ite (fun _ => .pure _) fun _ => ?_
    refine (onward_call (wiring.requestTransmitEnabled_calls false _) nofun).guarded ?_ (.pure _)
    refine (onward_reads wiring.nowNs_reads).bind fun now => ?_
    exact .bind (onward_update fun _ => ⟨rfl, .inl rfl⟩) fun _ => .pure _
  have htail : Triple (Onward m₀) wiring.startTail (Proceeds wiring m₀) := by
    refine Triple.bind (onward_reads wiring.nowNs_reads) fun now => ?_
    refine wiring.onward_step (onward_call (wiring.verifyTransmit_calls _) nofun) ?_
    refine Triple.bind (onward_reads wiring.nowNs_reads) fun now => ?_
    exact Triple.bind (onward_update fun _ => ⟨rfl, .inl rfl⟩) fun _ => wiring.onward_pure
  refine wiring.onward_step (onward_call (wiring.setGate_calls false) nofun) ?_
  refine wiring.onward_step hoff (Triple.bind (onward_reads reads_engine) fun e => ?_)
  refine Triple.ite (fun _ => ?_) fun _ => Triple.ite (fun _ => ?_) fun _ => htail
  · exact (wiring.fail_ends _).weaken fun _ _ h => h.1 ▸ h.2
  · exact Triple.bind (onward_update fun _ => ⟨rfl, .inr rfl⟩) fun _ => wiring.onward_pure

theorem pollTail_ends (hlaunched : Launched m₀) :
    Triple (Onward m₀) wiring.pollTail fun _ => Ends wiring m₀ Resumes := by
  have hamplifier : Keeps (Onward m₀) wiring.deactivateAmplifier := by
    unfold deactivateAmplifier amplifierCall
    split
    · exact .pure true
    · exact onward_call (wiring.perform_reads (reads_onAmplifier _)) nofun
  have hfilters : Keeps (Onward m₀) wiring.deactivateFilters := by
    unfold deactivateFilters filterCall
    split
    · exact .pure true
    · exact onward_call (wiring.perform_reads (reads_onFilters _)) nofun
  refine Triple.bind (onward_reads wiring.nowNs_reads) fun now => ?_
  refine Triple.bind (onward_reads reads_engine) fun e => Triple.ite (fun _ => ?_)
    fun _ => Triple.pure fun _ h => h.ends hlaunched
  have hrelease : Keeps (Onward m₀) wiring.releaseChain := hamplifier.guarded hfilters (.pure _)
  refine Triple.bind hrelease fun
    | false => (wiring.fail_ends _).bind fun _ => Triple.pure fun _ h => h.2
    | true => ?_
  refine Triple.bind (onward_reads wiring.nowNs_reads) fun now => ?_
  exact fun m h => Onward.ends ⟨h.trail.of_engine rfl rfl, .inr rfl⟩ hlaunched

theorem pollRf_ends (hlaunched : Launched m₀) (plan : JobPlan) :
    Triple (Onward m₀) (wiring.pollRf plan) fun _ => Ends wiring m₀ Resumes := by
  have hproceeds : ∀ ok m, Proceeds wiring m₀ ok m → Ends wiring m₀ Resumes m := fun ok m h => by
    cases ok
    · exact h
    · exact h.ends hlaunched
  refine Triple.bind (onward_reads wiring.nowNs_reads) fun now => ?_
  refine Triple.bind (onward_reads reads_engine) fun e => Triple.ite (fun _ => ?_) fun _ =>
    Triple.ite (fun _ => Triple.ite (fun _ => ?_) fun _ => ?_)
      fun _ => Triple.pure fun _ h => h.ends hlaunched
  · exact wiring.finishRf_proceeds.bind fun _ => Triple.pure fun m h => hproceeds _ m h
  · exact (wiring.fail_ends _).bind fun _ => Triple.pure fun _ h => h.2
  · refine (wiring.transition_proceeds plan _).guarded (R := Onward m₀) ?_
      (Triple.pure fun _ h => h)
    have hnotify : Keeps (Onward m₀)
        (wiring.notify (.entered (e.event + 1) now) (return ())) := by
      refine Keeps.bind (onward_call (wiring.perform_reads
        ((Reads.pure ()).bind_reads fun _ => Reads.pure true)) fun _ => ?_) fun _ => .pure ()
      exact nofun
    refine Triple.bind hnotify fun _ => ?_
    exact fun m h => Onward.ends ⟨h.trail.of_engine rfl rfl, h.state⟩ hlaunched

end Wiring

/-! ## A step of the engine -/

/-- The call `x` launches the job that waits in `m`, after the entries `older` of the
poll that ends in `m'`. -/
structure Launch (wiring : Wiring ω) (m : Machine ω) (older : List Entry) (x : Entry)
    (m' : Machine ω) : Prop where
  armed : m.engine.state = .armed
  due : ∃ plan, m.engine.plan = some plan ∧ wiring.launches plan m older x
  late : m.engine.conditions.clock = true → x.action = .requestTransmitEnabled true →
    m.engine.deadlineNs ≤ x.done → m'.engine.state = .failed

/-- What a step of the engine does with the output of a job and with a job it ends. -/
structure Ordered (wiring : Wiring ω) (command : Command ω) (m m' : Machine ω) : Prop where
  starts : ∃ recent, m'.log = recent ++ m.log ∧ ∀ newer x older, recent = newer ++ x :: older →
    x.action.starts = true → command.isPoll = true ∧ (Launch wiring m older x m' ∨
      m.engine.state = .running ∧ Launched m ∧ ∀ now, x.action ≠ .entered 0 now)
  exits : m.engine.state = .armed ∨ m.engine.state = .running →
    m'.engine.state = .missed ∨ m'.engine.state = .failed → Shut wiring m.log m'.log
  scheduled : ∀ job start conditions, command = .schedule job start conditions →
    m.engine.state ≠ .armed → m'.engine.state = .armed → ∃ snapshot, Time.inverse snapshot
      (conditions.startUtcNs + startWindowNs conditions.startUtcNs) = some m'.engine.deadlineNs ∧
    m'.engine.conditions.clock = true ∧ m'.engine.conditions.startUtcNs = conditions.startUtcNs
  held : m.engine.state = .armed → m'.engine.state = .armed →
    m'.engine.conditions = m.engine.conditions ∧ m'.engine.deadlineNs = m.engine.deadlineNs

/-- The invariant of the chain. -/
structure Chained (wiring : Wiring ω) (m : Machine ω) : Prop where
  epochs : ∀ x ∈ m.log, x.epoch ≤ m.engine.epoch
  armed : m.engine.state = .armed → Stages wiring m.engine m.log
  running : m.engine.state = .running → Launched m

/-- The members of the engine that the order of the chain is read from. -/
def Engine.chain (e : Engine) :=
  (e.state, e.epoch, e.releaseNs, e.selectionNs, e.enableNs, e.conditions, e.deadlineNs)

/-- The step keeps the invariant and the order. -/
def Steps (wiring : Wiring ω) (command : Command ω) (m m' : Machine ω) : Prop :=
  Chained wiring m' ∧ Ordered wiring command m m'

section Steps

variable {wiring : Wiring ω} {command : Command ω} {m m' : Machine ω}

theorem off_steady : Steady wiring fun m : Machine ω => m.engine.off where
  calls hc _ := fun m h => (congrArg Engine.off (hc m).engine).mpr h
  reads hc := fun m h => (congrArg Engine.off (hc.engine m)).mpr h
  updates hf := fun m h => by
    rcases (hf m.engine).2.2 with hstate | hoff
    · exact h.imp hstate.trans (Or.imp hstate.trans hstate.trans)
    · exact hoff

theorem Engine.off.not_armed {e : Engine} (h : e.off) : e.state ≠ .armed := fun harmed => by
  rcases h with h | h | h <;> exact nomatch h.symm.trans harmed

theorem Engine.off.not_running {e : Engine} (h : e.off) : e.state ≠ .running := fun hrunning => by
  rcases h with h | h | h <;> exact nomatch h.symm.trans hrunning

theorem Trail.quiet {Q : List Entry → Entry → Prop} (h : Trail m (fun _ _ => False) m') :
    ∃ recent, m'.log = recent ++ m.log ∧ ∀ newer x older, recent = newer ++ x :: older →
      x.action.starts = true → Q older x := by
  obtain ⟨recent, hlog, hquiet⟩ := h.entries
  exact ⟨recent, hlog, fun newer x older heq hs => (hquiet newer x older heq hs).elim⟩

/-- A step that leaves the job and the chain alone. -/
theorem Chained.same (h : Chained wiring m) (hchain : m'.engine.chain = m.engine.chain)
    (htrail : Trail m (fun _ _ => False) m')
    (hstages : ∀ e, Stages wiring e m.log → Stages wiring e m'.log) :
    Steps wiring command m m' := by
  simp only [Engine.chain, Prod.mk.injEq] at hchain
  obtain ⟨hstate, hepoch, hrelease, hselection, henable, hconditions, hdeadline⟩ := hchain
  refine ⟨⟨htrail.epochs, fun harmed => ?_, fun hrunning => ?_⟩, htrail.quiet, fun hm hexit => ?_,
    fun _ _ _ _ hnot harmed => absurd (hstate.symm.trans harmed) hnot,
    fun _ _ => ⟨hconditions, hdeadline⟩⟩
  · have hbefore := h.armed (hstate.symm.trans harmed)
    exact hstages _ (hbefore.of_engine hepoch hrelease hselection henable)
  · exact htrail.launched (h.running (hstate.symm.trans hrunning))
  · rw [hstate] at hexit
    rcases hm with hm | hm
    · exact hexit.elim (fun hs => nomatch hm.symm.trans hs) fun hs => nomatch hm.symm.trans hs
    · exact hexit.elim (fun hs => nomatch hm.symm.trans hs) fun hs => nomatch hm.symm.trans hs

theorem Chained.unchanged (h : Chained wiring m) (hchain : m'.engine.chain = m.engine.chain)
    (hlog : m'.log = m.log) : Steps wiring command m m' := by
  have hepoch : m'.engine.epoch = m.engine.epoch := congrArg (·.2.1) hchain
  refine h.same hchain ((Trail.refl h.epochs).of_engine hlog hepoch) fun e he => ?_
  rw [hlog]
  exact he

/-- A call outside the chain, from a machine `m₁` that differs from `m` outside it. -/
theorem Chained.calls {a : Action} {ok : Bool} (h : Chained wiring m) (m₁ : Machine ω)
    (hchain : m₁.engine.chain = m.engine.chain) (hlog : m₁.log = m.log)
    (hp : Performed wiring a m₁ ok m') (hstarts : a.starts = false)
    (hfilters : a.movesFilters = false) (hamplifier : a.movesAmplifier = false) :
    Steps wiring command m m' := by
  have htrail : Trail m (fun _ _ => False) m₁ :=
    (Trail.refl h.epochs).of_engine hlog (congrArg (·.2.1) hchain)
  refine h.same ((congrArg Engine.chain hp.engine).trans hchain)
    (htrail.performed hp fun hs => nomatch hstarts.symm.trans hs) fun e he => ?_
  rw [hp.log, hlog]
  constructor
  · rw [moves_cons_of_not hfilters]
    exact he.filters
  · rw [moves_cons_of_not hamplifier]
    exact he.amplifier

theorem Ends.steps {Q : List Entry → Entry → Prop} (h : Ends wiring m Q m')
    (hcommand : ∀ job start conditions, command ≠ .schedule job start conditions)
    (hstarts : ∀ newer x older, m'.log = newer ++ x :: older ++ m.log → Q older x →
      command.isPoll = true ∧ (Launch wiring m older x m' ∨
        m.engine.state = .running ∧ Launched m ∧ ∀ now, x.action ≠ .entered 0 now)) :
    Steps wiring command m m' := by
  obtain ⟨recent, hlog, hentries⟩ := h.trail.entries
  refine ⟨⟨h.trail.epochs, fun harmed => (h.armed harmed).1, h.running⟩,
    ⟨recent, hlog, fun newer x older heq hs => ?_⟩, fun _ => h.exits,
    fun job start conditions heq => absurd heq (hcommand job start conditions),
    fun _ harmed => (h.armed harmed).2⟩
  exact hstarts newer x older (heq ▸ hlog) (hentries newer x older heq hs)

theorem Steps.reads {c : EngineM ω α} (h : Steps wiring command m m') (hc : Reads c) :
    Steps wiring command m (c m').2 := by
  have hengine := hc.engine m'
  have hlog := hc.log m'
  obtain ⟨⟨hepochs, harmed, hrunning⟩, ⟨hstarts, hexits, hscheduled, hheld⟩⟩ := h
  refine ⟨⟨?_, ?_, ?_⟩, ?_, ?_, ?_, ?_⟩
  · rw [hengine, hlog]
    exact hepochs
  · rw [hengine, hlog]
    exact harmed
  · unfold Launched at hrunning ⊢
    rw [hengine, hlog]
    exact hrunning
  · obtain ⟨recent, hrecent, hentries⟩ := hstarts
    refine ⟨recent, hlog.trans hrecent, fun newer x older heq hs => ?_⟩
    refine (hentries newer x older heq hs).imp_right (Or.imp_left fun hl => ⟨hl.armed, hl.due, ?_⟩)
    rw [hengine]
    exact hl.late
  · rw [hengine, hlog]
    exact hexits
  · rw [hengine]
    exact hscheduled
  · rw [hengine]
    exact hheld

theorem Chained.stops (htrail : Trail m (fun _ _ => False) m') (hoff : m'.engine.off)
    (hshut : m.engine.state = .armed ∨ m.engine.state = .running → Shut wiring m.log m'.log) :
    Steps wiring command m m' :=
  ⟨⟨htrail.epochs, fun h => absurd h hoff.not_armed, fun h => absurd h hoff.not_running⟩,
    htrail.quiet, fun hm _ => hshut hm, fun _ _ _ _ _ h => absurd h hoff.not_armed,
    fun _ h => absurd h hoff.not_armed⟩

theorem Chained.passive {c : EngineM ω α} (h : Chained wiring m) (hidle : m.engine.state = .idle)
    (hc : ∀ {I : Machine ω → Prop}, Steady wiring I → Keeps I c) :
    Steps wiring command m (c m).2 :=
  Chained.stops (hc Trail.steady m (.refl h.epochs)) (hc off_steady m (.inl hidle)) fun hm =>
    hm.elim (fun hs => nomatch hidle.symm.trans hs) fun hs => nomatch hidle.symm.trans hs

end Steps

/-! ## The commands -/

/-- What `begin` leaves of an idle engine. -/
structure Begun (wiring : Wiring ω) (m m' : Machine ω) : Prop where
  quiet : ∃ recent, m'.log = recent ++ m.log ∧ ∀ newer x older, recent = newer ++ x :: older →
    x.action.starts = true → False
  epochs : ∀ x ∈ m'.log, x.epoch ≤ m'.engine.epoch
  result : m'.engine.off ∨ m'.engine.state = .armed ∧ Stages wiring m'.engine m'.log ∧
    m'.engine.conditions = m.engine.conditions ∧ m'.engine.deadlineNs = m.engine.deadlineNs

namespace Wiring

variable (wiring : Wiring ω) {m : Machine ω}

theorem started_begun {m' : Machine ω} (start : UInt64) (htrail : Trail m (fun _ _ => False) m')
    (hengine : m'.engine = m.engine) (hmax : m.engine.epoch ≠ u64Max) :
    Begun wiring m { m' with engine := wiring.started start m'.engine } := by
  have hnext : m'.engine.epoch < m'.engine.epoch + 1 := by
    rw [hengine, UInt64.lt_iff_toNat_lt, UInt64.toNat_add]
    have hlt := m.engine.epoch.toNat_lt
    have hne : m.engine.epoch.toNat ≠ 2 ^ 64 - 1 := fun h => hmax (UInt64.toNat_inj.mp h)
    show _ < (_ + 1) % 2 ^ 64
    omega
  have hnone : ∀ kind, moves kind (m'.engine.epoch + 1) m'.log = [] := fun kind => by
    refine List.filter_eq_nil_iff.mpr fun x hx heq => ?_
    rw [Bool.and_eq_true, decide_eq_true_iff] at heq
    exact absurd (htrail.epochs x hx) (UInt64.not_le.mpr (heq.1 ▸ hnext))
  refine ⟨htrail.entries, fun x hx => ?_, .inr ⟨rfl, ⟨?_, ?_⟩, ?_, ?_⟩⟩
  · exact UInt64.le_of_lt (UInt64.lt_of_le_of_lt (htrail.epochs x hx) hnext)
  · show FilterStage wiring none none (moves _ (m'.engine.epoch + 1) m'.log)
    rw [hnone]
    exact .waiting
  · show AmplifierStage wiring none none (moves _ (m'.engine.epoch + 1) m'.log)
    rw [hnone]
    exact .waiting
  · show m'.engine.conditions = m.engine.conditions
    rw [hengine]
  · show m'.engine.deadlineNs = m.engine.deadlineNs
    rw [hengine]

theorem begin_begun (job : Job) (start : UInt64) (hepochs : ∀ x ∈ m.log, x.epoch ≤ m.engine.epoch)
    (hidle : m.engine.state = .idle) : Begun wiring m (wiring.begin job start m).2 := by
  have hrests : ∀ m', Trail m (fun _ _ => False) m' → m'.engine = m.engine → Begun wiring m m' :=
    fun m' htrail hengine => ⟨htrail.entries, htrail.epochs, .inl (hengine ▸ .inl hidle)⟩
  have hreads : ∀ {α : Type} {c : EngineM ω α}, Reads c →
      Keeps (fun m' => Trail m (fun _ _ => False) m' ∧ m'.engine = m.engine) c := fun hc m' h => by
    have hsteady : Steady wiring (Trail m fun _ _ => False) := Trail.steady
    exact ⟨hsteady.reads hc m' h.1, (hc.engine m').trans h.2⟩
  have hbegin : Triple (· = m) (wiring.begin job start) fun _ => Begun wiring m := by
    refine engine_bind fun m' hm => ?_
    obtain rfl := hm.symm
    refine Triple.ite (fun _ => Triple.pure fun m' h => ?_) fun hadmits => ?_
    · rw [h]
      exact hrests m (.refl hepochs) rfl
    have hstart : wiring.startable job start m.engine = true := by simpa using hadmits
    have hmax : m.engine.epoch ≠ u64Max := by
      unfold startable at hstart
      cases hplan : m.engine.plan with
      | none =>
        rw [hplan] at hstart
        cases hstart
      | some plan =>
        rw [hplan] at hstart
        simp only [Bool.and_eq_true] at hstart
        exact of_decide_eq_true hstart.1.2
    refine Triple.strengthen (P := fun m' => Trail m (fun _ _ => False) m' ∧ m'.engine = m.engine)
      ?_ (by rintro _ rfl; exact ⟨.refl hepochs, rfl⟩)
    refine Triple.bind (hreads wiring.outputActive_reads) fun active => ?_
    refine Triple.ite (fun _ => Triple.pure fun m' h => hrests m' h.1 h.2) fun _ => ?_
    refine Triple.ite (fun _ => Triple.pure fun m' h => hrests m' h.1 h.2) fun _ => ?_
    refine Triple.bind (hreads wiring.nowNs_reads) fun now => ?_
    refine Triple.ite (fun _ => Triple.pure fun m' h => hrests m' h.1 h.2) fun _ => ?_
    refine Triple.bind (hreads wiring.nowNs_reads) fun now => ?_
    refine (wiring.pauseReference_calls _).bind fun m₁ ok m₂ hm₁ _ hp => ?_
    have htrail : Trail m (fun _ _ => False) m₂ := hm₁.1.performed hp nofun
    have hengine : m₂.engine = m.engine := hp.engine.trans hm₁.2
    cases ok with
    | false =>
      refine Triple.strengthen (P := Trail m fun _ _ => False) ?_ fun _ h => h ▸ htrail
      refine (wiring.fail_dead _ _).bind fun _ => Triple.pure fun m' h => ?_
      exact ⟨h.2.1.trail.entries, h.2.1.trail.epochs, .inl (.inr (.inl (h.2.2.elim id id)))⟩
    | true =>
      rintro _ rfl
      exact wiring.started_begun start htrail hengine hmax
  exact hbegin m rfl

theorem begin_steps {command : Command ω} (job : Job) (start : UInt64) (h : Chained wiring m)
    (hnot : ∀ job start conditions, command ≠ .schedule job start conditions) :
    Steps wiring command m (wiring.begin job start m).2 := by
  by_cases hidle : m.engine.state = .idle
  · obtain ⟨⟨recent, hlog, hquiet⟩, hepochs, hresult⟩ := wiring.begin_begun job start h.epochs hidle
    refine ⟨⟨hepochs, fun harmed => ?_, fun hrunning => ?_⟩,
      ⟨recent, hlog, fun newer x older heq hs => (hquiet newer x older heq hs).elim⟩, fun hm => ?_,
      fun job start conditions heq => absurd heq (hnot job start conditions),
      fun harmed => nomatch hidle.symm.trans harmed⟩
    · exact (hresult.resolve_left fun hoff => hoff.not_armed harmed).2.1
    · rcases hresult with hoff | ⟨harmed, -⟩
      · exact absurd hrunning hoff.not_running
      · cases harmed.symm.trans hrunning
    · exact hm.elim (fun hs => nomatch hidle.symm.trans hs) fun hs => nomatch hidle.symm.trans hs
  · have hrefused : wiring.startable job start m.engine = false := by
      unfold startable
      cases m.engine.plan with
      | none => rfl
      | some plan => simp [hidle]
    have hsame : (wiring.begin job start m).2 = m := by
      unfold begin
      simp only [bind, StateT.bind, engine, hrefused, Bool.not_false, if_true]
      rfl
    rw [hsame]
    exact h.unchanged rfl rfl

/-- An idle engine whose conditions were set for a start. -/
structure Conditioned (m : Machine ω) (conditions : LocalStartConditions) (m' : Machine ω) :
    Prop where
  log : m'.log = m.log
  epoch : m'.engine.epoch = m.engine.epoch
  state : m'.engine.state = .idle
  conditions : m'.engine.conditions = conditions

theorem conditioned_reads {c : EngineM ω α} (deadline : Engine → Prop) (hc : Reads c)
    {conditions : LocalStartConditions} :
    Keeps (fun m' => Conditioned m conditions m' ∧ deadline m'.engine) c := fun m' h => by
    have hengine := hc.engine m'
    refine ⟨⟨(hc.log m').trans h.1.log, ?_, ?_, ?_⟩, ?_⟩
    · rw [hengine]
      exact h.1.epoch
    · rw [hengine]
      exact h.1.state
    · rw [hengine]
      exact h.1.conditions
    · rw [hengine]
      exact h.2

theorem begin_mapped {conditions scheduled : LocalStartConditions} {snapshot : ClockSnapshot}
    {deadline : UInt64} (job : Job) (start start' : UInt64)
    (hepochs : ∀ x ∈ m.log, x.epoch ≤ m.engine.epoch) (hidle : m.engine.state = .idle)
    (hclock : scheduled.clock = true) (hutc : scheduled.startUtcNs = conditions.startUtcNs)
    (hinverse : Time.inverse snapshot
      (conditions.startUtcNs + startWindowNs conditions.startUtcNs) = some deadline) :
    Triple (fun m' => Conditioned m scheduled m' ∧ m'.engine.deadlineNs = deadline)
      (wiring.begin job start') fun _ => Steps wiring (.schedule job start conditions) m := by
  rintro m' ⟨h, hdeadline⟩
  obtain ⟨⟨recent, hlog, hquiet⟩, hepochs', hresult⟩ :=
    wiring.begin_begun job start' (m := m') (by rw [h.log, h.epoch]; exact hepochs) h.state
  rw [h.log] at hlog
  refine ⟨⟨hepochs', fun harmed => ?_, fun hrunning => ?_⟩,
    ⟨recent, hlog, fun newer x older heq hs => (hquiet newer x older heq hs).elim⟩,
    fun hm => ?_, ?_,
    fun harmed => nomatch hidle.symm.trans harmed⟩
  · exact (hresult.resolve_left fun hoff => hoff.not_armed harmed).2.1
  · rcases hresult with hoff | ⟨harmed, -⟩
    · exact absurd hrunning hoff.not_running
    · cases harmed.symm.trans hrunning
  · exact hm.elim (fun hs => nomatch hidle.symm.trans hs) fun hs => nomatch hidle.symm.trans hs
  · intro job' start'' conditions' heq _ harmed
    obtain ⟨-, -, rfl⟩ := Command.schedule.inj heq
    obtain ⟨-, -, hconditions, hdeadline'⟩ := hresult.resolve_left fun hoff => hoff.not_armed harmed
    refine ⟨snapshot, ?_, ?_, ?_⟩
    · rw [hdeadline', hdeadline]
      exact hinverse
    · rw [hconditions, h.conditions]
      exact hclock
    · rw [hconditions, h.conditions]
      exact hutc

theorem schedule_steps (job : Job) (start : UInt64) (conditions : LocalStartConditions)
    (h : Chained wiring m) : Steps wiring (.schedule job start conditions) m
      (wiring.schedule job start conditions m).2 := by
  have hstays : ∀ m' : Machine ω, m'.log = m.log → m'.engine.epoch = m.engine.epoch →
      m'.engine.state = .idle → m.engine.state = .idle →
        Steps wiring (.schedule job start conditions) m m' :=
    fun m' hlog hepoch hstate hidle => Chained.stops ((Trail.refl h.epochs).of_engine hlog hepoch)
      (.inl hstate) fun hm => hm.elim (fun hs => nomatch hidle.symm.trans hs)
        fun hs => nomatch hidle.symm.trans hs
  have hschedule : Triple (· = m) (wiring.schedule job start conditions) fun _ =>
      Steps wiring (.schedule job start conditions) m := by
    refine engine_bind fun m₁ hm₁ => engine_bind fun m₂ hm₂ => ?_
    obtain rfl := hm₂.symm
    obtain rfl := hm₁.symm
    split
    case h_2 =>
      rintro _ rfl
      exact h.unchanged rfl rfl
    rename_i plan hschedulable hplan
    have hidle : m.engine.state = .idle ∧ conditions.clock = true := by
      unfold schedulable at hschedulable
      simp only [Bool.and_eq_true] at hschedulable
      exact ⟨of_decide_eq_true hschedulable.1.2, hschedulable.1.1.1.1⟩
    have hrests : ∀ (c : LocalStartConditions) (d : Engine → Prop) (m' : Machine ω),
        Conditioned m c m' ∧ d m'.engine → Steps wiring (.schedule job start conditions) m m' :=
      fun c d m' h => hstays m' h.1.log h.1.epoch h.1.state hidle.1
    have hset : Triple (· = m) (update fun e => { e with conditions := { conditions with
        startAdjustmentNs := (1000 - start % 1000) % 1000 } }) fun _ m' =>
        Conditioned m { conditions with startAdjustmentNs := (1000 - start % 1000) % 1000 } m' ∧
          True := by
      rintro _ rfl
      exact ⟨⟨rfl, rfl, hidle.1, rfl⟩, trivial⟩
    refine hset.bind fun _ => Triple.ite
      (fun _ => Triple.pure fun m' h => hrests _ (fun _ => True) m' h) fun _ => ?_
    refine Triple.bind (conditioned_reads (fun _ => True) (reads_onWorld _))
      fun snapshot => ?_
    split
    · exact Triple.pure fun m' h => hrests _ (fun _ => True) m' h
    rename_i deadline hinverse
    refine Triple.bind (R := fun _ m' => Conditioned m { conditions with
        startAdjustmentNs := (1000 - start % 1000) % 1000 } m' ∧ m'.engine.deadlineNs = deadline)
      (fun m' h => ⟨⟨h.1.log, h.1.epoch, h.1.state, h.1.conditions⟩, rfl⟩) fun _ => ?_
    refine Triple.bind (conditioned_reads (·.deadlineNs = deadline)
      (wiring.projectStart_reads plan)) fun projected => Triple.ite
        (fun _ => Triple.pure fun m' h => hrests _ (·.deadlineNs = deadline) m' h) fun _ => ?_
    exact wiring.begin_mapped job start _ h.epochs hidle.1 hidle.2 rfl hinverse
  exact hschedule m rfl

theorem pollArmed_steps (hticks : Ticks wiring) (h : Chained wiring m) {plan : JobPlan}
    (harmed : m.engine.state = .armed) (hplan : m.engine.plan = some plan) :
    Steps wiring .poll m (wiring.pollArmed plan m).2 := by
  obtain ⟨hends, htime⟩ := wiring.pollArmed_ends hticks plan harmed h.epochs (h.armed harmed)
  refine hends.steps nofun fun newer x older hlog hq => ⟨rfl, .inl ⟨harmed, ⟨plan, hplan, hq⟩, ?_⟩⟩
  intro hclock hrequest hlate
  rcases htime with hfailed | hintime
  · exact hfailed
  · have hx : x ∈ newer ++ x :: older := List.mem_append_right _ List.mem_cons_self
    exact absurd hlate (UInt64.not_le.mpr (hintime hclock _ hlog x hx hrequest))

theorem pollRunning_steps (h : Chained wiring m) (plan : JobPlan)
    (hrunning : m.engine.state = .running) : Steps wiring .poll m
      ((if m.engine.phase = .tail then wiring.pollTail else wiring.pollRf plan) m).2 := by
  have hlaunched := h.running hrunning
  have honward : Onward m m := ⟨.refl h.epochs, .inl hrunning⟩
  have hends : Ends wiring m Resumes
      ((if m.engine.phase = .tail then wiring.pollTail else wiring.pollRf plan) m).2 := by
    split
    · exact wiring.pollTail_ends hlaunched m honward
    · exact wiring.pollRf_ends hlaunched plan m honward
  exact hends.steps nofun fun _ _ _ _ hq => ⟨rfl, .inr ⟨hrunning, hlaunched, hq⟩⟩

theorem poll_steps (hticks : Ticks wiring) (h : Chained wiring m) :
    Steps wiring .poll m (wiring.poll m).2 := by
  have hadvance : Triple (· = m) wiring.advance fun _ => Steps wiring .poll m := by
    refine engine_bind fun m' hm => ?_
    obtain rfl := hm.symm
    split
    · refine engine_bind fun m' hm => ?_
      obtain rfl := hm.symm
      rintro _ rfl
      exact h.calls _ rfl rfl (wiring.perform_onReference (a := .serviceReference _)
        (fun c => (true, wiring.platform.serviceReference _ c)) rfl _) rfl rfl rfl
    · rename_i plan hstate hplan
      rintro _ rfl
      exact wiring.pollArmed_steps hticks h hstate hplan
    · rename_i plan hstate hplan
      rintro _ rfl
      exact wiring.pollRunning_steps h plan hstate
    · rintro _ rfl
      exact h.unchanged (congrArg Engine.chain (wiring.nowNs_reads.engine _))
        (wiring.nowNs_reads.log _)
  have hafter : Steps wiring .poll m (wiring.advance m).2 := hadvance m rfl
  have hreport : Steps wiring .poll m (wiring.report (wiring.advance m).2).2 :=
    hafter.reads wiring.report_reads
  exact hreport

theorem disable_steps {command : Command ω} (deadline : UInt64) (h : Chained wiring m) :
    Steps wiring command m (wiring.disable deadline m).2 := by
  have hdead := wiring.disable_dead (Q := fun _ _ => False) deadline m (.refl h.epochs)
  refine Chained.stops hdead.trail ?_ fun _ => hdead.shut
  have hended : Ended (wiring.disable deadline m).2 := wiring.disable_ended m
  rcases hended with hs | hs | ⟨hs, -⟩
  · exact .inr (.inl hs)
  · exact .inr (.inr hs)
  · exact .inl hs

theorem inhibitOutput_steps {command : Command ω} (h : Chained wiring m) :
    Steps wiring command m (wiring.inhibitOutput m).2 := by
  have hcall : Calls wiring .inhibitReference (wiring.perform .inhibitReference do
      onWorld fun w => ((), wiring.platform.inhibitReference w)
      return true) :=
    wiring.perform_reads ((reads_onWorld _).bind_reads fun _ => Reads.pure true)
  exact h.calls { m with engine.inhibited := true } rfl rfl (hcall _) rfl rfl rfl

theorem setFrequencyCorrectionPpb_steps {command : Command ω} (value : Int) (h : Chained wiring m) :
    Steps wiring command m (setFrequencyCorrectionPpb value m).2 := by
  unfold setFrequencyCorrectionPpb
  simp only [bind, StateT.bind, engine]
  split
  · exact h.unchanged rfl rfl
  · exact h.unchanged rfl rfl

theorem prepare_steps {command : Command ω} (job : Job) (h : Chained wiring m) :
    Steps wiring command m (wiring.prepare job m).2 := by
  by_cases hidle : m.engine.state = .idle
  · exact h.passive hidle fun hI => hI.prepare job
  · unfold prepare
    simp only [bind, StateT.bind, engine]
    rw [if_pos (by simp [hidle])]
    exact h.unchanged rfl rfl

theorem suspendBackground_steps {command : Command ω} (deadline : UInt64) (h : Chained wiring m) :
    Steps wiring command m (wiring.suspendBackground deadline m).2 := by
  by_cases hidle : m.engine.state = .idle
  · exact h.passive hidle fun hI => hI.suspendBackground
  · unfold suspendBackground
    simp only [bind, StateT.bind, engine]
    rw [if_pos (by simp [hidle])]
    exact h.unchanged rfl rfl

theorem step_steps (hticks : Ticks wiring) (command : Command ω) (h : Chained wiring m) :
    Steps wiring command m (wiring.step command m) := by
  cases command with
  | setFrequencyCorrectionPpb value => exact wiring.setFrequencyCorrectionPpb_steps value h
  | prepare job => exact wiring.prepare_steps job h
  | schedule job start conditions => exact wiring.schedule_steps job start conditions h
  | begin job start => exact wiring.begin_steps job start h nofun
  | poll => exact wiring.poll_steps hticks h
  | disable deadline => exact wiring.disable_steps deadline h
  | inhibitOutput => exact wiring.inhibitOutput_steps h
  | suspendBackground deadline => exact wiring.suspendBackground_steps deadline h
  | resumeBackground => exact h.unchanged rfl rfl
  | elapse world acknowledged => exact h.unchanged rfl rfl

theorem run_chained (hticks : Ticks wiring) (commands : List (Command ω)) :
    ∀ {m : Machine ω}, Chained wiring m → Chained wiring (wiring.run m commands) := by
  induction commands with
  | nil => exact fun h => h
  | cons command rest ih => exact fun h => ih (wiring.step_steps hticks command h).1

/-- In every run the output of a job is put on the air by its launch, from a chain in
order, and every job that is missed or fails is shut down. -/
theorem chain_ordered (hticks : Ticks wiring) (hfresh : m.Fresh) (commands : List (Command ω))
    (command : Command ω) :
    Ordered wiring command (wiring.run m commands) (wiring.run m (commands ++ [command])) := by
  have hchained : Chained wiring m := by
    refine ⟨fun x hx => ?_, fun harmed => ?_, fun hrunning => ?_⟩
    · rw [hfresh.log] at hx
      cases hx
    · rw [hfresh.engine] at harmed
      cases harmed
    · rw [hfresh.engine] at hrunning
      cases hrunning
  have hstep := (wiring.step_steps hticks command (wiring.run_chained hticks commands hchained)).2
  unfold run at hstep ⊢
  rw [List.foldl_append]
  exact hstep

end Wiring

/-! ## A bench with a chain -/

namespace Bench

/-- The bench with an amplifier, and with filters that are required. -/
def chained : Wiring Bench where
  __ := wiring
  amplifier := some
    { output := some
        { initializeInactive := fun w => (true, w)
          write := fun _ w => (true, w)
          verifyActive := fun w => (true, w) }
      timing := {} }
  filters := some
    { settings := { required := true, outputs := [1], ranges := [⟨1, 14000000, 15000000⟩] }
      outputs := some
        { initializeInactive := fun w => (true, w)
          inactive := fun w => (true, w)
          activate := fun _ w => (true, w)
          verify := fun _ w => (true, w) } }

theorem chained_ticks : Ticks chained where
  reads w := ⟨UInt64.le_refl w.now, UInt64.le_refl w.now⟩
  setGate _ w := UInt64.le_refl w.now
  armCutoff _ w := UInt64.le_refl w.now
  write _ _ _ w := UInt64.le_refl w.now
  amplifier hamplifier houtput w := by
    cases hamplifier
    cases houtput
    exact ⟨fun _ => UInt64.le_refl w.now, UInt64.le_refl w.now⟩
  filters hbank houtputs w := by
    cases hbank
    cases houtputs
    exact ⟨UInt64.le_refl w.now, UInt64.le_refl w.now, fun _ =>
      ⟨UInt64.le_refl w.now, UInt64.le_refl w.now⟩⟩

/-- A poll when the filters are due, one when they may be selected, and one for the amplifier. -/
def approach : List (Command Bench) :=
  [759000000, 779000000, 799000000].foldl
    (fun commands now => commands ++ [reach now (chained.run { world := {} } commands), .poll])
    [.elapse {} 0, .disable 10000000, .prepare job, .schedule job 1000000000 conditions]

/-- A platform that does not open after 500 ms. -/
def closing : Wiring Bench where
  __ := wiring
  platform := { platform with initializePlatform := fun w => (w.now ≤ 500000000, w) }

/-- The engine armed for second 1, two seconds late. -/
def overdue : Machine Bench :=
  let armed := closing.run { world := {} } [.prepare job, .schedule job 1000000000 conditions]
  closing.step (reach 3000000000 armed) armed

end Bench

/-- The poll at the start launches the job: the filters are settled, and the amplifier leads. -/
theorem chain_ordered_bench :
    let commands := Bench.approach ++
      [Bench.reach 1000000000 (Bench.chained.run { world := {} } Bench.approach)]
    let before := Bench.chained.run { world := {} } commands
    let after := Bench.chained.run { world := {} } (commands ++ [.poll])
    (before.engine.state = .armed ∧ after.engine.state = .running) ∧
      Ordered Bench.chained .poll before after :=
  ⟨by decide +kernel, Bench.chained.chain_ordered Bench.chained_ticks ⟨rfl, rfl⟩ _ .poll⟩

/-- A missed job on a platform that does not open: its shutdown attempts no clock. -/
theorem closed_platform_keeps_clocks :
    let missed := Bench.closing.step .poll Bench.overdue
    Bench.overdue.engine.state = .armed ∧ missed.engine.state = .failed ∧
    (missed.log.take (missed.log.length - Bench.overdue.log.length)).map Entry.call =
      [(.pauseReference, true), (.setGate false, true), (.cancelCutoff, true),
        (.initializePlatform, false)] := by decide +kernel

end WsprryPico.Rf.Si5351
