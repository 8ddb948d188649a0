import Mathlib.Data.List.Induction
import WsprryPico.Rf.Worker
import WsprryPico.Wtp.Stop

/-!
# The rendezvous of the RF worker

Every run of the two cores: the calls, the commands executed, their completions and what
the calls return match one by one, and what is issued with the safety latch up is refused
behind an engine that was stopped.
-/

namespace WsprryPico.Rf.Worker

open Wtp

/-! ## Rounds -/

/-- The results of a command that the engine was not asked for. -/
def Execution.Refused (e : Execution) : Prop :=
  match e.command with
  | .prepare _ => e.prepared = {}
  | .schedule _ _ _ | .correct _ => e.result = false
  | _ => True

/-- The results of an execution, withdrawn where the latch came up behind it. -/
def Execution.outcome (cleared : Bool) (e : Execution) : PrepareResult × Bool :=
  match cleared, e.command with
  | true, .prepare _ => ({}, e.result)
  | true, .schedule _ _ _ => (e.prepared, false)
  | true, .correct _ => (e.prepared, false)
  | _, _ => (e.prepared, e.result)

/-- The command of the call was executed, and refused where the call came late. -/
structure Executes (i : Issue) (e : Execution) : Prop where
  command : i.call.command = some e.command
  unstopped : e.ran = true → e.stoppedBefore = false
  late : i.late = true → e.command.gated = true → e.ran = false ∧ e.Refused

/-- The execution was completed, by a stopped engine where the call came late. -/
structure Completes (i : Issue) (e : Execution) (c : Completion) : Prop where
  results : (c.reply.prepared, c.reply.result) = e.outcome c.cleared
  report : c.reply.report = c.reported
  metrics : e.command = .metrics → c.reply.metrics = c.metrics
  late : i.late = true → c.stopped = true

/-- One execution, one completion and one return for each issue, in the same order. -/
inductive Rounds :
    List Issue → List Execution → List Completion → List (Call × Answer) → Prop where
  | nil : Rounds [] [] [] []
  | round {i : Issue} {e : Execution} {c : Completion} {is : List Issue} {es : List Execution}
    {cs : List Completion} {rs : List (Call × Answer)} (he : Executes i e) (hc : Completes i e c)
    (h : Rounds is es cs rs) : Rounds (i :: is) (e :: es) (c :: cs)
      ((i.call, i.call.answer c.reply) :: rs)

/-! ## The state of the rendezvous -/

section State

variable {ω κ : Type}

/-- The worker is not serving a command. -/
def Free : WorkerPc → Prop
  | .probe | .stop | .poll | .await | .halted => True
  | _ => False

/-- The producer has not handed a command over. -/
def Quiet (mailbox : Mailbox κ) : ProducerPc → Prop
  | .idle => True
  | .staged c => c.command.isSome = true ∧ ∃ b : Mailbox κ, mailbox = c.stage b
  | .copied c => c.command.isSome = true ∧ mailbox.command = c.command
  | _ => False

/-- The worker has not executed the command handed over. -/
def Unserved (m : Machine ω κ) (late : Bool) : WorkerPc → Prop
  | .clock | .guard => True
  | .execute barred => (late = true → barred = true) ∧ (m.stopped = true → barred = true)
  | w => Free w

/-- The worker has executed the command and not replied. -/
def Unreplied (m : Machine ω κ) (late : Bool) (e : Execution) : WorkerPc → Prop
  | .probeAgain | .stopAgain => (m.reply.prepared, m.reply.result) = e.outcome false
  | .clear =>
    (m.reply.prepared, m.reply.result) = e.outcome false ∧ (late = true → m.stopped = true)
  | .report cleared =>
    (m.reply.prepared, m.reply.result) = e.outcome cleared ∧ (late = true → m.stopped = true)
  | .reply cleared reported =>
    (m.reply.prepared, m.reply.result) = e.outcome cleared ∧ m.reply.report = reported ∧
      (late = true → m.stopped = true)
  | .halted => True
  | _ => False

/-- A call handed over to the worker, with the rounds before it. -/
structure Given (m : Machine ω κ) (c : Call) (late : Bool) (is : List Issue)
    (es : List Execution) (ks : List Completion) : Prop where
  issued : m.issued = ⟨c, late⟩ :: is
  executed : m.executed = es
  completed : m.completed = ks
  producer : m.producer = .waiting c ∨ m.producer = .aborted
  phase : m.phase = .consumer
  command : m.mailbox.command = c.command
  late : late = true → m.inhibited = true

/-- The reply stands in the mailbox, and the producer is on its way to return it. -/
def Taking (m : Machine ω κ) (c : Call) : Prop :=
  (m.phase = .completed ∧
    (m.producer = .waiting c ∨ m.producer = .finished c ∨ m.producer = .aborted)) ∨
  (m.phase = .producer ∧ m.producer = .released c)

/-- Where the two cores are, with the rounds that are over. -/
inductive Stands (m : Machine ω κ) :
    List Issue → List Execution → List Completion → Prop where
  | quiet (hproducer : Quiet m.mailbox m.producer) (hphase : m.phase = .producer)
    (hworker : Free m.worker) : Stands m m.issued m.executed m.completed
  | issued {c : Call} {late : Bool} {is : List Issue} {es : List Execution}
    {ks : List Completion} (hgiven : Given m c late is es ks)
    (hworker : Unserved m late m.worker) : Stands m is es ks
  | executed {c : Call} {late : Bool} {e : Execution} {is : List Issue} {es : List Execution}
    {ks : List Completion} (hgiven : Given m c late is (e :: es) ks) (he : Executes ⟨c, late⟩ e)
    (hworker : Unreplied m late e m.worker) : Stands m is es ks
  | completed {c : Call} {late : Bool} {e : Execution} {k : Completion} {is : List Issue}
    {es : List Execution} {ks : List Completion}
    (hissued : m.issued = ⟨c, late⟩ :: is) (hexecuted : m.executed = e :: es)
    (hcompleted : m.completed = k :: ks) (he : Executes ⟨c, late⟩ e)
    (hk : Completes ⟨c, late⟩ e k) (hreply : m.reply = k.reply) (htaking : Taking m c)
    (hworker : Free m.worker) : Stands m is es ks

/-- What every step keeps. -/
structure Sound (m : Machine ω κ) : Prop where
  stands : ∃ is es ks, Stands m is es ks ∧ Rounds is es ks m.returned
  stopped : m.stopped = true → m.inhibited = true
  observed : ∀ n, m.observed = some n → m.inhibited = true ∧ n ≤ m.issued.length ∧
    ∀ i ∈ m.issued.take (m.issued.length - n), i.late = true

theorem initial_sound (world : ω) (clock : κ) : Sound (initial world clock) := by
  refine ⟨⟨[], [], [], ?_, .nil⟩, nofun, nofun⟩
  exact .quiet trivial rfl trivial

variable {m : Machine ω κ} {is : List Issue} {es : List Execution} {ks : List Completion}

theorem Given.frame {c : Call} {late : Bool} (h : Given m c late is es ks) {world : ω} {clock : κ}
    {reply : Reply} {inhibited stopped suspended : Bool} {workerState : EngineState}
    {metrics : Metrics} {worker : WorkerPc} {returned : List (Call × Answer)}
    {declined : List Call} {observed : Option Nat}
    (hup : m.inhibited = true → inhibited = true) :
    Given { m with
      world := world, clock := clock, reply := reply, inhibited := inhibited, stopped := stopped
      suspended := suspended, workerState := workerState, metrics := metrics, worker := worker
      returned := returned, declined := declined, observed := observed } c late is es ks :=
  ⟨h.issued, h.executed, h.completed, h.producer, h.phase, h.command, fun hl => hup (h.late hl)⟩

/-- Members that the rendezvous does not depend on. -/
theorem Stands.frame (h : Stands m is es ks) {world : ω} {clock : κ} {inhibited suspended : Bool}
    {workerState : EngineState} {metrics : Metrics} {returned : List (Call × Answer)}
    {declined : List Call} {observed : Option Nat}
    (hup : m.inhibited = true → inhibited = true) :
    Stands { m with
      world := world, clock := clock, inhibited := inhibited, suspended := suspended
      workerState := workerState, metrics := metrics, returned := returned, declined := declined
      observed := observed } is es ks := by
  cases h with
  | quiet hproducer hphase hworker => exact .quiet hproducer hphase hworker
  | issued hgiven hworker => exact .issued (hgiven.frame hup) hworker
  | executed hgiven he hworker => exact .executed (hgiven.frame hup) he hworker
  | completed hissued hexecuted hcompleted he hk hreply htaking hworker =>
    exact .completed hissued hexecuted hcompleted he hk hreply htaking hworker

theorem unserved_of_free {late : Bool} {w : WorkerPc} (h : Free w) : Unserved m late w := by
  cases w with
  | probe | stop | poll | await | halted => trivial
  | _ => exact h.elim

theorem Stands.free (h : Stands m is es ks) (hworker : Free m.worker) (hlive : m.worker ≠ .halted)
    {world : ω} {inhibited stopped : Bool} {metrics : Metrics} {workerState : EngineState}
    {worker : WorkerPc} (hup : m.inhibited = true → inhibited = true) (hnext : Free worker) :
    Stands { m with
      world := world, inhibited := inhibited, stopped := stopped, metrics := metrics
      workerState := workerState, worker := worker } is es ks := by
  cases h with
  | quiet hproducer hphase _ => exact .quiet hproducer hphase hnext
  | issued hgiven _ => exact .issued (hgiven.frame hup) (unserved_of_free hnext)
  | executed hgiven he hserved =>
    -- a worker that has executed a command is not between two commands
    generalize hw : m.worker = w at hworker hlive hserved
    cases w with
    | probe | stop | poll | await => exact hserved.elim
    | halted => exact absurd rfl hlive
    | _ => exact hworker.elim
  | completed hissued hexecuted hcompleted he hk hreply htaking _ =>
    exact .completed hissued hexecuted hcompleted he hk hreply htaking hnext

/-! ## The producer -/

theorem op_eq (c : Call) : c.op.isNone = c.command.isNone := by
  cases c with
  | schedule job instant conditions own => cases own <;> rfl
  | _ => rfl

theorem stage_command {c : Call} (b : Mailbox κ) (clock : κ) (h : c.command.isSome = true) :
    ({ c.stage b with stagedClock := clock, op := c.op.getD .inspect } : Mailbox κ).command =
      c.command := by
  cases c with
  | schedule job instant conditions own =>
    cases own with
    | true => rfl
    | false => exact nomatch h
  | begin job start => exact nomatch h
  | _ => rfl

theorem start_sound (c : Call) (h : Sound m) : Sound (m.start c) := by
  obtain ⟨is, es, ks, hstands, hrounds⟩ := h.stands
  unfold Machine.start
  split
  · rename_i hidle
    split
    · exact ⟨⟨is, es, ks, hstands.frame id, hrounds⟩, h.stopped, h.observed⟩
    · rename_i hsome
      rw [op_eq, Option.isNone_iff_eq_none, ← ne_eq, Option.ne_none_iff_isSome] at hsome
      cases hstands with
      | quiet hproducer hphase hworker =>
        exact ⟨⟨_, _, _, .quiet ⟨hsome, _, rfl⟩ hphase hworker, hrounds⟩, h.stopped, h.observed⟩
      | issued hgiven _ => simpa [hidle] using hgiven.producer
      | executed hgiven _ _ => simpa [hidle] using hgiven.producer
      | completed _ _ _ _ _ _ htaking _ => simp [Taking, hidle] at htaking
  · exact h

theorem produce_sound (timedOut : Bool) (h : Sound m) : Sound (m.produce timedOut) := by
  obtain ⟨is, es, ks, hstands, hrounds⟩ := h.stands
  unfold Machine.produce
  split
  · exact h
  · exact h
  · -- the check for an abandoned command, and the rest of the payload
    rename_i c hstaged
    cases hstands with
    | quiet hproducer hphase hworker =>
      rw [hstaged] at hproducer
      obtain ⟨hsome, b, hmailbox⟩ := hproducer
      rw [if_neg (not_not.mpr hphase)]
      refine ⟨⟨_, _, _, .quiet ⟨hsome, ?_⟩ hphase hworker, hrounds⟩, h.stopped, h.observed⟩
      rw [hmailbox]
      exact stage_command b m.clock hsome
    | issued hgiven _ => simpa [hstaged] using hgiven.producer
    | executed hgiven _ _ => simpa [hstaged] using hgiven.producer
    | completed _ _ _ _ _ _ htaking _ => simp [Taking, hstaged] at htaking
  · -- the hand-over
    rename_i c hcopied
    cases hstands with
    | quiet hproducer hphase hworker =>
      rw [hcopied] at hproducer
      let m' : Machine ω κ :=
        { m with
          phase := .consumer, producer := .waiting c, issued := ⟨c, m.inhibited⟩ :: m.issued }
      have hgiven : Given m' c m.inhibited m.issued m.executed m.completed :=
        ⟨rfl, rfl, rfl, .inl rfl, rfl, hproducer.2, id⟩
      refine ⟨⟨_, _, _, .issued hgiven (unserved_of_free hworker), hrounds⟩, h.stopped,
        fun n hn => ?_⟩
      obtain ⟨hup, hle, hall⟩ := h.observed n hn
      refine ⟨hup, Nat.le_succ_of_le hle, fun i hi => ?_⟩
      rw [List.length_cons, Nat.succ_sub hle, List.take_succ_cons] at hi
      rcases List.mem_cons.mp hi with rfl | hi
      · exact hup
      · exact hall i hi
    | issued hgiven _ => simpa [hcopied] using hgiven.producer
    | executed hgiven _ _ => simpa [hcopied] using hgiven.producer
    | completed _ _ _ _ _ _ htaking _ => simp [Taking, hcopied] at htaking
  · rename_i c hwaiting
    have hmove : ∀ next : ProducerPc, next = .aborted ∨ m.phase = .completed ∧ next = .finished c →
        Stands { m with producer := next } is es ks := by
      intro next hnext
      cases hstands with
      | quiet hproducer _ _ =>
        rw [hwaiting] at hproducer
        exact hproducer.elim
      | issued hgiven hworker =>
        have hnext := hnext.resolve_right fun h => by simp [hgiven.phase] at h
        exact .issued ⟨hgiven.issued, hgiven.executed, hgiven.completed, .inr hnext, hgiven.phase,
          hgiven.command, hgiven.late⟩ hworker
      | executed hgiven he hworker =>
        have hnext := hnext.resolve_right fun h => by simp [hgiven.phase] at h
        exact .executed ⟨hgiven.issued, hgiven.executed, hgiven.completed, .inr hnext,
          hgiven.phase, hgiven.command, hgiven.late⟩ he hworker
      | completed hissued hexecuted hcompleted he hk hreply htaking hworker =>
        refine .completed hissued hexecuted hcompleted he hk hreply ?_ hworker
        rcases htaking with ⟨hphase, hproducer⟩ | ⟨_, hproducer⟩
        · obtain rfl : c = _ := by simpa [hwaiting] using hproducer
          exact .inl ⟨hphase, .inr (hnext.symm.imp_left And.right)⟩
        · simp [hwaiting] at hproducer
    split
    · rename_i hphase
      exact ⟨⟨is, es, ks, hmove _ (.inr ⟨hphase, rfl⟩), hrounds⟩, h.stopped, h.observed⟩
    · split
      · exact ⟨⟨is, es, ks, hmove _ (.inl rfl), hrounds⟩, h.stopped, h.observed⟩
      · exact h
  · rename_i c hfinished
    cases hstands with
    | quiet hproducer _ _ =>
      rw [hfinished] at hproducer
      exact hproducer.elim
    | issued hgiven _ => simpa [hfinished] using hgiven.producer
    | executed hgiven _ _ => simpa [hfinished] using hgiven.producer
    | completed hissued hexecuted hcompleted he hk hreply htaking hworker =>
      have hc := htaking
      simp only [Taking, hfinished, reduceCtorEq, ProducerPc.finished.injEq, false_or, or_false,
        and_false] at hc
      obtain ⟨-, rfl⟩ := hc
      exact ⟨⟨is, es, ks, .completed hissued hexecuted hcompleted he hk hreply
        (.inr ⟨rfl, rfl⟩) hworker, hrounds⟩, h.stopped, h.observed⟩
  · -- the result is read, and the round is over
    rename_i c hreleased
    cases hstands with
    | quiet hproducer _ _ =>
      rw [hreleased] at hproducer
      exact hproducer.elim
    | issued hgiven _ => simpa [hreleased] using hgiven.producer
    | executed hgiven _ _ => simpa [hreleased] using hgiven.producer
    | completed hissued hexecuted hcompleted he hk hreply htaking hworker =>
      have hc := htaking
      simp only [Taking, hreleased, reduceCtorEq, ProducerPc.released.injEq, or_false, and_false,
        false_or] at hc
      obtain ⟨hphase, rfl⟩ := hc
      refine ⟨⟨_, _, _, .quiet trivial hphase hworker, ?_⟩, h.stopped, h.observed⟩
      rw [hissued, hexecuted, hcompleted, hreply]
      exact .round he hk hrounds

/-! ## The worker -/

/-- A worker that serves a command has been handed one. -/
theorem Stands.handed (h : Stands m is es ks) (hworker : ¬ Free m.worker) :
    (∃ c late, Given m c late is es ks ∧ Unserved m late m.worker) ∨
    (∃ c late e, Given m c late is (e :: es) ks ∧ Executes ⟨c, late⟩ e ∧
      Unreplied m late e m.worker) := by
  cases h with
  | quiet _ _ hfree => exact absurd hfree hworker
  | issued hgiven hserved => exact .inl ⟨_, _, hgiven, hserved⟩
  | executed hgiven he hserved => exact .inr ⟨_, _, _, hgiven, he, hserved⟩
  | completed _ _ _ _ _ _ _ hfree => exact absurd hfree hworker

/-- A worker past the call of the engine serves an executed command. -/
theorem Stands.past {w : WorkerPc} (hw : m.worker = w) (h : Stands m is es ks) (hfree : ¬ Free w)
    (hserved : ∀ late, ¬ Unserved m late w) :
    ∃ c late e, Given m c late is (e :: es) ks ∧ Executes ⟨c, late⟩ e ∧ Unreplied m late e w := by
  subst hw
  exact (h.handed hfree).resolve_left fun ⟨_, late, _, hunserved⟩ => hserved late hunserved

/-- The safety check goes on, halts, or goes on with the engine stopped. -/
theorem safetyStop_cases (inner : Inner ω κ) (now after : UInt64) (next : WorkerPc)
    (m : Machine ω κ) :
    (m.inhibited = false ∧ m.safetyStop inner now after next = { m with worker := next }) ∨
    (m.inhibited = true ∧ ∃ world,
      m.safetyStop inner now after next = { m with world := world, worker := .halted }) ∨
    (m.inhibited = true ∧ ∃ world metrics, m.safetyStop inner now after next =
      { m with world := world, stopped := true, metrics := metrics, worker := next }) := by
  unfold Machine.safetyStop
  cases hup : m.inhibited with
  | false => exact .inl ⟨rfl, rfl⟩
  | true =>
    simp only [Bool.not_true, Bool.false_eq_true, if_false, true_and]
    split
    · rename_i hstopped
      refine .inr (.inr ⟨inner.engine.inhibitOutput m.world, m.metrics, ?_⟩)
      rw [← hstopped]
    · split
      · exact .inr (.inl ⟨_, rfl⟩)
      · split
        · exact .inr (.inl ⟨_, rfl⟩)
        · exact .inr (.inr ⟨_, _, rfl⟩)

theorem effect_ran {inner : Inner ω κ} {barred : Bool} {command : Command}
    (h : (m.effect inner barred command).1 = true) : barred = false := by
  by_contra hbarred
  rw [Bool.not_eq_false] at hbarred
  subst hbarred
  cases command with
  | suspend instant =>
    simp only [Machine.effect] at h
    split at h
    · cases h
    · split at h <;> exact nomatch h
  | _ => exact nomatch h

theorem effect_refused (inner : Inner ω κ) (command : Command) (stopped : Bool)
    (hgated : command.gated = true) :
    Execution.Refused ⟨command, (m.effect inner true command).1, stopped,
      (m.effect inner true command).2.1, (m.effect inner true command).2.2.1⟩ := by
  cases command with
  | prepare _ | schedule _ _ _ | correct _ => rfl
  | _ => exact nomatch hgated

theorem outcome_kept (e : Execution) : e.outcome false = (e.prepared, e.result) := by
  unfold Execution.outcome
  split <;> simp_all

theorem outcome_cleared {b : Mailbox κ} {e : Execution} (h : b.command = some e.command) :
    e.outcome true = (if b.op = .prepare then {} else e.prepared,
      if b.op = .schedule ∨ b.op = .correct then false else e.result) := by
  unfold Mailbox.command at h
  cases hop : b.op with
  | prepare | schedule =>
    rw [hop, Option.map_eq_some_iff] at h
    obtain ⟨job, -, hcommand⟩ := h
    simp [Execution.outcome, ← hcommand]
  | _ =>
    rw [hop] at h
    simp [Execution.outcome, ← Option.some.inj h]

theorem command_metrics {b : Mailbox κ} (h : b.command = some .metrics) : b.op = .metrics := by
  unfold Mailbox.command at h
  cases hop : b.op with
  | metrics => rfl
  | prepare | schedule =>
    rw [hop, Option.map_eq_some_iff] at h
    obtain ⟨job, -, hcommand⟩ := h
    cases hcommand
  | _ =>
    rw [hop] at h
    cases h

/-- The safety check keeps what it does not change. -/
theorem safetyStop_sound (inner : Inner ω κ) (now after : UInt64) {next : WorkerPc} (h : Sound m)
    (hgo : ∀ {is es ks}, Stands m is es ks → ∀ (world : ω) (stopped : Bool) (metrics : Metrics)
      (worker : WorkerPc),
      worker = .halted ∨ worker = next ∧ (m.inhibited = true → stopped = true) →
      Stands { m with world := world, stopped := stopped, metrics := metrics, worker := worker }
        is es ks) : Sound (m.safetyStop inner now after next) := by
  obtain ⟨is, es, ks, hstands, hrounds⟩ := h.stands
  rcases safetyStop_cases inner now after next m with
    ⟨hdown, heq⟩ | ⟨hup, world, heq⟩ | ⟨hup, world, metrics, heq⟩ <;> rw [heq]
  · refine ⟨⟨is, es, ks, ?_, hrounds⟩, h.stopped, h.observed⟩
    exact hgo hstands m.world m.stopped m.metrics next
      (.inr ⟨rfl, fun hup => absurd (hdown.symm.trans hup) Bool.false_ne_true⟩)
  · refine ⟨⟨is, es, ks, ?_, hrounds⟩, h.stopped, h.observed⟩
    exact hgo hstands world m.stopped m.metrics .halted (.inl rfl)
  · refine ⟨⟨is, es, ks, ?_, hrounds⟩, fun _ => hup, h.observed⟩
    exact hgo hstands world true metrics next (.inr ⟨rfl, fun _ => rfl⟩)

theorem execute_sound (inner : Inner ω κ) {barred : Bool} (hw : m.worker = .execute barred)
    (h : Sound m) : Sound (m.execute inner barred) := by
  obtain ⟨is, es, ks, hstands, hrounds⟩ := h.stands
  rcases hstands.handed (by rw [hw]; exact id) with
    ⟨c, late, hgiven, hserved⟩ | ⟨c, late, e, hgiven, -, hserved⟩ <;> rw [hw] at hserved
  · obtain ⟨hlate, hstopped⟩ := hserved
    unfold Machine.execute
    split
    · exact ⟨⟨is, es, ks, .issued (hgiven.frame id) trivial, hrounds⟩, h.stopped, h.observed⟩
    · rename_i command hcommand
      let r := m.effect inner barred command
      let e : Execution := ⟨command, r.1, m.stopped, r.2.1, r.2.2.1⟩
      have he : Executes ⟨c, late⟩ e := by
        refine ⟨hgiven.command.symm.trans hcommand, fun hran => ?_, fun hl hgated => ?_⟩
        · have hbarred := effect_ran hran
          exact Bool.eq_false_iff.mpr fun hs => by simp [hstopped hs] at hbarred
        · obtain rfl := hlate hl
          refine ⟨Bool.eq_false_iff.mpr fun hran => ?_, effect_refused inner command _ hgated⟩
          cases effect_ran hran
      let m' : Machine ω κ :=
        { m with
          world := r.2.2.2.2, suspended := r.2.2.2.1
          reply := { m.reply with prepared := r.2.1, result := r.2.2.1 }
          worker := .probeAgain, executed := e :: m.executed }
      have hgiven : Given m' c late is (e :: es) ks :=
        ⟨hgiven.issued, congrArg _ hgiven.executed, hgiven.completed, hgiven.producer,
          hgiven.phase, hgiven.command, hgiven.late⟩
      exact ⟨⟨is, es, ks, .executed hgiven he (outcome_kept e).symm, hrounds⟩, h.stopped,
        h.observed⟩
  · exact hserved.elim

theorem clear_sound (hw : m.worker = .clear) (h : Sound m) : Sound m.clearResults := by
  obtain ⟨is, es, ks, hstands, hrounds⟩ := h.stands
  obtain ⟨c, late, e, hgiven, he, hserved⟩ := hstands.past hw id fun _ => id
  obtain ⟨hreply, hstopped⟩ := hserved
  unfold Machine.clearResults
  split
  · exact ⟨⟨is, es, ks, .executed (hgiven.frame id) he ⟨hreply, hstopped⟩, hrounds⟩,
      h.stopped, h.observed⟩
  · refine ⟨⟨is, es, ks, .executed (hgiven.frame id) he ⟨?_, hstopped⟩, hrounds⟩,
      h.stopped, h.observed⟩
    have hprepared : m.reply.prepared = e.prepared ∧ m.reply.result = e.result := by
      simpa [outcome_kept] using hreply
    rw [outcome_cleared (hgiven.command.trans he.command), hprepared.1, hprepared.2]

theorem serve_sound (inner : Inner ω κ) (probe : Bool) (now after : UInt64) (h : Sound m) :
    Sound (m.serve inner probe now after) := by
  obtain ⟨is, es, ks, hstands, hrounds⟩ := h.stands
  have hprobe : m.inhibited = true → (m.inhibited || probe) = true := fun hup => by simp [hup]
  have hobserved : ∀ n, m.observed = some n → (m.inhibited || probe) = true ∧
      n ≤ m.issued.length ∧ ∀ i ∈ m.issued.take (m.issued.length - n), i.late = true :=
    fun n hn => (h.observed n hn).imp_left hprobe
  cases hw : m.worker with
  | probe =>
    simp only [Machine.serve, hw]
    exact ⟨⟨is, es, ks, hstands.free (by rw [hw]; trivial) (by simp [hw]) hprobe trivial, hrounds⟩,
      fun hs => hprobe (h.stopped hs), hobserved⟩
  | stop =>
    simp only [Machine.serve, hw]
    refine safetyStop_sound inner now after h fun hstands world stopped metrics worker hnext => ?_
    refine hstands.free (by rw [hw]; trivial) (by simp [hw]) id ?_
    rcases hnext with rfl | ⟨rfl, -⟩ <;> trivial
  | poll =>
    simp only [Machine.serve, hw]
    exact ⟨⟨is, es, ks, hstands.free (by rw [hw]; trivial) (by simp [hw]) id trivial, hrounds⟩,
      h.stopped, h.observed⟩
  | await =>
    simp only [Machine.serve, hw]
    refine ⟨⟨is, es, ks, ?_, hrounds⟩, h.stopped, h.observed⟩
    split
    · rename_i hphase
      cases hstands with
      | quiet _ hquiet _ => simp [hphase] at hquiet
      | issued hgiven _ => exact .issued (hgiven.frame id) trivial
      | executed _ _ hserved =>
        rw [hw] at hserved
        exact hserved.elim
      | completed _ _ _ _ _ _ htaking _ => simp [Taking, hphase] at htaking
    · exact hstands.free (by rw [hw]; trivial) (by simp [hw]) id trivial
  | clock | guard =>
    simp only [Machine.serve, hw]
    rcases hstands.handed (by rw [hw]; exact id) with
      ⟨c, late, hgiven, hserved⟩ | ⟨c, late, e, hgiven, -, hserved⟩ <;> rw [hw] at hserved
    · refine ⟨⟨is, es, ks, .issued (hgiven.frame id) ?_, hrounds⟩, h.stopped, h.observed⟩
      first
        | trivial
        | exact ⟨hgiven.late, h.stopped⟩
    · exact hserved.elim
  | execute barred =>
    simp only [Machine.serve, hw]
    exact execute_sound inner hw h
  | probeAgain =>
    simp only [Machine.serve, hw]
    obtain ⟨c, late, e, hgiven, he, hserved⟩ := hstands.past hw id fun _ => id
    exact ⟨⟨is, es, ks, .executed (hgiven.frame hprobe) he hserved, hrounds⟩,
      fun hs => hprobe (h.stopped hs), hobserved⟩
  | stopAgain =>
    simp only [Machine.serve, hw]
    refine safetyStop_sound inner now after h fun hstands world stopped metrics worker hnext => ?_
    obtain ⟨c, late, e, hgiven, he, hserved⟩ := hstands.past hw id fun _ => id
    refine .executed (hgiven.frame id) he ?_
    rcases hnext with rfl | ⟨rfl, hstopped⟩
    · trivial
    · exact ⟨hserved, fun hl => hstopped (hgiven.late hl)⟩
  | clear =>
    simp only [Machine.serve, hw]
    exact clear_sound hw h
  | report cleared =>
    simp only [Machine.serve, hw]
    obtain ⟨c, late, e, hgiven, he, hserved⟩ := hstands.past hw id fun _ => id
    exact ⟨⟨is, es, ks, .executed (hgiven.frame id) he ⟨hserved.1, rfl, hserved.2⟩, hrounds⟩,
      h.stopped, h.observed⟩
  | reply cleared reported =>
    simp only [Machine.serve, hw]
    obtain ⟨c, late, e, hgiven, he, hserved⟩ := hstands.past hw id fun _ => id
    obtain ⟨hresults, hreport, hstopped⟩ := hserved
    refine ⟨⟨is, es, ks, .completed hgiven.issued hgiven.executed (congrArg _ hgiven.completed)
      he ⟨?_, ?_, fun hmetrics => ?_, hstopped⟩ rfl (.inl ⟨rfl, ?_⟩) trivial, hrounds⟩,
      h.stopped, h.observed⟩
    · rw [← hresults]
      split <;> rfl
    · rw [← hreport]
      split <;> rfl
    · rw [if_pos (command_metrics (hmetrics ▸ hgiven.command.trans he.command))]
    · exact hgiven.producer.imp_right .inr
  | halted =>
    simp only [Machine.serve, hw]
    exact h

theorem step_sound (inner : Inner ω κ) (label : Label ω κ) (h : Sound m) :
    Sound (step inner m label) := by
  cases label with
  | start c => exact start_sound c h
  | produce timedOut => exact produce_sound timedOut h
  | serve probe now after => exact serve_sound inner probe now after h
  | latch =>
    obtain ⟨is, es, ks, hstands, hrounds⟩ := h.stands
    exact ⟨⟨is, es, ks, hstands.frame fun _ => rfl, hrounds⟩, fun _ => rfl,
      fun n hn => ⟨rfl, (h.observed n hn).2⟩⟩
  | observe =>
    obtain ⟨is, es, ks, hstands, hrounds⟩ := h.stands
    refine ⟨⟨is, es, ks, hstands.frame id, hrounds⟩, h.stopped, fun n hn => ?_⟩
    simp only [step, Machine.observe] at hn ⊢
    split at hn
    · rename_i hup
      cases hseen : m.observed with
      | some seen =>
        rw [hseen] at hn
        exact Option.some.inj hn ▸ h.observed seen hseen
      | none =>
        rw [hseen] at hn
        obtain rfl : m.issued.length = n := Option.some.inj hn
        simp [hup]
    · exact h.observed n hn
  | clock f | world f =>
    obtain ⟨is, es, ks, hstands, hrounds⟩ := h.stands
    exact ⟨⟨is, es, ks, hstands.frame id, hrounds⟩, h.stopped, h.observed⟩

theorem run_sound (inner : Inner ω κ) (world : ω) (clock : κ) (labels : List (Label ω κ)) :
    Sound (run inner world clock labels) := by
  unfold run
  induction labels using List.reverseRecOn with
  | nil => exact initial_sound world clock
  | append_singleton labels label ih =>
    rw [List.foldl_append]
    exact step_sound inner label ih

/-! ## Where the engine was stopped -/

/-- The engine is disabled as the safety check asks for it, and its output is off. -/
def Disables (inner : Inner ω κ) (now : UInt64) (m : Machine ω κ) : Prop :=
  let stopped := inner.engine.disable (now + 100000000) (inner.engine.inhibitOutput m.world)
  m.inhibited = true ∧ stopped.1 = true ∧ (inner.engine.outputActive stopped.2).1 = false

theorem safetyStop_disables {inner : Inner ω κ} {now after : UInt64} {next : WorkerPc}
    (h : (m.safetyStop inner now after next).stopped = true) :
    m.stopped = true ∨ Disables inner now m := by
  unfold Machine.safetyStop at h
  split at h
  · exact .inl h
  · rename_i hup
    dsimp only at h
    split at h
    · exact .inl ‹_›
    · split at h
      · exact .inl h
      · rename_i hdisable
        split at h
        · exact .inl h
        · rename_i hinactive
          refine .inr ⟨by simpa using hup, ?_, ?_⟩
          · rw [hdisable]
          · rw [hdisable, hinactive]

/-- The engine was stopped, or a command was completed with the engine stopped. -/
def Marked (m : Machine ω κ) : Prop :=
  m.stopped = true ∨ ∃ k ∈ m.completed, k.stopped = true

theorem execute_marked (inner : Inner ω κ) (barred : Bool) :
    (m.execute inner barred).stopped = m.stopped ∧
      (m.execute inner barred).completed = m.completed := by
  unfold Machine.execute
  split <;> exact ⟨rfl, rfl⟩

theorem safetyStop_completed (inner : Inner ω κ) (now after : UInt64) (next : WorkerPc) :
    (m.safetyStop inner now after next).completed = m.completed := by
  rcases safetyStop_cases inner now after next m with ⟨-, heq⟩ | ⟨-, _, heq⟩ | ⟨-, _, _, heq⟩ <;>
    rw [heq]

theorem serve_marked {inner : Inner ω κ} {probe : Bool} {now after : UInt64}
    (h : Marked (m.serve inner probe now after)) :
    Marked m ∨ (m.worker = .stop ∨ m.worker = .stopAgain) ∧ Disables inner now m := by
  unfold Machine.serve at h
  cases hw : m.worker with
  | stop | stopAgain =>
    simp only [hw, Marked, safetyStop_completed] at h
    rcases h with hstopped | hcompleted
    · rcases safetyStop_disables hstopped with hstopped | hdisables
      · exact .inl (.inl hstopped)
      · exact .inr ⟨by simp, hdisables⟩
    · exact .inl (.inr hcompleted)
  | execute barred =>
    simp only [hw, Marked, execute_marked] at h
    exact .inl h
  | clear =>
    simp only [hw, Marked, Machine.clearResults] at h
    split at h <;> exact .inl h
  | reply cleared reported =>
    simp only [hw, Marked, List.mem_cons, exists_eq_or_imp] at h
    rcases h with hstopped | hstopped | hcompleted
    · exact .inl (.inl hstopped)
    · exact .inl (.inl hstopped)
    · exact .inl (.inr hcompleted)
  | _ =>
    simp only [hw, Marked] at h
    exact .inl h

theorem produce_marked (timedOut : Bool) : Marked (m.produce timedOut) ↔ Marked m := by
  unfold Machine.produce Marked
  split
  · rfl
  · rfl
  · split <;> rfl
  · rfl
  · split
    · rfl
    · split <;> rfl
  · rfl
  · rfl

/-- The run has a step of the worker, at one of its two safety stops, that stopped the engine. -/
def EngineStopped (inner : Inner ω κ) (world : ω) (clock : κ) (labels : List (Label ω κ)) : Prop :=
  ∃ before probe now after rest, labels = before ++ .serve probe now after :: rest ∧
    let m := run inner world clock before
    (m.worker = .stop ∨ m.worker = .stopAgain) ∧ Disables inner now m

theorem run_stopped {inner : Inner ω κ} {world : ω} {clock : κ} {labels : List (Label ω κ)}
    (h : Marked (run inner world clock labels)) : EngineStopped inner world clock labels := by
  induction labels using List.reverseRecOn with
  | nil => simp [run, initial, Marked] at h
  | append_singleton labels label ih =>
    have hrun : run inner world clock (labels ++ [label]) =
        step inner (run inner world clock labels) label := by
      simp [run]
    rw [hrun] at h
    have hcases : Marked (run inner world clock labels) ∨ ∃ probe now after,
        label = .serve probe now after ∧
          ((run inner world clock labels).worker = .stop ∨
            (run inner world clock labels).worker = .stopAgain) ∧
          Disables inner now (run inner world clock labels) := by
      cases label with
      | start c =>
        refine .inl ?_
        simp only [step, Machine.start] at h
        split at h
        · split at h <;> exact h
        · exact h
      | produce timedOut => exact .inl ((produce_marked timedOut).mp h)
      | serve probe now after =>
        exact (serve_marked h).imp_right fun hd => ⟨probe, now, after, rfl, hd⟩
      | _ => exact .inl h
    rcases hcases with hmarked | ⟨probe, now, after, rfl, hdisables⟩
    · obtain ⟨before, probe, now, after, rest, rfl, hdisables⟩ := ih hmarked
      exact ⟨before, probe, now, after, rest ++ [label], by simp, hdisables⟩
    · exact ⟨labels, probe, now, after, [], rfl, hdisables⟩

/-! ## Calls without a command -/

theorem produce_declined (timedOut : Bool) :
    (m.produce timedOut).declined = m.declined := by
  unfold Machine.produce
  split
  · rfl
  · rfl
  · split <;> rfl
  · rfl
  · split
    · rfl
    · split <;> rfl
  · rfl
  · rfl

theorem serve_declined (inner : Inner ω κ) (probe : Bool) (now after : UInt64) :
    (m.serve inner probe now after).declined = m.declined := by
  have hstop : ∀ next, (m.safetyStop inner now after next).declined = m.declined := fun next => by
    rcases safetyStop_cases inner now after next m with
      ⟨-, heq⟩ | ⟨-, _, heq⟩ | ⟨-, _, _, heq⟩ <;> rw [heq]
  unfold Machine.serve
  cases hw : m.worker with
  | stop => exact hstop .poll
  | stopAgain => exact hstop .clear
  | execute barred =>
    simp only [Machine.execute]
    split <;> rfl
  | clear =>
    simp only [Machine.clearResults]
    split <;> rfl
  | _ => rfl

theorem run_declined (inner : Inner ω κ) (world : ω) (clock : κ) (labels : List (Label ω κ)) :
    ∀ c ∈ (run inner world clock labels).declined, c.command = none := by
  induction labels using List.reverseRecOn with
  | nil => simp [run, initial]
  | append_singleton labels label ih =>
    rw [run, List.foldl_append]
    change ∀ c ∈ (step inner (run inner world clock labels) label).declined, c.command = none
    cases label with
    | start call =>
      simp only [step, Machine.start]
      split
      · split
        · rename_i hnone
          rw [op_eq, Option.isNone_iff_eq_none] at hnone
          exact List.forall_mem_cons.mpr ⟨hnone, ih⟩
        · exact ih
      · exact ih
    | produce timedOut => exact (produce_declined timedOut).symm ▸ ih
    | serve probe now after => exact (serve_declined inner probe now after).symm ▸ ih
    | _ => exact ih

/-! ## Every run -/

/-- The call that succeeded, where the answer can tell it. -/
def Answer.succeeded : Answer → Bool
  | .prepared result => result.accepted
  | .flag result => result
  | _ => true

/-- The rounds that are over and what there is of an open one. -/
structure Matched (m : Machine ω κ) (opened : List Issue) (begun : List Execution)
    (done : List Completion) (is : List Issue) (es : List Execution) (ks : List Completion) :
    Prop where
  issued : m.issued = opened ++ is
  executed : m.executed = begun ++ es
  completed : m.completed = done ++ ks
  rounds : Rounds is es ks m.returned
  single : opened.length ≤ 1
  begun_le : begun.length ≤ opened.length
  done_le : done.length ≤ begun.length
  own : ∀ i ∈ opened, ∀ e ∈ begun, Executes i e

theorem Stands.matched (h : Stands m is es ks) (hrounds : Rounds is es ks m.returned) :
    ∃ opened begun done, Matched m opened begun done is es ks := by
  cases h with
  | quiet _ _ _ => exact ⟨[], [], [], rfl, rfl, rfl, hrounds, by simp, by simp, by simp, by simp⟩
  | @issued c late _ _ _ hgiven _ =>
    exact ⟨[⟨c, late⟩], [], [], hgiven.issued, hgiven.executed, hgiven.completed, hrounds, by simp,
      by simp, by simp, by simp⟩
  | @executed c late e _ _ _ hgiven he _ =>
    exact ⟨[⟨c, late⟩], [e], [], hgiven.issued, hgiven.executed, hgiven.completed, hrounds,
      by simp, by simp, by simp, by simpa using he⟩
  | @completed c late e k _ _ _ hissued hexecuted hcompleted he _ _ _ _ =>
    exact ⟨[⟨c, late⟩], [e], [k], hissued, hexecuted, hcompleted, hrounds, by simp, by simp,
      by simp, by simpa using he⟩

theorem refused_outcome {e : Execution} (h : e.Refused) (cleared : Bool) :
    Execution.Refused { e with
      prepared := (e.outcome cleared).1, result := (e.outcome cleared).2 } := by
  obtain ⟨command, ran, stopped, prepared, result⟩ := e
  cases command <;> cases cleared <;> first | exact h | trivial

/-- A call that comes late does not succeed. -/
theorem late_denied {i : Issue} {e : Execution} {k : Completion} {command : Command}
    (he : Executes i e) (hk : Completes i e k) (hlate : i.late = true)
    (hcommand : i.call.command = some command) (hgated : command.gated = true) :
    (i.call.answer k.reply).succeeded = false := by
  obtain rfl : e.command = command := Option.some.inj (he.command.symm.trans hcommand)
  obtain ⟨-, hrefused⟩ := he.late hlate hgated
  have hreply := refused_outcome hrefused k.cleared
  rw [← hk.results] at hreply
  cases hcall : i.call with
  | prepare job =>
    obtain heq : .prepare job = e.command := by simpa [hcall, Call.command] using hcommand
    have hprepared : k.reply.prepared = {} := by simpa [Execution.Refused, ← heq] using hreply
    simp [Call.answer, Answer.succeeded, hprepared]
  | schedule job instant conditions own =>
    obtain ⟨-, heq⟩ : own = true ∧
        .schedule job instant { conditions with clock := true } = e.command := by
      simpa [hcall, Call.command] using hcommand
    have hresult : k.reply.result = false := by simpa [Execution.Refused, ← heq] using hreply
    simp [Call.answer, Answer.succeeded, hresult]
  | correct ppb =>
    obtain heq : .correct ppb = e.command := by simpa [hcall, Call.command] using hcommand
    have hresult : k.reply.result = false := by simpa [Execution.Refused, ← heq] using hreply
    simp [Call.answer, Answer.succeeded, hresult]
  | begin job start => simp [hcall, Call.command] at hcommand
  | _ =>
    simp only [hcall, Call.command, Option.some.injEq] at hcommand
    rw [← hcommand] at hgated
    cases hgated

/-- The newest rounds that came late: no success, and a stopped engine behind each. -/
theorem rounds_late {rs : List (Call × Answer)} (h : Rounds is es ks rs) (n : Nat)
    (hlate : ∀ i ∈ is.take n, i.late = true) :
    (∀ r ∈ rs.take n, ∀ command, r.1.command = some command → command.gated = true →
      r.2.succeeded = false) ∧ ∀ k ∈ ks.take n, k.stopped = true := by
  induction h generalizing n with
  | nil => simp
  | round he hc _ ih =>
    cases n with
    | zero => simp
    | succ n =>
      simp only [List.take_succ_cons, List.forall_mem_cons] at hlate ⊢
      obtain ⟨hi, hrest⟩ := hlate
      obtain ⟨hreturned, hcompleted⟩ := ih n hrest
      exact ⟨⟨fun _ hcommand hgated => late_denied he hc hi hcommand hgated, hreturned⟩,
        hc.late hi, hcompleted⟩

theorem rounds_length {rs : List (Call × Answer)} (h : Rounds is es ks rs) :
    is.length = rs.length ∧ ks.length = rs.length := by
  induction h with
  | nil => exact ⟨rfl, rfl⟩
  | round _ _ _ ih => exact ⟨congrArg (· + 1) ih.1, congrArg (· + 1) ih.2⟩

/-- Every call that hands a command over is served in turn: what it returns is read from its
own completion of the one execution of its own command. With the latch seen up after `n`
issues, the issues since come late, no prepare, schedule or correction among them succeeds, and
the engine was stopped before the first of them returns. -/
theorem calls_matched (inner : Inner ω κ) (world : ω) (clock : κ) (labels : List (Label ω κ)) :
    let m := run inner world clock labels
    ∃ opened begun done is es ks, Matched m opened begun done is es ks ∧
      (∀ c ∈ m.declined, c.command = none) ∧
      ∀ n, m.observed = some n →
        (∀ i ∈ m.issued.take (m.issued.length - n), i.late = true) ∧
        (∀ r ∈ m.returned.take (m.returned.length - n), ∀ command, r.1.command = some command →
          command.gated = true → r.2.succeeded = false) ∧
        (n < m.returned.length → EngineStopped inner world clock labels) := by
  intro m
  have hsound : Sound m := run_sound inner world clock labels
  obtain ⟨is, es, ks, hstands, hrounds⟩ := hsound.stands
  obtain ⟨opened, begun, done, hmatched⟩ := hstands.matched hrounds
  refine ⟨opened, begun, done, is, es, ks, hmatched, run_declined inner world clock labels,
    fun n hn => ?_⟩
  obtain ⟨-, -, hall⟩ := hsound.observed n hn
  obtain ⟨hlength, hkept⟩ := rounds_length hrounds
  have hlate : ∀ i ∈ is.take (is.length - n), i.late = true := by
    rcases Nat.lt_or_ge n is.length with hlt | hge
    · rw [hmatched.issued, List.length_append, Nat.add_sub_assoc (Nat.le_of_lt hlt),
        List.take_length_add_append] at hall
      exact fun i hi => hall i (List.mem_append_right opened hi)
    · simp [Nat.sub_eq_zero_of_le hge]
  obtain ⟨hreturned, hstopped⟩ := rounds_late hrounds (is.length - n) hlate
  refine ⟨hall, hlength ▸ hreturned, fun hlt => run_stopped (.inr ?_)⟩
  -- the newest completion of a round is one that came late
  have hpos : 0 < (ks.take (is.length - n)).length := by
    rw [List.length_take]
    omega
  obtain ⟨k, hk⟩ := List.exists_mem_of_length_pos hpos
  refine ⟨k, ?_, hstopped k hk⟩
  rw [show (run inner world clock labels).completed = done ++ ks from hmatched.completed]
  exact List.mem_append_right done (List.mem_of_mem_take hk)

end State

/-- The clock is the world. -/
def benchInner : Inner ClockSnapshot ClockSnapshot where
  engine := benchEngine
  installClock clock _ := clock
  pause := none
  resume := none

example :
    (run benchInner {} {}
      ([.start (.prepare benchJob), .produce false, .produce false] ++
        List.replicate 12 (.serve false 0 0) ++ List.replicate 3 (.produce false))).returned =
      [(.prepare benchJob, .prepared { accepted := true })] := rfl

/-- The latch is seen up before the worker has stopped the engine, and a `begin` returns without
a command. -/
theorem observed_running :
    let m := run benchInner {} {} [.start (.begin benchJob 0), .latch, .observe]
    m.observed = some 0 ∧ ¬ EngineStopped benchInner {} {}
      [.start (.begin benchJob 0), .latch, .observe] ∧
    m.declined = [.begin benchJob 0] ∧ m.issued = [] ∧ m.executed = [] := by
  refine ⟨rfl, fun ⟨before, probe, now, after, rest, heq, _⟩ => ?_, rfl, rfl, rfl⟩
  have hmem : Label.serve probe now after ∈
      [.start (.begin benchJob 0), .latch, (.observe : Label ClockSnapshot ClockSnapshot)] := by
    rw [heq]
    exact List.mem_append_right _ List.mem_cons_self
  simp at hmem

end WsprryPico.Rf.Worker
