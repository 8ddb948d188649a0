import WsprryPico.Wtp.Engine

/-!
# The RF worker

`WorkerEngine` of `rf/worker.cpp`: one core calls, the other owns the engine and serves
one command at a time through a mailbox. `Machine` is both cores with the members they
share; a step of either is one access to what the other may change, so that every
interleaving is a list of labels. Readings of the timer and of the safety probe are part
of the labels, and a wait may time out at any time.

The lists at the end of `Machine` are a record of the run, the newest first. No step
reads them.
-/

namespace WsprryPico.Rf.Worker

open Wtp

inductive OpKind where
  | inspect | metrics | prepare | schedule | disable | correct | suspend | resume
  deriving DecidableEq

/-- 0: the producer owns the payload, 1: the consumer owns it, 2: completed. -/
inductive Phase where
  | producer | consumer | completed
  deriving DecidableEq

/-- A command with the arguments the worker reads for it. -/
inductive Command where
  | inspect
  | metrics
  | prepare (job : Job)
  | schedule (job : Job) (instant : UInt64) (conditions : LocalStartConditions)
  | disable (instant : UInt64)
  | correct (ppb : Int)
  | suspend (instant : UInt64)
  | resume

/-- The commands that the safety latch refuses. -/
def Command.gated : Command → Bool
  | .prepare _ | .schedule _ _ _ | .correct _ => true
  | _ => false

structure Mailbox (κ : Type) where
  op : OpKind := .inspect
  job : Option Job := none
  instant : UInt64 := 0
  correction : Int := 0
  conditions : LocalStartConditions := {}
  stagedClock : κ

/-- What the operation in the mailbox is; none where it needs a job that is not there. -/
def Mailbox.command {κ : Type} (b : Mailbox κ) : Option Command :=
  match b.op with
  | .inspect => some .inspect
  | .metrics => some .metrics
  | .prepare => b.job.map .prepare
  | .schedule => b.job.map (.schedule · b.instant { b.conditions with clock := true })
  | .disable => some (.disable b.instant)
  | .correct => some (.correct b.correction)
  | .suspend => some (.suspend b.instant)
  | .resume => some .resume

/-- The members of `Metrics` that this file sets. -/
structure Metrics where
  commands : UInt64 := 0
  safetyRequestedNs : UInt64 := 0
  safetyStoppedNs : UInt64 := 0

structure Reply where
  prepared : PrepareResult := {}
  result : Bool := false
  report : EngineReport := {}
  metrics : Metrics := {}

/-! ## Calls -/

/-- The calls of the producer; `own` tells whether the clock of the conditions is the
clock the worker copies. -/
inductive Call where
  | prepare (job : Job)
  | correct (ppb : Int)
  | schedule (job : Job) (instant : UInt64) (conditions : LocalStartConditions) (own : Bool)
  | begin (job : Job) (start : UInt64)
  | poll
  | disable (deadline : UInt64)
  | executionStarted
  | outputActive
  | metrics
  | suspendBackground (deadline : UInt64)
  | resumeBackground

inductive Answer where
  | prepared (result : PrepareResult)
  | flag (result : Bool)
  | report (report : EngineReport)
  | metrics (metrics : Metrics)
  | done

namespace Call

/-- The operation a call hands over; none where it returns false at once. -/
def op : Call → Option OpKind
  | .prepare _ => some .prepare
  | .correct _ => some .correct
  | .schedule _ _ _ own => if own then some .schedule else none
  | .begin _ _ => none
  | .poll | .executionStarted | .outputActive => some .inspect
  | .disable _ => some .disable
  | .metrics => some .metrics
  | .suspendBackground _ => some .suspend
  | .resumeBackground => some .resume

def command : Call → Option Command
  | .prepare job => some (.prepare job)
  | .correct ppb => some (.correct ppb)
  | .schedule job instant conditions own =>
    if own then some (.schedule job instant { conditions with clock := true }) else none
  | .begin _ _ => none
  | .poll | .executionStarted | .outputActive => some .inspect
  | .disable deadline => some (.disable deadline)
  | .metrics => some .metrics
  | .suspendBackground deadline => some (.suspend deadline)
  | .resumeBackground => some .resume

/-- The members a call writes before it enters `call`. -/
def stage {κ : Type} (c : Call) (b : Mailbox κ) : Mailbox κ :=
  match c with
  | .prepare job => { b with job := some job }
  | .correct ppb => { b with correction := ppb }
  | .schedule job instant conditions _ =>
    { b with job := some job, instant := instant, conditions := conditions }
  | .disable deadline | .suspendBackground deadline => { b with instant := deadline }
  | _ => b

/-- The members a call resets behind `call`. -/
def unstage {κ : Type} (c : Call) (b : Mailbox κ) : Mailbox κ :=
  match c with
  | .prepare _ | .schedule _ _ _ _ => { b with job := none }
  | _ => b

/-- What a call returns of the reply. -/
def answer (c : Call) (r : Reply) : Answer :=
  match c with
  | .prepare _ => .prepared r.prepared
  | .correct _ | .schedule _ _ _ _ | .disable _ | .suspendBackground _ => .flag r.result
  | .begin _ _ => .flag false
  | .poll => .report r.report
  | .executionStarted => .flag (r.report.launchMonotonicNs.isSome ||
      (r.report.chainPhase = .unspecified && r.report.outputActive))
  | .outputActive => .flag r.report.outputActive
  | .metrics => .metrics r.metrics
  | .resumeBackground => .done

end Call

/-! ## Both cores -/

inductive ProducerPc where
  | idle
  | staged (c : Call)
  | copied (c : Call)
  | waiting (c : Call)
  | finished (c : Call)
  | released (c : Call)
  | aborted

inductive WorkerPc where
  | probe | stop | poll | await | clock | guard
  | execute (barred : Bool)
  | probeAgain | stopAgain | clear
  | report (cleared : Bool)
  | reply (cleared : Bool) (reported : EngineReport)
  | halted

/-- A call handed over, with the safety latch at that time. -/
structure Issue where
  call : Call
  late : Bool

/-- A command executed: whether the engine was asked for what the latch refuses, whether
it had been stopped before, and the results behind the command. -/
structure Execution where
  command : Command
  ran : Bool
  stoppedBefore : Bool
  prepared : PrepareResult
  result : Bool

/-- What the engine reported behind a command and the members that are read then. -/
structure Completion where
  cleared : Bool
  stopped : Bool
  reported : EngineReport
  metrics : Metrics
  reply : Reply

structure Machine (ω κ : Type) where
  world : ω
  clock : κ
  mailbox : Mailbox κ
  phase : Phase := .producer
  reply : Reply := {}
  inhibited : Bool := false
  stopped : Bool := false
  suspended : Bool := false
  workerState : EngineState := .idle
  metrics : Metrics := {}
  producer : ProducerPc := .idle
  worker : WorkerPc := .probe
  issued : List Issue := []
  executed : List Execution := []
  completed : List Completion := []
  returned : List (Call × Answer) := []
  /-- The calls that returned false without a command. -/
  declined : List Call := []
  /-- How many calls had been issued when the latch was first seen up. -/
  observed : Option Nat := none

/-- The engine of the worker and the hooks of its platform. -/
structure Inner (ω κ : Type) where
  engine : RfEngine ω
  installClock : κ → ω → ω
  pause : Option (UInt64 → ω → Bool × ω)
  resume : Option (ω → ω)

variable {ω κ : Type}

namespace Machine

def start (c : Call) (m : Machine ω κ) : Machine ω κ :=
  match m.producer with
  | .idle =>
    if c.op.isNone then { m with declined := c :: m.declined }
    else { m with mailbox := c.stage m.mailbox, producer := .staged c }
  | _ => m

/-- One access of the producer in `call` and behind it. -/
def produce (timedOut : Bool) (m : Machine ω κ) : Machine ω κ :=
  match m.producer with
  | .idle | .aborted => m
  | .staged c =>
    if m.phase ≠ .producer then { m with producer := .aborted }
    else { m with
      mailbox := { m.mailbox with stagedClock := m.clock, op := c.op.getD .inspect }
      producer := .copied c }
  | .copied c =>
    { m with phase := .consumer, producer := .waiting c, issued := ⟨c, m.inhibited⟩ :: m.issued }
  | .waiting c =>
    if m.phase = .completed then { m with producer := .finished c }
    else if timedOut then { m with producer := .aborted }
    else m
  | .finished c => { m with phase := .producer, producer := .released c }
  | .released c =>
    { m with
      mailbox := c.unstage m.mailbox
      producer := .idle
      returned := (c, c.answer m.reply) :: m.returned }

/-- `check_safety` behind its probe, with its two readings of the timer. -/
def safetyStop (inner : Inner ω κ) (now after : UInt64) (next : WorkerPc) (m : Machine ω κ) :
    Machine ω κ :=
  if !m.inhibited then { m with worker := next }
  else
    let world := inner.engine.inhibitOutput m.world
    if m.stopped then { m with world := world, worker := next }
    else
      match inner.engine.disable (now + 100000000) world with
      | (false, world) => { m with world := world, worker := .halted }
      | (true, world) =>
        match inner.engine.outputActive world with
        | (true, world) => { m with world := world, worker := .halted }
        | (false, world) =>
          { m with
            world := world
            stopped := true
            metrics := { m.metrics with safetyRequestedNs := now, safetyStoppedNs := after }
            worker := next }

/-- The effect of a command: whether the engine was asked for what the latch refuses, the
results, the suspension and the world. -/
def effect (inner : Inner ω κ) (barred : Bool) (command : Command) (m : Machine ω κ) :
    Bool × PrepareResult × Bool × Bool × ω :=
  let refused := barred || m.suspended
  match command with
  | .inspect | .metrics => (false, m.reply.prepared, m.reply.result, m.suspended, m.world)
  | .prepare job =>
    if refused then (false, {}, m.reply.result, m.suspended, m.world)
    else
      let r := inner.engine.prepare job m.world
      (true, r.1, m.reply.result, m.suspended, r.2)
  | .schedule job instant conditions =>
    if refused then (false, m.reply.prepared, false, m.suspended, m.world)
    else
      let r := inner.engine.schedule job instant conditions m.world
      (true, m.reply.prepared, r.1, m.suspended, r.2)
  | .disable instant =>
    let r := inner.engine.disable instant m.world
    (false, m.reply.prepared, r.1, m.suspended, r.2)
  | .correct ppb =>
    if refused then (false, m.reply.prepared, false, m.suspended, m.world)
    else
      let r := inner.engine.setFrequencyCorrectionPpb ppb m.world
      (true, m.reply.prepared, r.1, m.suspended, r.2)
  | .suspend instant =>
    if m.suspended || m.workerState ≠ .idle then
      (false, m.reply.prepared, false, m.suspended, m.world)
    else
      match inner.engine.outputActive m.world with
      | (true, world) => (false, m.reply.prepared, false, m.suspended, world)
      | (false, world) =>
        let r := (inner.pause.map fun pause => pause instant world).getD (true, world)
        (false, m.reply.prepared, r.1, r.1, r.2)
  | .resume =>
    let world := if m.suspended then (inner.resume.getD id) m.world else m.world
    (false, m.reply.prepared, m.reply.result, false, world)

def execute (inner : Inner ω κ) (barred : Bool) (m : Machine ω κ) : Machine ω κ :=
  match m.mailbox.command with
  | none => { m with worker := .halted }
  | some command =>
    let (ran, prepared, result, suspended, world) := m.effect inner barred command
    { m with
      world := world
      suspended := suspended
      reply := { m.reply with prepared := prepared, result := result }
      worker := .probeAgain
      executed := ⟨command, ran, m.stopped, prepared, result⟩ :: m.executed }

/-- The results withdrawn where the latch came up meanwhile. -/
def clearResults (m : Machine ω κ) : Machine ω κ :=
  if !m.inhibited then { m with worker := .report false }
  else
    { m with
      reply := { m.reply with
        prepared := if m.mailbox.op = .prepare then {} else m.reply.prepared
        result := if m.mailbox.op = .schedule ∨ m.mailbox.op = .correct then false
          else m.reply.result }
      worker := .report true }

/-- One access of `step`. -/
def serve (inner : Inner ω κ) (probe : Bool) (now after : UInt64) (m : Machine ω κ) : Machine ω κ :=
  match m.worker with
  | .probe => { m with inhibited := m.inhibited || probe, worker := .stop }
  | .stop => m.safetyStop inner now after .poll
  | .poll =>
    let r := inner.engine.poll now m.world
    { m with world := r.2, workerState := r.1.state, worker := .await }
  | .await => { m with worker := if m.phase = .consumer then .clock else .probe }
  | .clock => { m with world := inner.installClock m.mailbox.stagedClock m.world, worker := .guard }
  | .guard => { m with worker := .execute m.inhibited }
  | .execute barred => m.execute inner barred
  | .probeAgain => { m with inhibited := m.inhibited || probe, worker := .stopAgain }
  | .stopAgain => m.safetyStop inner now after .clear
  | .clear => m.clearResults
  | .report cleared =>
    let r := inner.engine.poll now m.world
    { m with
      world := r.2
      workerState := r.1.state
      reply := { m.reply with report := r.1 }
      worker := .reply cleared r.1 }
  | .reply cleared reported =>
    let metrics := { m.metrics with commands := m.metrics.commands + 1 }
    let reply := if m.mailbox.op = .metrics then { m.reply with metrics := metrics } else m.reply
    { m with
      metrics := metrics
      reply := reply
      phase := .completed
      worker := .probe
      completed := ⟨cleared, m.stopped, reported, metrics, reply⟩ :: m.completed }
  | .halted => m

/-- `safety_inhibited` read by anyone. -/
def observe (m : Machine ω κ) : Machine ω κ :=
  { m with observed :=
      if m.inhibited then some (m.observed.getD m.issued.length) else m.observed }

end Machine

/-! ## Runs -/

inductive Label (ω κ : Type) where
  | start (c : Call)
  | produce (timedOut : Bool)
  | serve (probe : Bool) (now after : UInt64)
  | latch
  | observe
  /-- The clock of the producer changes. -/
  | clock (f : κ → κ)
  /-- The hardware of the engine goes on. -/
  | world (f : ω → ω)

def step (inner : Inner ω κ) (m : Machine ω κ) : Label ω κ → Machine ω κ
  | .start c => m.start c
  | .produce timedOut => m.produce timedOut
  | .serve probe now after => m.serve inner probe now after
  | .latch => { m with inhibited := true }
  | .observe => m.observe
  | .clock f => { m with clock := f m.clock }
  | .world f => { m with world := f m.world }

def initial (world : ω) (clock : κ) : Machine ω κ :=
  { world := world, clock := clock, mailbox := { stagedClock := clock } }

def run (inner : Inner ω κ) (world : ω) (clock : κ) (labels : List (Label ω κ)) : Machine ω κ :=
  labels.foldl (step inner) (initial world clock)

end WsprryPico.Rf.Worker
