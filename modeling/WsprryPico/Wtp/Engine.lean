import WsprryPico.Wtp.Authority
import WsprryPico.Lib.Along

/-!
# The world of `JobService`

`RfEngine ω` and `Env ω` are the interfaces the service calls: the engine, the
clock, the identity source and the memory budget, as functions on a world `ω`
that holds all their state. A query may change the world, so two readings of
the output state or of the clock need not agree.

`AuthM ω` is a computation of the service on its authority state. The `trace`
records, newest first, the clock snapshots taken, the times at which the
expiries of a call ran, the terminal outcomes, the aborts answered ok, the
answers retained for replay, and each engine command with the authority state
it was issued from. No function reads it.
-/

namespace WsprryPico.Wtp

structure RfEngine (ω : Type) where
  filterPreparationNs : ω → UInt64
  amplifierLeadNs : ω → UInt64
  amplifierTailNs : ω → UInt64
  startResolutionNs : ω → UInt64
  completionAcknowledgementNs : ω → UInt64
  schedulesLocally : ω → Bool
  ownsExecutionPlan : ω → Bool
  externallyControlledCompletion : ω → Bool
  preparationMemoryBytes : Job → ω → Nat
  prepare : Job → ω → PrepareResult × ω
  schedule : Job → UInt64 → LocalStartConditions → ω → Bool × ω
  begin : Job → UInt64 → ω → Bool × ω
  poll : UInt64 → ω → EngineReport × ω
  disable : UInt64 → ω → Bool × ω
  inhibitOutput : ω → ω
  calibrationBoundary : ω → ω
  setFrequencyCorrectionPpb : Int → ω → Bool × ω
  executionStarted : ω → Bool × ω
  outputActive : ω → Bool × ω

structure Env (ω : Type) where
  engine : RfEngine ω
  snapshot : ω → ClockSnapshot × ω
  newBootId : ω → String × ω
  memoryAdmitted : Nat → ω → Bool × ω
  /-- The provenance callback of an admitted ARM. -/
  armObserver : Job → ArmBody → ClockSnapshot → String → ω → ω

/-- The commands of the engine interface. -/
inductive EngineCall where
  | prepare (job : Job)
  | schedule (job : Job) (startNs : UInt64) (conditions : LocalStartConditions)
  | begin (job : Job) (startNs : UInt64)
  | poll (nowNs : UInt64)
  | disable (deadlineNs : UInt64)
  | inhibitOutput
  | calibrationBoundary
  deriving DecidableEq

/-- The commands that start execution, with the job they start. -/
def EngineCall.launched : EngineCall → Option Job
  | .schedule job _ _ => some job
  | .begin job _ => some job
  | _ => none

/-- The commands that prepare or start a job. -/
def EngineCall.admitted : EngineCall → Option Job
  | .prepare job => some job
  | c => c.launched

inductive Event where
  | clock (now : ClockSnapshot)
  | expired (nowNs : UInt64)
  | call (authority : Authority) (call : EngineCall)
  | terminal (jobId : String) (state : State)
  | abortAccepted (jobId : String)
  | retained (request : Request) (response : Response)
  deriving DecidableEq

/-- What a run of the service shows: the authority state and the trace. -/
structure View where
  auth : Authority
  trace : List Event := []
  deriving DecidableEq

structure AuthSys (ω : Type) extends View where
  world : ω

abbrev AuthM (ω : Type) := StateM (AuthSys ω)

/-- The service with its transport state. -/
structure Sys (ω : Type) extends AuthSys ω where
  transport : Transport := {}

abbrev SysM (ω : Type) := StateM (Sys ω)

variable {ω α : Type}

/-- An authority computation leaves the transport state alone. -/
def onAuthority (m : AuthM ω α) : SysM ω α := fun s =>
  let (a, t) := m s.toAuthSys
  (a, { s with toAuthSys := t })

namespace AuthM

def auth : AuthM ω Authority := fun s => (s.auth, s)

def modifyAuth (f : Authority → Authority) : AuthM ω Unit := fun s =>
  ((), { s with auth := f s.auth })

def emit (e : Event) : AuthM ω Unit := fun s => ((), { s with trace := e :: s.trace })

/-- A constant member of the environment. -/
def constant (f : ω → α) : AuthM ω α := fun s => (f s.world, s)

/-- A query of the environment, which may change the world. -/
def query (f : ω → α × ω) : AuthM ω α := fun s =>
  ((f s.world).1, { s with world := (f s.world).2 })

def command (c : EngineCall) (f : ω → α × ω) : AuthM ω α := fun s =>
  ((f s.world).1, { s with world := (f s.world).2, trace := .call s.auth c :: s.trace })

def snapshot (env : Env ω) : AuthM ω ClockSnapshot := fun s =>
  let (now, w) := env.snapshot s.world
  (now, { s with world := w, trace := .clock now :: s.trace })

def outputActive (env : Env ω) : AuthM ω Bool := query env.engine.outputActive

def prepare (env : Env ω) (job : Job) : AuthM ω PrepareResult :=
  command (.prepare job) (env.engine.prepare job)

def schedule (env : Env ω) (job : Job) (startNs : UInt64) (conditions : LocalStartConditions) :
    AuthM ω Bool :=
  command (.schedule job startNs conditions) (env.engine.schedule job startNs conditions)

def begin (env : Env ω) (job : Job) (startNs : UInt64) : AuthM ω Bool :=
  command (.begin job startNs) (env.engine.begin job startNs)

def enginePoll (env : Env ω) (nowNs : UInt64) : AuthM ω EngineReport :=
  command (.poll nowNs) (env.engine.poll nowNs)

def disable (env : Env ω) (deadlineNs : UInt64) : AuthM ω Bool :=
  command (.disable deadlineNs) (env.engine.disable deadlineNs)

def inhibitOutput (env : Env ω) : AuthM ω Unit :=
  command .inhibitOutput fun w => ((), env.engine.inhibitOutput w)

def calibrationBoundary (env : Env ω) : AuthM ω Unit :=
  command .calibrationBoundary fun w => ((), env.engine.calibrationBoundary w)

end AuthM

namespace SysM

def transport : SysM ω Transport := fun s => (s.transport, s)

def modifyTransport (f : Transport → Transport) : SysM ω Unit := fun s =>
  ((), { s with transport := f s.transport })

end SysM

end WsprryPico.Wtp
