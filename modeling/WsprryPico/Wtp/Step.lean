import WsprryPico.Wtp.JobService

/-!
# The steps of the authority

`Step` says once what the service can do to its authority state, with the
guards under which it does so. Steps are coarser than statements: a LOAD that
is accepted, a start and a terminal record are one step each, so an invariant
that the statements break for a moment holds after every step. `Permit` names
what the current call is allowed: the caller that may claim, the jobs that may
be loaded, whether a launch, a RELEASE of a loaded job, a physical stop and a
reset may happen.
-/

namespace WsprryPico.Wtp

open Lib Relation

variable {ω α β : Type} {env : Env ω}

/-! ## The effects of statements -/

/-- The engine state after a command. -/
def RfEngine.effect (engine : RfEngine ω) : EngineCall → ω → ω
  | .prepare job, w => (engine.prepare job w).2
  | .schedule job start conditions, w => (engine.schedule job start conditions w).2
  | .begin job start, w => (engine.begin job start w).2
  | .poll now, w => (engine.poll now w).2
  | .disable deadline, w => (engine.disable deadline w).2
  | .inhibitOutput, w => engine.inhibitOutput w
  | .calibrationBoundary, w => engine.calibrationBoundary w

/-- The queries of the environment. -/
inductive Env.Observes (env : Env ω) : ω → ω → Prop where
  | outputActive {w} : env.Observes w (env.engine.outputActive w).2
  | executionStarted {w} : env.Observes w (env.engine.executionStarted w).2
  | memoryAdmitted {w} bytes : env.Observes w (env.memoryAdmitted bytes w).2
  | newBootId {w} : env.Observes w (env.newBootId w).2
  | armObserver {w} job body now principal : env.Observes w (env.armObserver job body now principal w)

/-- A look at the environment: a query or a clock reading. -/
inductive Env.Looks (env : Env ω) : ω → ω → Prop where
  | observe {w w'} : env.Observes w w' → env.Looks w w'
  | clock {w} : env.Looks w (env.snapshot w).2

/-- A stop attempt by `disable` in `w`, recorded as `state` in `w'` after looking
at the output: only a `failed` record follows a stop that the engine refused. -/
structure Env.Halts (env : Env ω) (deadline : UInt64) (state : State) (w w' : ω) : Prop where
  outcome : state ∈ [State.complete, .aborted, .missed, .failed]
  off : state ≠ .failed → (env.engine.disable deadline w).1 = true
  observed : ReflTransGen env.Observes (env.engine.disable deadline w).2 w'

/-- What `record_terminal` leaves, with the two output readings it takes. -/
def Authority.terminal (state : State) (error : ErrorCode) (nowNs : UInt64)
    (active loadActive : Bool) (a : Authority) : Authority :=
  let jobId := (a.job.map (·.jobId)).getD ""
  let a := { a with
    state := state
    terminalRecords := ⟨jobId, state, nowNs, active, error⟩ :: a.terminalRecords }
  let a := match a.job with
    | none => a
    | some job =>
      let a := { a with
        retainedJobs := ⟨job.jobId, a.jobDigest, a.adjustments, loadActive, a.arm⟩ ::
          a.retainedJobs }
      if state = State.complete then a.clearEvents else a
  a.trimTerminals (a.terminalRecords.length - a.config.terminalRecordEntries)

theorem Authority.terminal_eq (state : State) (error : ErrorCode) (nowNs : UInt64)
    (active loadActive : Bool) (a : Authority) :
    a.terminal state error nowNs active loadActive =
      { a with
        state := state
        job := if state = .complete then a.clearEvents.job else a.job
        terminalRecords := (a.terminal state error nowNs active loadActive).terminalRecords
        retainedJobs := (a.terminal state error nowNs active loadActive).retainedJobs } := by
  rcases hj : a.job with _ | job
  · simp only [Authority.terminal, hj]
    rw [Authority.trimTerminals_eq]
    simp [Authority.clearEvents, hj]
  · by_cases hs : state = .complete
    · simp only [Authority.terminal, hj, hs, if_true]
      rw [Authority.trimTerminals_eq]
      simp [Authority.clearEvents, hj]
    · simp only [Authority.terminal, hj, hs, if_false]
      rw [Authority.trimTerminals_eq]

def lastClock : List Event → Option ClockSnapshot
  | [] => none
  | .clock now :: _ => some now
  | _ :: rest => lastClock rest

/-- The time of the last expiries. -/
def lastExpired : List Event → Option UInt64
  | [] => none
  | .expired nowNs :: _ => some nowNs
  | _ :: rest => lastExpired rest

/-- The states a terminal record is made from. The code does not exclude an
empty service with a job, the invariant does. -/
def Authority.Pending (a : Authority) : Prop :=
  a.state = .loaded ∨ a.state = .armed ∨ a.state = .running ∨ (a.state = .empty ∧ a.job.isSome)

/-! ## The step relation -/

structure Permit (ω : Type) where
  caller : Option (String × String) := none
  load : Authority → ω → Job → Prop := fun _ _ _ => False
  launch : Prop := False
  release : Prop := False
  inhibit : Prop := False
  reset : Prop := False

/-- LOAD of `job` reaches the engine. -/
structure Loadable (a : Authority) (job : Job) : Prop where
  free : a.outputInhibited = false
  owned : a.owner.isSome
  unretained : a.findRetained job.jobId = none
  fresh : a.job.map (·.jobId) ≠ some job.jobId
  state : a.state ≠ .armed ∧ a.state ≠ .running ∧ a.state ≠ .failed
  valid : validateJob a.config job = .none

/-- It may do so in world `w`. -/
structure Permit.Loads (p : Permit ω) (a : Authority) (w : ω) (job : Job) : Prop extends
    Loadable a job where
  permit : p.load a w job

/-- The preparation checks of LOAD. -/
def PrepareResult.usable (job : Job) (result : PrepareResult) : Prop :=
  result.accepted = true ∧
  (job.allowFrequencyAdjustment = true ∨ result.adjustments = []) ∧
  adjustmentsValid job.events.events [] result.adjustments = true

/-- ARM of the loaded `job` as `arm`. -/
structure Arms (a : Authority) (job : Job) (arm : ArmRecord) : Prop where
  free : a.outputInhibited = false
  state : a.state = .loaded
  held : a.job = some job
  valid : ∃ (resolution : UInt64) (body : ArmBody) (now : ClockSnapshot),
    body.jobId = job.jobId ∧ arm.startUtcNs = body.startUtcNs ∧
    arm.maxUncertaintyNs = body.maxStartUncertaintyNs ∧
    validateArm a.config job resolution body now = .ok arm.startMonotonicNs

/-- The foreground launch of `job`, armed as `arm`, at snapshot `now`. -/
structure Permit.Launches (p : Permit ω) (a : Authority) (t : List Event) (now : ClockSnapshot)
    (arm : ArmRecord) (job : Job) : Prop where
  permit : p.launch
  state : a.state = .armed
  record : a.arm = some arm
  held : a.job = some job
  foreground : arm.scheduledLocally = false
  clock : lastClock t = some now
  due : arm.startMonotonicNs ≤ now.monotonicNowNs
  ok : launchOk a.config now arm job = true

inductive Step (env : Env ω) (p : Permit ω) : AuthSys ω → AuthSys ω → Prop where
  /-- A query. -/
  | observe {a t w w'} : env.Observes w w' → Step env p ⟨⟨a, t⟩, w⟩ ⟨⟨a, t⟩, w'⟩
  | clock {a t w} : Step env p ⟨⟨a, t⟩, w⟩
      ⟨⟨a, .clock (env.snapshot w).1 :: t⟩, (env.snapshot w).2⟩
  /-- A command that neither prepares nor starts a job. The stop has no loaded
  job to end and the interlock is set. -/
  | quiet {a t w c} (x : Authority) : c.admitted = none →
      (∀ deadline, c = .disable deadline → a.outputInhibited = true ∧ a.state ≠ .loaded) →
      Step env p ⟨⟨a, t⟩, w⟩ ⟨⟨a, .call x c :: t⟩, env.engine.effect c w⟩
  | abortAccepted {a t w jobId} : a.state = .aborted → a.job.map (·.jobId) = some jobId →
      Step env p ⟨⟨a, t⟩, w⟩ ⟨⟨a, .abortAccepted jobId :: t⟩, w⟩
  | lease {a t w owner owner'} : a.owner = some owner → owner'.sessionId = owner.sessionId →
      owner'.principal = owner.principal →
      Step env p ⟨⟨a, t⟩, w⟩ ⟨⟨{ a with owner := some owner' }, t⟩, w⟩
  | drop {a t w} : a.state ≠ .loaded → a.state ≠ .armed → a.state ≠ .running →
      Step env p ⟨⟨a, t⟩, w⟩ ⟨⟨{ a with owner := none }, t⟩, w⟩
  | claim {a t w owner} : p.caller = some (owner.sessionId, owner.principal) → a.owner = none →
      Step env p ⟨⟨a, t⟩, w⟩ ⟨⟨{ a with owner := some owner }, t⟩, w⟩
  /-- A stop attempt and the terminal record it ends in. -/
  | terminal {a t w w'} (x : Authority) (deadline state error nowNs active loadActive) :
      a.Pending → env.Halts deadline state w w' →
      Step env p ⟨⟨a, t⟩, w⟩ ⟨⟨a.terminal state error nowNs active loadActive,
        .terminal ((a.job.map (·.jobId)).getD "") state :: .call x (.disable deadline) :: t⟩, w'⟩
  /-- The same for a local start the engine refused. -/
  | fault {a t w w'} (deadline error nowNs active loadActive) : a.state = .armed →
      env.Halts deadline .failed w w' →
      Step env p ⟨⟨a, t⟩, w⟩
        ⟨⟨({ a with arm := none }).terminal .failed error nowNs active loadActive,
          .terminal ((a.job.map (·.jobId)).getD "") .failed ::
            .call { a with arm := none } (.disable deadline) :: t⟩, w'⟩
  | clear {a t w} : a.state ≠ .armed → a.state ≠ .running → a.state ≠ .failed →
      (a.state = .loaded → p.release) →
      Step env p ⟨⟨a, t⟩, w⟩ ⟨⟨a.clearJob, t⟩, w⟩
  | prune {a t w} nowNs : Step env p ⟨⟨a, t⟩, w⟩ ⟨⟨a.pruneTerminals nowNs, t⟩, w⟩
  | touch {a t w} jobId : Step env p ⟨⟨a, t⟩, w⟩ ⟨⟨a.touchTerminal jobId, t⟩, w⟩
  | refused {a t w job} : p.Loads a w job → ¬ (env.engine.prepare job w).1.usable job →
      Step env p ⟨⟨a, t⟩, w⟩ ⟨⟨a, .call a (.prepare job) :: t⟩, (env.engine.prepare job w).2⟩
  | load {a t w job} digest : p.Loads a w job → (env.engine.prepare job w).1.usable job →
      Step env p ⟨⟨a, t⟩, w⟩
        ⟨⟨a.load job digest (env.engine.prepare job w).1.adjustments,
          .call a (.prepare job) :: t⟩, (env.engine.prepare job w).2⟩
  | arm {a t w job arm} : Arms a job arm → arm.scheduledLocally = false →
      Step env p ⟨⟨a, t⟩, w⟩ ⟨⟨a.armWith arm, t⟩, w⟩
  | armLocally {a t w job arm} conditions : Arms a job arm → arm.scheduledLocally = true →
      Step env p ⟨⟨a, t⟩, w⟩
        ⟨⟨a.armWith arm,
          .call (a.armWith arm) (.schedule job arm.startMonotonicNs conditions) :: t⟩,
          (env.engine.schedule job arm.startMonotonicNs conditions w).2⟩
  | started {a t w arm} : a.state = .armed → a.arm = some arm → arm.scheduledLocally = true →
      Step env p ⟨⟨a, t⟩, w⟩ ⟨⟨{ a with state := .running }, t⟩, w⟩
  | launch {a t w now arm job} : p.Launches a t now arm job →
      Step env p ⟨⟨a, t⟩, w⟩
        ⟨⟨{ a with state := .running }, .call a (.begin job now.monotonicNowNs) :: t⟩,
          (env.engine.begin job now.monotonicNowNs w).2⟩
  | stamp {a t w} launch : a.state = .running →
      Step env p ⟨⟨a, t⟩, w⟩ ⟨⟨a.setLaunch launch, t⟩, w⟩
  | spend {a t w} : a.state = .armed ∨ a.state = .running →
      Step env p ⟨⟨a, t⟩, w⟩ ⟨⟨a.clearEvents, t⟩, w⟩
  | inhibit {a t w} : p.inhibit → Step env p ⟨⟨a, t⟩, w⟩ ⟨⟨{ a with outputInhibited := true }, t⟩, w⟩
  | maintain {a t w} deadline verification : Step env p ⟨⟨a, t⟩, w⟩
      ⟨⟨{ a with maintenanceDeadlineNs := deadline, updateVerification := verification }, t⟩, w⟩

/-! ## What no step changes -/

/-- The configuration and readiness stay, the trace grows by events of the authority. -/
structure Frame (a : Authority) (t : List Event) (a' : Authority) (t' : List Event) : Prop where
  config : a'.config = a.config
  ready : a'.ready = a.ready
  trace : t <:+ t'
  expired : lastExpired t' = lastExpired t

theorem Frame.refl {a : Authority} {t : List Event} : Frame a t a t :=
  ⟨rfl, rfl, List.suffix_rfl, rfl⟩

theorem Frame.trans {a a' a'' : Authority} {t t' t'' : List Event} (h : Frame a t a' t')
    (h' : Frame a' t' a'' t'') : Frame a t a'' t'' :=
  ⟨h'.config.trans h.config, h'.ready.trans h.ready, h.trace.trans h'.trace,
    h'.expired.trans h.expired⟩

theorem step_inhibited {p : Permit ω} {s s' : AuthSys ω} (h : Step env p s s')
    (hs : s.auth.outputInhibited = true) : s'.auth.outputInhibited = true := by
  cases h with
  | terminal x deadline state error nowNs active loadActive =>
    rw [Authority.terminal_eq]
    exact hs
  | fault deadline error nowNs active loadActive =>
    rw [Authority.terminal_eq]
    exact hs
  | @prune a t w nowNs =>
    obtain h | ⟨-, h⟩ := a.pruneTerminals_cases nowNs
    · rw [h]; exact hs
    · rw [h]; exact hs
  | inhibit => rfl
  | _ => exact hs

theorem step_frame {p : Permit ω} {s s' : AuthSys ω} (h : Step env p s s') :
    Frame s.auth s.trace s'.auth s'.trace := by
  cases h with
  | terminal x deadline state error nowNs active loadActive =>
    rw [Authority.terminal_eq]
    exact ⟨rfl, rfl, (List.suffix_cons _ _).trans (List.suffix_cons _ _), rfl⟩
  | fault deadline error nowNs active loadActive =>
    rw [Authority.terminal_eq]
    exact ⟨rfl, rfl, (List.suffix_cons _ _).trans (List.suffix_cons _ _), rfl⟩
  | @prune a t w nowNs =>
    obtain h | ⟨-, h⟩ := a.pruneTerminals_cases nowNs
    · rw [h]; exact ⟨rfl, rfl, List.suffix_rfl, rfl⟩
    · rw [h]; exact ⟨rfl, rfl, List.suffix_rfl, rfl⟩
  | clock | quiet | abortAccepted | refused | load | armLocally | launch =>
    exact ⟨rfl, rfl, List.suffix_cons _ _, rfl⟩
  | _ => exact ⟨rfl, rfl, List.suffix_rfl, rfl⟩

end WsprryPico.Wtp
