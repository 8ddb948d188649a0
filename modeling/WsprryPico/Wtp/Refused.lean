import WsprryPico.Wtp.Stop
import WsprryPico.Lib.Triple

/-!
# Refused requests

A request that is refused leaves the authority as the expiries of its entry left it. The two
exceptions end the job: an ARM whose local start the engine did not take, and an ABORT whose
stop it did not confirm.
-/

namespace WsprryPico.Wtp

open Lib Relation AuthM SysM

variable {ω α β : Type} {env : Env ω} {a : Authority} {P : AuthSys ω → Prop}

/-- The authority is `a`. -/
def Stands (a : Authority) (s : AuthSys ω) : Prop := s.auth = a

namespace Stands

variable {k : α → AuthM ω β} {Q : β → AuthSys ω → Prop}

theorem auth {k : Authority → AuthM ω β} (hk : Triple (Stands a) (k a) Q) :
    Triple (Stands a) (AuthM.auth >>= k) Q := by
  rintro s rfl
  exact hk s rfl

theorem constant {f : ω → α} (hk : ∀ x, Triple (Stands a) (k x) Q) :
    Triple (Stands a) (AuthM.constant f >>= k) Q := fun _ hs => hk _ _ hs

theorem query {f : ω → α × ω} (hk : ∀ x, Triple (Stands a) (k x) Q) :
    Triple (Stands a) (AuthM.query f >>= k) Q := fun _ hs => hk _ _ hs

theorem outputActive {k : Bool → AuthM ω β} (hk : ∀ x, Triple (Stands a) (k x) Q) :
    Triple (Stands a) (AuthM.outputActive env >>= k) Q := query hk

theorem snapshot {k : ClockSnapshot → AuthM ω β} (hk : ∀ x, Triple (Stands a) (k x) Q) :
    Triple (Stands a) (AuthM.snapshot env >>= k) Q := fun _ hs => hk _ _ hs

theorem command {c : EngineCall} {f : ω → α × ω} (hk : ∀ x, Triple (Stands a) (k x) Q) :
    Triple (Stands a) (AuthM.command c f >>= k) Q := fun _ hs => hk _ _ hs

theorem modify {f : Authority → Authority} {k : Unit → AuthM ω β}
    (hk : Triple (Stands (f a)) (k ()) Q) : Triple (Stands a) (modifyAuth f >>= k) Q := by
  rintro s rfl
  exact hk _ rfl

end Stands

/-! ## Refusals -/

/-- A refusal leaves the authority at `a`. -/
def Spared (a : Authority) (r : Response) (s : AuthSys ω) : Prop := r.ok = false → s.auth = a

theorem reject_spares (code : ErrorCode) : Triple (Stands a) (reject env code) (Spared a) := by
  exact Stands.outputActive fun _ => Stands.auth fun s hs _ => hs

theorem guard_spares {c : Prop} [Decidable c] {code : ErrorCode} {m : AuthM ω Response}
    (h : ¬ c → Triple (Stands a) m (Spared a)) :
    Triple (Stands a) (if c then reject env code else m) (Spared a) :=
  .ite (fun _ => reject_spares code) h

theorem success_ok : Triple P (success env) fun r _ => r.ok = true := fun _ _ => rfl

theorem Spared.of_ok {m : AuthM ω Response} (h : Triple P m fun r _ => r.ok = true) :
    Triple P m (Spared a) :=
  h.weaken fun r s hr hok => absurd hr (by simp [hok])

theorem success_spares {f : Response → AuthM ω Response}
    (hf : ∀ r, r.ok = true → Triple (fun _ => True) (f r) fun r _ => r.ok = true) :
    Triple P (success env >>= f) (Spared a) :=
  Spared.of_ok (Triple.bind success_ok fun r s hr => hf r hr s trivial)

theorem dispatchRead_spares (request : Request) (now : ClockSnapshot) :
    Triple (Stands a) (dispatchRead env request now) (Spared a) := by
  refine guard_spares fun _ => ?_
  refine guard_spares fun _ => ?_
  exact success_spares fun r hr => Triple.bind (R := fun _ _ => True) (fun _ _ => trivial)
    fun _ _ _ => hr

theorem dispatchClaim_spares (request : Request) (now : ClockSnapshot) :
    Triple (Stands a) (dispatchClaim env request now) (Spared a) := by
  unfold dispatchClaim
  split
  case h_2 => exact reject_spares _
  case h_1 =>
    refine guard_spares fun _ => Stands.auth ?_
    refine guard_spares fun _ => Spared.of_ok ?_
    exact fun _ _ => rfl

theorem dispatchRenew_spares (request : Request) (now : ClockSnapshot) (owner : Owner) :
    Triple (Stands a) (dispatchRenew env request now owner) (Spared a) := by
  unfold dispatchRenew
  split
  case h_2 => exact reject_spares _
  case h_1 =>
    refine guard_spares fun _ => ?_
    refine guard_spares fun _ => ?_
    refine guard_spares fun _ => Spared.of_ok ?_
    exact fun _ _ => rfl

theorem dispatchRelease_spares (request : Request) :
    Triple (Stands a) (dispatchRelease env request) (Spared a) := by
  refine guard_spares fun _ => Stands.auth ?_
  refine guard_spares fun _ => Spared.of_ok ?_
  exact fun _ _ => rfl

/-! ## LOAD -/

theorem heldLoadResponse_ok (jobId : String) :
    Triple P (heldLoadResponse env jobId) fun r _ => r.ok = true := fun _ _ => rfl

theorem dispatchLoadReplay_spares (jobId : String) (digest : PayloadDigest) :
    Triple (Stands a) (dispatchLoadReplay env jobId digest) (Spared a) := by
  refine Stands.outputActive fun _ => Stands.auth ?_
  refine guard_spares fun _ => Stands.auth ?_
  split
  case h_1 =>
    refine guard_spares fun _ => Spared.of_ok ?_
    exact fun _ _ => rfl
  case h_2 =>
    refine guard_spares fun _ => ?_
    exact guard_spares fun _ => Spared.of_ok (heldLoadResponse_ok jobId)

theorem prepareLoad_spares (job : Job) : Triple (Stands a) (prepareLoad env job) (Spared a) := by
  refine Stands.command fun preparation => ?_
  refine guard_spares fun _ => ?_
  refine guard_spares fun _ => ?_
  refine guard_spares fun _ => Spared.of_ok ?_
  exact fun _ _ => rfl

theorem dispatchLoadJob_spares (job : Job) :
    Triple (Stands a) (dispatchLoadJob env job) (Spared a) := by
  refine Stands.outputActive fun _ => ?_
  refine guard_spares fun _ => Stands.auth ?_
  refine guard_spares fun _ => ?_
  split
  case h_1 =>
    refine guard_spares fun _ => Spared.of_ok ?_
    exact fun _ _ => rfl
  case h_2 =>
    refine Triple.ite (fun _ => ?_) fun _ => guard_spares fun _ => ?_
    · exact Triple.ite (fun _ => Spared.of_ok (heldLoadResponse_ok _)) fun _ => reject_spares _
    refine guard_spares fun _ => Stands.constant fun bytes => ?_
    refine Stands.query fun _ => guard_spares fun _ => ?_
    exact guard_spares fun _ => prepareLoad_spares job

theorem dispatchLoad_spares (request : Request) :
    Triple (Stands a) (dispatchLoad env request) (Spared a) := by
  unfold dispatchLoad
  split
  case h_1 => exact dispatchLoadReplay_spares _ _
  case h_2 => exact dispatchLoadJob_spares _
  case h_3 => exact reject_spares _

/-! ## Failed jobs -/

/-- The stop is confirmed in world `w`. -/
def Env.Stops (env : Env ω) (deadline : UInt64) (w : ω) : Prop :=
  (env.engine.disable deadline w).1 = true ∧
    (env.engine.outputActive (env.engine.disable deadline w).2).1 = false

/-- The engine takes the start of a job, and its output stays off. -/
def Env.Takes (env : Env ω) (job : Job) (start : UInt64) (conditions : LocalStartConditions)
    (w : ω) : Prop :=
  (env.engine.schedule job start conditions w).1 = true ∧
    (env.engine.outputActive (env.engine.schedule job start conditions w).2).1 = false

/-- The job of `a` has ended in Failed, with its record while records are kept. -/
structure JobFailed (a a' : Authority) : Prop where
  state : a'.state = .failed
  record : 0 < a.config.terminalRecordEntries → ∃ job record, a.job = some job ∧
    a'.terminalRecords.head? = some record ∧ record.jobId = job.jobId ∧ record.state = .failed

theorem trimTerminals_records (k : Nat) (a : Authority) :
    (a.trimTerminals k).terminalRecords = a.terminalRecords.take (a.terminalRecords.length - k) := by
  induction k generalizing a with
  | zero => simp [Authority.trimTerminals]
  | succ k ih =>
    unfold Authority.trimTerminals
    split
    · rename_i hlast
      rw [List.getLast?_eq_none_iff.1 hlast, List.take_nil]
    · rw [ih]
      simp only [List.dropLast_eq_take, List.length_take, List.take_take]
      congr 1
      omega

theorem terminal_failed (error : ErrorCode) (nowNs : UInt64) (active loadActive : Bool)
    {a : Authority} {job : Job} (hjob : a.job = some job) :
    JobFailed a (a.terminal .failed error nowNs active loadActive) := by
  refine ⟨?_, fun hentries => ⟨job, ⟨job.jobId, .failed, nowNs, active, error⟩, hjob, ?_, rfl, rfl⟩⟩
  · rw [Authority.terminal_eq]
  · have hkept : ¬ (a.terminalRecords.length + 1 -
        (a.terminalRecords.length + 1 - a.config.terminalRecordEntries) = 0) := by omega
    simp [Authority.terminal, hjob, trimTerminals_records, List.head?_take, hkept]

/-- The record of a failed job, behind a stop that changed nothing else. -/
theorem recordFailed {job : Job} (error : ErrorCode) (nowNs : UInt64) (hjob : a.job = some job) :
    Triple (Stands a) (recordTerminal env .failed error nowNs) fun _ s => JobFailed a s.auth := by
  refine Triple.bind (R := fun _ s => JobFailed a s.auth) ?_ fun _ => ?_
  · rintro ⟨⟨a, t⟩, w⟩ rfl
    obtain ⟨active, loadActive, w', -, heq⟩ := pushTerminal_eq env a t w .failed error nowNs
    rw [heq]
    exact terminal_failed error nowNs active loadActive hjob
  · unfold releaseOwner
    rintro ⟨⟨b, t⟩, w⟩ hb
    show JobFailed a ((if b.owner.any (·.releaseAfterTerminal) then dropOwner env else pure ())
      ⟨⟨b, t⟩, w⟩).2.auth
    split
    · exact ⟨hb.state, hb.record⟩
    · exact hb

/-- The authority is `a`, in world `w`. -/
structure At (a : Authority) (w : ω) (s : AuthSys ω) : Prop where
  auth : s.auth = a
  world : s.world = w

namespace At

variable {w : ω} {Q : β → AuthSys ω → Prop}

theorem stands {m : AuthM ω β} (h : Triple (Stands a) m Q) : Triple (At a w) m Q :=
  h.strengthen fun _ hs => hs.auth

theorem read {k : Authority → AuthM ω β} (hk : Triple (At a w) (k a) Q) :
    Triple (At a w) (AuthM.auth >>= k) Q := by
  intro s hs
  obtain rfl := hs.auth
  exact hk s hs

theorem constant {f : ω → α} {k : α → AuthM ω β} (hk : Triple (At a w) (k (f w)) Q) :
    Triple (At a w) (AuthM.constant f >>= k) Q := by
  rintro s ⟨hauth, rfl⟩
  exact hk s ⟨hauth, rfl⟩

theorem outputActive {k : Bool → AuthM ω β}
    (hk : ∀ x, Triple (At a (env.engine.outputActive w).2) (k x) Q) :
    Triple (At a w) (AuthM.outputActive env >>= k) Q := by
  rintro s ⟨hauth, rfl⟩
  exact hk _ _ ⟨hauth, rfl⟩

theorem snapshot {k : ClockSnapshot → AuthM ω β}
    (hk : Triple (At a (env.snapshot w).2) (k (env.snapshot w).1) Q) :
    Triple (At a w) (AuthM.snapshot env >>= k) Q := by
  rintro s ⟨hauth, rfl⟩
  exact hk _ ⟨hauth, rfl⟩

end At

/-- The stop that ABORT asks for in world `w` is not confirmed in time. -/
def StopFailed (env : Env ω) (a : Authority) (w : ω) : Prop :=
  ¬ env.Stops (saturatingAdd (env.snapshot w).1.monotonicNowNs a.config.outputDisableTimeoutNs)
    (env.snapshot w).2

/-- The local start that ARM asks for in world `w`, on the reading `now`, is not taken. -/
def StartFailed (env : Env ω) (a : Authority) (job : Job) (body : ArmBody) (now : ClockSnapshot)
    (w : ω) : Prop :=
  env.engine.schedulesLocally w = true ∧
    ∃ startNs, validateArm a.config job (env.engine.startResolutionNs w) body now = .ok startNs ∧
      ¬ env.Takes job startNs (localConditions a.config body) w

theorem stoppedBy_failed {w : ω} (deadline : UInt64) :
    Triple (At a w) (stoppedBy env deadline) fun off s =>
      s.auth = a ∧ (off = false → ¬ env.Stops deadline w) := by
  unfold stoppedBy
  rintro ⟨⟨b, t⟩, w'⟩ ⟨rfl, rfl⟩
  rcases hdisable : env.engine.disable deadline w' with ⟨off, w₁⟩
  cases off with
  | false =>
    refine ⟨?_, fun _ hstops => ?_⟩
    · simp [bind, StateT.bind, disable, command, hdisable]
      rfl
    · rw [Env.Stops, hdisable] at hstops
      exact absurd hstops.1 (by simp)
  | true =>
    rcases hactive : env.engine.outputActive w₁ with ⟨active, w₂⟩
    refine ⟨?_, fun hoff hstops => ?_⟩
    · simp [bind, StateT.bind, disable, command, outputActive, query, hdisable]
      rfl
    · rw [Env.Stops, hdisable, hactive] at hstops
      simp [bind, StateT.bind, disable, command, outputActive, query, hdisable, hactive,
        hstops.2] at hoff
      cases hoff

theorem stopped_failed {w : ω} (nowNs : UInt64) :
    Triple (At a w) (stopped env nowNs) fun off s => s.auth = a ∧
      (off = false → ¬ env.Stops (saturatingAdd nowNs a.config.outputDisableTimeoutNs) w) :=
  At.read (stoppedBy_failed _)

/-- What a refused request, dispatched in world `w`, leaves of authority `a`. ARM asks for its start
after it looked at the clock and at the output, ABORT for its stop after it looked at the clock. -/
inductive Left (env : Env ω) (a : Authority) (w : ω) (request : Request) (a' : Authority) :
    Prop where
  | same (h : a' = a)
  | start {job : Job} {body : ArmBody} (arm : request.operation = .arm)
      (asked : request.body = .arm body) (held : a.job = some job)
      (refused : StartFailed env a job body (env.snapshot w).1
        (env.engine.outputActive (env.snapshot w).2).2) (failed : JobFailed a a')
  | stop (abort : request.operation = .abort) (refused : StopFailed env a (env.snapshot w).2)
      (failed : JobFailed a a')

def Leaves (env : Env ω) (a : Authority) (w : ω) (request : Request) (r : Response)
    (s : AuthSys ω) : Prop :=
  r.ok = false → Left env a w request s.auth

section Leaving

variable {w w' : ω} {request : Request} {m : AuthM ω Response}

theorem Leaves.of_spared (h : Triple (Stands a) m (Spared a)) :
    Triple (At a w') m (Leaves env a w request) :=
  (At.stands h).weaken fun _ _ hr hok => .same (hr hok)

theorem reject_leaves (code : ErrorCode) :
    Triple (At a w') (reject env code) (Leaves env a w request) :=
  Leaves.of_spared (reject_spares code)

theorem guard_leaves {c : Prop} [Decidable c] {code : ErrorCode}
    (h : ¬ c → Triple (At a w') m (Leaves env a w request)) :
    Triple (At a w') (if c then reject env code else m) (Leaves env a w request) :=
  .ite (fun _ => reject_leaves code) h

theorem Leaves.of_ok {P : AuthSys ω → Prop} (h : Triple P m fun r _ => r.ok = true) :
    Triple P m (Leaves env a w request) :=
  h.weaken fun r s hr hok => absurd hr (by simp [hok])

end Leaving

theorem reject_auth {I : Authority → Prop} (code : ErrorCode) :
    Triple (fun s : AuthSys ω => I s.auth) (reject env code) fun _ s => I s.auth := by
  rintro ⟨⟨b, t⟩, w⟩ h
  exact h

theorem halt_failed {w : ω} {state : State} {job : Job} (error : ErrorCode) (nowNs : UInt64)
    (hjob : a.job = some job) :
    Triple (At a w) (halt env state error nowNs) fun off s => off = false →
      ¬ env.Stops (saturatingAdd nowNs a.config.outputDisableTimeoutNs) w ∧ JobFailed a s.auth := by
  refine Triple.bind (stopped_failed nowNs) fun off => ?_
  cases off with
  | true =>
    refine Triple.bind (R := fun _ _ => True) (fun _ _ => trivial) fun _ => ?_
    exact Triple.pure fun _ _ hoff => nomatch hoff
  | false =>
    rintro s ⟨hauth, hfailed⟩
    exact fun _ => ⟨hfailed rfl, recordFailed .outputStateUnknown nowNs hjob s hauth⟩

theorem dispatchAbort_leaves {w : ω} {request : Request} (habort : request.operation = .abort) :
    Triple (At a (env.snapshot w).2) (dispatchAbort env request) (Leaves env a w request) := by
  unfold dispatchAbort
  split
  case h_2 => exact reject_leaves _
  refine guard_leaves fun _ => At.snapshot (At.read ?_)
  refine guard_leaves fun hid => ?_
  refine Triple.ite (fun _ => Leaves.of_ok fun _ _ => rfl) fun _ => ?_
  refine guard_leaves fun _ => ?_
  refine guard_leaves fun _ => ?_
  obtain ⟨job, hjob, -⟩ := Option.map_eq_some_iff.mp (not_not.mp hid)
  refine Triple.bind (halt_failed .none _ hjob) fun off => ?_
  cases off with
  | true => exact Leaves.of_ok fun _ _ => rfl
  | false =>
    intro s hs
    obtain ⟨hstop, hfailed⟩ := hs rfl
    exact fun _ => .stop habort hstop (reject_auth (I := JobFailed a) _ s hfailed)

/-! ## ARM -/

theorem JobFailed.congr {a a' b : Authority} (h : JobFailed b a') (hjob : b.job = a.job)
    (hconfig : b.config = a.config) : JobFailed a a' := by
  obtain ⟨hstate, hrecord⟩ := h
  rw [hjob, hconfig] at hrecord
  exact ⟨hstate, hrecord⟩

theorem armFailed_failed {job : Job} (now : ClockSnapshot) (hjob : a.job = some job) :
    Triple (Stands a) (armFailed env now) fun _ s => JobFailed a s.auth := by
  refine Stands.modify ?_
  refine Triple.bind (R := fun _ => Stands { a with arm := none }) ?_ fun off => ?_
  · intro s hs
    exact (stopped_failed now.monotonicNowNs s ⟨hs, rfl⟩).1
  · have hjob' : ({ a with arm := none } : Authority).job = some job := hjob
    cases off with
    | true =>
      refine Triple.bind (recordFailed .deviceFault now.monotonicNowNs hjob') fun _ => ?_
      exact (reject_auth (I := JobFailed { a with arm := none }) _).weaken
        fun _ _ h => h.congr rfl rfl
    | false =>
      refine Triple.bind (recordFailed .outputStateUnknown now.monotonicNowNs hjob') fun _ => ?_
      exact (reject_auth (I := JobFailed { a with arm := none }) _).weaken
        fun _ _ h => h.congr rfl rfl

theorem scheduled_failed {w : ω} {job : Job} (start : UInt64) (conditions : LocalStartConditions) :
    Triple (At a w) (schedule env job start conditions >>= scheduleFailed env)
      fun failed s => s.auth = a ∧ (failed = true → ¬ env.Takes job start conditions w) := by
  rintro ⟨⟨b, t⟩, w'⟩ ⟨rfl, rfl⟩
  rcases hschedule : env.engine.schedule job start conditions w' with ⟨taken, w₁⟩
  cases taken with
  | false =>
    refine ⟨?_, fun _ htakes => ?_⟩
    · simp [bind, StateT.bind, schedule, command, hschedule, scheduleFailed]
      rfl
    · rw [Env.Takes, hschedule] at htakes
      exact absurd htakes.1 (by simp)
  | true =>
    rcases hactive : env.engine.outputActive w₁ with ⟨active, w₂⟩
    refine ⟨?_, fun hfailed htakes => ?_⟩
    · simp [bind, StateT.bind, schedule, command, scheduleFailed, outputActive, query, hschedule]
    · rw [Env.Takes, hschedule, hactive] at htakes
      simp [bind, StateT.bind, schedule, command, scheduleFailed, outputActive, query, hschedule,
        hactive, htakes.2] at hfailed

theorem armLocally_leaves {w w' : ω} {request : Request} {body : ArmBody} {job : Job}
    {now : ClockSnapshot} {arm : ArmRecord} {response : Response} (hresponse : response.ok = true)
    (hleft : ¬ env.Takes job arm.startMonotonicNs (localConditions a.config body) w' →
      ∀ a', JobFailed a a' → Left env a w request a') (hjob : a.job = some job) :
    Triple (At (a.armWith arm) w') (armLocally env request body job now arm response)
      (Leaves env a w request) := by
  refine At.read ?_
  rw [← bind_assoc]
  refine Triple.bind (scheduled_failed _ _) fun failed => ?_
  cases failed with
  | false =>
    refine Leaves.of_ok ?_
    exact Triple.bind (R := fun _ _ => True) (fun _ _ => trivial) fun _ =>
      Triple.bind (R := fun _ _ => True) (fun _ _ => trivial) fun _ => Triple.pure fun _ _ => hresponse
  | true =>
    rintro s ⟨hauth, hrefused⟩
    have hheld : (a.armWith arm).job = some job := hjob
    have hfailed : JobFailed (a.armWith arm) (armFailed env now s).2.auth :=
      armFailed_failed now hheld s hauth
    exact fun _ => hleft (hrefused rfl) _ (hfailed.congr rfl rfl)

theorem armLoaded_leaves {w : ω} {request : Request} {body : ArmBody}
    (harm : request.operation = .arm) (hbody : request.body = .arm body) :
    Triple (At a (env.snapshot w).2) (armLoaded env request body (env.snapshot w).1)
      (Leaves env a w request) := by
  refine At.read ?_
  split
  case h_2 => exact reject_leaves _
  case h_1 job hjob =>
    refine guard_leaves fun _ => ?_
    refine guard_leaves fun _ => At.outputActive fun _ => ?_
    refine guard_leaves fun _ => At.constant ?_
    split
    case h_1 => exact reject_leaves _
    case h_2 start hstart =>
      refine At.constant ?_
      cases hlocally : env.engine.schedulesLocally (env.engine.outputActive (env.snapshot w).2).2 with
      | false => exact Leaves.of_ok fun _ _ => rfl
      | true =>
        rintro s ⟨rfl, hworld⟩
        refine armLocally_leaves rfl (fun hrefused a' hfailed => ?_) hjob _ ⟨rfl, hworld⟩
        exact .start harm hbody hjob ⟨hlocally, start, hstart, hrefused⟩ hfailed

theorem heldArm_ok {body : ArmBody} {response : Response}
    (h : a.heldArm body = some (.ok response)) : response.ok = true := by
  unfold Authority.heldArm at h
  split at h
  · cases h
  · split at h
    · cases h
    · split at h
      · cases h
        rfl
      · split at h <;> exact nomatch h

theorem dispatchArm_leaves {w : ω} {request : Request} (harm : request.operation = .arm) :
    Triple (At a (env.snapshot w).2) (dispatchArm env request (env.snapshot w).1)
      (Leaves env a w request) := by
  unfold dispatchArm
  split
  case h_2 => exact reject_leaves _
  case h_1 hbody =>
    refine guard_leaves fun _ => At.read ?_
    split
    case h_1 =>
      split
      case h_2 => exact reject_leaves _
      case h_1 => exact guard_leaves fun _ => Leaves.of_ok fun _ _ => rfl
    case h_2 =>
      split
      case h_1 hheld =>
        exact Leaves.of_ok (Triple.pure fun _ _ => heldArm_ok hheld)
      case h_2 => exact reject_leaves _
      case h_3 => exact armLoaded_leaves harm hbody

/-! ## Requests -/

theorem dispatch_leaves (request : Request) (w : ω) :
    Triple (At a w) (dispatch env request) (Leaves env a w request) := by
  refine At.snapshot (guard_leaves fun _ => ?_)
  refine guard_leaves fun _ => ?_
  refine Triple.ite (fun _ => Leaves.of_spared (dispatchRead_spares _ _)) fun _ => ?_
  refine Triple.ite (fun _ => Leaves.of_spared (dispatchClaim_spares _ _)) fun _ => ?_
  refine guard_leaves fun howner => At.read ?_
  split
  case h_2 => exact reject_leaves _
  case h_1 owner _ =>
    refine guard_leaves fun _ => ?_
    split
    case h_1 => exact Leaves.of_spared (dispatchRenew_spares _ _ _)
    case h_2 => exact Leaves.of_spared (dispatchRelease_spares _)
    case h_3 => exact Leaves.of_spared (dispatchLoad_spares _)
    case h_4 hop => exact dispatchArm_leaves hop
    case h_5 =>
      have hop : request.operation = .abort := by
        cases hoperation : request.operation <;> simp_all [ownerBody]
      exact dispatchAbort_leaves hop

theorem onAuthority_triple {m : AuthM ω α} {Q : α → AuthSys ω → Prop} (h : Triple P m Q) :
    Triple (fun s : Sys ω => P s.toAuthSys) (onAuthority m) fun x s => Q x s.toAuthSys :=
  fun s hs => h s.toAuthSys hs

theorem rejectWith_leaves {w : ω} {request : Request} (code : ErrorCode) (close : Bool) :
    Triple (fun s : Sys ω => s.auth = a) (rejectWith env code close)
      fun r s => Leaves env a w request r s.toAuthSys := by
  intro s hs _
  exact .same ((reject_spares code s.toAuthSys hs) rfl)

/-- Whether it is blocked is looked up, and changes nothing of the authority. -/
theorem blocked_at (s : AuthSys ω) :
    Triple (· = s) (blocked env) fun _ => At s.auth (blocked env s).2.world := by
  rintro ⟨⟨b, t⟩, w⟩ rfl
  obtain ⟨held, t', w', heq, -⟩ := blocked_eq env {} b t w
  rw [heq]
  exact ⟨rfl, rfl⟩

theorem respond_leaves (s : AuthSys ω) (request : Request) (retainResponse : Bool)
    (now : ClockSnapshot) :
    Triple (fun s' : Sys ω => s'.toAuthSys = s) (respond env request retainResponse now)
      fun r s' => Leaves env s.auth (blocked env s).2.world request r s'.toAuthSys := by
  have hauth : ∀ s' : Sys ω, s'.toAuthSys = s → s'.auth = s.auth := fun s' h => h ▸ rfl
  refine Triple.bind (onAuthority_triple (P := (· = s)) (Q := fun _ => (· = s))
    fun _ h => h) fun _ => ?_
  refine Triple.ite (fun _ => (rejectWith_leaves _ _).strengthen hauth) fun _ => ?_
  split
  · exact (rejectWith_leaves _ _).strengthen hauth
  refine Triple.bind (onAuthority_triple (blocked_at s)) fun held => ?_
  generalize (blocked env s).2.world = w
  have hat : ∀ s' : Sys ω, At s.auth w s'.toAuthSys → s'.auth = s.auth := fun _ h => h.auth
  refine Triple.ite (fun _ => (rejectWith_leaves _ _).strengthen hat) fun _ => ?_
  refine Triple.bind (R := fun _ s' => At s.auth w s'.toAuthSys) (fun _ h => h) fun t => ?_
  split
  · exact (rejectWith_leaves _ _).strengthen hat
  refine Triple.bind (R := fun _ s' => At s.auth w s'.toAuthSys) (fun _ h => h) fun _ => ?_
  refine Triple.bind (R := fun _ s' => At s.auth w s'.toAuthSys) (fun _ h => h) fun _ => ?_
  split
  · exact Triple.pure fun _ hs _ => .same hs.auth
  · exact (rejectWith_leaves _ _).strengthen hat
  · refine Triple.bind (onAuthority_triple (dispatch_leaves request w)) fun r => ?_
    intro s hs hok
    cases retainResponse with
    | true => exact hs hok
    | false => exact hs hok

/-- A refused request leaves the authority as the expiries of its entry left it, or it has ended
the job: an ARM whose start the engine did not take, an ABORT whose stop it did not confirm. -/
theorem refused_unchanged (s : Sys ω) (request : Request) (retainResponse : Bool)
    (hok : (handleOwned env request retainResponse s).1.ok = false) :
    Left env (enter env s).2.auth (blocked env (enter env s).2.toAuthSys).2.world request
      (handleOwned env request retainResponse s).2.auth :=
  respond_leaves _ request retainResponse (enter env s).1 (enter env s).2 rfl hok

/-! ## A start with the output on -/

/-- An engine that takes every start and drives its output at once; the world is the clock and
the output. -/
def loudEngine : RfEngine (ClockSnapshot × Bool) where
  filterPreparationNs _ := 0
  amplifierLeadNs _ := 0
  amplifierTailNs _ := 0
  startResolutionNs _ := 1000
  completionAcknowledgementNs _ := 0
  schedulesLocally _ := true
  ownsExecutionPlan _ := false
  externallyControlledCompletion _ := false
  preparationMemoryBytes _ _ := 0
  prepare _ w := ({ accepted := true }, w)
  schedule _ _ _ w := (true, (w.1, true))
  begin _ _ w := (true, w)
  poll _ w := ({ state := .armed }, w)
  disable _ w := (true, (w.1, false))
  inhibitOutput w := w
  calibrationBoundary w := w
  setFrequencyCorrectionPpb _ w := (true, w)
  executionStarted w := (false, w)
  outputActive w := (w.2, w)

def loud : Env (ClockSnapshot × Bool) where
  engine := loudEngine
  snapshot w := (w.1, w)
  newBootId w := ("00000000000000000000000000000000", w)
  memoryAdmitted _ w := (true, w)
  armObserver _ _ _ _ w := w

/-- A session, an owner and a job. -/
def loudLoad : List (Op (ClockSnapshot × Bool)) :=
  [.handle (benchRequest .hello "30000000000000000000000000000000" (.hello ["WTP/1"])),
   .handle (benchRequest .claim "30000000000000000000000000000001"
     (.claim "44444444444444444444444444444444" 60000)),
   .handle (benchRequest .load "30000000000000000000000000000002" (.job benchJob))]

def loudArm : Request :=
  benchRequest .arm "30000000000000000000000000000003" (.arm ⟨benchJob.jobId, 2000000000, 1000000⟩)

/-- The engine takes the start and confirms the stop, and the refused ARM still ends the job. -/
theorem loud_start_fails :
    let s := run loud loudLoad (construct loud {} (benchClock 1000000000, false))
    s.auth.ready = true ∧ (enter loud s).2.auth.state = .loaded ∧
      (handleOwned loud loudArm true s).1.ok = false ∧
      (handleOwned loud loudArm true s).2.auth.state = .failed ∧
      (∀ job start conditions w, (loud.engine.schedule job start conditions w).1 = true) ∧
      ∀ deadline w, (loud.engine.disable deadline w).1 = true :=
  ⟨by decide +kernel, by decide +kernel, by decide +kernel, by decide +kernel,
    fun _ _ _ _ => rfl, fun _ _ => rfl⟩

/-- The refusal of that ARM is one of the exceptions. -/
theorem loud_start_left :
    let s := run loud loudLoad (construct loud {} (benchClock 1000000000, false))
    Left loud (enter loud s).2.auth (blocked loud (enter loud s).2.toAuthSys).2.world loudArm
      (handleOwned loud loudArm true s).2.auth :=
  refused_unchanged _ loudArm true (by decide +kernel)

end WsprryPico.Wtp
