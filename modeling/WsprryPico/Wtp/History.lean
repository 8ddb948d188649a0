import WsprryPico.Wtp.Run

/-!
# The terminal history

The terminal records and the retained jobs are two views of one history
(`Lockstep`). A job in it is never prepared, scheduled or begun again, and a
LOAD or an ARM that names it is answered from the history or refused.
-/

namespace WsprryPico.Wtp

open Lib Relation AuthM SysM

variable {ω α β : Type} {env : Env ω} {p : Permit ω} {a : Authority} {t : List Event} {w : ω}
  {tr : Transport}

/-! ## No command for a retained job -/

/-- The command was for a job outside the history. -/
def Unretained (x : Authority) (job : Job) : Prop := job.jobId ∉ x.recordIds

theorem unretained_live (h : Sound a) (hs : a.state = .loaded ∨ a.state = .armed ∨ a.state = .running)
    {job : Job} (hjob : a.job = some job) : Unretained a job := by
  unfold Unretained
  rw [h.lockstep.ids]
  exact h.lockstep.live hs job hjob

theorem sysStep_unretained {s s' : Sys ω} (hstep : SysStep env p s s') (hsound : Sound s.auth)
    (h : Admitted Unretained s.trace) : Admitted Unretained s'.trace := by
  refine sysStep_admitted hstep h (fun job hloads => ?_) (fun job arm harms => ?_)
    fun now arm job hlaunches => ?_
  · unfold Unretained
    rw [hsound.lockstep.ids]
    exact findRetained_none hloads.unretained
  · exact unretained_live hsound (.inl harms.state) harms.held
  · exact unretained_live hsound (.inr (.inl hlaunches.state)) hlaunches.held

theorem run_unretained (ops : List (Op ω))
    (config : ServiceConfig) (w : ω) :
    Admitted Unretained (run env ops (construct env config w)).trace := by
  refine run_keeps (I := fun s => Admitted Unretained s.trace) (fun _ _ h => h)
    (fun _ _ hs hsound h => sysStep_unretained hs hsound h) ops config w ?_
  obtain ⟨config', bootId, ready, now, x, deadline, w', h, -⟩ :=
    construct_cases env config w
  rw [h]
  intro y c job hmem hadmitted
  simp only [List.mem_cons, Event.call.injEq, reduceCtorEq, List.not_mem_nil, or_false] at hmem
  rw [hmem.2] at hadmitted
  cases hadmitted

/-! ## The answer to a retained job -/

/-- `request` is a LOAD or an ARM of `jobId`. -/
def Request.Names (request : Request) (jobId : String) : Prop :=
  (request.operation = .load ∧ ((∃ job, request.body = .job job ∧ job.jobId = jobId) ∨
    ∃ digest, request.body = .loadReplay jobId digest)) ∨
  (request.operation = .arm ∧ ∃ body, request.body = .arm body ∧ body.jobId = jobId)

/-- `r` answers `jobId` from the history of `a`. -/
def Historical (a : Authority) (jobId : String) (r : Response) : Prop :=
  ∃ retained ∈ a.retainedJobs, retained.jobId = jobId ∧
    (r = retainedLoadResponse a retained ∨
      ∃ arm, retained.arm = some arm ∧ r = armResponse a jobId arm)

theorem findRetained_of_mem {jobId : String} (h : jobId ∈ a.retainedIds) :
    ∃ retained, a.findRetained jobId = some retained := by
  cases hfind : a.findRetained jobId with
  | none => exact absurd h (findRetained_none hfind)
  | some retained => exact ⟨retained, rfl⟩

theorem findRetained_spec {jobId : String} {retained : RetainedJob}
    (h : a.findRetained jobId = some retained) :
    retained ∈ a.retainedJobs ∧ retained.jobId = jobId :=
  ⟨List.mem_of_find?_eq_some h, by simpa using List.find?_some h⟩

/-- Refused, or answered from the history. -/
def Settled (a : Authority) (jobId : String) (r : Response) : Prop :=
  r.ok = false ∨ Historical a jobId r

theorem reject_settled {jobId : String} {a' : Authority} (code : ErrorCode) :
    Goes env p a' t w (reject env code) fun r _ _ => Settled a jobId r := by
  refine (reject_goes code).weaken ?_
  rintro r _ _ ⟨-, -, active, rfl⟩
  exact .inl rfl

theorem dispatchLoadJob_retained (job : Job)
    {retained : RetainedJob} (h : a.findRetained job.jobId = some retained) :
    Goes env p a t w (dispatchLoadJob env job) fun r _ _ => Settled a job.jobId r := by
  refine .outputActive fun active w' => .ite (fun _ => reject_settled _) fun _ => .auth ?_
  refine .ite (fun _ => reject_settled _) fun _ => ?_
  simp only [h]
  refine .ite (fun _ => reject_settled _) fun _ => .modify (.touch _) (.pure (.inr ?_))
  obtain ⟨hmem, hid⟩ := findRetained_spec h
  exact ⟨retained, hmem, hid, .inl rfl⟩

theorem dispatchLoadReplay_retained {jobId : String} (digest : PayloadDigest)
    {retained : RetainedJob} (h : a.findRetained jobId = some retained) :
    Goes env p a t w (dispatchLoadReplay env jobId digest) fun r _ _ => Settled a jobId r := by
  refine .outputActive fun active w' => .auth (.ite (fun _ => reject_settled _) fun _ => .auth ?_)
  simp only [h]
  refine .ite (fun _ => reject_settled _) fun _ => .modify (.touch _) (.pure (.inr ?_))
  obtain ⟨hmem, hid⟩ := findRetained_spec h
  exact ⟨retained, hmem, hid, .inl rfl⟩

theorem dispatchArm_retained {request : Request} (now : ClockSnapshot) {body : ArmBody}
    (hbody : request.body = .arm body) {retained : RetainedJob}
    (h : a.findRetained body.jobId = some retained) :
    Goes env p a t w (dispatchArm env request now) fun r _ _ => Settled a body.jobId r := by
  unfold dispatchArm
  simp only [hbody]
  refine .ite (fun _ => reject_settled _) fun _ => .auth ?_
  simp only [h]
  cases harm : retained.arm with
  | none => exact reject_settled _
  | some arm =>
    refine .ite (fun _ => reject_settled _) fun _ => .modify (.touch _) (.pure (.inr ?_))
    obtain ⟨hmem, hid⟩ := findRetained_spec h
    exact ⟨retained, hmem, hid, .inr ⟨arm, harm, by rw [hid]⟩⟩

theorem dispatch_retained {request : Request} {jobId : String}
    (hnames : request.Names jobId) (h : jobId ∈ a.retainedIds) :
    Goes env p a t w (dispatch env request) fun r _ _ => Settled a jobId r := by
  obtain ⟨retained, hfind⟩ := findRetained_of_mem h
  unfold dispatch
  refine .snapshot (.ite (fun _ => reject_settled _) fun _ => ?_)
  refine .ite (fun _ => reject_settled _) fun _ => ?_
  obtain ⟨hop, hbody⟩ | ⟨hop, body, hbody, rfl⟩ := hnames
  all_goals
    simp only [hop]
    refine .ite (fun hread => absurd hread (by decide)) fun _ => ?_
    refine .ite nofun fun _ => .ite (fun _ => reject_settled _) fun _ => ?_
    refine .auth ?_
    split
    case h_2 => exact reject_settled _
    refine .ite (fun _ => reject_settled _) fun _ => ?_
  · unfold dispatchLoad
    obtain ⟨job, hbody, rfl⟩ | ⟨digest, hbody⟩ := hbody
    · simp only [hbody]
      exact dispatchLoadJob_retained job hfind
    · simp only [hbody]
      exact dispatchLoadReplay_retained digest hfind
  · exact dispatchArm_retained _ hbody hfind

theorem handleOwned_retained {request : Request} {jobId : String}
    (retainResponse : Bool) (s : Sys ω) (hnames : request.Names jobId)
    (h : jobId ∈ (enter env s).2.auth.retainedIds) :
    Answered (enter env s).2.transport request (Settled (enter env s).2.auth jobId)
      (handleOwned env request retainResponse s).1 := by
  obtain ⟨⟨⟨a, t⟩, w⟩, tr⟩ := s
  have henter := (enter_moves env .all a t w tr).2
  obtain hother | hsettled := (respond_moves (p := .all) request retainResponse henter.2.2.2
    ⟨fun _ _ _ _ _ => trivial, fun _ _ => trivial⟩
    fun p' t' w' _ => dispatch_retained hnames h).2
  · exact hother.answered
  · exact .inr (.inr hsettled)

/-- The two histories are in lockstep, and a job in them is never executed again. -/
theorem terminal_history (ops : List (Op ω))
    (config : ServiceConfig) (w : ω) :
    let s := run env ops (construct env config w)
    (s.auth.terminalRecords.map (·.jobId) = s.auth.retainedJobs.map (·.jobId) ∧
      (s.auth.terminalRecords.map (·.jobId)).Nodup ∧
      s.auth.terminalRecords.length ≤ s.auth.config.terminalRecordEntries) ∧
    (∀ x c job, Event.call x c ∈ s.trace → c.admitted = some job →
      job.jobId ∉ x.terminalRecords.map (·.jobId)) ∧
    ∀ request jobId retainResponse, request.Names jobId →
      jobId ∈ (enter env s).2.auth.terminalRecords.map (·.jobId) →
      Answered (enter env s).2.transport request (Settled (enter env s).2.auth jobId)
        (handleOwned env request retainResponse s).1 := by
  intro s
  have hsound : Sound s.auth := run_sound ops config w
  refine ⟨⟨hsound.lockstep.ids, hsound.lockstep.nodup, hsound.lockstep.bound⟩,
    run_unretained ops config w, fun request jobId retainResponse hnames hmem => ?_⟩
  have hentered : Sound (enter env s).2.auth :=
    ((enter_moves env .all s.auth s.trace s.world s.transport).sound hsound).2.2
  refine handleOwned_retained retainResponse s hnames ?_
  rw [← hentered.lockstep.ids]
  exact hmem

end WsprryPico.Wtp
