import WsprryPico.Wtp.Run

/-!
# The physical stop

`local_inhibit_output` sets the output interlock and then runs `local_abort`,
whose poll comes first. A job armed in the foreground and due at the snapshot
of that poll is begun with the interlock already set. That is the only way:
`physical_stop` says that a run starts nothing under the interlock exactly when
no stop of it falls on a due job.
-/

namespace WsprryPico.Wtp

open Lib Relation

variable {ω : Type} {env : Env ω} {p : Permit ω}

/-- No job is prepared or started under the interlock. -/
def Stopped (t : List Event) : Prop :=
  ∀ x c, Event.call x c ∈ t → x.outputInhibited = true → c.admitted = none

/-- `op` is a physical stop at whose poll the armed job is due. -/
def Hits (env : Env ω) (s : Sys ω) (op : Op ω) : Prop :=
  op = .localInhibitOutput ∧ Due s.auth (env.snapshot (env.engine.inhibitOutput s.world)).1

theorem stopped_iff {t : List Event} :
    Stopped t ↔ Admitted (fun x _ => x.outputInhibited = false) t := by
  constructor
  · intro h x c job hmem hadmitted
    by_contra hinhibited
    simp [h x c hmem (by simpa using hinhibited)] at hadmitted
  · intro h x c hmem hinhibited
    cases hadmitted : c.admitted with
    | none => rfl
    | some job => simp [h x c job hmem hadmitted] at hinhibited

/-- Under the interlock the service has no job to start. -/
def Quiet (a : Authority) : Prop := a.outputInhibited = true → Idle a

theorem step_quiet {s s' : AuthSys ω} (hstep : Step env p s s') (hp : ¬ p.inhibit)
    (h : Quiet s.auth) : Quiet s'.auth := by
  cases hstep with
  | terminal x deadline state error nowNs active loadActive hpending hhalts =>
    have hs := hhalts.outcome
    rw [Authority.terminal_eq]
    exact fun _ => idle_of_outcome hs
  | fault deadline error nowNs active loadActive hs hhalts =>
    rw [Authority.terminal_eq]
    exact fun _ => by simp [Idle]
  | clear => exact fun _ => by simp [Idle, Authority.clearJob]
  | @prune a t w nowNs =>
    obtain hp' | ⟨-, hp'⟩ := a.pruneTerminals_cases nowNs
    · rw [hp']
      exact h
    · rw [hp']
      exact fun _ => by simp [Idle, Authority.clearJob]
  | load digest hloads =>
    exact fun hinhibited => absurd (hloads.free.symm.trans hinhibited) (by decide)
  | arm harms => exact fun hinhibited => absurd (harms.free.symm.trans hinhibited) (by decide)
  | armLocally conditions harms =>
    exact fun hinhibited => absurd (harms.free.symm.trans hinhibited) (by decide)
  | started hs => exact fun hinhibited => absurd hs (h hinhibited).2.1
  | launch hlaunches => exact fun hinhibited => absurd hlaunches.state (h hinhibited).2.1
  | inhibit hinhibit => exact absurd hinhibit hp
  | _ => exact h

theorem sysStep_stopped {s s' : Sys ω} (hstep : SysStep env p s s')
    (hlaunch : p.launch → Quiet s.auth) (h : Stopped s.trace) : Stopped s'.trace := by
  rw [stopped_iff] at h ⊢
  refine sysStep_admitted hstep h (fun job hloads => hloads.free) (fun job arm harms => harms.free)
    fun now arm job hl => ?_
  by_contra hinhibited
  exact (hlaunch hl.permit (by simpa using hinhibited)).2.1 hl.state

theorem sysStep_quiet {s s' : Sys ω} (hstep : SysStep env p s s') (hp : ¬ p.inhibit)
    (h : Quiet s.auth) : Quiet s'.auth := by
  cases hstep with
  | authority hwithin _ hstep => exact step_quiet hstep (fun hi => hp (hwithin.inhibit hi)) h
  | reset deadline bootId ready => exact fun _ => by cases ready <;> simp [Idle, Authority.reset]
  | _ => exact h

/-! ## Runs -/

/-- What every call keeps that does not stop on a due job. -/
structure Halted (s : Sys ω) : Prop where
  sound : Sound s.auth
  stopped : Stopped s.trace
  quiet : Quiet s.auth

/-- Everything but the physical stop itself. -/
def Permit.unstopped : Permit ω := ⟨none, fun _ _ _ => True, True, True, False, True⟩

/-- What a physical stop needs when no job is due. -/
def Permit.stopping : Permit ω := { inhibit := True }

theorem Op.halted (op : Op ω) {s : Sys ω} (h : Halted s) (hmiss : ¬ Hits env s op) :
    Halted (op.exec env s) := by
  by_cases hop : op = .localInhibitOutput
  · subst hop
    obtain ⟨⟨⟨a, t⟩, w⟩, tr⟩ := s
    have hmoves := localInhibitOutput_moves env .stopping t tr
      h.sound trivial fun hdue => hmiss ⟨rfl, hdue⟩
    refine ⟨Op.sound env .localInhibitOutput h.sound, ?_, fun _ => hmoves.2.1.1⟩
    exact invariant_star (I := fun s : Sys ω => Stopped s.trace)
      (fun _ _ hs => sysStep_stopped hs False.elim) hmoves.1 h.stopped
  · have hwithin : op.Within env .unstopped s := by
      cases op with
      | localInhibitOutput => exact absurd rfl hop
      | handle | handleInternal => exact ⟨fun _ _ _ _ _ => trivial, fun _ _ => trivial⟩
      | _ => simp [Op.Within, Permit.unstopped]
    obtain ⟨f, rfl⟩ | hpath := op.path h.sound hwithin
    · exact ⟨h.sound, h.stopped, h.quiet⟩
    · refine invariant_star (I := Halted) (fun a b hs h => ?_) hpath h
      exact ⟨sysStep_sound hs h.sound, sysStep_stopped hs (fun _ => h.quiet) h.stopped,
        sysStep_quiet hs id h.quiet⟩

theorem run_halted (ops : List (Op ω)) {s : Sys ω} (h : Halted s)
    (hmiss : ∀ pre op post, ops = pre ++ op :: post → ¬ Hits env (run env pre s) op) :
    Halted (run env ops s) := by
  induction ops generalizing s with
  | nil => exact h
  | cons op ops ih =>
    refine ih (op.halted h (hmiss [] op ops rfl)) fun pre op' post he => ?_
    exact hmiss (op :: pre) op' post (by rw [he]; rfl)

theorem halted_construct (config : ServiceConfig) (w : ω) : Halted (construct env config w) := by
  refine ⟨sound_construct config w, ?_, ?_⟩
  · obtain ⟨config', bootId, ready, now, x, deadline, w', h, -⟩ :=
      construct_cases env config w
    rw [h]
    intro y c hmem
    simp only [List.mem_cons, Event.call.injEq, reduceCtorEq, List.not_mem_nil, or_false] at hmem
    rw [hmem.2]
    exact fun _ => rfl
  · obtain ⟨config', bootId, ready, now, x, deadline, w', h, -⟩ :=
      construct_cases env config w
    rw [h]
    exact nofun

theorem hit_begins {s : Sys ω} (hsound : Sound s.auth) {op : Op ω} (hhit : Hits env s op) :
    BegunUnder true (op.exec env s).trace := by
  obtain ⟨rfl, hdue⟩ := hhit
  obtain ⟨⟨⟨a, t⟩, w⟩, tr⟩ := s
  exact (localInhibitOutput_moves _ .all t tr hsound trivial
    fun _ => trivial).2.1.2 hdue

theorem not_stopped_of_begun {t : List Event} (h : BegunUnder true t) : ¬ Stopped t := by
  obtain ⟨x, hx, job, n, hmem⟩ := h
  intro hstopped
  cases hstopped x _ hmem hx

/-- Nothing is prepared or started under the interlock, in the stop's own call
and in every later one, if and only if no stop of the run falls on a due job. -/
theorem physical_stop (ops : List (Op ω)) (config : ServiceConfig) (w : ω) :
    Stopped (run env ops (construct env config w)).trace ↔
      ∀ pre op post, ops = pre ++ op :: post →
        ¬ Hits env (run env pre (construct env config w)) op := by
  constructor
  · rintro hstopped pre op post rfl hhit
    have hsound : Sound (run env pre (construct env config w)).auth := run_sound pre config w
    refine not_stopped_of_begun ((hit_begins hsound hhit).mono ?_) hstopped
    rw [run_append]
    exact run_trace env post (op.sound _ hsound)
  · exact fun hmiss => (run_halted ops (halted_construct config w) hmiss).stopped

/-! ## A stop on a due job -/

/-- An engine that accepts every command; its world is the clock. -/
def benchEngine : RfEngine ClockSnapshot where
  filterPreparationNs _ := 0
  amplifierLeadNs _ := 0
  amplifierTailNs _ := 0
  startResolutionNs _ := 1000
  completionAcknowledgementNs _ := 0
  schedulesLocally _ := false
  ownsExecutionPlan _ := false
  externallyControlledCompletion _ := false
  preparationMemoryBytes _ _ := 0
  prepare _ w := ({ accepted := true }, w)
  schedule _ _ _ w := (true, w)
  begin _ _ w := (true, w)
  poll _ w := ({ state := .running }, w)
  disable _ w := (true, w)
  inhibitOutput w := w
  calibrationBoundary w := w
  setFrequencyCorrectionPpb _ w := (true, w)
  executionStarted w := (false, w)
  outputActive w := (false, w)

def bench : Env ClockSnapshot where
  engine := benchEngine
  snapshot w := (w, w)
  newBootId w := ("00000000000000000000000000000000", w)
  memoryAdmitted _ w := (true, w)
  armObserver _ _ _ _ w := w

def benchClock (ns : UInt64) : ClockSnapshot :=
  { state := .synchronized, utcNowNs := ns, monotonicNowNs := ns, leap := .normal }

def benchJob : Job :=
  { jobId := "11111111111111111111111111111111"
    mode := "tone"
    totalDurationNs := 1000000000
    events := { events := [⟨0, 1000000000, true, some 14000000000000000⟩] } }

theorem benchDigest_length : (List.replicate 32 (1 : UInt8)).length = 32 := by decide

def benchDigest : PayloadDigest := ⟨List.replicate 32 1, benchDigest_length⟩

def benchRequest (operation : Operation) (requestId : String) (body : RequestBody) : Request :=
  { sessionId := "22222222222222222222222222222222"
    requestId := requestId
    principal := "controller"
    operation := operation
    payloadDigest := benchDigest
    body := body }

/-- A session, an owner, a job and its start at second two. -/
def benchArm : List (Op ClockSnapshot) :=
  [.handle (benchRequest .hello "30000000000000000000000000000000" (.hello ["WTP/1"])),
   .handle (benchRequest .claim "30000000000000000000000000000001"
     (.claim "44444444444444444444444444444444" 60000)),
   .handle (benchRequest .load "30000000000000000000000000000002" (.job benchJob)),
   .handle (benchRequest .arm "30000000000000000000000000000003"
     (.arm ⟨benchJob.jobId, 2000000000, 1000000⟩))]

/-- The clock moves to the armed start and the stop follows. -/
def dueStop : List (Op ClockSnapshot) :=
  benchArm ++ [.world fun _ => benchClock 2000000000, .localInhibitOutput]

theorem not_stopped_of_any {t : List Event} (h : (t.any fun
    | .call x (.begin _ _) => x.outputInhibited
    | _ => false) = true) : ¬ Stopped t := by
  obtain ⟨e, hmem, he⟩ := List.any_eq_true.1 h
  split at he
  · rename_i x job n
    exact not_stopped_of_begun ⟨x, he, job, n, hmem⟩
  · cases he

theorem due_job_begun :
    ¬ Stopped (run bench dueStop (construct bench {} (benchClock 1000000000))).trace :=
  not_stopped_of_any (by decide +kernel)

end WsprryPico.Wtp
