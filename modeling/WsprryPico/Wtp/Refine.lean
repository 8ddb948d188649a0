import WsprryPico.Wtp.Step

/-!
# The operations go along `Step`

`Goes env p a t w m R`: the computation `m`, run from authority `a`, trace `t`
and world `w`, moves by steps of `Step env p` and ends in a result, authority
and trace satisfying `R`. One lemma for each function of the service says what
it may do; callers use it and do not unfold the callee.
-/

namespace WsprryPico.Wtp

open Lib Relation AuthM

variable {ω α β γ : Type} {env : Env ω} {p : Permit ω} {a : Authority} {t : List Event} {w : ω}

def Goes (env : Env ω) (p : Permit ω) (a : Authority) (t : List Event) (w : ω) (m : AuthM ω α)
    (R : α → Authority → List Event → Prop) : Prop :=
  Along (Step env p) ⟨⟨a, t⟩, w⟩ m fun x s => R x s.auth s.trace

/-! ## Rules -/

namespace Goes

variable {m : AuthM ω α} {k : α → AuthM ω β} {R R' : α → Authority → List Event → Prop}
  {Q : β → Authority → List Event → Prop}

theorem pure {x : α} (h : R x a t) : Goes env p a t w (Pure.pure x) R := Along.pure h

theorem bind (hm : Goes env p a t w m R)
    (hk : ∀ x a' t' w', R x a' t' → Goes env p a' t' w' (k x) Q) :
    Goes env p a t w (m >>= k) Q :=
  Along.bind hm fun x s' h => hk x s'.auth s'.trace s'.world h

theorem weaken (hm : Goes env p a t w m R) (h : ∀ x a' t', R x a' t' → R' x a' t') :
    Goes env p a t w m R' :=
  Along.weaken hm fun x s' => h x s'.auth s'.trace

theorem last (hm : Goes env p a t w (m >>= Pure.pure) R) : Goes env p a t w m R := by
  rwa [bind_pure] at hm

theorem ite {c : Prop} [Decidable c] {m n : AuthM ω α} (ht : c → Goes env p a t w m R)
    (hf : ¬ c → Goes env p a t w n R) : Goes env p a t w (if c then m else n) R :=
  Along.ite ht hf

theorem auth {k : Authority → AuthM ω β} (hk : Goes env p a t w (k a) Q) :
    Goes env p a t w (AuthM.auth >>= k) Q := Along.read rfl hk

theorem constant {f : ω → α} (hk : ∀ x, Goes env p a t w (k x) Q) :
    Goes env p a t w (AuthM.constant f >>= k) Q := Along.read (a := f w) rfl (hk _)

theorem modify {f : Authority → Authority} {k : Unit → AuthM ω β}
    (h : Step env p ⟨⟨a, t⟩, w⟩ ⟨⟨f a, t⟩, w⟩) (hk : Goes env p (f a) t w (k ()) Q) :
    Goes env p a t w (modifyAuth f >>= k) Q := Along.jump h rfl hk

theorem emit {e : Event} {k : Unit → AuthM ω β}
    (h : Step env p ⟨⟨a, t⟩, w⟩ ⟨⟨a, e :: t⟩, w⟩) (hk : Goes env p a (e :: t) w (k ()) Q) :
    Goes env p a t w (AuthM.emit e >>= k) Q := Along.jump h rfl hk

theorem query {f : ω → α × ω} (hf : env.Observes w (f w).2)
    (hk : ∀ x w', Goes env p a t w' (k x) Q) : Goes env p a t w (AuthM.query f >>= k) Q :=
  Along.jump (.observe hf) rfl (hk _ _)

theorem outputActive {k : Bool → AuthM ω β} (hk : ∀ x w', Goes env p a t w' (k x) Q) :
    Goes env p a t w (AuthM.outputActive env >>= k) Q := query .outputActive hk

theorem snapshot {k : ClockSnapshot → AuthM ω β}
    (hk : Goes env p a (.clock (env.snapshot w).1 :: t) (env.snapshot w).2
      (k (env.snapshot w).1) Q) :
    Goes env p a t w (AuthM.snapshot env >>= k) Q := Along.jump .clock rfl hk

theorem command {c : EngineCall} {f : ω → α × ω}
    (h : Step env p ⟨⟨a, t⟩, w⟩ ⟨⟨a, .call a c :: t⟩, (f w).2⟩)
    (hk : Goes env p a (.call a c :: t) (f w).2 (k (f w).1) Q) :
    Goes env p a t w (AuthM.command c f >>= k) Q := Along.jump h rfl hk

theorem disable {k : Bool → AuthM ω β} {deadline : UInt64} (hinhibited : a.outputInhibited = true)
    (hs : a.state ≠ .loaded)
    (hk : ∀ x w', Goes env p a (.call a (.disable deadline) :: t) w' (k x) Q) :
    Goes env p a t w (AuthM.disable env deadline >>= k) Q :=
  Along.jump (.quiet a rfl fun _ _ => ⟨hinhibited, hs⟩) rfl (hk _ _)

theorem enginePoll {k : EngineReport → AuthM ω β} {now : UInt64}
    (hk : ∀ x w', Goes env p a (.call a (.poll now) :: t) w' (k x) Q) :
    Goes env p a t w (AuthM.enginePoll env now >>= k) Q :=
  Along.jump (.quiet a rfl (by simp)) rfl (hk _ _)

theorem calibrationBoundary {k : Unit → AuthM ω β}
    (hk : ∀ w', Goes env p a (.call a .calibrationBoundary :: t) w' (k ()) Q) :
    Goes env p a t w (AuthM.calibrationBoundary env >>= k) Q :=
  Along.jump (.quiet a rfl (by simp)) rfl (hk _)

theorem any (hm : Goes env p a t w m R) : Goes env p a t w m fun _ _ _ => True :=
  hm.weaken fun _ _ _ _ => trivial

theorem result (hm : Goes env p a t w m R) :
    Goes env p a t w m fun x a' t' => R x a' t' ∧ x = (m ⟨⟨a, t⟩, w⟩).1 :=
  Along.result hm

theorem framed (hm : Goes env p a t w m R) :
    Goes env p a t w m fun x a' t' => R x a' t' ∧ Frame a t a' t' := by
  refine ⟨hm.1, hm.2, ?_⟩
  exact invariant_star (I := fun s : AuthSys ω => Frame a t s.auth s.trace)
    (fun _ _ hs h => h.trans (step_frame hs)) hm.1 .refl

end Goes

/-! ## Replies and shared steps -/

theorem reject_goes (code : ErrorCode) : Goes env p a t w (reject env code) fun r a' t' =>
    a' = a ∧ t' = t ∧ ∃ active, r =
      { error := code, state := a.state, outputActive := active, bootId := a.bootId } := by
  refine .outputActive fun active w' => .auth (.pure ⟨rfl, rfl, active, rfl⟩)

theorem success_goes : Goes env p a t w (success env) fun r a' t' =>
    a' = a ∧ t' = t ∧ ∃ active, r =
      { ok := true, state := a.state, outputActive := active, bootId := a.bootId } := by
  refine .outputActive fun active w' => .auth (.pure ⟨rfl, rfl, active, rfl⟩)

variable (env a t w) in
/-- A stop attempt leaves one command and looks at the output. -/
theorem stoppedBy_eq (deadline : UInt64) : ∃ off w',
    stoppedBy env deadline ⟨⟨a, t⟩, w⟩ = (off, ⟨⟨a, .call a (.disable deadline) :: t⟩, w'⟩) ∧
      (off = true → (env.engine.disable deadline w).1 = true) ∧
      ReflTransGen env.Observes (env.engine.disable deadline w).2 w' := by
  rcases hd : env.engine.disable deadline w with ⟨ok, w₁⟩
  cases ok with
  | false =>
    refine ⟨false, w₁, ?_, nofun, .refl⟩
    simp [stoppedBy, bind, StateT.bind, disable, command, hd]
    rfl
  | true =>
    refine ⟨!(env.engine.outputActive w₁).1, (env.engine.outputActive w₁).2, ?_, fun _ => rfl,
      .single .outputActive⟩
    simp [stoppedBy, bind, StateT.bind, disable, command, outputActive, query, hd]
    rfl

variable (env a t w) in
theorem stopped_eq (nowNs : UInt64) : ∃ off deadline w',
    stopped env nowNs ⟨⟨a, t⟩, w⟩ = (off, ⟨⟨a, .call a (.disable deadline) :: t⟩, w'⟩) ∧
      (off = true → (env.engine.disable deadline w).1 = true) ∧
      ReflTransGen env.Observes (env.engine.disable deadline w).2 w' := by
  obtain ⟨off, w', h⟩ := stoppedBy_eq env a t w
    (saturatingAdd nowNs a.config.outputDisableTimeoutNs)
  exact ⟨off, _, w', h⟩

/-! ## Terminal records -/

variable (env a t w) in
theorem pushTerminal_eq (state : State) (error : ErrorCode) (nowNs : UInt64) :
    ∃ active loadActive w', ReflTransGen env.Observes w w' ∧
      pushTerminal env state error nowNs ⟨⟨a, t⟩, w⟩ =
        ((), ⟨⟨a.terminal state error nowNs active loadActive,
          .terminal ((a.job.map (·.jobId)).getD "") state :: t⟩, w'⟩) := by
  rcases hj : a.job with _ | job
  · refine ⟨(env.engine.outputActive w).1, false, _, .single .outputActive, ?_⟩
    simp only [pushTerminal, Authority.terminal, hj]
    simp [bind, StateT.bind, modifyAuth, auth, outputActive, emit, query, hj]
  · refine ⟨(env.engine.outputActive w).1,
      (env.engine.outputActive (env.engine.outputActive w).2).1, _,
      .tail (.single .outputActive) .outputActive, ?_⟩
    by_cases hs : state = .complete
    all_goals
      simp [pushTerminal, Authority.terminal, bind, StateT.bind, modifyAuth, auth, outputActive,
        emit, query, hj, hs, Authority.clearEvents]

theorem dropOwner_goes (hl : a.state ≠ .loaded) (ha : a.state ≠ .armed) (hr : a.state ≠ .running) :
    Goes env p a t w (dropOwner env) fun _ a' t' =>
      a' = { a with owner := none } ∧ lastClock t' = lastClock t := by
  refine .modify (.drop hl ha hr) (.last (.calibrationBoundary fun w' => .pure ⟨rfl, rfl⟩))

/-- What a terminal record leaves of the authority. -/
def Ended (a : Authority) (states : List State) (a' : Authority) : Prop :=
  a'.state ∈ states ∧ a'.outputInhibited = a.outputInhibited ∧ a'.config = a.config ∧
    a'.ready = a.ready ∧ a'.job.map (·.jobId) = a.job.map (·.jobId)

theorem ended_terminal {state : State} (states : List State) (hs : state ∈ states)
    (error : ErrorCode) (nowNs : UInt64) (active loadActive : Bool) :
    Ended a states (a.terminal state error nowNs active loadActive) := by
  rw [Authority.terminal_eq]
  refine ⟨hs, rfl, rfl, rfl, ?_⟩
  by_cases hc : state = .complete
  · simp only [hc, if_true, Authority.clearEvents, Option.map_map]
    rfl
  · simp only [hc, if_false]

def outcomes : List State := [.complete, .aborted, .missed, .failed]

theorem not_live_of_outcome {state : State} (h : state ∈ outcomes) :
    state ≠ .loaded ∧ state ≠ .armed ∧ state ≠ .running := by
  revert h
  cases state <;> decide

variable (env p t w) in
theorem releaseOwner_goes {states : List State} {a₀ : Authority} (h : Ended a₀ states a)
    (hs : ∀ s ∈ states, s ∈ outcomes) :
    Goes env p a t w (releaseOwner env) fun _ a' t' =>
      Ended a₀ states a' ∧ lastClock t' = lastClock t := by
  obtain ⟨hl, ha, hr⟩ := not_live_of_outcome (hs _ h.1)
  refine .auth (.ite (fun _ => ?_) fun _ => .pure ⟨h, rfl⟩)
  refine (dropOwner_goes hl ha hr).weaken ?_
  rintro _ a' t' ⟨rfl, ht⟩
  exact ⟨h, ht⟩

/-! ## Between two steps -/

/-- `m` runs from authority `x`, which lies between two steps: the last state on
the path has authority `a`, and the run of `m` ends on the path again. -/
def Shadows (env : Env ω) (p : Permit ω) (a x : Authority) (t : List Event) (w : ω) (m : AuthM ω α)
    (R : α → Authority → List Event → Prop) : Prop :=
  ReflTransGen (Step env p) ⟨⟨a, t⟩, w⟩ (m ⟨⟨x, t⟩, w⟩).2 ∧
    R (m ⟨⟨x, t⟩, w⟩).1 (m ⟨⟨x, t⟩, w⟩).2.auth (m ⟨⟨x, t⟩, w⟩).2.trace

namespace Shadows

variable {x : Authority} {k : α → AuthM ω β} {Q : β → Authority → List Event → Prop}

theorem weaken {m : AuthM ω α} {R R' : α → Authority → List Event → Prop}
    (hm : Shadows env p a x t w m R) (h : ∀ y a' t', R y a' t' → R' y a' t') :
    Shadows env p a x t w m R' := ⟨hm.1, h _ _ _ hm.2⟩

theorem framed {m : AuthM ω α} {R : α → Authority → List Event → Prop}
    (hm : Shadows env p a x t w m R) :
    Shadows env p a x t w m fun y a' t' => R y a' t' ∧ t <:+ t' := by
  refine ⟨hm.1, hm.2, ?_⟩
  exact (invariant_star (I := fun s : AuthSys ω => Frame a t s.auth s.trace)
    (fun _ _ hs h => h.trans (step_frame hs)) hm.1 .refl).trace

theorem leave {f : Authority → Authority} {k : Unit → AuthM ω β}
    (hk : Shadows env p a (f a) t w (k ()) Q) : Goes env p a t w (modifyAuth f >>= k) Q := hk

theorem ahead {a' : Authority} {c : EngineCall} {f : ω → α × ω}
    (h : Step env p ⟨⟨a, t⟩, w⟩ ⟨⟨a', .call a c :: t⟩, (f w).2⟩)
    (hk : Shadows env p a' a (.call a c :: t) (f w).2 (k (f w).1) Q) :
    Goes env p a t w (AuthM.command c f >>= k) Q := ⟨.head h hk.1, hk.2⟩

theorem ite {c : Prop} [Decidable c] {m n : AuthM ω β} (ht : c → Shadows env p a x t w m Q)
    (hf : ¬ c → Shadows env p a x t w n Q) :
    Shadows env p a x t w (if c then m else n) Q := by
  split
  · exact ht ‹_›
  · exact hf ‹_›

theorem catchUp {f : Authority → Authority} {k : Unit → AuthM ω β} (he : f x = a)
    (hk : Goes env p a t w (k ()) Q) : Shadows env p a x t w (modifyAuth f >>= k) Q := by
  subst he
  exact hk

theorem modify {a' : Authority} {f : Authority → Authority} {k : Unit → AuthM ω β}
    (h : Step env p ⟨⟨a, t⟩, w⟩ ⟨⟨a', t⟩, w⟩) (hk : Shadows env p a' (f x) t w (k ()) Q) :
    Shadows env p a x t w (modifyAuth f >>= k) Q := ⟨.head h hk.1, hk.2⟩

theorem path {w' : ω} {t' : List Event} {m : AuthM ω α} {k : α → AuthM ω β} {y : α}
    (h : ReflTransGen (Step env p) ⟨⟨a, t⟩, w⟩ ⟨⟨a, t'⟩, w'⟩)
    (he : m ⟨⟨x, t⟩, w⟩ = (y, ⟨⟨x, t'⟩, w'⟩)) (hk : Shadows env p a x t' w' (k y) Q) :
    Shadows env p a x t w (m >>= k) Q := by
  have hb : (m >>= k) ⟨⟨x, t⟩, w⟩ = k y ⟨⟨x, t'⟩, w'⟩ := by
    show k (m ⟨⟨x, t⟩, w⟩).1 (m ⟨⟨x, t⟩, w⟩).2 = _
    rw [he]
  unfold Shadows
  rw [hb]
  exact ⟨h.trans hk.1, hk.2⟩

theorem releaseExecutionInput {k : Unit → AuthM ω β} (hs : a.state = .armed ∨ a.state = .running)
    (hspend : ∀ w', Shadows env p a.clearEvents x.clearEvents t w' (k ()) Q)
    (hkeep : ∀ w', Shadows env p a x t w' (k ()) Q) :
    Shadows env p a x t w (releaseExecutionInput env >>= k) Q := by
  cases howns : env.engine.ownsExecutionPlan w with
  | true =>
    have he : (Wtp.releaseExecutionInput env >>= k) ⟨⟨x, t⟩, w⟩ =
        k () ⟨⟨x.clearEvents, t⟩, w⟩ := by
      simp [Wtp.releaseExecutionInput, bind, StateT.bind, constant, howns, modifyAuth]
    unfold Shadows
    rw [he]
    exact ⟨.head (.spend hs) (hspend w).1, (hspend w).2⟩
  | false =>
    refine path .refl ?_ (hkeep w)
    simp [Wtp.releaseExecutionInput, bind, StateT.bind, constant, howns]
    rfl

/-- A stop attempt and its record return to the path. -/
theorem stopRecord {f : Bool → State} {e : Bool → ErrorCode} {nowNs : UInt64}
    {k : Bool → AuthM ω β} (hs : ∀ off, f off ∈ outcomes) (hf : f false = .failed)
    (h : ∀ off deadline active loadActive w', env.Halts deadline (f off) w w' →
      Step env p ⟨⟨a, t⟩, w⟩ ⟨⟨x.terminal (f off) (e off) nowNs active loadActive,
        .terminal ((x.job.map (·.jobId)).getD "") (f off) ::
          .call x (.disable deadline) :: t⟩, w'⟩)
    (hk : ∀ off a' t' w', Ended x [f off] a' → lastClock t' = lastClock t →
      Goes env p a' t' w' (k off) Q) :
    Shadows env p a x t w (do
      let off ← stopped env nowNs
      recordTerminal env (f off) (e off) nowNs
      k off) Q := by
  obtain ⟨off, deadline, w₁, hstopped, hoff, hw₁⟩ :=
    stopped_eq env x t w nowNs
  obtain ⟨active, loadActive, w', hw', hpush⟩ := pushTerminal_eq env x
    (.call x (.disable deadline) :: t) w₁ (f off) (e off) nowNs
  have hhalts : env.Halts deadline (f off) w w' := by
    refine ⟨hs off, fun hne => hoff ?_, hw₁.trans hw'⟩
    cases off with
    | true => rfl
    | false => exact absurd hf hne
  have hended : Ended x [f off] (x.terminal (f off) (e off) nowNs active loadActive) :=
    ended_terminal _ (List.mem_singleton_self _) (e off) nowNs active loadActive
  have hgoes := (releaseOwner_goes env p (.terminal
      ((x.job.map (·.jobId)).getD "") (f off) :: .call x (.disable deadline) :: t) w'
      hended (by simpa using hs off)).bind
    fun _ a' t' w' h => hk off a' t' w' h.1 h.2
  have hb : (do
      let off ← stopped env nowNs
      recordTerminal env (f off) (e off) nowNs
      k off : AuthM ω β) ⟨⟨x, t⟩, w⟩ =
      (releaseOwner env >>= fun _ => k off) ⟨⟨x.terminal (f off) (e off) nowNs active loadActive,
        .terminal ((x.job.map (·.jobId)).getD "") (f off) ::
          .call x (.disable deadline) :: t⟩, w'⟩ := by
    simp only [Wtp.recordTerminal, bind, StateT.bind, hstopped, hpush]
  unfold Shadows
  rw [hb]
  exact ⟨.head (h off deadline active loadActive w' hhalts) hgoes.1, hgoes.2⟩

/-- What a stop attempt leads to when it ends a job as `state`. -/
theorem halt {state : State} {error : ErrorCode} {nowNs : UInt64} {k : Bool → AuthM ω β}
    (hs : state ∈ outcomes)
    (h : ∀ state' error' deadline active loadActive w', env.Halts deadline state' w w' →
      Step env p ⟨⟨a, t⟩, w⟩ ⟨⟨x.terminal state' error' nowNs active loadActive,
        .terminal ((x.job.map (·.jobId)).getD "") state' :: .call x (.disable deadline) :: t⟩, w'⟩)
    (hk : ∀ off a' t' w', Ended x [if off then state else .failed] a' →
      lastClock t' = lastClock t → Goes env p a' t' w' (k off) Q) :
    Shadows env p a x t w (halt env state error nowNs >>= k) Q := by
  have he : (Wtp.halt env state error nowNs >>= k) = (do
      let off ← Wtp.stopped env nowNs
      Wtp.recordTerminal env (if off then state else .failed)
        (if off then error else .outputStateUnknown) nowNs
      k off) := by
    unfold Wtp.halt
    rw [bind_assoc]
    refine congrArg _ (funext fun off => ?_)
    cases off <;> rfl
  rw [he]
  refine stopRecord (fun off => ?_) rfl (fun off deadline active loadActive w' hhalts => ?_) hk
  · cases off with
    | false => exact (by decide : State.failed ∈ outcomes)
    | true => exact hs
  · exact h _ _ _ _ _ _ hhalts

end Shadows

theorem halt_goes {state : State} (error : ErrorCode) (nowNs : UInt64) (hpending : a.Pending)
    (hs : state ∈ outcomes) :
    Goes env p a t w (halt env state error nowNs) fun off a' t' =>
      Ended a [if off then state else .failed] a' ∧ lastClock t' = lastClock t := by
  have hshadows : Shadows env p a a t w (halt env state error nowNs >>= pure) fun off a' t' =>
      Ended a [if off then state else .failed] a' ∧ lastClock t' = lastClock t := by
    refine .halt hs (fun state' error' deadline active loadActive w' hhalts => ?_)
      fun off a' t' w' hended ht => .pure ⟨hended, ht⟩
    exact .terminal a deadline state' error' nowNs active loadActive hpending hhalts
  exact Goes.last hshadows

theorem stopAndRecord_goes {state : State} (error : ErrorCode) (nowNs : UInt64)
    (hpending : a.Pending) (hs : state ∈ outcomes) :
    Goes env p a t w (stopAndRecord env state error nowNs) fun _ _ _ => True := by
  exact (halt_goes error nowNs hpending hs).bind fun _ _ _ _ _ => .pure trivial

theorem armFailed_goes (now : ClockSnapshot) (hs : a.state = .armed) :
    Goes env p a t w (armFailed env now) fun _ _ _ => True := by
  refine Shadows.leave (.stopRecord (f := fun _ => .failed)
    (e := fun off => if off then .deviceFault else .outputStateUnknown) (fun _ => by decide) rfl
    (fun off deadline active loadActive w' hhalts => ?_) fun _ _ _ _ _ _ => (reject_goes _).any)
  exact .fault deadline _ now.monotonicNowNs active loadActive hs hhalts

/-! ## Expiry and queries -/

/-- A job that is still loaded or armed is unchanged, and an armed one is still armed. -/
structure Carried (a a' : Authority) : Prop where
  inhibited : a'.outputInhibited = a.outputInhibited
  config : a'.config = a.config
  ready : a'.ready = a.ready
  held : a'.state = .loaded ∨ a'.state = .armed →
    a'.state = a.state ∧ a'.arm = a.arm ∧ a'.job = a.job
  armed : a.state = .armed → a'.state = a.state ∧ a'.arm = a.arm ∧ a'.job = a.job

theorem Ended.carried {states : List State} {a' : Authority} (h : Ended a states a')
    (hs : ∀ s ∈ states, s ∈ outcomes) (ha : a.state ≠ .armed) : Carried a a' :=
  ⟨h.2.1, h.2.2.1, h.2.2.2.1, fun hlive => absurd hlive (not_or.2
    ⟨(not_live_of_outcome (hs _ h.1)).1, (not_live_of_outcome (hs _ h.1)).2.1⟩),
    fun harmed => absurd harmed ha⟩

theorem Carried.refl : Carried a a :=
  ⟨rfl, rfl, rfl, fun _ => ⟨rfl, rfl, rfl⟩, fun _ => ⟨rfl, rfl, rfl⟩⟩

theorem Carried.clearJob (ha : a.state ≠ .armed) : Carried a a.clearJob :=
  ⟨rfl, rfl, rfl, fun h => by simp [Authority.clearJob] at h, fun harmed => absurd harmed ha⟩

theorem Carried.dropOwner (a : Authority) : Carried a { a with owner := none } :=
  ⟨rfl, rfl, rfl, fun _ => ⟨rfl, rfl, rfl⟩, fun _ => ⟨rfl, rfl, rfl⟩⟩

theorem Carried.trans {a' a'' : Authority} (h : Carried a a') (h' : Carried a' a'') :
    Carried a a'' := by
  refine ⟨h'.inhibited.trans h.inhibited, h'.config.trans h.config, h'.ready.trans h.ready,
    fun hs => ?_, fun hs => ?_⟩
  · obtain ⟨hs', ha', hj'⟩ := h'.held hs
    obtain ⟨hs'', ha, hj⟩ := h.held (hs' ▸ hs)
    exact ⟨hs'.trans hs'', ha'.trans ha, hj'.trans hj⟩
  · obtain ⟨hs'', ha, hj⟩ := h.armed hs
    obtain ⟨hs', ha', hj'⟩ := h'.armed (hs''.trans hs)
    exact ⟨hs'.trans hs'', ha'.trans ha, hj'.trans hj⟩

theorem carried_prune (nowNs : UInt64) (a : Authority) : Carried a (a.pruneTerminals nowNs) := by
  obtain h | ⟨hs, h⟩ := a.pruneTerminals_cases nowNs
  · rw [h]
    exact ⟨rfl, rfl, rfl, fun _ => ⟨rfl, rfl, rfl⟩, fun _ => ⟨rfl, rfl, rfl⟩⟩
  · rw [h]
    refine ⟨rfl, rfl, rfl, fun hs' => by simp [Authority.clearJob] at hs', fun harmed => ?_⟩
    simp [harmed] at hs

theorem releaseExecutionInput_goes (hs : a.state = .armed ∨ a.state = .running) :
    Goes env p a t w (releaseExecutionInput env) fun _ a' t' =>
      lastClock t' = lastClock t ∧ (a' = a ∨ a' = a.clearEvents) := by
  refine .constant fun owns => .ite (fun _ => ?_) fun _ => .pure ⟨rfl, .inl rfl⟩
  exact .last (.modify (.spend hs) (.pure ⟨rfl, .inr rfl⟩))

theorem expireResources_goes (nowNs : UInt64) :
    Goes env p a t w (expireResources env nowNs) fun _ a' t' =>
      Carried a a' ∧ lastClock t' = lastClock t := by
  refine .auth ?_
  split
  case h_2 => exact .pure ⟨.refl, rfl⟩
  case h_1 owner howner =>
    refine .ite (fun _ => .pure ⟨.refl, rfl⟩) fun _ => ?_
    refine .ite (fun hs => ?_) fun hs => .ite (fun hl => ?_) fun hl => ?_
    · exact .modify (.lease howner rfl rfl) (.pure ⟨⟨rfl, rfl, rfl,
        fun _ => ⟨rfl, rfl, rfl⟩, fun _ => ⟨rfl, rfl, rfl⟩⟩, rfl⟩)
    · refine (halt_goes .none nowNs (.inl hl) (by decide)).bind ?_
      rintro off a' t' w' ⟨hended, ht⟩
      refine .ite (fun hoff => ?_) fun hoff => ?_
      · obtain rfl : off = false := by simpa using hoff
        have hfailed : a'.state = .failed := by simpa using hended.1
        refine (dropOwner_goes ?_ ?_ ?_).bind ?_
        · simp [hfailed]
        · simp [hfailed]
        · simp [hfailed]
        rintro _ a3 t3 w3 ⟨rfl, ht3⟩
        exact .pure ⟨(hended.carried (by decide) (by simp [hl])).trans (.dropOwner a'), ht3.trans ht⟩
      · obtain rfl : off = true := by simpa using hoff
        have haborted : a'.state = .aborted := by simpa using hended.1
        refine .modify (.clear ?_ ?_ ?_ ?_) ?_
        · simp [haborted]
        · simp [haborted]
        · simp [haborted]
        · simp [haborted]
        refine (dropOwner_goes ?_ ?_ ?_).weaken ?_
        · simp [Authority.clearJob]
        · simp [Authority.clearJob]
        · simp [Authority.clearJob]
        rintro _ a3 t3 ⟨rfl, ht3⟩
        exact ⟨(hended.carried (by decide) (by simp [hl])).trans
          ((Carried.clearJob (by simp [haborted])).trans (.dropOwner _)), ht3.trans ht⟩
    · push Not at hs
      refine (dropOwner_goes hl hs.1 hs.2).weaken ?_
      rintro _ a' t' ⟨rfl, ht⟩
      exact ⟨.dropOwner a, ht⟩

/-- At most one snapshot was taken. -/
def Reads (t t' : List Event) : Prop := t' = t ∨ ∃ now, t' = .clock now :: t

theorem maintenance_goes : Goes env p a t w (maintenance env) fun _ a' t' =>
    a' = a ∧ Reads t t' := by
  refine .auth (.ite (fun _ => .pure ⟨rfl, .inl rfl⟩) fun _ => ?_)
  exact .ite (fun _ => .pure ⟨rfl, .inl rfl⟩) fun _ => .snapshot (.pure ⟨rfl, .inr ⟨_, rfl⟩⟩)

theorem activity_goes : Goes env p a t w (activity env) fun x a' t' =>
    a' = a ∧ t' = t ∧ x.owned = a.owner.isSome := by
  refine .auth (.outputActive fun active w' => .ite (fun _ => ?_) fun _ => .pure ⟨rfl, rfl, rfl⟩)
  refine .query .executionStarted fun started w' => .ite (fun _ => ?_) fun _ => ?_
  · exact .pure ⟨rfl, rfl, rfl⟩
  · exact .pure ⟨rfl, rfl, rfl⟩

theorem status_goes (history : Bool) :
    Goes env p a t w (status env history) fun _ a' t' => a' = a ∧ t' = t := by
  refine activity_goes.bind ?_
  rintro current a' t' w' ⟨rfl, rfl, -⟩
  exact .auth (.pure ⟨rfl, rfl⟩)

/-! ## Dispatch -/

theorem dispatchRead_goes (request : Request) (now : ClockSnapshot) :
    Goes env p a t w (dispatchRead env request now) fun _ a' _ => a' = a := by
  refine .ite (fun _ => (reject_goes _).weaken fun _ _ _ h => h.1) fun _ => ?_
  refine .ite (fun _ => (reject_goes _).weaken fun _ _ _ h => h.1) fun _ => ?_
  refine success_goes.bind ?_
  rintro response a' t' w' ⟨rfl, -, -⟩
  refine Goes.bind (R := fun _ a'' _ => a'' = a') ?_ ?_
  · unfold statusFor
    refine .ite (fun _ => ?_) fun _ => .pure rfl
    refine (status_goes true).bind ?_
    rintro _ a'' t'' w'' ⟨rfl, -⟩
    exact .pure rfl
  · rintro _ a'' t'' w'' rfl
    exact .pure rfl

theorem dispatchClaim_goes (request : Request) (now : ClockSnapshot)
    (hcaller : p.caller = some (request.sessionId, request.principal)) :
    Goes env p a t w (dispatchClaim env request now) fun _ _ _ => True := by
  unfold dispatchClaim
  split
  case h_1 ownerId leaseMs _ =>
    refine .ite (fun _ => (reject_goes _).any) fun _ => .auth ?_
    refine .ite (fun _ => (reject_goes _).any) fun hfree => ?_
    have hnone : a.owner = none := by simpa using hfree
    refine .calibrationBoundary fun w' => .modify (.claim hcaller hnone) ?_
    exact success_goes.bind fun _ _ _ _ _ => .pure trivial
  case h_2 => exact (reject_goes _).any

theorem dispatchRenew_goes (request : Request) (now : ClockSnapshot) (owner : Owner)
    (howner : a.owner = some owner) :
    Goes env p a t w (dispatchRenew env request now owner) fun _ _ _ => True := by
  unfold dispatchRenew
  split
  case h_1 ownerId leaseMs _ =>
    refine .ite (fun _ => (reject_goes _).any) fun _ => ?_
    refine .ite (fun _ => (reject_goes _).any) fun _ => ?_
    refine .ite (fun _ => (reject_goes _).any) fun _ => ?_
    refine .modify (.lease howner rfl rfl) ?_
    exact success_goes.bind fun _ _ _ _ _ => .pure trivial
  case h_2 => exact (reject_goes _).any

theorem dispatchRelease_goes (request : Request)
    (hrelease : request.body = .monostate → a.state = .loaded → p.release) :
    Goes env p a t w (dispatchRelease env request) fun _ _ _ => True := by
  refine .ite (fun _ => (reject_goes _).any) fun hbody => .auth ?_
  refine .ite (fun _ => (reject_goes _).any) fun hidle => ?_
  push Not at hidle
  refine .modify (.clear hidle.1 hidle.2.1 hidle.2.2 (hrelease (not_not.1 hbody))) ?_
  refine (dropOwner_goes ?_ ?_ ?_).bind fun _ _ _ _ _ => success_goes.any
  all_goals simp [Authority.clearJob]

theorem heldLoadResponse_goes (jobId : String) :
    Goes env p a t w (heldLoadResponse env jobId) fun r a' t' => a' = a ∧ t' = t ∧
      r.ok = true ∧ r.jobId = jobId ∧ r.adjustments = a.adjustments := by
  refine success_goes.bind ?_
  rintro response a' t' w' ⟨rfl, rfl, active, rfl⟩
  exact .auth (.pure ⟨rfl, rfl, rfl, rfl, rfl⟩)

/-- A refusal leaves the authority as it was. -/
def Kept (a : Authority) (r : Response) (a' : Authority) : Prop := r.ok = false → a' = a

theorem reject_kept (code : ErrorCode) :
    Goes env p a t w (reject env code) fun r a' _ => Kept a r a' :=
  (reject_goes code).weaken fun _ _ _ h _ => h.1

theorem heldLoadResponse_kept (jobId : String) :
    Goes env p a t w (heldLoadResponse env jobId) fun r a' _ => Kept a r a' :=
  (heldLoadResponse_goes jobId).weaken fun _ _ _ h _ => h.1

theorem dispatchLoadReplay_goes (jobId : String) (digest : PayloadDigest) :
    Goes env p a t w (dispatchLoadReplay env jobId digest) fun r a' _ => Kept a r a' := by
  refine .outputActive fun active w' => .auth (.ite (fun _ => reject_kept _) fun _ => ?_)
  refine .auth ?_
  split
  case h_1 retained _ =>
    refine .ite (fun _ => reject_kept _) fun _ => ?_
    exact .modify (.touch jobId) (.pure nofun)
  case h_2 =>
    refine .ite (fun _ => reject_kept _) fun _ => ?_
    exact .ite (fun _ => reject_kept _) fun _ => heldLoadResponse_kept jobId

/-- The engine's answer to LOAD: the job is taken, or nothing but the engine changed. -/
theorem prepareLoad_goes (job : Job) (hloads : p.Loads a w job) :
    Goes env p a t w (prepareLoad env job) fun r a' _ => Kept a r a' := by
  unfold prepareLoad
  by_cases husable : (env.engine.prepare job w).1.usable job
  · obtain ⟨haccepted, hallowed, hvalid⟩ := husable
    have hpermitted : (!job.allowFrequencyAdjustment &&
        !(env.engine.prepare job w).1.adjustments.isEmpty) = false := by
      rcases hallowed with h | h <;> simp [h]
    have hanswer : ∀ {a₁ t₁ w₁}, Goes env p a₁ t₁ w₁ (heldLoadResponse env job.jobId)
        fun r a' _ => Kept a r a' := fun {_ _ _} => by
      refine (heldLoadResponse_goes job.jobId).weaken fun r a' t' h hrefused => ?_
      simp [h.2.2.1] at hrefused
    refine Along.jump (.load (jobDigest job) hloads ⟨haccepted, hallowed, hvalid⟩) ?_ hanswer
    simp [bind, StateT.bind, prepare, command, modifyAuth, haccepted, hpermitted, hvalid]
  · unfold prepare
    refine .command (.refused hloads husable) ?_
    refine .ite (fun _ => reject_kept _) fun haccepted => ?_
    refine .ite (fun _ => reject_kept _) fun hallowed => ?_
    refine .ite (fun _ => reject_kept _) fun hvalid => absurd ⟨?_, ?_, ?_⟩ husable
    · simpa using haccepted
    · simpa [or_iff_not_imp_left] using hallowed
    · simpa using hvalid

/-- `permit` holds in every world the service may look its way to. -/
def Ahead (env : Env ω) (w : ω) (permit : ω → Prop) : Prop :=
  ∀ w', ReflTransGen env.Looks w w' → permit w'

theorem Ahead.look {w' : ω} {permit : ω → Prop} (h : Ahead env w permit) (hw : env.Looks w w') :
    Ahead env w' permit := fun _ hw' => h _ (.head hw hw')

theorem dispatchLoadJob_goes (job : Job)
    (hpermit : Loadable a job → Ahead env w fun w' => p.load a w' job)
    (hfree : a.outputInhibited = false) (howned : a.owner.isSome) :
    Goes env p a t w (dispatchLoadJob env job) fun r a' _ => Kept a r a' := by
  refine Along.jump (.observe .outputActive) rfl ?_
  refine Goes.ite (fun _ => reject_kept _) fun _ => .auth ?_
  refine .ite (fun _ => reject_kept _) fun hfailed => ?_
  split
  case h_1 retained _ =>
    refine .ite (fun _ => reject_kept _) fun _ => ?_
    exact .modify (.touch job.jobId) (.pure nofun)
  case h_2 hretained =>
    refine .ite (fun _ => ?_) fun hfresh => .ite (fun _ => reject_kept _) fun hidle => ?_
    · exact .ite (fun _ => heldLoadResponse_kept _) fun _ => reject_kept _
    push Not at hidle
    refine .ite (fun _ => reject_kept _) fun hvalid => .constant fun bytes => ?_
    refine Along.jump (.observe (.memoryAdmitted bytes)) rfl ?_
    refine Goes.ite (fun _ => reject_kept _) fun _ => ?_
    refine .ite (fun _ => reject_kept _) fun _ => ?_
    have hloadable : Loadable a job :=
      ⟨hfree, howned, Option.eq_none_iff_forall_ne_some.2 hretained, hfresh,
        ⟨hidle.1, hidle.2, hfailed⟩, not_not.1 hvalid⟩
    have hahead := ((hpermit hloadable).look (.observe .outputActive)).look
      (.observe (.memoryAdmitted bytes))
    exact prepareLoad_goes job ⟨hloadable, hahead _ .refl⟩

theorem dispatchLoad_goes (request : Request)
    (hpermit : ∀ job, request.body = .job job → Loadable a job →
      Ahead env w fun w' => p.load a w' job)
    (hfree : a.outputInhibited = false) (howned : a.owner.isSome) :
    Goes env p a t w (dispatchLoad env request) fun r a' _ => Kept a r a' := by
  unfold dispatchLoad
  split
  case h_1 => exact dispatchLoadReplay_goes _ _
  case h_2 job hbody => exact dispatchLoadJob_goes job (hpermit job hbody) hfree howned
  case h_3 => exact reject_kept _

/-- ARM on a local engine, from the transition to Armed on. -/
theorem armLocally_goes (request : Request) (body : ArmBody) (job : Job) (now : ClockSnapshot)
    (arm : ArmRecord) (response : Response) (harms : Arms a job arm)
    (hlocal : arm.scheduledLocally = true) :
    Goes env p a t w
      (do modifyAuth (Authority.armWith arm); armLocally env request body job now arm response)
      fun _ _ _ => True := by
  refine Along.jump (n := do
    let failed ← scheduleFailed env
      (env.engine.schedule job arm.startMonotonicNs (localConditions a.config body) w).1
    if failed then armFailed env now
    else do
      query fun w => ((), env.armObserver job body now request.principal w)
      releaseExecutionInput env
      return response) (.armLocally (localConditions a.config body) harms hlocal) rfl ?_
  show Goes env p (a.armWith arm) _ _ (scheduleFailed env _ >>= _) fun _ _ _ => True
  refine Goes.bind (R := fun _ a' _ => a' = a.armWith arm) ?_ ?_
  · unfold scheduleFailed
    refine .ite (fun _ => .pure rfl) fun _ => .last (.outputActive fun active w' => .pure rfl)
  rintro failed a' t' w' rfl
  refine .ite (fun _ => armFailed_goes now rfl) fun _ => ?_
  refine .query (.armObserver job body now request.principal) fun _ w'' => ?_
  exact (releaseExecutionInput_goes (.inl rfl)).bind fun _ _ _ _ _ => .pure trivial

theorem armLoaded_goes (request : Request) (body : ArmBody) (now : ClockSnapshot)
    (hfree : a.outputInhibited = false) :
    Goes env p a t w (armLoaded env request body now) fun _ _ _ => True := by
  refine .auth ?_
  split
  case h_2 => exact (reject_goes _).any
  case h_1 job hjob =>
    refine .ite (fun _ => (reject_goes _).any) fun hid => ?_
    refine .ite (fun _ => (reject_goes _).any) fun hloaded => .outputActive fun active w' => ?_
    refine .ite (fun _ => (reject_goes _).any) fun _ => .constant fun resolution => ?_
    split
    case h_1 => exact (reject_goes _).any
    case h_2 startMonotonicNs hvalid =>
      refine .constant fun locally => ?_
      obtain ⟨arm, harm⟩ : ∃ arm : ArmRecord, arm =
        ⟨body.startUtcNs, body.maxStartUncertaintyNs, startMonotonicNs, now, locally, none⟩ :=
          ⟨_, rfl⟩
      have harms : Arms a job arm := ⟨hfree, not_not.1 hloaded, hjob, resolution, body, now,
        (not_not.1 hid).symm, by rw [harm], by rw [harm], by rw [harm]; exact hvalid⟩
      simp only [← harm]
      cases locally with
      | true => exact armLocally_goes request body job now arm _ harms (by rw [harm])
      | false =>
        refine .modify (.arm harms (by rw [harm])) ?_
        exact .query (.armObserver job body now request.principal) fun _ _ => .pure trivial

theorem dispatchArm_goes (request : Request) (now : ClockSnapshot)
    (hfree : a.outputInhibited = false) :
    Goes env p a t w (dispatchArm env request now) fun _ _ _ => True := by
  unfold dispatchArm
  split
  case h_2 => exact (reject_goes _).any
  case h_1 body _ =>
    refine .ite (fun _ => (reject_goes _).any) fun _ => .auth ?_
    split
    case h_1 retained _ =>
      split
      case h_2 => exact (reject_goes _).any
      case h_1 arm _ =>
        refine .ite (fun _ => (reject_goes _).any) fun _ => ?_
        exact .modify (.touch body.jobId) (.pure trivial)
    case h_2 =>
      split
      case h_1 => exact .pure trivial
      case h_2 => exact (reject_goes _).any
      case h_3 => exact armLoaded_goes request body now hfree

/-- What an abort of the held job leaves: an outcome, aborted when it is answered ok. -/
theorem abortJob_goes (jobId : String) :
    Goes env p a t w (abortJob env jobId) fun r a' _ =>
      (a.job.map (·.jobId) = some jobId → a'.state ∈ outcomes) ∧
      (r.ok = true → a'.state = .aborted) := by
  unfold abortJob
  refine .snapshot (.auth (.ite (fun hid => ?_) fun hid => ?_))
  · refine (reject_goes _).weaken ?_
    rintro r a' t' ⟨rfl, -, active, rfl⟩
    exact ⟨fun h => absurd h hid, by simp⟩
  refine .ite (fun haborted => ?_) fun haborted => .ite (fun hdone => ?_) fun hdone => ?_
  · refine .emit (.abortAccepted haborted (not_not.1 hid)) (success_goes.bind ?_)
    rintro r a' t' w' ⟨rfl, -, -⟩
    exact .pure ⟨fun _ => by simp [haborted, outcomes], fun _ => haborted⟩
  · refine (reject_goes _).weaken ?_
    rintro r a' t' ⟨rfl, -, active, rfl⟩
    exact ⟨fun _ => by rcases hdone with h | h <;> simp [h, outcomes], by simp⟩
  refine .ite (fun hfailed => ?_) fun hfailed => ?_
  · refine (reject_goes _).weaken ?_
    rintro r a' t' ⟨rfl, -, active, rfl⟩
    exact ⟨fun _ => by simp [hfailed, outcomes], by simp⟩
  have hsome : a.job.isSome := by
    cases hj : a.job with
    | none => simp [hj] at hid
    | some job => rfl
  have hpending : a.Pending := by
    unfold Authority.Pending
    cases hs : a.state <;> simp_all
  refine (halt_goes .none _ hpending (by decide)).bind ?_
  rintro off a' t' w' ⟨⟨hstate, -, -, -, hjob⟩, -⟩
  refine .ite (fun hoff => ?_) fun hoff => ?_
  · refine (reject_goes _).weaken ?_
    rintro r a' t3 ⟨rfl, -, active, rfl⟩
    obtain rfl : off = false := by simpa using hoff
    have hfailed : a'.state = .failed := by simpa using hstate
    exact ⟨fun _ => by simp [hfailed, outcomes], by simp⟩
  · have hid' := not_not.1 hid
    obtain rfl : off = true := by simpa using hoff
    have haborted' : a'.state = .aborted := by simpa using hstate
    refine .emit (.abortAccepted haborted' (hid' ▸ hjob)) (success_goes.bind ?_)
    rintro r a3 t3 w3 ⟨rfl, -, -⟩
    exact .pure ⟨fun _ => by simp [haborted', outcomes], fun _ => haborted'⟩

theorem dispatchAbort_goes (request : Request) :
    Goes env p a t w (dispatchAbort env request) fun _ _ _ => True := by
  unfold dispatchAbort
  split
  case h_1 => exact .ite (fun _ => (reject_goes _).any) fun _ => (abortJob_goes _).any
  case h_2 => exact (reject_goes _).any

/-- An owner operation, well formed and sent by the owner. -/
structure Owned (a : Authority) (request : Request) : Prop where
  wellFormed : request.bodyValid = true
  owner : a.owns request = true

/-- A LOAD of `job` that reaches the engine. -/
structure LoadsJob (a : Authority) (request : Request) (job : Job) : Prop extends
    Owned a request, Loadable a job where
  operation : request.operation = .load
  body : request.body = .job job

/-- A RELEASE of the loaded job. -/
structure ReleasesLoaded (a : Authority) (request : Request) : Prop extends Owned a request where
  operation : request.operation = .release
  body : request.body = .monostate
  loaded : a.state = .loaded

/-- The permit allows what `request` may do from authority `a` and world `w`. -/
structure Permit.Covers (p : Permit ω) (env : Env ω) (a : Authority) (w : ω) (request : Request) :
    Prop where
  caller : request.operation = .claim → p.caller = some (request.sessionId, request.principal)
  free : request.operation = .load ∨ request.operation = .arm → a.outputInhibited = false
  load : ∀ job, LoadsJob a request job → Ahead env w fun w' => p.load a w' job
  release : ReleasesLoaded a request → p.release

theorem Permit.Covers.dispatchLoad {request : Request} {owner : Owner}
    (hcovers : p.Covers env a w request) (hload : request.operation = .load)
    (howned : Owned a request) (howner : a.owner = some owner) {t' : List Event} :
    Goes env p a t' (env.snapshot w).2 (dispatchLoad env request) fun r a' _ => Kept a r a' := by
  refine dispatchLoad_goes request (fun job hbody hloadable => ?_) (hcovers.free (.inl hload))
    (by simp [howner])
  exact (hcovers.load job ⟨howned, hloadable, hload, hbody⟩).look .clock

theorem dispatch_goes (request : Request)
    (hcovers : p.Covers env a w request) :
    Goes env p a t w (dispatch env request) fun r a' _ =>
      request.operation = .load → Kept a r a' := by
  have hother : ∀ {t' : List Event} {w' : ω} {m : AuthM ω Response}
      {R : Response → Authority → List Event → Prop}, request.operation ≠ .load →
      Goes env p a t' w' m R → Goes env p a t' w' m fun r a' _ =>
        request.operation = .load → Kept a r a' :=
    fun hop hm => hm.weaken fun _ _ _ _ h => absurd h hop
  have hreject : ∀ {t' : List Event} {w' : ω} (code : ErrorCode), Goes env p a t' w'
      (reject env code) fun r a' _ => request.operation = .load → Kept a r a' :=
    fun code => (reject_kept code).weaken fun _ _ _ h _ => h
  refine Along.jump .clock rfl ?_
  refine Goes.ite (fun _ => hreject _) fun _ => ?_
  refine .ite (fun _ => hreject _) fun hvalid => ?_
  refine .ite (fun hread => hother ?_ (dispatchRead_goes request _)) fun _ => ?_
  · rintro h
    simp [h] at hread
  refine .ite (fun hclaim => hother (by simp [hclaim])
    (dispatchClaim_goes request _ (hcovers.caller hclaim))) fun _ => ?_
  refine .ite (fun _ => hreject _) fun _ => .auth ?_
  split
  case h_2 => exact hreject _
  case h_1 owner howner =>
    refine .ite (fun _ => hreject _) fun howns => ?_
    have howned : Owned a request := ⟨by simpa using hvalid, by simpa using howns⟩
    split
    case h_1 h => exact hother (by simp [h]) (dispatchRenew_goes request _ owner howner)
    case h_2 h =>
      exact hother (by simp [h]) (dispatchRelease_goes request fun hbody hloaded =>
        hcovers.release ⟨howned, h, hbody, hloaded⟩)
    case h_3 h =>
      exact (hcovers.dispatchLoad h howned howner).weaken fun _ _ _ hkept _ => hkept
    case h_4 h => exact hother (by simp [h]) (dispatchArm_goes request _ (hcovers.free (.inr h)))
    case h_5 h => exact hother (by simp_all) (dispatchAbort_goes request)

/-! ## Polling -/

/-- The launch test passes at snapshot `now`. -/
def Due (a : Authority) (now : ClockSnapshot) : Prop :=
  a.state = .armed ∧ ∃ arm job, a.arm = some arm ∧ a.job = some job ∧
    arm.scheduledLocally = false ∧ arm.startMonotonicNs ≤ now.monotonicNowNs ∧
    launchOk a.config now arm job = true

theorem Carried.due {a' : Authority} {now : ClockSnapshot} (h : Carried a a') (hd : Due a' now) :
    Due a now := by
  obtain ⟨hstate, arm, job, harm, hjob, hforeground, hdue, hok⟩ := hd
  obtain ⟨hs, ha, hj⟩ := h.held (.inr hstate)
  exact ⟨hs ▸ hstate, arm, job, ha ▸ harm, hj ▸ hjob, hforeground, hdue, h.config ▸ hok⟩

theorem Carried.due_of {a' : Authority} {now : ClockSnapshot} (h : Carried a a') (hd : Due a now) :
    Due a' now := by
  obtain ⟨hstate, arm, job, harm, hjob, hforeground, hdue, hok⟩ := hd
  obtain ⟨hs, ha, hj⟩ := h.armed hstate
  exact ⟨hs.trans hstate, arm, job, ha.trans harm, hj.trans hjob, hforeground, hdue,
    h.config.symm ▸ hok⟩

/-- The job is begun from authority `a`. -/
def Begins (a : Authority) (t : List Event) : Prop := ∃ job n, Event.call a (.begin job n) ∈ t

theorem Begins.mono {t' : List Event} (h : Begins a t) (ht : t <:+ t') : Begins a t' := by
  obtain ⟨job, n, hmem⟩ := h
  exact ⟨job, n, ht.mem hmem⟩

/-- A launch leaves the job running; otherwise the result is `false`. A due job
is begun, whatever the engine answers. -/
theorem launch_goes {now : ClockSnapshot} {arm : ArmRecord} {job : Job} (hs : a.state = .armed)
    (harm : a.arm = some arm) (hjob : a.job = some job) (hforeground : arm.scheduledLocally = false)
    (hclock : lastClock t = some now) (hpermit : Due a now → p.launch) :
    Goes env p a t w (launch env now arm job) fun launched a' t' =>
      (launched = true → a'.state = .running) ∧ (Due a now → Begins a t') := by
  have hdue : Due a now → arm.startMonotonicNs ≤ now.monotonicNowNs ∧
      launchOk a.config now arm job = true := by
    rintro ⟨-, arm', job', harm', hjob', -, hle, hok⟩
    cases harm.symm.trans harm'
    cases hjob.symm.trans hjob'
    exact ⟨hle, hok⟩
  refine .ite (fun hlt => .pure ⟨by simp, fun h => absurd (hdue h).1 (UInt64.not_le.2 hlt)⟩)
    fun hge => .auth ?_
  have hpending : a.Pending := .inr (.inl hs)
  refine .ite (fun hmissed => ?_) fun hok => ?_
  · refine (stopAndRecord_goes _ _ hpending (by decide)).bind fun _ _ _ _ _ =>
      .pure ⟨by simp, fun h => ?_⟩
    simp [(hdue h).2] at hmissed
  have hlaunches : p.Launches a t now arm job := by
    have hle : arm.startMonotonicNs ≤ now.monotonicNowNs := UInt64.not_lt.1 hge
    have hok' : launchOk a.config now arm job = true := by simpa using hok
    exact ⟨hpermit ⟨hs, arm, job, harm, hjob, hforeground, hle, hok'⟩, hs, harm, hjob, hforeground,
      hclock, hle, hok'⟩
  refine Shadows.ahead (.launch hlaunches) ?_
  have hrest : ∀ {m : AuthM ω Bool} {w' : ω},
      Shadows env p { a with state := .running } a
        (.call a (.begin job now.monotonicNowNs) :: t) w' m
        (fun launched a' _ => launched = true → a'.state = .running) →
      Shadows env p { a with state := .running } a
        (.call a (.begin job now.monotonicNowNs) :: t) w' m
        fun launched a' t' => (launched = true → a'.state = .running) ∧ (Due a now → Begins a t') :=
    fun h => h.framed.weaken fun _ _ _ h =>
      ⟨h.1, fun _ => ⟨job, now.monotonicNowNs, h.2.mem List.mem_cons_self⟩⟩
  refine hrest (.ite (fun _ => ?_) fun _ => ?_)
  · unfold stopAndRecord
    rw [bind_assoc]
    refine .halt (by decide) (fun state' error' deadline active loadActive w' hhalts => ?_)
      fun _ _ _ _ _ _ => .pure (by simp)
    exact .terminal (a := { a with state := .running }) a deadline state' error' _ active loadActive
      (.inr (.inr (.inl rfl))) hhalts
  · refine .modify (.stamp (some now.monotonicNowNs) rfl) ?_
    refine .releaseExecutionInput (.inr rfl) (fun _ => ?_) fun _ => ?_
    · exact .catchUp rfl (.pure fun _ => rfl)
    · exact .catchUp rfl (.pure fun _ => rfl)

theorem tailWithin_goes (now : ClockSnapshot) (report : EngineReport) (arm : ArmRecord)
    (nominalEnd acknowledgement : UInt64) :
    Goes env p a t w (tailWithin env now report arm nominalEnd acknowledgement)
      fun _ a' _ => a' = a := by
  refine .constant fun tail => .ite (fun _ => .pure rfl) fun _ => ?_
  split
  case h_1 => exact .snapshot (.pure rfl)
  case h_2 => exact .pure rfl

theorem withinAllowance_goes (now : ClockSnapshot) (report : EngineReport) (arm : ArmRecord)
    (job : Job) :
    Goes env p a t w (withinAllowance env now report arm job) fun _ a' _ => a' = a := by
  refine .auth (.constant fun ack => .constant fun external => ?_)
  refine (tailWithin_goes now report arm _ _).bind ?_
  rintro within a' t' w' rfl
  exact .ite (fun _ => .pure rfl) fun _ => .pure rfl

theorem observeLaunch_goes (report : EngineReport) (hs : a.state = .running) :
    Goes env p a t w (modifyAuth (Authority.observeLaunch report)) fun _ a' _ =>
      a'.state = .running := by
  refine .last ?_
  by_cases hlaunch : report.launchMonotonicNs.isSome
  · have he : a.observeLaunch report = a.setLaunch report.launchMonotonicNs := if_pos hlaunch
    refine .modify (he ▸ .stamp _ hs) (.pure ?_)
    rw [he]
    exact hs
  · exact Shadows.catchUp (a := a) (if_neg hlaunch)
      (Goes.pure (R := fun _ a' _ => a'.state = .running) hs)

theorem settle_goes (now : ClockSnapshot) (report : EngineReport) (hs : a.state = .running) :
    Goes env p a t w (settle env now report) fun _ _ _ => True := by
  refine (observeLaunch_goes report hs).bind ?_
  rintro _ a' t' w' hs'
  have hpending : a'.Pending := .inr (.inr (.inl hs'))
  split
  case h_1 => exact (stopAndRecord_goes _ _ hpending (by decide)).any
  case h_2 => exact (stopAndRecord_goes _ _ hpending (by decide)).any
  case h_3 => exact (stopAndRecord_goes _ _ hpending (by decide)).any
  case h_4 =>
    refine .auth ?_
    split
    case h_2 => exact .pure trivial
    case h_1 arm job _ =>
      refine .ite (fun _ => ?_) fun _ => .pure trivial
      refine (withinAllowance_goes now report arm job).bind ?_
      rintro within a'' t'' w'' rfl
      exact .ite (fun _ => (stopAndRecord_goes _ _ hpending (by decide)).any) fun _ => .pure trivial

theorem advance_goes {now : ClockSnapshot} (hclock : lastClock t = some now)
    (hpermit : Due a now → p.launch) :
    Goes env p a t w (advance env now) fun _ _ t' => Due a now → Begins a t' := by
  refine .auth ?_
  split
  case h_1 arm job hs harm hjob =>
    refine .ite (fun hlocal => ?_) fun hforeground => ?_
    · have hnot : ¬ Due a now := by
        rintro ⟨-, arm', -, harm', -, hforeground, -⟩
        cases harm.symm.trans harm'
        simp [hlocal] at hforeground
      refine .enginePoll fun report w' => .ite (fun _ => .pure fun h => absurd h hnot) fun _ => ?_
      exact .modify (.started hs harm hlocal)
        ((settle_goes now report rfl).weaken fun _ _ _ _ h => absurd h hnot)
    · refine (launch_goes hs harm hjob (by simpa using hforeground) hclock hpermit).bind ?_
      rintro launched a' t' w' ⟨hrunning, hbegins⟩
      refine .ite (fun hlaunched => .enginePoll fun report w'' => ?_) fun _ => .pure hbegins
      refine (settle_goes now report (hrunning hlaunched)).framed.weaken ?_
      rintro _ a'' t'' ⟨-, hframe⟩ hdue
      exact (hbegins hdue).mono ((List.suffix_cons _ _).trans hframe.trace)
  case h_2 hs =>
    refine .enginePoll fun report w' => (settle_goes now report hs).weaken fun _ _ _ _ hdue => ?_
    exact absurd (hs.symm.trans hdue.1) (by decide)
  case h_3 hnone =>
    refine .pure fun hdue => ?_
    obtain ⟨hs, arm, job, harm, hjob, -⟩ := hdue
    exact absurd hjob (hnone arm job hs harm)

/-! ## Local controls -/

theorem beginMaintenance_goes :
    Goes env p a t w (beginMaintenance env) fun _ _ _ => True := by
  refine .snapshot (.auth (.ite (fun _ => .pure trivial) fun _ => ?_))
  refine maintenance_goes.bind ?_
  rintro held a' t' w' ⟨rfl, -⟩
  refine .ite (fun _ => .pure trivial) fun _ => .ite (fun _ => .pure trivial) fun _ => ?_
  refine .outputActive fun active w'' => .ite (fun _ => .pure trivial) fun _ => ?_
  refine .ite (fun _ => .pure trivial) fun _ => ?_
  exact .modify (.maintain _ a'.updateVerification) (.pure trivial)

theorem idleAbort_goes : Goes env p a t w (idleAbort env) fun _ a' _ => a' = a := by
  refine .outputActive fun active w' => .ite (fun _ => ?_) fun _ => ?_
  · exact (reject_goes _).weaken fun _ _ _ h => h.1
  · exact success_goes.weaken fun _ _ _ h => h.1

/-- No job is waiting for its start or on the air. -/
def Idle (a : Authority) : Prop := a.state ≠ .loaded ∧ a.state ≠ .armed ∧ a.state ≠ .running

theorem idle_of_outcome (h : a.state ∈ outcomes) : Idle a := not_live_of_outcome h

theorem abortHeld_goes (hjob : ¬ Idle a → a.job.isSome) :
    Goes env p a t w (abortHeld env) fun _ a' _ => Idle a' := by
  have hidle : Idle a → Goes env p a t w (idleAbort env) fun _ a' _ => Idle a' := fun h =>
    idleAbort_goes.weaken fun _ _ _ he => he ▸ h
  refine .auth ?_
  split
  case h_1 job hsome =>
    refine .ite (fun _ => ?_) fun hdone => ?_
    · exact (abortJob_goes job.jobId).weaken fun _ _ _ h => idle_of_outcome (h.1 (by simp [hsome]))
    · refine hidle ?_
      rw [Classical.not_and_iff_not_or_not, not_not, not_not] at hdone
      unfold Idle
      rcases hdone with h | h <;> simp [h]
  case h_2 hnone =>
    refine hidle ?_
    by_contra hlive
    simpa [hnone] using hjob hlive

/-- After a local abort no job waits for its start. -/
theorem localAbortHeld_goes (hjob : ¬ Idle a → a.job.isSome) :
    Goes env p a t w (localAbortHeld env) fun _ a' _ =>
      (a.ready = false → a.state = .failed) → Idle a' := by
  refine .auth (.ite (fun hfailed => ?_) fun hready => ?_)
  · refine (reject_goes _).weaken ?_
    rintro r a' t' ⟨rfl, -, -⟩ hready
    have hstate : a'.state = .failed := by
      simp only [Bool.or_eq_true, decide_eq_true_eq, Bool.not_eq_true'] at hfailed
      exact hfailed.elim id hready
    exact idle_of_outcome (by simp [hstate, outcomes])
  refine (abortHeld_goes hjob).bind ?_
  rintro response a' t' w' hidle
  refine .ite (fun _ => ?_) fun _ => .pure fun _ => hidle
  refine (dropOwner_goes hidle.1 hidle.2.1 hidle.2.2).bind ?_
  rintro _ a'' t'' w'' ⟨rfl, -⟩
  exact .pure fun _ => hidle

end WsprryPico.Wtp
