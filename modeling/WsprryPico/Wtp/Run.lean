import WsprryPico.Wtp.Invariant

/-!
# Runs of the service

`Op` is a call of the service's interface, or a change of the world between
two calls: the clock advances, the engine goes on. `run` is a sequence of
them from a given state. `SysStep` adds the transport's part to `Step`, and
`Op.path` says that every call goes along it.
-/

namespace WsprryPico.Wtp

open Lib Relation AuthM SysM

variable {ω α β : Type} {env : Env ω}

inductive Op (ω : Type) where
  | handle (request : Request)
  | handleInternal (request : Request)
  | poll
  | localAbort
  | localInhibitOutput
  | beginMaintenance
  | endMaintenance
  | holdUpdateVerification
  | finishUpdateVerification
  | reset
  | world (f : ω → ω)

/-- The state after a call. -/
def Op.exec (env : Env ω) : Op ω → Sys ω → Sys ω
  | .handle request, s => (Wtp.handle env request s).2
  | .handleInternal request, s => (Wtp.handleInternal env request s).2
  | .poll, s => (Wtp.poll env s).2
  | .localAbort, s => (Wtp.localAbort env s).2
  | .localInhibitOutput, s => (Wtp.localInhibitOutput env s).2
  | .beginMaintenance, s => (onAuthority (Wtp.beginMaintenance env) s).2
  | .endMaintenance, s => (onAuthority Wtp.endMaintenance s).2
  | .holdUpdateVerification, s => (onAuthority Wtp.holdUpdateVerification s).2
  | .finishUpdateVerification, s => (onAuthority Wtp.finishUpdateVerification s).2
  | .reset, s => (Wtp.reset env s).2
  | .world f, s => { s with world := f s.world }

/-- The request of a call, with whether its answer is retained. -/
def Op.request : Op ω → Option (Request × Bool)
  | .handle request => some (request, true)
  | .handleInternal request => some (request, false)
  | _ => none

def run (env : Env ω) (ops : List (Op ω)) (s : Sys ω) : Sys ω :=
  ops.foldl (fun s op => Op.exec env op s) s

theorem run_append (ops ops' : List (Op ω)) (s : Sys ω) :
    run env (ops ++ ops') s = run env ops' (run env ops s) :=
  List.foldl_append

/-- A condition on every call of a list with the calls before it, read off call by call. -/
theorem splits_cons {P : List (Op ω) → Op ω → Prop} {op : Op ω} {ops : List (Op ω)} (h : P [] op)
    (hrest : ∀ pre op' post, ops = pre ++ op' :: post → P (op :: pre) op') :
    ∀ pre op' post, op :: ops = pre ++ op' :: post → P pre op' := by
  intro pre op' post heq
  cases pre with
  | nil =>
    obtain ⟨rfl, -⟩ := List.cons_eq_cons.1 heq
    exact h
  | cons op'' pre =>
    obtain ⟨rfl, htail⟩ := List.cons_eq_cons.1 heq
    exact hrest pre op' post htail

theorem splits_nil {P : List (Op ω) → Op ω → Prop} :
    ∀ pre op' post, [] = pre ++ op' :: post → P pre op' :=
  fun pre _ _ heq => absurd (congrArg List.length heq) (by simp)

theorem run_invariant {I : Sys ω → Prop}
    (hop : ∀ (op : Op ω) s, I s → I (op.exec env s)) (ops : List (Op ω)) {s : Sys ω} (h : I s) :
    I (run env ops s) := by
  induction ops generalizing s with
  | nil => exact h
  | cons op ops ih => exact ih (hop op s h)

/-! ## Steps of the whole service -/

/-- The authority members after `reset`. -/
def Authority.reset (bootId : String) (ready : Bool) (a : Authority) : Authority :=
  { a.clearJob with
    owner := none
    terminalRecords := []
    retainedJobs := []
    bootId := bootId
    ready := ready
    state := if ready then .empty else .failed }

/-- `sessionId` is in the session table under `principal`. -/
def Transport.Knows (t : Transport) (sessionId principal : String) : Prop :=
  ∃ s ∈ t.sessions, s.sessionId = sessionId ∧ s.principal = principal

/-- `q` allows nothing that `p` does not; the caller aside. -/
structure Permit.Within (q p : Permit ω) : Prop where
  load : ∀ a w job, q.load a w job → p.load a w job
  launch : q.launch → p.launch
  release : q.release → p.release
  inhibit : q.inhibit → p.inhibit
  reset : q.reset → p.reset

/-- The snapshots of a trace, as monotonic readings. -/
def clocks : List Event → List UInt64
  | [] => []
  | .clock now :: rest => now.monotonicNowNs :: clocks rest
  | _ :: rest => clocks rest

/-- An answer to `request` may be retained at `nowNs`. -/
structure Retains (t : Transport) (request : Request) (nowNs : UInt64) : Prop where
  known : ∃ s ∈ t.sessions, s.sessionId = request.sessionId ∧ s.principal = request.principal ∧
    s.lastSeenMonotonicNs = nowNs
  absent : ∀ entry ∈ t.replayCache, Transport.isEntry request entry = false
  envelope : envelopeError request = none
  hello : request.operation = .hello → helloError request.body = none

/-- What may happen to the world of a stopped engine in `reset`. -/
inductive Env.Rests (env : Env ω) : ω → ω → Prop where
  | observe {w w'} : env.Observes w w' → env.Rests w w'
  | boundary {w} : env.Rests w (env.engine.calibrationBoundary w)

inductive SysStep (env : Env ω) (p : Permit ω) : Sys ω → Sys ω → Prop where
  | authority {q s s' tr} : q.Within p →
      (∀ c, q.caller = some c → tr.Knows c.1 c.2) → Step env q s s' →
      SysStep env p ⟨s, tr⟩ ⟨s', tr⟩
  | expire {a t w tr now} : lastClock t = some now →
      SysStep env p ⟨⟨⟨a, t⟩, w⟩, tr⟩
        ⟨⟨⟨a, .expired now.monotonicNowNs :: t⟩, w⟩,
          Transport.pruneSessions a.config a.owner now.monotonicNowNs
            (Transport.pruneReplay a.config now.monotonicNowNs tr)⟩
  | admission {a t w tr tr' nowNs} request : lastExpired t = some nowNs →
      admitSession request nowNs tr = .ok tr' →
      SysStep env p ⟨⟨⟨a, t⟩, w⟩, tr⟩ ⟨⟨⟨a, t⟩, w⟩, tr'⟩
  | replayed {s tr} request : SysStep env p ⟨s, tr⟩ ⟨s, (Transport.replay request tr).2⟩
  | remember {a t w tr request nowNs} response : a.ready = true → lastExpired t = some nowNs →
      Retains tr request nowNs →
      SysStep env p ⟨⟨⟨a, t⟩, w⟩, tr⟩ ⟨⟨⟨a, .retained request response :: t⟩, w⟩,
        Transport.remember a.config request response nowNs tr⟩
  /-- The stop, the calibration boundary and the new state of `reset`. -/
  | reset {a t w w' tr} (deadline bootId ready) : p.reset →
      (ready = true → (env.engine.disable deadline w).1 = true) →
      ReflTransGen env.Rests (env.engine.disable deadline w).2 w' →
      SysStep env p ⟨⟨⟨a, t⟩, w⟩, tr⟩
        ⟨⟨⟨a.reset bootId ready, .call { a with owner := none } .calibrationBoundary ::
          .call a (.disable deadline) :: t⟩, w'⟩, { tr with sessions := [], replayCache := [] }⟩

/-! ## Rules -/

variable {p : Permit ω} {a : Authority} {t : List Event} {w : ω} {tr : Transport}

/-- `Goes` with the transport state. -/
def Moves (env : Env ω) (p : Permit ω) (a : Authority) (t : List Event) (w : ω) (tr : Transport)
    (m : SysM ω α) (R : α → Authority → List Event → Transport → Prop) : Prop :=
  Along (SysStep env p) ⟨⟨⟨a, t⟩, w⟩, tr⟩ m fun x s => R x s.auth s.trace s.transport

namespace Moves

variable {m : SysM ω α} {k : α → SysM ω β} {R R' : α → Authority → List Event → Transport → Prop}
  {Q : β → Authority → List Event → Transport → Prop}

theorem pure {x : α} (h : R x a t tr) : Moves env p a t w tr (Pure.pure x) R := Along.pure h

theorem bind (hm : Moves env p a t w tr m R)
    (hk : ∀ x a' t' w' tr', R x a' t' tr' → Moves env p a' t' w' tr' (k x) Q) :
    Moves env p a t w tr (m >>= k) Q :=
  Along.bind hm fun x s' h => hk x s'.auth s'.trace s'.world s'.transport h

theorem weaken (hm : Moves env p a t w tr m R) (h : ∀ x a' t' tr', R x a' t' tr' → R' x a' t' tr') :
    Moves env p a t w tr m R' :=
  Along.weaken hm fun x s' => h x s'.auth s'.trace s'.transport

theorem last (hm : Moves env p a t w tr (m >>= Pure.pure) R) : Moves env p a t w tr m R := by
  rwa [bind_pure] at hm

theorem any (hm : Moves env p a t w tr m R) : Moves env p a t w tr m fun _ _ _ _ => True :=
  hm.weaken fun _ _ _ _ _ => trivial

theorem ite {c : Prop} [Decidable c] {m n : SysM ω α} (ht : c → Moves env p a t w tr m R)
    (hf : ¬ c → Moves env p a t w tr n R) : Moves env p a t w tr (if c then m else n) R :=
  Along.ite ht hf

theorem authority {q : Permit ω} {m : AuthM ω α} {S : α → Authority → List Event → Prop}
    (hp : q.Within p) (hc : ∀ c, q.caller = some c → tr.Knows c.1 c.2)
    (hm : Goes env q a t w m S) (hk : ∀ x a' t' w', S x a' t' → Moves env p a' t' w' tr (k x) Q) :
    Moves env p a t w tr (onAuthority m >>= k) Q := by
  refine bind (R := fun x a' t' tr' => S x a' t' ∧ tr' = tr) ⟨?_, hm.2, rfl⟩ ?_
  · exact hm.1.lift (fun s => (⟨s, tr⟩ : Sys ω)) fun _ _ h => .authority hp hc h
  · rintro x a' t' w' tr' ⟨h, rfl⟩
    exact hk x a' t' w' h

theorem auth {k : Authority → SysM ω β} (hk : Moves env p a t w tr (k a) Q) :
    Moves env p a t w tr (onAuthority AuthM.auth >>= k) Q := Along.read rfl hk

theorem transport {k : Transport → SysM ω β} (hk : Moves env p a t w tr (k tr) Q) :
    Moves env p a t w tr (SysM.transport >>= k) Q := Along.read rfl hk

theorem modifyTransport {f : Transport → Transport} {k : Unit → SysM ω β}
    (h : SysStep env p ⟨⟨⟨a, t⟩, w⟩, tr⟩ ⟨⟨⟨a, t⟩, w⟩, f tr⟩)
    (hk : Moves env p a t w (f tr) (k ()) Q) :
    Moves env p a t w tr (SysM.modifyTransport f >>= k) Q := Along.jump h rfl hk

theorem statement {q : Permit ω} {m : AuthM ω α} {x : α} {s' : AuthSys ω} (hp : q.Within p)
    (hc : q.caller = none) (he : m ⟨⟨a, t⟩, w⟩ = (x, s')) (h : Step env q ⟨⟨a, t⟩, w⟩ s')
    (hk : Moves env p s'.auth s'.trace s'.world tr (k x) Q) :
    Moves env p a t w tr (onAuthority m >>= k) Q := by
  refine Along.jump (.authority hp (fun c hcaller => by simp [hc] at hcaller) h) ?_ hk
  show k (m ⟨⟨a, t⟩, w⟩).1 ⟨(m ⟨⟨a, t⟩, w⟩).2, tr⟩ = _
  rw [he]

end Moves

theorem onAuthority_eq {m : AuthM ω α} {x : α} {s s' : AuthSys ω} {k : α → SysM ω β}
    (he : m s = (x, s')) : (onAuthority m >>= k) ⟨s, tr⟩ = k x ⟨s', tr⟩ := by
  show k (m s).1 ⟨(m s).2, tr⟩ = _
  rw [he]

theorem Permit.Within.none : ({} : Permit ω).Within p :=
  ⟨fun _ _ _ => False.elim, False.elim, False.elim, False.elim, False.elim⟩

/-! ## The calls -/

theorem none_caller {tr : Transport} :
    ∀ c, ({} : Permit ω).caller = some c → tr.Knows c.1 c.2 := nofun

theorem snapshot_goes : Goes env p a t w (snapshot env) fun now a' t' =>
    now = (env.snapshot w).1 ∧ a' = a ∧ t' = .clock now :: t :=
  .last (.snapshot (.pure ⟨rfl, rfl, rfl⟩))

theorem expire_moves {now : ClockSnapshot} (hclock : lastClock t = some now) :
    Moves env p a t w tr (expire env now.monotonicNowNs) fun _ a' t' _ =>
      Carried a a' ∧ lastClock t' = some now ∧ lastExpired t' = some now.monotonicNowNs := by
  unfold expire
  refine .authority .none none_caller (expireResources_goes now.monotonicNowNs) ?_
  rintro _ a' t' w' ⟨hcarried, ht⟩
  have ht' : lastClock t' = some now := ht.trans hclock
  refine Along.jumps (n := fun s => ((), s)) (.tail (.single (.expire ht'))
    (.authority .none none_caller (.prune now.monotonicNowNs))) ?_ ⟨.refl, hcarried.trans ?_, ht', rfl⟩
  · show (_, _) = _
    simp only [Authority.pruneTerminals_config, Authority.pruneTerminals_owner]
  · exact carried_prune now.monotonicNowNs a'

variable (env p a t w tr) in
theorem enter_moves : Moves env p a t w tr (enter env) fun now a' t' _ =>
    now = (env.snapshot w).1 ∧ Carried a a' ∧ lastClock t' = some now ∧
      lastExpired t' = some now.monotonicNowNs := by
  refine .authority .none none_caller snapshot_goes ?_
  rintro now _ _ w₁ ⟨rfl, rfl, rfl⟩
  refine (expire_moves rfl).bind ?_
  rintro _ a₁ t₁ w₂ tr₁ ⟨hcarried, hclock, hexpired⟩
  exact .pure ⟨rfl, hcarried, hclock, hexpired⟩

theorem blocked_goes : Goes env p a t w (blocked env) fun x a' t' =>
    a' = a ∧ Reads t t' ∧ (a.outputInhibited = true → x = true) := by
  refine .auth (.ite (fun _ => .pure ⟨rfl, .inl rfl, fun _ => rfl⟩) fun hfree => ?_)
  exact maintenance_goes.weaken fun _ _ _ h => ⟨h.1, h.2, fun h' => absurd h' hfree⟩

theorem mem_clocks_of_last {now : ClockSnapshot} (h : lastClock t = some now) :
    now.monotonicNowNs ∈ clocks t := by
  induction t with
  | nil => simp [lastClock] at h
  | cons e t ih =>
    cases e with
    | clock n =>
      simp only [lastClock, Option.some.injEq] at h
      simp [clocks, h]
    | _ => exact ih h

theorem clocks_append (t₁ t₂ : List Event) : clocks (t₁ ++ t₂) = clocks t₁ ++ clocks t₂ := by
  induction t₁ with
  | nil => rfl
  | cons e t₁ ih => cases e <;> simp [clocks, ih]

theorem mem_clocks_suffix {t' : List Event} {n : UInt64} (h : t <:+ t') (hn : n ∈ clocks t) :
    n ∈ clocks t' := by
  obtain ⟨t₁, rfl⟩ := h
  rw [clocks_append]
  exact List.mem_append_right _ hn

/-! ## The session table -/

/-- A refreshed table holds the found session, seen now. -/
theorem mem_seen {sessions : List Session} {sessionId : String} {s : Session} (nowNs : UInt64)
    (h : sessions.find? (·.sessionId == sessionId) = some s) :
    { s with lastSeenMonotonicNs := nowNs } ∈ Transport.seen nowNs sessionId sessions := by
  induction sessions with
  | nil => simp at h
  | cons x rest ih =>
    unfold Transport.seen
    rw [List.find?_cons] at h
    split at h
    · rename_i hx
      rw [if_pos hx, Option.some.inj h]
      exact List.mem_cons_self
    · rename_i hx
      rw [if_neg (by simp [hx])]
      exact List.mem_cons_of_mem _ (ih h)

/-- What admission does to the table: a known session of the same principal is
refreshed, an unknown one is added by HELLO while there is room. -/
theorem admitSession_cases {request : Request} {nowNs : UInt64} {tr' : Transport}
    (h : admitSession request nowNs tr = .ok tr') :
    (∃ s, tr.findSession request.sessionId = some s ∧ s.principal = request.principal ∧
      tr' = { tr with sessions := Transport.seen nowNs request.sessionId tr.sessions }) ∨
    (tr.findSession request.sessionId = none ∧ tr.sessions.length < 16 ∧
      tr' = { tr with
        sessions := tr.sessions ++ [⟨request.sessionId, request.principal, nowNs⟩] }) := by
  unfold admitSession at h
  split at h
  · cases h
  · split at h
    · rename_i s hs
      split at h
      · cases h
      · rename_i hp
        exact .inl ⟨s, hs, not_not.1 hp, (Except.ok.inj h).symm⟩
    · rename_i hs
      split at h
      · cases h
      · split at h
        · cases h
        · split at h
          · cases h
          · exact .inr ⟨hs, by omega, (Except.ok.inj h).symm⟩

theorem admitSession_known {request : Request} {nowNs : UInt64} {tr' : Transport}
    (h : admitSession request nowNs tr = .ok tr') :
    ∃ s ∈ tr'.sessions, s.sessionId = request.sessionId ∧ s.principal = request.principal ∧
      s.lastSeenMonotonicNs = nowNs := by
  obtain ⟨s, hfind, hprincipal, rfl⟩ | ⟨-, -, rfl⟩ := admitSession_cases h
  · have hid : s.sessionId = request.sessionId := by
      simpa using List.find?_some hfind
    exact ⟨_, mem_seen nowNs hfind, hid, hprincipal, rfl⟩
  · exact ⟨_, List.mem_append_right _ (List.mem_singleton_self _), rfl, rfl, rfl⟩

theorem replay_absent {request : Request} (h : (Transport.replay request tr).1 = .absent) :
    (Transport.replay request tr).2 = tr ∧
      ∀ entry ∈ tr.replayCache, Transport.isEntry request entry = false := by
  unfold Transport.replay at h ⊢
  split
  · rename_i hfind
    exact ⟨rfl, fun entry he => by simpa using List.find?_eq_none.1 hfind entry he⟩
  · rename_i entry hfind
    simp only [hfind] at h
    split at h <;> simp at h

/-! ## Requests -/

/-- What `handle_owned` of a ready service decides without `dispatch`: a refusal
with its close flag or a cached response, and the transport state it leaves. -/
def decided (request : Request) (held : Bool) (nowNs : UInt64) (tr : Transport) :
    Option (Except (ErrorCode × Bool) Response × Transport) :=
  match envelopeError request with
  | some error => some (.error error, tr)
  | none =>
    if held && request.operation.gated then some (.error (.busy, false), tr)
    else
      match admitSession request nowNs tr with
      | .error error => some (.error error, tr)
      | .ok tr =>
        match Transport.replay request tr with
        | (.cached response, tr) => some (.ok response, tr)
        | (.conflict, tr) => some (.error (.requestIdReuse, true), tr)
        | (.absent, _) => none

/-- `request`, arriving at `s` at time `nowNs`, reaches `dispatch`. -/
structure Dispatched (env : Env ω) (s : Sys ω) (nowNs : UInt64) (request : Request) : Prop where
  ready : s.auth.ready = true
  undecided : decided request (blocked env s.toAuthSys).1 nowNs s.transport = none

/-- What a request may do under `p`, from the state the expiries leave. -/
structure Permit.Admits (p : Permit ω) (env : Env ω) (s : Sys ω) (nowNs : UInt64)
    (request : Request) : Prop where
  load : Dispatched env s nowNs request → ∀ job, LoadsJob s.auth request job →
    Ahead env s.world fun w' => p.load s.auth w' job
  release : Dispatched env s nowNs request → ReleasesLoaded s.auth request → p.release

theorem retain_moves {request : Request} {response : Response} {nowNs : UInt64} {Q}
    (retainResponse : Bool) (k : Unit → SysM ω β) (hready : a.ready = true)
    (hnow : lastExpired t = some nowNs) (hretains : Retains tr request nowNs)
    (hk : ∀ t' tr', Moves env p a t' w tr' (k ()) Q) :
    Moves env p a t w tr (retain retainResponse request response nowNs >>= k) Q := by
  cases retainResponse with
  | false => exact hk t tr
  | true =>
    exact Along.jump (.remember response hready hnow hretains) rfl (hk _ _)

/-- Refused, replayed from the cache, or answered by `dispatch`. -/
def Answered (tr : Transport) (request : Request) (S : Response → Prop) (r : Response) : Prop :=
  r.ok = false ∨ (∃ entry ∈ tr.replayCache, Transport.isEntry request entry = true ∧
    r = entry.response) ∨ S r

/-- The answer did not come from `dispatch`, and the authority is as it was. -/
def Undispatched (tr : Transport) (request : Request) (a : Authority) (r : Response)
    (a' : Authority) : Prop :=
  a' = a ∧ (r.ok = false ∨ ∃ entry ∈ tr.replayCache, Transport.isEntry request entry = true ∧
    r = entry.response)

theorem Undispatched.answered {request : Request} {S : Response → Prop} {r : Response}
    {a' : Authority} (h : Undispatched tr request a r a') : Answered tr request S r :=
  h.2.imp id .inl

theorem rejectWith_moves (code : ErrorCode) (close : Bool) :
    Moves env p a t w tr (rejectWith env code close) fun r a' t' tr' =>
      a' = a ∧ t' = t ∧ tr' = tr ∧ r.ok = false ∧ r.error = code ∧ r.closeConnection = close := by
  refine .authority .none none_caller (reject_goes code) ?_
  rintro r a' t' w' ⟨rfl, rfl, active, rfl⟩
  exact .pure ⟨rfl, rfl, rfl, rfl, rfl, rfl⟩

theorem replay_cached {request : Request} {response : Response}
    (h : (Transport.replay request tr).1 = .cached response) :
    ∃ entry ∈ tr.replayCache, Transport.isEntry request entry = true ∧
      response = entry.response := by
  unfold Transport.replay at h
  split at h
  · cases h
  · rename_i entry hfind
    split at h
    · cases h
    · exact ⟨entry, List.mem_of_find?_eq_some hfind, List.find?_some hfind,
        (Transport.Lookup.cached.inj h).symm⟩

theorem admitSession_cache {request : Request} {nowNs : UInt64} {tr' : Transport}
    (h : admitSession request nowNs tr = .ok tr') : tr'.replayCache = tr.replayCache := by
  obtain ⟨s, -, -, rfl⟩ | ⟨-, -, rfl⟩ := admitSession_cases h
  · rfl
  · rfl

theorem admitSession_hello {request : Request} {nowNs : UInt64} {tr' : Transport}
    (h : admitSession request nowNs tr = .ok tr') (hop : request.operation = .hello) :
    helloError request.body = none := by
  unfold admitSession at h
  rw [if_pos hop] at h
  split at h
  · cases h
  · rename_i hnone
    exact hnone

variable (env p a t w) in
/-- The interlock test takes at most one clock reading. -/
theorem blocked_eq : ∃ held t' w', blocked env ⟨⟨a, t⟩, w⟩ = (held, ⟨⟨a, t'⟩, w'⟩) ∧
    (Reads t t' ∧ ReflTransGen env.Looks w w') ∧ (a.outputInhibited = true → held = true) ∧
      ReflTransGen (Step env p) ⟨⟨a, t⟩, w⟩ ⟨⟨a, t'⟩, w'⟩ := by
  by_cases hinhibited : a.outputInhibited = true
  · refine ⟨true, t, w, ?_, ⟨.inl rfl, .refl⟩, fun _ => rfl, .refl⟩
    simp [blocked, bind, StateT.bind, AuthM.auth, hinhibited]
    rfl
  by_cases hverification : a.updateVerification = true
  · refine ⟨true, t, w, ?_, ⟨.inl rfl, .refl⟩, fun _ => rfl, .refl⟩
    simp [blocked, maintenance, bind, StateT.bind, AuthM.auth, hinhibited, hverification]
    rfl
  by_cases hdeadline : a.maintenanceDeadlineNs = 0
  · refine ⟨false, t, w, ?_, ⟨.inl rfl, .refl⟩, fun h => absurd h hinhibited, .refl⟩
    simp [blocked, maintenance, bind, StateT.bind, AuthM.auth, hinhibited, hverification, hdeadline]
    rfl
  · refine ⟨decide ((env.snapshot w).1.monotonicNowNs < a.maintenanceDeadlineNs),
      .clock (env.snapshot w).1 :: t, (env.snapshot w).2, ?_, ⟨.inr ⟨_, rfl⟩, .single .clock⟩,
      fun h => absurd h hinhibited, .single .clock⟩
    simp [blocked, maintenance, bind, StateT.bind, AuthM.auth, AuthM.snapshot, hinhibited,
      hverification, hdeadline]
    rfl

theorem respond_moves (request : Request)
    (retainResponse : Bool) {now : ClockSnapshot} (hnow : lastExpired t = some now.monotonicNowNs)
    (hadmits : p.Admits env ⟨⟨⟨a, t⟩, w⟩, tr⟩ now.monotonicNowNs request)
    {S : Response → Authority → Prop} (hdispatch : ∀ q t' w', q.Covers env a w' request →
      Goes env q a t' w' (dispatch env request) fun r a' _ => S r a') :
    Moves env p a t w tr (respond env request retainResponse now)
      fun r a' _ _ => Undispatched tr request a r a' ∨ S r a' := by
  have hreject : ∀ {t' : List Event} {w' : ω} {tr' : Transport} (code : ErrorCode) (close : Bool),
      Moves env p a t' w' tr' (rejectWith env code close)
        fun r a' _ _ => Undispatched tr request a r a' ∨ S r a' :=
    fun code close => (rejectWith_moves code close).weaken fun _ _ _ _ h => .inl ⟨h.1, .inl h.2.2.2.1⟩
  unfold respond
  refine .auth (.ite (fun _ => hreject _ _) fun hready => ?_)
  have hready : a.ready = true := by simpa using hready
  split
  · exact hreject _ _
  rename_i henvelope
  have henvelope : envelopeError request = none :=
    Option.eq_none_iff_forall_ne_some.2 fun error he => henvelope error.1 error.2 he
  obtain ⟨held, t₂, w₂, heq, ⟨-, hlooks⟩, hheld, hpath⟩ :=
    blocked_eq env {} a t w
  have hexpired : lastExpired t₂ = lastExpired t :=
    (invariant_star (I := fun s : AuthSys ω => Frame a t s.auth s.trace)
      (fun _ _ hs h => h.trans (step_frame hs)) hpath .refl).expired
  have hnow₂ := hexpired.trans hnow
  refine Along.jumps (hpath.lift (fun s => (⟨s, tr⟩ : Sys ω)) fun _ _ h =>
    .authority .none none_caller h) (onAuthority_eq heq) ?_
  refine Moves.ite (fun _ => hreject _ _) fun hgate => .transport ?_
  split
  · exact hreject _ _
  rename_i tr₂ hadmitted
  refine .modifyTransport (.admission request hnow₂ hadmitted) ?_
  rcases hreplay : Transport.replay request tr₂ with ⟨found, tr₃⟩
  have hstep : SysStep env p ⟨⟨⟨a, t₂⟩, w₂⟩, tr₂⟩ ⟨⟨⟨a, t₂⟩, w₂⟩, (Transport.replay request tr₂).2⟩ :=
    .replayed request
  rw [hreplay] at hstep
  refine .modifyTransport hstep ?_
  cases found with
  | cached response =>
    obtain ⟨entry, hentry, his, rfl⟩ := replay_cached (congrArg Prod.fst hreplay)
    exact .pure (.inl ⟨rfl, .inr ⟨entry, admitSession_cache hadmitted ▸ hentry, his, rfl⟩⟩)
  | conflict => exact hreject _ _
  | absent =>
    have hdispatched : Dispatched env ⟨⟨⟨a, t⟩, w⟩, tr⟩ now.monotonicNowNs request := by
      refine ⟨hready, ?_⟩
      simp only [decided, henvelope, heq, hadmitted, hreplay]
      rw [if_neg hgate]
    obtain ⟨htr, habsent⟩ := replay_absent (congrArg Prod.fst hreplay)
    obtain rfl : tr₃ = tr₂ := (congrArg Prod.snd hreplay).symm.trans htr
    obtain ⟨session, hmem, hid, hprincipal, hseen⟩ := admitSession_known hadmitted
    refine .authority (q := ⟨some (request.sessionId, request.principal), p.load, False,
      p.release, False, False⟩) ⟨fun _ _ _ => id, False.elim, id, False.elim, False.elim⟩ ?_
      (hdispatch _ _ _ ?_).framed ?_
    · rintro c ⟨rfl⟩
      exact ⟨session, hmem, hid, hprincipal⟩
    · refine ⟨fun _ => rfl, fun hop => ?_, fun job hloads w' hw' => ?_, hadmits.release hdispatched⟩
      · by_contra hinhibited
        have hgated : request.operation.gated = true := by
          rcases hop with h | h <;> rw [h] <;> rfl
        exact hgate (by simp [hgated, hheld (by simpa using hinhibited)])
      · exact hadmits.load hdispatched job hloads w' (hlooks.trans hw')
    · rintro response a₃ t₃ w₃ ⟨hS, hframe₃⟩
      exact retain_moves retainResponse _ (hframe₃.ready.trans hready) (hframe₃.expired.trans hnow₂)
        ⟨⟨session, hmem, hid, hprincipal, hseen⟩, habsent, henvelope, admitSession_hello hadmitted⟩
        fun _ _ => .pure (.inr hS)

variable (env p a t w tr) in
/-- A LOAD that `respond` refuses leaves the authority as it was. -/
theorem respond_kept (request : Request) (retainResponse : Bool) {now : ClockSnapshot}
    (hnow : lastExpired t = some now.monotonicNowNs)
    (hadmits : p.Admits env ⟨⟨⟨a, t⟩, w⟩, tr⟩ now.monotonicNowNs request) :
    Moves env p a t w tr (respond env request retainResponse now) fun r a' _ _ =>
      request.operation = .load → Kept a r a' := by
  refine (respond_moves request retainResponse hnow hadmits
    fun q t' w' hcovers => dispatch_goes request hcovers).weaken ?_
  rintro r a' t' tr' (⟨rfl, -⟩ | hkept) hop
  · exact fun _ => rfl
  · exact hkept hop

theorem handleOwned_eq (request : Request) (retainResponse : Bool) (s : Sys ω) :
    handleOwned env request retainResponse s =
      respond env request retainResponse (enter env s).1 (enter env s).2 := rfl

theorem handleOwned_moves (request : Request) (retainResponse : Bool)
    (hadmits : p.Admits env (enter env ⟨⟨⟨a, t⟩, w⟩, tr⟩).2
      (enter env ⟨⟨⟨a, t⟩, w⟩, tr⟩).1.monotonicNowNs request) :
    Moves env p a t w tr (handleOwned env request retainResponse) fun _ _ _ _ => True := by
  have henter := enter_moves env p a t w tr
  exact Along.jumps henter.1 rfl
    (respond_kept _ _ _ _ _ _ request retainResponse henter.2.2.2.2 hadmits).any

/-! ## Polling and local controls -/

/-- A job was begun from an authority with the output interlock at `inhibited`. -/
def BegunUnder (inhibited : Bool) (t : List Event) : Prop :=
  ∃ x : Authority, x.outputInhibited = inhibited ∧ Begins x t

theorem BegunUnder.mono {inhibited : Bool} {t' : List Event} (h : BegunUnder inhibited t)
    (ht : t <:+ t') : BegunUnder inhibited t' := by
  obtain ⟨x, hx, hbegins⟩ := h
  exact ⟨x, hx, hbegins.mono ht⟩

theorem poll_moves (hpermit : Due a (env.snapshot w).1 → p.launch) :
    Moves env p a t w tr (poll env) fun _ _ t' _ =>
      Due a (env.snapshot w).1 → BegunUnder a.outputInhibited t' := by
  refine (enter_moves _ _ _ _ _ _).bind ?_
  rintro now a₂ t₂ w₂ tr₂ ⟨rfl, hcarried, hclock, -⟩
  refine .last (.authority (q := { launch := p.launch }) ⟨fun _ _ _ => False.elim, id, False.elim,
    False.elim, False.elim⟩ nofun
    (advance_goes hclock fun hdue => hpermit (hcarried.due hdue)) ?_)
  intro _ _ _ _ hbegins
  exact .pure fun hdue => ⟨a₂, hcarried.inhibited, hbegins (hcarried.due_of hdue)⟩

/-- The authority invariants, which every path keeps. -/
structure Sound (a : Authority) : Prop where
  held : Held a
  lockstep : Lockstep a

theorem step_sound {s s' : AuthSys ω} {p : Permit ω} (hstep : Step env p s s') (h : Sound s.auth) :
    Sound s'.auth := ⟨step_held hstep h.held, step_lockstep hstep h.held h.lockstep⟩

theorem sound_reset {bootId : String} {ready : Bool} : Sound (a.reset bootId ready) := by
  constructor
  · cases ready
    · exact ⟨by simp [Authority.reset], by simp [Authority.reset], by simp [Authority.reset],
        by simp [Authority.reset], fun _ => rfl⟩
    · exact ⟨by simp [Authority.reset], by simp [Authority.reset], by simp [Authority.reset],
        fun _ => ⟨rfl, rfl⟩, by simp [Authority.reset]⟩
  · refine ⟨rfl, List.nodup_nil, Nat.zero_le _, fun _ job hjob => ?_⟩
    simp [Authority.reset, Authority.clearJob] at hjob

theorem sysStep_sound {s s' : Sys ω} (hstep : SysStep env p s s') (h : Sound s.auth) :
    Sound s'.auth := by
  cases hstep with
  | authority _ _ hstep => exact step_sound hstep h
  | reset => exact sound_reset
  | _ => exact h

theorem Moves.sound {m : SysM ω α} {R : α → Authority → List Event → Transport → Prop}
    (hm : Moves env p a t w tr m R) (h : Sound a) :
    Moves env p a t w tr m fun x a' t' tr' => R x a' t' tr' ∧ Sound a' :=
  ⟨hm.1, hm.2, invariant_star (I := fun s : Sys ω => Sound s.auth)
    (fun _ _ hs h => sysStep_sound hs h) hm.1 h⟩

theorem localAbort_moves (hsound : Sound a) (hpermit : Due a (env.snapshot w).1 → p.launch) :
    Moves env p a t w tr (localAbort env) fun _ a' t' _ =>
      Idle a' ∧ (Due a (env.snapshot w).1 → BegunUnder a.outputInhibited t') := by
  refine ((poll_moves hpermit).sound hsound).bind ?_
  rintro _ a₁ t₁ w₁ tr₁ ⟨hbegun, hsound₁⟩
  refine .last (.authority .none none_caller (localAbortHeld_goes fun hlive => ?_).framed ?_)
  · refine (hsound₁.held.job ?_).1
    unfold Idle at hlive
    tauto
  · rintro r a₂ t₂ w₂ ⟨hidle, hframe⟩
    exact .pure ⟨hidle hsound₁.held.ready, fun hdue => (hbegun hdue).mono hframe.trace⟩

theorem sysStep_inhibited {s s' : Sys ω} (hstep : SysStep env p s s')
    (h : s.auth.outputInhibited = true) : s'.auth.outputInhibited = true := by
  cases hstep with
  | authority _ _ hstep => exact step_inhibited hstep h
  | _ => exact h

theorem Moves.inhibited {m : SysM ω α} {R : α → Authority → List Event → Transport → Prop}
    (hm : Moves env p a t w tr m R) (h : a.outputInhibited = true) :
    Moves env p a t w tr m fun x a' t' tr' => R x a' t' tr' ∧ a'.outputInhibited = true :=
  ⟨hm.1, hm.2, invariant_star (I := fun s : Sys ω => s.auth.outputInhibited = true)
    (fun _ _ hs h => sysStep_inhibited hs h) hm.1 h⟩

variable (env p t tr) in
theorem localInhibitOutput_moves (hsound : Sound a) (hinhibit : p.inhibit)
    (hpermit : Due a (env.snapshot (env.engine.inhibitOutput w)).1 → p.launch) :
    Moves env p a t w tr (localInhibitOutput env) fun _ a' t' _ =>
      (Idle a' ∧ (Due a (env.snapshot (env.engine.inhibitOutput w)).1 → BegunUnder true t')) ∧
        a'.outputInhibited = true := by
  have hstep : Step env p ⟨⟨a, t⟩, w⟩ ⟨⟨{ a with outputInhibited := true }, t⟩, w⟩ :=
    .inhibit hinhibit
  have hsound' : Sound { a with outputInhibited := true } := step_sound hstep hsound
  refine .statement (q := { inhibit := p.inhibit }) ⟨fun _ _ _ => False.elim, False.elim,
    False.elim, id, False.elim⟩ rfl rfl (.inhibit hinhibit) ?_
  refine .statement .none rfl rfl (.quiet (c := .inhibitOutput)
    { a with outputInhibited := true } rfl (by simp)) ?_
  refine ((localAbort_moves hsound' hpermit).inhibited rfl).bind ?_
  rintro r a₁ t₁ w₁ tr₁ hidle
  refine .authority .none none_caller snapshot_goes.framed ?_
  rintro now a₂ t₂ w₂ ⟨⟨-, rfl, -⟩, hframe₂⟩
  refine .auth (.authority .none none_caller (S := fun _ a' t' => a' = a₂ ∧ t₂ <:+ t')
    (.last (.disable hidle.2 hidle.1.1.1 fun _ _ => .pure ⟨rfl, List.suffix_cons _ _⟩)) ?_)
  rintro disabled _ t₃ w₃ ⟨rfl, ht₃⟩
  refine .authority .none none_caller activity_goes ?_
  rintro current _ _ w₄ ⟨rfl, rfl, -⟩
  exact .pure ⟨⟨hidle.1.1, fun hdue =>
    (hidle.1.2 hdue).mono (hframe₂.trace.trans ht₃)⟩, hidle.2⟩

theorem reset_moves (hreset : p.reset) :
    Moves env p a t w tr (reset env) fun _ a' _ _ => a'.outputInhibited = a.outputInhibited := by
  refine .statement (q := {}) .none rfl rfl (.maintain 0 a.updateVerification) ?_
  refine .statement (q := {}) .none rfl rfl (.maintain 0 false) ?_
  refine .statement (q := {}) .none rfl rfl .clock ?_
  obtain ⟨off, deadline, w₄, heq, hoff, hobserved⟩ := stopped_eq env
    { a with maintenanceDeadlineNs := 0, updateVerification := false }
    (.clock (env.snapshot w).1 :: t) (env.snapshot w).2
    (env.snapshot w).1.monotonicNowNs
  rcases hboot : env.newBootId (env.engine.calibrationBoundary w₄) with ⟨bootId, w₅⟩
  have hrests : ReflTransGen env.Rests (env.engine.disable deadline (env.snapshot w).2).2 w₅ := by
    have hlast : env.Observes (env.engine.calibrationBoundary w₄) w₅ := by
      have hquery : env.Observes (env.engine.calibrationBoundary w₄)
          (env.newBootId (env.engine.calibrationBoundary w₄)).2 := .newBootId
      rwa [hboot] at hquery
    exact (ReflTransGen.mono (fun _ _ => .observe) _ _ hobserved).trans
      (.tail (.single .boundary) (.observe hlast))
  refine Along.jump (n := fun s => ((), s)) (.reset deadline bootId
    (validId bootId && bootId ≠ a.bootId && off) hreset (fun hready => ?_) hrests) ?_ ⟨.refl, rfl⟩
  · simp only [Bool.and_eq_true] at hready
    exact hoff hready.2
  · show (onAuthority _ >>= _) _ = _
    rw [onAuthority_eq heq]
    simp [onAuthority, dropOwner, modifyAuth, modifyTransport, AuthM.calibrationBoundary, command,
      query, bind, StateT.bind, hboot, Authority.reset, Authority.clearJob]

/-! ## Every call goes along the steps -/

/-- `p` allows what `op` may do from `s`. -/
def Op.Within (env : Env ω) (p : Permit ω) (s : Sys ω) : Op ω → Prop
  | .handle request => p.Admits env (enter env s).2 (enter env s).1.monotonicNowNs request
  | .handleInternal request => p.Admits env (enter env s).2 (enter env s).1.monotonicNowNs request
  | .poll => Due s.auth (env.snapshot s.world).1 → p.launch
  | .localAbort => Due s.auth (env.snapshot s.world).1 → p.launch
  | .localInhibitOutput => p.inhibit ∧
    (Due s.auth (env.snapshot (env.engine.inhibitOutput s.world)).1 → p.launch)
  | .reset => p.reset
  | _ => True

theorem Op.path (op : Op ω) {s : Sys ω} (hsound : Sound s.auth)
    (hwithin : op.Within env p s) :
    (∃ f, op = .world f) ∨ ReflTransGen (SysStep env p) s (op.exec env s) := by
  obtain ⟨⟨⟨a, t⟩, w⟩, tr⟩ := s
  cases op with
  | handle request => exact .inr (handleOwned_moves request true hwithin).1
  | handleInternal request => exact .inr (handleOwned_moves request false hwithin).1
  | poll => exact .inr (poll_moves hwithin).1
  | localAbort => exact .inr (localAbort_moves hsound hwithin).1
  | localInhibitOutput => exact .inr (localInhibitOutput_moves _ _ _ _ hsound hwithin.1 hwithin.2).1
  | beginMaintenance =>
    exact .inr (beginMaintenance_goes.1.lift (fun s => (⟨s, tr⟩ : Sys ω)) fun _ _ h =>
      .authority (q := {}) .none none_caller h)
  | endMaintenance =>
    exact .inr (.single (.authority (q := {}) .none none_caller (.maintain 0 a.updateVerification)))
  | holdUpdateVerification =>
    exact .inr (.single (.authority (q := {}) .none none_caller
      (.maintain a.maintenanceDeadlineNs true)))
  | finishUpdateVerification =>
    exact .inr (.single (.authority (q := {}) .none none_caller
      (.maintain a.maintenanceDeadlineNs false)))
  | reset => exact .inr (reset_moves hwithin).1
  | world f => exact .inl ⟨f, rfl⟩

/-- The permit that allows everything but claims, which the session table decides. -/
def Permit.all : Permit ω := ⟨none, fun _ _ _ => True, True, True, True, True⟩

variable (env) in
theorem Op.within_all (op : Op ω) (s : Sys ω) : op.Within env .all s := by
  cases op with
  | handle | handleInternal => exact ⟨fun _ _ _ _ _ => trivial, fun _ _ => trivial⟩
  | _ => simp [Op.Within, Permit.all]

theorem Op.keeps {I : Sys ω → Prop} (hworld : ∀ s w, I s → I { s with world := w })
    (hstep : ∀ s s', SysStep env p s s' → Sound s.auth → I s → I s')
    (op : Op ω) {s : Sys ω} (hwithin : op.Within env p s) (hsound : Sound s.auth) (h : I s) :
    I (op.exec env s) := by
  obtain ⟨f, rfl⟩ | hpath := op.path hsound hwithin
  · exact hworld s _ h
  · exact (invariant_star (I := fun s => Sound s.auth ∧ I s)
      (fun a b hs hi => ⟨sysStep_sound hs hi.1, hstep a b hs hi.1 hi.2⟩) hpath ⟨hsound, h⟩).2

variable (env) in
theorem Op.sound (op : Op ω) {s : Sys ω} (h : Sound s.auth) :
    Sound (op.exec env s).auth :=
  op.keeps (I := fun s => Sound s.auth) (fun _ _ h => h)
    (fun _ _ hs h _ => sysStep_sound hs h) (op.within_all env s) h h

theorem sysStep_trace {s s' : Sys ω} (hstep : SysStep env p s s') : s.trace <:+ s'.trace := by
  cases hstep with
  | authority _ _ hstep => exact (step_frame hstep).trace
  | expire | remember => exact List.suffix_cons _ _
  | reset => exact (List.suffix_cons _ _).trans (List.suffix_cons _ _)
  | _ => exact List.suffix_rfl

theorem Op.trace (op : Op ω) {s : Sys ω} (hsound : Sound s.auth) :
    s.trace <:+ (op.exec env s).trace :=
  op.keeps (I := fun s' => s.trace <:+ s'.trace) (fun _ _ h => h)
    (fun _ _ hs _ h => h.trans (sysStep_trace hs)) (op.within_all env s) hsound
    List.suffix_rfl

/-- What a call other than `reset` needs. -/
def Permit.running : Permit ω := ⟨none, fun _ _ _ => True, True, True, True, False⟩

theorem Op.within_running {op : Op ω} (hreset : op ≠ .reset) (s : Sys ω) :
    op.Within env .running s := by
  cases op with
  | reset => exact absurd rfl hreset
  | handle | handleInternal => exact ⟨fun _ _ _ _ _ => trivial, fun _ _ => trivial⟩
  | _ => simp [Op.Within, Permit.running]

/-- What every step but a reset keeps, a run without `reset` keeps. -/
theorem run_unreset {I : Sys ω → Prop} (hworld : ∀ s w, I s → I { s with world := w })
    (hstep : ∀ s s', SysStep env .running s s' → Sound s.auth → I s → I s') (ops : List (Op ω))
    (hreset : .reset ∉ ops) {s : Sys ω} (hsound : Sound s.auth) (h : I s) :
    I (run env ops s) := by
  induction ops generalizing s with
  | nil => exact h
  | cons op ops ih =>
    rw [List.mem_cons, not_or] at hreset
    exact ih hreset.2 (op.sound _ hsound)
      (op.keeps hworld hstep (Op.within_running (Ne.symm hreset.1) s) hsound h)

variable (env) in
theorem run_trace (ops : List (Op ω)) {s : Sys ω} (hsound : Sound s.auth) :
    s.trace <:+ (run env ops s).trace := by
  induction ops generalizing s with
  | nil => exact List.suffix_rfl
  | cons op ops ih => exact (op.trace hsound).trans (ih (op.sound _ hsound))

/-! ## The commands of a trace -/

/-- Every prepared or started job of a trace satisfies `P` at its command. -/
def Admitted (P : Authority → Job → Prop) (t : List Event) : Prop :=
  ∀ x c job, .call x c ∈ t → c.admitted = some job → P x job

theorem Admitted.cons {P : Authority → Job → Prop} {e : Event} (h : Admitted P t)
    (he : ∀ x c job, e = .call x c → c.admitted = some job → P x job) : Admitted P (e :: t) := by
  intro x c job hmem hadmitted
  rcases List.mem_cons.1 hmem with hnew | hold
  · exact he x c job hnew.symm hadmitted
  · exact h x c job hold hadmitted

theorem Admitted.quiet {P : Authority → Job → Prop} {c : EngineCall} (h : Admitted P t)
    (x : Authority) (hc : c.admitted = none) : Admitted P (.call x c :: t) := by
  refine h.cons fun y c' job he hadmitted => ?_
  cases he
  simp [hc] at hadmitted

theorem step_admitted {P : Authority → Job → Prop} {s s' : AuthSys ω}
    (hstep : Step env p s s') (h : Admitted P s.trace)
    (hload : ∀ job, p.Loads s.auth s.world job → P s.auth job)
    (harm : ∀ job arm, Arms s.auth job arm → P (s.auth.armWith arm) job)
    (hlaunch : ∀ now arm job, p.Launches s.auth s.trace now arm job → P s.auth job) :
    Admitted P s'.trace := by
  cases hstep with
  | clock | abortAccepted => exact h.cons fun _ _ _ he => nomatch he
  | terminal x deadline | fault deadline =>
    exact (h.quiet _ rfl).cons fun _ _ _ he => nomatch he
  | quiet x hquiet => exact h.quiet x hquiet
  | refused hloads =>
    refine h.cons fun y c job he hadmitted => ?_
    cases he
    cases hadmitted
    exact hload _ hloads
  | load digest hloads =>
    refine h.cons fun y c job he hadmitted => ?_
    cases he
    cases hadmitted
    exact hload _ hloads
  | armLocally conditions harms =>
    refine h.cons fun y c job he hadmitted => ?_
    cases he
    cases hadmitted
    exact harm _ _ harms
  | launch hlaunches =>
    refine h.cons fun y c job he hadmitted => ?_
    cases he
    cases hadmitted
    exact hlaunch _ _ _ hlaunches
  | _ => exact h

theorem sysStep_admitted {P : Authority → Job → Prop} {s s' : Sys ω}
    (hstep : SysStep env p s s') (h : Admitted P s.trace)
    (hload : ∀ job, p.Loads s.auth s.world job → P s.auth job)
    (harm : ∀ job arm, Arms s.auth job arm → P (s.auth.armWith arm) job)
    (hlaunch : ∀ now arm job, p.Launches s.auth s.trace now arm job → P s.auth job) :
    Admitted P s'.trace := by
  cases hstep with
  | authority hp _ hstep =>
    refine step_admitted hstep h (fun job hloads => hload job ?_) harm fun now arm job hl => ?_
    · exact ⟨hloads.toLoadable, hp.load _ _ _ hloads.permit⟩
    · exact hlaunch now arm job ⟨hp.launch hl.permit, hl.state, hl.record, hl.held, hl.foreground,
        hl.clock, hl.due, hl.ok⟩
  | expire | remember => exact h.cons fun _ _ _ he => nomatch he
  | reset deadline => exact (h.quiet _ rfl).quiet _ rfl
  | _ => exact h

/-! ## The constructor -/

/-- The authority the constructor leaves. -/
def Authority.initial (config : ServiceConfig) (bootId : String) (ready : Bool) : Authority :=
  { config := config
    bootId := bootId
    ready := ready
    state := if ready then .empty else .failed }

/-- The stop that ends the constructor. A ready service follows a stop that the
engine accepted. -/
def Env.StartsIn (env : Env ω) (ready : Bool) (w w' : ω) : Prop :=
  ∃ deadline w₀, ReflTransGen env.Looks w w₀ ∧
    (ready = true → (env.engine.disable deadline w₀).1 = true) ∧
    ReflTransGen env.Observes (env.engine.disable deadline w₀).2 w'

variable (env) in
theorem start_cases (config : ServiceConfig) (bootId : String) (timeout : UInt64) (w : ω) :
    ∃ ready now x deadline w', (start env timeout
        { auth := { config := config, bootId := bootId }, world := w }).2 =
      ⟨⟨.initial config bootId ready, [.call x (.disable deadline), .clock now]⟩, w'⟩ ∧
      (ready = true → configurationValid config = true) ∧ env.StartsIn ready w w' := by
  unfold start
  rcases hs : env.snapshot w with ⟨now, w₂⟩
  have hlook : env.Looks w w₂ := by
    have hclock : env.Looks w (env.snapshot w).2 := .clock
    rwa [hs] at hclock
  obtain ⟨off, w₃, hstopped, hoff, hobserved⟩ := stoppedBy_eq env
    { config := config, bootId := bootId } [.clock now] w₂
    (saturatingAdd now.monotonicNowNs timeout)
  refine ⟨off && configurationValid config && validId bootId, now,
    { config := config, bootId := bootId }, saturatingAdd now.monotonicNowNs timeout, w₃, ?_,
    fun hready => ?_, _, w₂, .single hlook, fun hready => ?_, hobserved⟩
  · simp only [bind, StateT.bind, snapshot, hs]
    rw [hstopped]
    rfl
  · simp only [Bool.and_eq_true] at hready
    exact hready.1.2
  · simp only [Bool.and_eq_true] at hready
    exact hoff hready.1.1

variable (env) in
theorem construct_cases (config : ServiceConfig) (w : ω) :
    ∃ config' bootId ready now x deadline w',
      construct env config w = ⟨⟨⟨.initial config' bootId ready,
        [.call x (.disable deadline), .clock now]⟩, w'⟩, {}⟩ ∧
      (ready = true → configurationValid config' = true) ∧ env.StartsIn ready w w' := by
  unfold construct
  rcases hb : env.newBootId w with ⟨bootId, w₁⟩
  have hboot : env.Looks w w₁ := by
    have hquery : env.Looks w (env.newBootId w).2 := .observe .newBootId
    rwa [hb] at hquery
  simp only
  obtain ⟨ready, now, x, deadline, w', h, hready, deadline', w₀, hlooks, hstarts⟩ :=
    start_cases env (effectiveConfig (env.engine.amplifierLeadNs w₁)
      (env.engine.filterPreparationNs w₁) config) bootId _ w₁
  exact ⟨_, bootId, ready, now, x, deadline, w', by rw [h], hready, deadline', w₀,
    .head hboot hlooks, hstarts⟩

theorem sound_initial (config : ServiceConfig) (bootId : String) (ready : Bool) :
    Sound (.initial config bootId ready) := by
  constructor
  · cases ready
    · exact ⟨by simp [Authority.initial], by simp [Authority.initial], by simp [Authority.initial],
        by simp [Authority.initial], fun _ => rfl⟩
    · exact ⟨by simp [Authority.initial], by simp [Authority.initial], by simp [Authority.initial],
        fun _ => ⟨rfl, rfl⟩, by simp [Authority.initial]⟩
  · exact ⟨rfl, List.nodup_nil, Nat.zero_le _, by simp [Authority.initial]⟩

theorem sound_construct (config : ServiceConfig) (w : ω) : Sound (construct env config w).auth := by
  obtain ⟨config', bootId, ready, now, x, deadline, w', h, -⟩ := construct_cases env config w
  rw [h]
  exact sound_initial config' bootId ready

theorem run_keeps {I : Sys ω → Prop} (hworld : ∀ s w, I s → I { s with world := w })
    (hstep : ∀ s s', SysStep env .all s s' → Sound s.auth → I s → I s') (ops : List (Op ω))
    (config : ServiceConfig) (w : ω) (h : I (construct env config w)) :
    I (run env ops (construct env config w)) :=
  (run_invariant (I := fun s => Sound s.auth ∧ I s)
    (fun op s h => ⟨op.sound _ h.1, op.keeps hworld hstep (op.within_all _ s) h.1 h.2⟩) ops
    ⟨sound_construct config w, h⟩).2

theorem run_sound (ops : List (Op ω)) (config : ServiceConfig)
    (w : ω) : Sound (run env ops (construct env config w)).auth :=
  run_keeps (I := fun s => Sound s.auth) (fun _ _ h => h) (fun _ _ hs h _ => sysStep_sound hs h)
    ops config w (sound_construct config w)

end WsprryPico.Wtp
