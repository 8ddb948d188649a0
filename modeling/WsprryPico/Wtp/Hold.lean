import WsprryPico.Wtp.Refused

/-!
# The maintenance hold

While a maintenance hold is on, nothing is held and no job reaches the engine. The hold is no
state of the service: it is read at the entry of each request, at a snapshot of its own. What is
said here of a trace is said of its events up to the first reading that is not before the
deadline.
-/

namespace WsprryPico.Wtp

open Lib Relation AuthM SysM

variable {ω α β : Type} {env : Env ω} {a : Authority} {d : UInt64} {t t₀ : List Event}

/-- No reading of the trace has reached the deadline. -/
def Early (d : UInt64) (t : List Event) : Prop := ∀ n ∈ clocks t, n < d

/-- No job is prepared or started before a reading reaches the deadline. -/
def Calm (d : UInt64) (t : List Event) : Prop :=
  ∀ later x c earlier, t = later ++ .call x c :: earlier → Early d earlier → c.admitted = none

/-- Nothing is held, under a hold up to the deadline. -/
structure Vacant (d : UInt64) (a : Authority) : Prop where
  state : a.state = .empty
  owner : a.owner = none
  job : a.job = none
  ready : a.ready = true
  deadline : a.maintenanceDeadlineNs = d

theorem Calm.nil : Calm d [] := by
  intro later x c earlier h
  simp at h

theorem Calm.cons {e : Event} (h : Calm d t) (he : ∀ x c, e = .call x c → Early d t →
    c.admitted = none) : Calm d (e :: t) := by
  intro later x c earlier heq hearly
  cases later with
  | nil =>
    obtain ⟨rfl, rfl⟩ := List.cons_eq_cons.mp heq
    exact he x c rfl hearly
  | cons y later =>
    obtain ⟨-, rfl⟩ := List.cons_eq_cons.mp heq
    exact h later x c earlier rfl hearly

/-- Behind a reading that has reached the deadline anything may follow. -/
theorem Calm.late {more : List Event} (h : Calm d t) (hlate : ¬ Early d t) :
    Calm d (more ++ t) := by
  induction more with
  | nil => exact h
  | cons e more ih =>
    refine ih.cons fun _ _ _ hearly => absurd (fun n hn => ?_) hlate
    refine hearly n ?_
    rw [clocks_append]
    exact List.mem_append_right _ hn

/-- What the trace has grown by is calm. -/
def Quieted (d : UInt64) (t₀ : List Event) (s : AuthSys ω) : Prop :=
  ∃ new, s.trace = new ++ t₀ ∧ Calm d new

/-- A reading since has reached the deadline. -/
def Over (d : UInt64) (t₀ : List Event) (s : AuthSys ω) : Prop :=
  ∃ new, s.trace = new ++ t₀ ∧ Calm d new ∧ ¬ Early d new

/-- The authority is vacant, and the trace is calm. -/
def Idling (d : UInt64) (t₀ : List Event) (s : AuthSys ω) : Prop :=
  Quieted d t₀ s ∧ Vacant d s.auth

def OnHold (d : UInt64) (t₀ : List Event) (s : AuthSys ω) : Prop :=
  Idling d t₀ s ∨ Over d t₀ s

theorem Over.grow {s s' : AuthSys ω} (h : Over d t₀ s) (ht : s.trace <:+ s'.trace) :
    Over d t₀ s' := by
  obtain ⟨new, hnew, hcalm, hlate⟩ := h
  obtain ⟨more, hmore⟩ := ht
  refine ⟨more ++ new, by rw [← hmore, hnew, List.append_assoc], hcalm.late hlate, ?_⟩
  intro hearly
  refine hlate fun n hn => hearly n ?_
  rw [clocks_append]
  exact List.mem_append_right _ hn

theorem Over.query {f : ω → α × ω} : Keeps (Over d t₀) (AuthM.query f) := fun _ h => h

theorem Over.modify {f : Authority → Authority} :
    Keeps (Over (ω := ω) d t₀) (modifyAuth f) := fun _ h => h

theorem Quieted.event {s : AuthSys ω} {e : Event} {a : Authority} {w : ω} (h : Quieted d t₀ s)
    (he : ∀ x c, e = .call x c → c.admitted = none) :
    Quieted d t₀ (⟨⟨a, e :: s.trace⟩, w⟩ : AuthSys ω) := by
  obtain ⟨new, hnew, hcalm⟩ := h
  exact ⟨e :: new, by rw [hnew]; rfl, hcalm.cons fun x c hx _ => he x c hx⟩

/-! ## Reads -/

/-- The authority is `a`, and the trace is calm. -/
def Rested (d : UInt64) (t₀ : List Event) (a : Authority) (s : AuthSys ω) : Prop :=
  Quieted d t₀ s ∧ s.auth = a

namespace Rested

theorem auth {k : Authority → AuthM ω β} {Q : β → AuthSys ω → Prop}
    (hk : Triple (Rested d t₀ a) (k a) Q) : Triple (Rested d t₀ a) (AuthM.auth >>= k) Q := by
  intro s hs
  have h := hk s hs
  rw [← hs.2] at h
  exact h

theorem command {c : EngineCall} {f : ω → α × ω} (hc : c.admitted = none) :
    Keeps (Rested d t₀ a) (AuthM.command c f) := by
  refine fun _ h => ⟨h.1.event ?_, h.2⟩
  rintro x c' ⟨⟩
  exact hc

theorem modify {f : Authority → Authority} :
    Triple (Rested (ω := ω) d t₀ a) (modifyAuth f) fun _ => Rested d t₀ (f a) :=
  fun _ h => ⟨h.1, congrArg f h.2⟩

theorem query {f : ω → α × ω} : Keeps (Rested d t₀ a) (AuthM.query f) := fun _ h => h

theorem snapshot : Keeps (Rested d t₀ a) (AuthM.snapshot env) :=
  fun _ h => ⟨h.1.event (by simp), h.2⟩

theorem reject (code : ErrorCode) : Keeps (Rested d t₀ a) (Wtp.reject env code) := fun _ h => h

theorem success : Keeps (Rested d t₀ a) (Wtp.success env) := fun _ h => h

theorem activity : Keeps (Rested d t₀ a) (Wtp.activity env) := by
  refine auth (Keeps.bind query fun active => Keeps.ite (fun _ => ?_) fun _ => Keeps.pure _)
  exact Keeps.bind query fun _ => Keeps.ite (fun _ => Keeps.pure _) fun _ => Keeps.pure _

theorem status (history : Bool) : Keeps (Rested d t₀ a) (Wtp.status env history) :=
  Keeps.bind activity fun _ => auth (Keeps.pure _)

theorem dispatch {request : Request} (howner : a.owner = none)
    (hgated : request.operation.gated = false) :
    Keeps (Rested d t₀ a) (Wtp.dispatch env request) := by
  refine Keeps.bind snapshot fun now => Keeps.ite (fun _ => reject _) fun _ => ?_
  refine Keeps.ite (fun _ => reject _) fun _ => Keeps.ite (fun _ => ?_) fun _ => ?_
  · unfold dispatchRead
    refine Keeps.ite (fun _ => reject _) fun _ => Keeps.ite (fun _ => reject _) fun _ => ?_
    refine Keeps.bind success fun _ => Keeps.bind ?_ fun _ => Keeps.pure _
    exact Keeps.ite (fun _ => Keeps.bind (status true) fun _ => Keeps.pure _) fun _ => Keeps.pure _
  · refine Keeps.ite (fun hclaim => ?_) fun _ => Keeps.ite (fun _ => reject _) fun _ => auth ?_
    · rw [hclaim] at hgated
      cases hgated
    · rw [howner]
      exact reject _

end Rested

/-! ## Entry -/

theorem expireResources_rested (howner : a.owner = none) (nowNs : UInt64) :
    Keeps (Rested d t₀ a) (expireResources env nowNs) := by
  refine Rested.auth ?_
  rw [howner]
  exact Keeps.pure _

theorem Vacant.prune {nowNs : UInt64} (h : Vacant d a) : Vacant d (a.pruneTerminals nowNs) := by
  obtain heq | ⟨hs, -⟩ := a.pruneTerminals_cases nowNs
  · rw [heq]
    exact ⟨h.state, h.owner, h.job, h.ready, h.deadline⟩
  · rcases hs with hs | hs | hs <;> exact absurd (h.state.symm.trans hs) (by decide)

theorem expire_idling (nowNs : UInt64) :
    Triple (fun s : Sys ω => Idling d t₀ s.toAuthSys) (expire env nowNs)
      fun _ s => Idling d t₀ s.toAuthSys := by
  rintro s ⟨hquiet, hvacant⟩
  have hexpired : Triple (fun s' : Sys ω => Rested d t₀ s.auth s'.toAuthSys) (expire env nowNs)
      fun _ s' => Rested d t₀ (s.auth.pruneTerminals nowNs) s'.toAuthSys := by
    unfold expire
    refine Triple.bind (onAuthority_triple (expireResources_rested hvacant.owner nowNs))
      fun _ => ?_
    refine Triple.bind (R := fun _ s' => Rested d t₀ s.auth s'.toAuthSys) (fun _ h => h) fun _ => ?_
    refine Triple.bind (R := fun _ s' => Rested d t₀ s.auth s'.toAuthSys) (fun _ h => h) fun _ => ?_
    refine Triple.bind (onAuthority_triple Rested.modify) fun _ => ?_
    exact fun s' h => ⟨h.1.event (by simp), h.2⟩
  obtain ⟨hquiet', hauth⟩ := hexpired s ⟨hquiet, rfl⟩
  refine ⟨hquiet', ?_⟩
  rw [hauth]
  exact hvacant.prune

theorem enter_idling : Triple (fun s : Sys ω => Idling d t₀ s.toAuthSys) (enter env)
    fun _ s => Idling d t₀ s.toAuthSys := by
  refine Triple.bind (R := fun _ s => Idling d t₀ s.toAuthSys) ?_ fun now => ?_
  · exact fun s h => ⟨h.1.event (by simp), h.2⟩
  · exact Triple.bind (expire_idling _) fun _ => Triple.pure fun _ h => h

/-! ## Requests -/

theorem Quieted.clock {s : AuthSys ω} {now : ClockSnapshot} {a : Authority} {w : ω}
    (h : Quieted d t₀ s) (hlate : d ≤ now.monotonicNowNs) :
    Over d t₀ (⟨⟨a, .clock now :: s.trace⟩, w⟩ : AuthSys ω) := by
  obtain ⟨new, hnew, hcalm⟩ := h
  refine ⟨.clock now :: new, by rw [hnew]; rfl, hcalm.cons (by simp), ?_⟩
  intro hearly
  have hlt := hearly now.monotonicNowNs (by simp [clocks])
  rw [UInt64.lt_iff_toNat_lt] at hlt
  rw [UInt64.le_iff_toNat_le] at hlate
  omega

/-- The hold stops the gated requests, or its deadline is reached. -/
theorem maintenance_rested (hd : a.maintenanceDeadlineNs = d) (hpos : d ≠ 0) :
    Triple (Rested d t₀ a) (maintenance env) fun held s =>
      Rested d t₀ a s ∧ (held = true ∨ Over d t₀ s) := by
  refine Rested.auth ?_
  refine Triple.ite (fun _ => Triple.pure fun _ h => ⟨h, Or.inl rfl⟩) fun _ => ?_
  refine Triple.ite (fun hzero => absurd (hd.symm.trans hzero) hpos) fun _ => ?_
  rintro s ⟨hquiet, hauth⟩
  refine ⟨Rested.snapshot s ⟨hquiet, hauth⟩, ?_⟩
  by_cases hlt : (env.snapshot s.world).1.monotonicNowNs < a.maintenanceDeadlineNs
  · exact Or.inl (decide_eq_true hlt)
  · exact Or.inr (hquiet.clock (hd ▸ UInt64.not_lt.mp hlt))

theorem blocked_rested (hd : a.maintenanceDeadlineNs = d) (hpos : d ≠ 0) :
    Triple (Rested d t₀ a) (blocked env) fun held s =>
      Rested d t₀ a s ∧ (held = true ∨ (Over d t₀ s ∧ a.outputInhibited = false)) := by
  refine Rested.auth (Triple.ite (fun _ => Triple.pure fun _ h => ⟨h, Or.inl rfl⟩) fun hfree => ?_)
  refine (maintenance_rested hd hpos).weaken fun held s h => ⟨h.1, h.2.imp id fun hover => ?_⟩
  exact ⟨hover, by simpa using hfree⟩

/-- Behind the entry test: the request is not gated, or the hold is over. -/
def Passing (d : UInt64) (t₀ : List Event) (a : Authority) (request : Request) (s : Sys ω) :
    Prop :=
  Rested d t₀ a s.toAuthSys ∧
    (request.operation.gated = false ∨ (Over d t₀ s.toAuthSys ∧ a.outputInhibited = false))

theorem Vacant.onHold {s : AuthSys ω} (h : Vacant d a) (hs : Rested d t₀ a s) : OnHold d t₀ s :=
  Or.inl ⟨hs.1, by rw [hs.2]; exact h⟩

theorem rejectWith_onHold (hvacant : Vacant d a) (code : ErrorCode) (close : Bool) :
    Triple (fun s : Sys ω => Rested d t₀ a s.toAuthSys) (rejectWith env code close)
      fun _ s => OnHold d t₀ s.toAuthSys :=
  fun _ h => hvacant.onHold h

theorem dispatch_onHold {request : Request} (hvacant : Vacant d a) :
    Triple (Passing (ω := ω) d t₀ a request) (onAuthority (dispatch env request))
      fun _ s => OnHold d t₀ s.toAuthSys := by
  rintro s ⟨hrested, hgated | ⟨hover, hfree⟩⟩
  · exact hvacant.onHold (Rested.dispatch hvacant.owner hgated s.toAuthSys hrested)
  · obtain ⟨⟨⟨b, t⟩, w⟩, tr⟩ := s
    obtain rfl : b = a := hrested.2
    have hcovers : Permit.Covers
        ⟨some (request.sessionId, request.principal), fun _ _ _ => True, True, True, True, True⟩
        env b w request :=
      ⟨fun _ => rfl, fun _ => hfree, fun _ _ _ _ => trivial, fun _ => trivial⟩
    have hframe := (dispatch_goes (t := t) request hcovers).framed.2.2
    exact Or.inr (hover.grow hframe.trace)

theorem OnHold.event {s : AuthSys ω} {e : Event} (h : OnHold d t₀ s)
    (he : ∀ x c, e = .call x c → c.admitted = none) :
    OnHold d t₀ (⟨⟨s.auth, e :: s.trace⟩, s.world⟩ : AuthSys ω) := by
  obtain ⟨hquiet, hvacant⟩ | hover := h
  · exact Or.inl ⟨hquiet.event he, hvacant⟩
  · exact Or.inr (hover.grow (List.suffix_cons _ _))

theorem retain_onHold {retainResponse : Bool} {request : Request} {response : Response}
    {nowNs : UInt64} :
    Keeps (fun s : Sys ω => OnHold d t₀ s.toAuthSys)
      (retain retainResponse request response nowNs) := by
  intro s h
  cases retainResponse with
  | false => exact h
  | true => exact h.event (by simp)

theorem respond_onHold (hpos : d ≠ 0) (hvacant : Vacant d a) (request : Request)
    (retainResponse : Bool) (now : ClockSnapshot) :
    Triple (fun s : Sys ω => Rested d t₀ a s.toAuthSys) (respond env request retainResponse now)
      fun _ s => OnHold d t₀ s.toAuthSys := by
  refine Triple.bind (R := fun _ s => Rested d t₀ a s.toAuthSys) (fun _ h => h) fun _ => ?_
  refine Triple.ite (fun _ => rejectWith_onHold hvacant _ _) fun _ => ?_
  split
  · exact rejectWith_onHold hvacant _ _
  refine Triple.bind (onAuthority_triple (blocked_rested hvacant.deadline hpos)) fun held => ?_
  refine Triple.ite (fun _ => ?_) fun hgate => ?_
  · exact (rejectWith_onHold hvacant _ _).strengthen fun _ h => h.1
  have hpassing : ∀ s : Sys ω, (Rested d t₀ a s.toAuthSys ∧
      (held = true ∨ (Over d t₀ s.toAuthSys ∧ a.outputInhibited = false))) →
      Passing d t₀ a request s := by
    rintro s ⟨hs, rfl | hover⟩
    · exact ⟨hs, Or.inl (by simpa using hgate)⟩
    · exact ⟨hs, Or.inr hover⟩
  refine Triple.strengthen ?_ hpassing
  refine Triple.bind (R := fun _ => Passing d t₀ a request) (fun _ h => h) fun t => ?_
  split
  · exact (rejectWith_onHold hvacant _ _).strengthen fun _ h => h.1
  refine Triple.bind (R := fun _ => Passing d t₀ a request) (fun _ h => h) fun _ => ?_
  refine Triple.bind (R := fun _ => Passing d t₀ a request) (fun _ h => h) fun _ => ?_
  split
  · exact Triple.pure fun _ h => hvacant.onHold h.1
  · exact (rejectWith_onHold hvacant _ _).strengthen fun _ h => h.1
  · refine Triple.bind (dispatch_onHold hvacant) fun r => ?_
    refine Triple.bind (R := fun _ s => OnHold d t₀ s.toAuthSys) ?_ fun _ => Triple.pure fun _ h => h
    exact retain_onHold

theorem handleOwned_onHold (hpos : d ≠ 0) (request : Request) (retainResponse : Bool) :
    Triple (fun s : Sys ω => Idling d t₀ s.toAuthSys) (handleOwned env request retainResponse)
      fun _ s => OnHold d t₀ s.toAuthSys := by
  refine Triple.bind enter_idling fun now => ?_
  intro s hs
  exact respond_onHold hpos hs.2 request retainResponse now s ⟨hs.1, rfl⟩

/-! ## Polling and local controls -/

theorem poll_idling : Triple (fun s : Sys ω => Idling d t₀ s.toAuthSys) (poll env)
    fun _ s => Idling d t₀ s.toAuthSys := by
  refine Triple.bind enter_idling fun now => ?_
  refine onAuthority_triple fun s hs => ?_
  unfold advance auth
  simp only [StateT.bind, bind, hs.2.state]
  exact hs

theorem Vacant.idling {s : AuthSys ω} (h : Vacant d a) (hs : Rested d t₀ a s) : Idling d t₀ s :=
  ⟨hs.1, by rw [hs.2]; exact h⟩

theorem dropOwner_rested (howner : a.owner = none) :
    Keeps (Rested d t₀ a) (dropOwner env) := by
  have hsame : { a with owner := none } = a := by rw [← howner]
  refine Triple.bind Rested.modify fun _ => ?_
  rw [hsame]
  exact Rested.command rfl

theorem localAbortHeld_rested (hvacant : Vacant d a) :
    Keeps (Rested d t₀ a) (localAbortHeld env) := by
  refine Rested.auth (Keeps.ite (fun _ => Rested.reject _) fun _ => ?_)
  refine Keeps.bind ?_ fun response => Keeps.ite (fun _ => ?_) fun _ => Keeps.pure _
  · unfold abortHeld
    refine Rested.auth ?_
    rw [hvacant.job]
    exact Keeps.bind Rested.query fun _ => Keeps.ite (fun _ => Rested.reject _) fun _ =>
      Rested.success
  · exact Keeps.bind (dropOwner_rested hvacant.owner) fun _ => Keeps.pure _

theorem localAbortHeld_idling :
    Triple (Idling (ω := ω) d t₀) (localAbortHeld env) fun _ => Idling d t₀ :=
  fun s hs => hs.2.idling (localAbortHeld_rested hs.2 s ⟨hs.1, rfl⟩)

theorem localAbort_idling : Triple (fun s : Sys ω => Idling d t₀ s.toAuthSys) (localAbort env)
    fun _ s => Idling d t₀ s.toAuthSys := by
  exact Triple.bind poll_idling fun _ => onAuthority_triple localAbortHeld_idling

theorem localInhibitOutput_idling :
    Triple (fun s : Sys ω => Idling d t₀ s.toAuthSys) (localInhibitOutput env)
      fun _ s => Idling d t₀ s.toAuthSys := by
  have hset : ∀ {a : Authority}, Vacant d a → Vacant d { a with outputInhibited := true } :=
    fun h => ⟨h.state, h.owner, h.job, h.ready, h.deadline⟩
  refine Triple.bind (R := fun _ s => Idling d t₀ s.toAuthSys) (fun s h => ⟨h.1, hset h.2⟩)
    fun _ => ?_
  refine Triple.bind (R := fun _ s => Idling d t₀ s.toAuthSys)
    (fun s h => ⟨h.1.event (by simp [EngineCall.admitted, EngineCall.launched]), h.2⟩) fun _ => ?_
  refine Triple.bind localAbort_idling fun _ => ?_
  refine Triple.bind (R := fun _ s => Idling d t₀ s.toAuthSys)
    (fun s h => ⟨h.1.event (by simp), h.2⟩) fun now => ?_
  refine Triple.bind (R := fun _ s => Idling d t₀ s.toAuthSys) (fun _ h => h) fun _ => ?_
  refine Triple.bind (R := fun _ s => Idling d t₀ s.toAuthSys)
    (fun s h => ⟨h.1.event (by simp [EngineCall.admitted, EngineCall.launched]), h.2⟩) fun _ => ?_
  refine Triple.bind (R := fun _ s => Idling d t₀ s.toAuthSys) ?_ fun _ => Triple.pure fun _ h => h
  exact fun s h => h.2.idling (Rested.activity s.toAuthSys ⟨h.1, rfl⟩)

/-- A second hold is refused while the first is on. -/
theorem beginMaintenance_onHold (hpos : d ≠ 0) :
    Triple (Idling (ω := ω) d t₀) (beginMaintenance env) fun _ => OnHold d t₀ := by
  rintro s ⟨hquiet, hvacant⟩
  have hdone : ∀ b, Triple (Rested (ω := ω) d t₀ s.auth) (pure b : AuthM ω Bool)
      fun _ => OnHold d t₀ := fun _ => Triple.pure fun _ h => hvacant.onHold h
  have hbegin : Triple (Rested d t₀ s.auth) (beginMaintenance env) fun _ => OnHold d t₀ := by
    refine Triple.bind (R := fun _ => Rested d t₀ s.auth)
      (fun _ h => ⟨h.1.event (by simp), h.2⟩) fun now => Rested.auth ?_
    refine Triple.ite (fun _ => hdone _) fun _ => ?_
    refine Triple.bind (maintenance_rested hvacant.deadline hpos) fun held => ?_
    cases held with
    | true => exact (hdone _).strengthen fun _ h => h.1
    | false =>
      refine Triple.strengthen (P := Over d t₀) ?_ fun _ h => h.2.resolve_left (by simp)
      refine Triple.weaken (Q := fun _ => Over d t₀) ?_ fun _ _ h => Or.inr h
      refine Keeps.ite (fun _ => Keeps.pure _) fun _ => Keeps.ite (fun _ => Keeps.pure _) fun _ => ?_
      refine Keeps.bind Over.query fun active => Keeps.ite (fun _ => Keeps.pure _) fun _ => ?_
      exact Keeps.ite (fun _ => Keeps.pure _) fun _ => Keeps.bind Over.modify fun _ => Keeps.pure _
  exact hbegin s ⟨hquiet, rfl⟩

/-! ## Runs -/

/-- The call ends no hold. -/
def Op.Keeps (op : Op ω) : Prop := op ≠ .endMaintenance ∧ op ≠ .reset

theorem op_onHold (hpos : d ≠ 0) {op : Op ω} (hop : op.Keeps) {s : Sys ω} (hsound : Sound s.auth)
    (h : OnHold d t₀ s.toAuthSys) : OnHold d t₀ (op.exec env s).toAuthSys := by
  obtain hidling | hover := h
  · cases op with
    | handle request => exact handleOwned_onHold hpos request true s hidling
    | handleInternal request => exact handleOwned_onHold hpos request false s hidling
    | poll => exact Or.inl (poll_idling s hidling)
    | localAbort => exact Or.inl (localAbort_idling s hidling)
    | localInhibitOutput => exact Or.inl (localInhibitOutput_idling s hidling)
    | beginMaintenance => exact beginMaintenance_onHold hpos s.toAuthSys hidling
    | holdUpdateVerification | finishUpdateVerification =>
      obtain ⟨hquiet, hvacant⟩ := hidling
      exact Or.inl ⟨hquiet, hvacant.state, hvacant.owner, hvacant.job, hvacant.ready,
        hvacant.deadline⟩
    | world f => exact Or.inl hidling
    | endMaintenance => exact absurd rfl hop.1
    | reset => exact absurd rfl hop.2
  · exact Or.inr (hover.grow (op.trace hsound))

theorem run_onHold (hpos : d ≠ 0) (ops : List (Op ω)) (hops : ∀ op ∈ ops, op.Keeps) {s : Sys ω}
    (hsound : Sound s.auth) (h : OnHold d t₀ s.toAuthSys) :
    OnHold d t₀ (run env ops s).toAuthSys := by
  induction ops generalizing s with
  | nil => exact h
  | cons op ops ih =>
    rw [List.forall_mem_cons] at hops
    exact ih hops.2 (op.sound _ hsound) (op_onHold hpos hops.1 hsound h)

theorem maintenance_stands : Keeps (Stands a) (maintenance env) := by
  refine Stands.auth (Keeps.ite (fun _ => Keeps.pure _) fun _ => ?_)
  exact Keeps.ite (fun _ => Keeps.pure _) fun _ => Stands.snapshot fun _ => Keeps.pure _

theorem begin_refused {P : AuthSys ω → Prop} {Q : AuthSys ω → Prop} :
    Triple P (pure false : AuthM ω Bool) fun begun s => begun = true → Q s :=
  Triple.pure fun _ _ h => by cases h

theorem hold_deadline {now : UInt64} (h : ¬ now > u64Max - 15000000000) :
    (now + 15000000000).toNat = now.toNat + 15000000000 := by
  have hle : now.toNat ≤ (u64Max - 15000000000).toNat := UInt64.le_iff_toNat_le.mp (by
    simpa using h)
  have hmax : (u64Max - 15000000000).toNat = 18446744073709551615 - 15000000000 := by decide
  rw [UInt64.toNat_add]
  have hfifteen : (15000000000 : UInt64).toNat = 15000000000 := by decide
  omega

theorem beginMaintenance_begins {s : AuthSys ω} (hheld : Held s.auth) :
    Triple (· = s) (beginMaintenance env) fun begun s' => begun = true →
      s'.auth.maintenanceDeadlineNs.toNat =
          (env.snapshot s.world).1.monotonicNowNs.toNat + 15000000000 ∧
        Vacant s'.auth.maintenanceDeadlineNs s'.auth := by
  refine Triple.bind (R := fun x s' => x = (env.snapshot s.world).1 ∧ Stands s.auth s')
    (fun _ h => h ▸ ⟨rfl, rfl⟩) fun x => ?_
  by_cases hx : x = (env.snapshot s.world).1
  case neg => exact fun _ h => absurd h.1 hx
  rw [← hx]
  generalize x.monotonicNowNs = now
  refine Triple.strengthen (P := Stands s.auth) (Stands.auth ?_) fun _ h => h.2
  refine Triple.ite (fun _ => begin_refused) fun hopen => ?_
  refine Triple.bind maintenance_stands fun held => Triple.ite (fun _ => begin_refused) fun _ => ?_
  refine Triple.ite (fun _ => begin_refused) fun hfree => Stands.outputActive fun active => ?_
  refine Triple.ite (fun _ => begin_refused) fun _ => ?_
  refine Triple.ite (fun _ => begin_refused) fun hend => ?_
  simp only [not_or, Bool.not_eq_true, Option.isSome_eq_false_iff, Option.isNone_iff_eq_none,
    ne_eq, Bool.or_eq_true, Bool.not_eq_true', Bool.not_eq_false] at hopen hfree
  have hstate : s.auth.state = .empty := by simpa using hfree.2
  refine Stands.modify (Triple.pure ?_)
  rintro s' hauth -
  rw [hauth]
  exact ⟨hold_deadline hend, hstate, hfree.1, (hheld.empty hstate).1, hopen.1, rfl⟩

/-- From its begin on, a hold keeps the transmitter free up to its deadline. -/
theorem maintenance_hold (before after : List (Op ω)) (config : ServiceConfig) (w : ω) :
    let s := run env before (construct env config w)
    let s' := Op.exec env .beginMaintenance s
    let d := s'.auth.maintenanceDeadlineNs
    (beginMaintenance env s.toAuthSys).1 = true → (∀ op ∈ after, op.Keeps) →
      d.toNat = (env.snapshot s.world).1.monotonicNowNs.toNat + 15000000000 ∧
      ∃ more, (run env after s').trace = more ++ s'.trace ∧
        (∀ later x c earlier, more = later ++ .call x c :: earlier → Early d earlier →
          c.admitted = none) ∧
        (Early d more → (run env after s').auth.state = .empty ∧
          (run env after s').auth.owner = none ∧ (run env after s').auth.job = none) := by
  intro s s' d hbegin hafter
  have hsound : Sound s.auth := run_sound before config w
  obtain ⟨hdeadline, hvacant⟩ := beginMaintenance_begins hsound.held s.toAuthSys rfl hbegin
  refine ⟨hdeadline, ?_⟩
  have hpos : d ≠ 0 := by
    intro hzero
    have hd : d.toNat = _ + 15000000000 := hdeadline
    rw [hzero] at hd
    simp at hd
  have hstart : OnHold d s'.trace s'.toAuthSys := Or.inl ⟨⟨[], rfl, Calm.nil⟩, hvacant⟩
  obtain ⟨⟨more, hmore, hcalm⟩, hvacant'⟩ | ⟨more, hmore, hcalm, hlate⟩ :=
    run_onHold hpos after hafter (Op.sound env .beginMaintenance hsound) hstart
  · exact ⟨more, hmore, hcalm, fun _ => ⟨hvacant'.state, hvacant'.owner, hvacant'.job⟩⟩
  · exact ⟨more, hmore, hcalm, fun hearly => absurd hearly hlate⟩

/-- Under a hold a job is refused, and asked again once its clock has passed, loaded. -/
def benchHold : List (Op ClockSnapshot) :=
  benchArm.take 3 ++ [.poll, .world fun _ => benchClock 17000000000] ++ benchArm.take 3

theorem maintenance_hold_bench :
    let s' := Op.exec bench .beginMaintenance (construct bench {} (benchClock 1000000000))
    s'.auth.maintenanceDeadlineNs.toNat = 16000000000 ∧
      ∃ more, (run bench benchHold s').trace = more ++ s'.trace ∧
        (∀ later x c earlier, more = later ++ .call x c :: earlier →
          Early s'.auth.maintenanceDeadlineNs earlier → c.admitted = none) ∧
        (Early s'.auth.maintenanceDeadlineNs more → (run bench benchHold s').auth.state = .empty ∧
          (run bench benchHold s').auth.owner = none ∧
          (run bench benchHold s').auth.job = none) := by
  have hkeeps : ∀ op ∈ benchHold, op.Keeps := by simp [benchHold, benchArm, Op.Keeps]
  have hbegin : (beginMaintenance bench (construct bench {} (benchClock 1000000000)).toAuthSys).1 =
      true := by decide +kernel
  obtain ⟨hdeadline, hheld⟩ :=
    maintenance_hold [] benchHold {} (benchClock 1000000000) hbegin hkeeps
  exact ⟨hdeadline.trans (by decide +kernel), hheld⟩

end WsprryPico.Wtp
