import WsprryPico.Wtp.Run

/-!
# The lifecycle invariant of the service

The authority part is `Held`. `Table` adds the session table: session ids are
unique, and an owner's session stays in the table under the owner's principal,
because the table is pruned by age only where no owner is. Together they hold
in every reachable state, and a failed service stays failed until `reset`.
-/

namespace WsprryPico.Wtp

open Lib Relation

variable {ω : Type} {env : Env ω} {p : Permit ω}

/-! ## The session table -/

def Transport.sessionIds (t : Transport) : List String := t.sessions.map (·.sessionId)

theorem map_seen (nowNs : UInt64) (sessionId : String) (sessions : List Session) :
    (Transport.seen nowNs sessionId sessions).map (fun s => (s.sessionId, s.principal)) =
      sessions.map fun s => (s.sessionId, s.principal) := by
  induction sessions with
  | nil => rfl
  | cons s rest ih =>
    unfold Transport.seen
    split
    · rfl
    · rw [List.map_cons, List.map_cons, ih]

theorem knows_iff {t : Transport} {sessionId principal : String} :
    t.Knows sessionId principal ↔
      (sessionId, principal) ∈ t.sessions.map fun s => (s.sessionId, s.principal) := by
  unfold Transport.Knows
  simp

theorem ids_of_pairs {l m : List Session}
    (h : l.map (fun s => (s.sessionId, s.principal)) = m.map fun s => (s.sessionId, s.principal)) :
    l.map (·.sessionId) = m.map (·.sessionId) := by
  have h' := congrArg (List.map Prod.fst) h
  simpa [List.map_map, Function.comp_def] using h'

structure Table (s : Sys ω) : Prop where
  nodup : s.transport.sessionIds.Nodup
  owner : ∀ owner, s.auth.owner = some owner → s.transport.Knows owner.sessionId owner.principal

/-- The owner after a step is the one before it, or the permitted caller. -/
theorem step_owner {s s' : AuthSys ω} (hstep : Step env p s s') {owner : Owner}
    (h : s'.auth.owner = some owner) :
    (∃ owner₀, s.auth.owner = some owner₀ ∧ owner₀.sessionId = owner.sessionId ∧
      owner₀.principal = owner.principal) ∨
    p.caller = some (owner.sessionId, owner.principal) := by
  cases hstep with
  | @lease a t w owner₀ owner' howner hsession hprincipal =>
    obtain rfl : owner' = owner := Option.some.inj h
    exact .inl ⟨owner₀, howner, hsession.symm, hprincipal.symm⟩
  | drop => exact nomatch h
  | @claim a t w owner' hcaller =>
    obtain rfl : owner' = owner := Option.some.inj h
    exact .inr hcaller
  | terminal x deadline state error nowNs active loadActive =>
    rw [Authority.terminal_eq] at h
    exact .inl ⟨owner, h, rfl, rfl⟩
  | fault deadline error nowNs active loadActive =>
    rw [Authority.terminal_eq] at h
    exact .inl ⟨owner, h, rfl, rfl⟩
  | @prune a t w nowNs =>
    exact .inl ⟨owner, (a.pruneTerminals_owner nowNs).symm.trans h, rfl, rfl⟩
  | _ => exact .inl ⟨owner, h, rfl, rfl⟩

theorem nodup_admitted {t t' : Transport} {request : Request} {nowNs : UInt64}
    (h : admitSession request nowNs t = .ok t') (hn : t.sessionIds.Nodup) :
    t'.sessionIds.Nodup := by
  obtain ⟨s, -, -, rfl⟩ | ⟨hnone, -, rfl⟩ := admitSession_cases h
  · unfold Transport.sessionIds at hn ⊢
    rwa [ids_of_pairs (map_seen nowNs request.sessionId t.sessions)]
  · unfold Transport.sessionIds at hn ⊢
    rw [List.map_append, List.nodup_append]
    refine ⟨hn, by simp, fun id hid id' hid' he => ?_⟩
    obtain ⟨s, hs, rfl⟩ := List.mem_map.1 hid
    have hne := List.find?_eq_none.1 hnone s hs
    simp_all

theorem knows_admit {t t' : Transport} {request : Request} {nowNs : UInt64}
    (h : admitSession request nowNs t = .ok t') {sessionId principal : String}
    (hk : t.Knows sessionId principal) : t'.Knows sessionId principal := by
  obtain ⟨s, -, -, rfl⟩ | ⟨-, -, rfl⟩ := admitSession_cases h
  · rw [knows_iff] at hk ⊢
    rwa [map_seen]
  · obtain ⟨s, hs, hid, hp⟩ := hk
    exact ⟨s, List.mem_append_left _ hs, hid, hp⟩

theorem replay_sessions (request : Request) (t : Transport) :
    (Transport.replay request t).2.sessions = t.sessions := by
  unfold Transport.replay
  split
  · rfl
  · split <;> rfl

theorem sysStep_table {s s' : Sys ω} (hstep : SysStep env p s s') (h : Table s) : Table s' := by
  cases hstep with
  | authority _ hcaller hstep =>
    refine ⟨h.nodup, fun owner howner => ?_⟩
    obtain ⟨owner₀, howner₀, hsession, hprincipal⟩ | hpermit := step_owner hstep howner
    · rw [← hsession, ← hprincipal]
      exact h.owner owner₀ howner₀
    · exact hcaller _ hpermit
  | @expire a t w tr now =>
    refine ⟨?_, fun owner howner => ?_⟩
    · exact (List.filter_sublist.map Session.sessionId).nodup h.nodup
    · obtain ⟨session, hmem, hid, hprincipal⟩ := h.owner owner howner
      have howner' : a.owner = some owner := howner
      refine ⟨session, List.mem_filter.2 ⟨hmem, ?_⟩, hid, hprincipal⟩
      simp [howner', hid]
  | admission request hnow hadmitted =>
    exact ⟨nodup_admitted hadmitted h.nodup,
      fun owner howner => knows_admit hadmitted (h.owner owner howner)⟩
  | @replayed s tr request =>
    refine ⟨?_, fun owner howner => ?_⟩
    · unfold Transport.sessionIds
      rw [replay_sessions]
      exact h.nodup
    · unfold Transport.Knows
      rw [replay_sessions]
      exact h.owner owner howner
  | remember response hready hnow hretains => exact ⟨h.nodup, h.owner⟩
  | reset => exact ⟨List.nodup_nil, fun owner howner => nomatch howner⟩

theorem run_table (ops : List (Op ω)) (config : ServiceConfig)
    (w : ω) : Table (run env ops (construct env config w)) := by
  refine run_keeps (I := Table) (fun _ _ h => ⟨h.nodup, h.owner⟩)
    (fun _ _ hs _ h => sysStep_table hs h) ops config w ?_
  obtain ⟨config', bootId, ready, now, x, deadline, w', h, -⟩ :=
    construct_cases env config w
  rw [h]
  exact ⟨List.nodup_nil, fun owner howner => nomatch howner⟩

theorem Table.findKnown {s : Sys ω} (h : Table s) {sessionId principal : String}
    (hknows : s.transport.Knows sessionId principal) :
    ∃ session, s.transport.findSession sessionId = some session ∧
      session.principal = principal := by
  obtain ⟨session, hmem, hid, hprincipal⟩ := hknows
  cases hfind : s.transport.findSession sessionId with
  | none =>
    have := List.find?_eq_none.1 hfind session hmem
    simp [hid] at this
  | some found =>
    have hid' : found.sessionId = sessionId := by simpa using List.find?_some hfind
    have hinj := List.inj_on_of_nodup_map h.nodup
    obtain rfl := hinj (List.mem_of_find?_eq_some hfind) hmem (hid'.trans hid.symm)
    exact ⟨found, rfl, hprincipal⟩

/-! ## Failed stays failed -/

theorem run_failed (ops : List (Op ω)) {s : Sys ω}
    (hsound : Sound s.auth) (hreset : .reset ∉ ops) (h : s.auth.state = .failed) :
    (run env ops s).auth.state = .failed := by
  refine run_unreset (I := fun s => s.auth.state = .failed) (fun _ _ h => h)
    (fun _ _ hs _ hf => ?_) ops hreset hsound h
  cases hs with
  | authority _ _ hstep => exact step_failed hstep hf
  | reset deadline bootId ready hp => exact absurd hp id
  | _ => exact hf

/-- The state invariant of the service. -/
theorem lifecycle (ops : List (Op ω)) (config : ServiceConfig)
    (w : ω) :
    let s := run env ops (construct env config w)
    (s.auth.state = .loaded ∨ s.auth.state = .armed ∨ s.auth.state = .running →
      s.auth.job.isSome ∧ s.auth.owner.isSome) ∧
    (s.auth.state = .armed ∨ s.auth.state = .running → s.auth.arm.isSome) ∧
    (s.auth.state = .loaded → s.auth.arm = none) ∧
    (s.auth.state = .empty → s.auth.job = none ∧ s.auth.arm = none) ∧
    (∀ owner, s.auth.owner = some owner →
      ∃ session, s.transport.findSession owner.sessionId = some session ∧
        session.principal = owner.principal) ∧
    (s.auth.ready = false → s.auth.state = .failed) ∧
    (s.auth.state = .failed → ∀ later : List (Op ω), .reset ∉ later →
      (run env later s).auth.state = .failed) := by
  intro s
  have hsound : Sound s.auth := run_sound ops config w
  have htable : Table s := run_table ops config w
  exact ⟨hsound.held.job, hsound.held.arm, hsound.held.unarmed, hsound.held.empty,
    fun owner howner => htable.findKnown (htable.owner owner howner), hsound.held.ready,
    fun hfailed later hreset => run_failed later hsound hreset hfailed⟩

end WsprryPico.Wtp
