import WsprryPico.Provisioning.ManagerSpec

/-!
# Calls of other callers

A call that is not an authorized one of the session's own principal and transport leaves
the session and the stored profile alone, unless its request id is that of a retained reply
to a different request: then the session ends, whoever calls.
-/

namespace WsprryPico.Provisioning

open Lib
open Wtp.Json (Bytes)
open Manager

namespace Manager

variable {p : Parsers} {a : Answers} {m : Manager} {log : List ManagerEvent} {call : ManagerCall}
  {r : ManagerRequest} {session : Session}

/-- Not an authorized call of the principal and the transport of the session. -/
def Foreign (call : ManagerCall) (session : Session) : Prop :=
  ∀ r, call.request = some r →
    r.authorization.valid = false ∨ r.authorization.principal ≠ session.principal ∨
      r.transport ≠ session.transport

/-- The request id of the call has a retained reply, to another request. -/
def Clashes (call : ManagerCall) (m : Manager) : Prop :=
  ∃ r, call.request = some r ∧
    ∃ entry ∈ m.retained r.now, entry.requestId = r.requestId ∧ entry.digest ≠ r.digest

/-- The session, the state and the stored profile are as they were. -/
structure Undisturbed (before after : Manager) : Prop where
  session : after.session = before.session
  state : after.state = before.state
  store : after.store = before.store
  media : after.media = before.media

theorem withSession_foreign {sessionId : Bytes} {transport : Transport}
    {authorization : Authorization} {body : Session → Manager → Reply × Manager}
    (hsession : m.session = some session)
    (hforeign : authorization.valid = false ∨ authorization.principal ≠ session.principal ∨
      transport ≠ session.transport) :
    Refused m (m.withSession sessionId transport authorization body) := by
  rcases withSession_cases sessionId transport authorization body m with
    h | ⟨s, hs, -, htransport, hprincipal, hvalid, -⟩
  · exact h
  · obtain rfl : session = s := Option.some.inj (hsession.symm.trans hs)
    rcases hforeign with h | h | h
    · exact absurd hvalid (by simp [h])
    · exact absurd hprincipal.symm h
    · exact absurd htransport.symm h

/-- The body of a foreign call refuses it, and so does that of any other opening. -/
theorem body_foreign (hrequest : call.request = some r) (hsession : m.session = some session)
    (hforeign : Foreign call session) : Refused m (call.body p a m) := by
  have hcaller := hforeign r hrequest
  cases call with
  | «open» _ sessionId requestedDevice transport authorization now =>
    rcases openBody_cases sessionId requestedDevice transport authorization now m with
      h | ⟨-, hnone, -, -⟩
    · exact h
    · exact absurd (hsession.symm.trans hnone) nofun
  | write | apply | cancel =>
    cases hrequest
    exact withSession_foreign hsession hcaller
  | releaseActivation | poll => cases hrequest

theorem perform_foreign (h : Ran p log m) (hrequest : call.request = some r)
    (hopen : (m.expire r.now).session = some session) (hforeign : Foreign call session) :
    Undisturbed (m.expire r.now) (m.perform p a call).2 ↔ ¬ Clashes call m := by
  have hclash (hc : Clashes call m) :
      ∃ entry ∈ m.retained r.now, entry.requestId = r.requestId ∧ entry.digest ≠ r.digest := by
    obtain ⟨r', hr', hentry⟩ := hc
    obtain rfl : r = r' := Option.some.inj (hrequest.symm.trans hr')
    exact hentry
  rw [perform_request hrequest]
  rcases once_cases r.requestId r.digest r.now (call.body p a) m with
    ⟨hinvalid, hdo⟩ | ⟨entry, hentry, hid, hdigest, hdo⟩ | ⟨entry, hentry, hid, hdigest, hdo⟩ |
    ⟨-, hnew, hdo⟩
  · rw [hdo]
    refine iff_of_true ⟨rfl, rfl, rfl, rfl⟩ fun hc => ?_
    obtain ⟨entry, hentry, hid, -⟩ := hclash hc
    have hvalid := replays_valid h entry (List.mem_of_mem_filter hentry)
    rw [hid, hinvalid] at hvalid
    cases hvalid
  · rw [hdo]
    refine iff_of_false (fun hsame => ?_) (not_not.mpr ⟨r, hrequest, entry, hentry, hid, hdigest⟩)
    exact absurd (hsame.session.trans hopen) nofun
  · rw [hdo]
    refine iff_of_true ⟨rfl, rfl, rfl, rfl⟩ fun hc => ?_
    obtain ⟨other, hother, hid', hdigest'⟩ := hclash hc
    obtain rfl := eq_of_requestId h hentry hother (hid.trans hid'.symm)
    exact hdigest' hdigest
  · obtain ⟨code, -, hbody⟩ := body_foreign (p := p) (a := a) hrequest hopen hforeign
    rw [hdo, hbody]
    refine iff_of_true ⟨remember_session, remember_state, remember_store, remember_media⟩
      fun hc => ?_
    obtain ⟨entry, hentry, hid, -⟩ := hclash hc
    exact hnew entry hentry hid

theorem exampleOpening_foreign : Foreign (exampleOpening false) exampleSession := by
  intro r hr
  cases hr
  exact .inl (by decide)

/-- A call of another caller disturbs the session exactly where its request id clashes. -/
theorem foreign_undisturbed (h : Ran p log m) (hopen : (m.entered call).session = some session)
    (hforeign : Foreign call session) :
    Undisturbed (m.entered call) (m.perform p a call).2 ↔ ¬ Clashes call m := by
  cases hrequest : call.request with
  | some r =>
    rw [entered_request hrequest] at hopen ⊢
    exact perform_foreign h hrequest hopen hforeign
  | none =>
    have hnone : ¬ Clashes call m := by
      rintro ⟨r, hr, -⟩
      exact absurd (hrequest.symm.trans hr) nofun
    refine iff_of_true ?_ hnone
    cases call with
    | poll now =>
      have hpoll : (m.perform p a (.poll now)).2 = m.expire now := (admits_ran h).poll hopen
      rw [hpoll]
      exact ⟨rfl, rfl, rfl, rfl⟩
    | releaseActivation requestId generation =>
      have hrelease : (m.perform p a (.releaseActivation requestId generation)).2 = m :=
        (admits_ran h).release hopen requestId generation
      rw [hrelease]
      exact ⟨rfl, rfl, rfl, rfl⟩
    | «open» | write | apply | cancel => cases hrequest

theorem foreign_opening_clash :
    (Undisturbed (exampleOpened.entered (exampleOpening false))
        (exampleOpened.perform exampleParsers {} (exampleOpening false)).2 ↔
      ¬ Clashes (exampleOpening false) exampleOpened) :=
  foreign_undisturbed exampleOpened_ran
    (show (exampleOpened.entered (exampleOpening false)).session = some exampleSession by
      decide +kernel) exampleOpening_foreign

theorem clash_ends_session :
    ∃ log session, Ran exampleParsers log exampleOpened ∧
      (exampleOpened.entered (exampleOpening false)).session = some session ∧
      Foreign (exampleOpening false) session ∧
      ¬ Undisturbed (exampleOpened.entered (exampleOpening false))
        (exampleOpened.perform exampleParsers {} (exampleOpening false)).2 := by
  have hopen : (exampleOpened.entered (exampleOpening false)).session = some exampleSession := by
    decide +kernel
  have hclosed : (exampleOpened.perform exampleParsers {} (exampleOpening false)).2.session =
      none := by decide +kernel
  refine ⟨_, exampleSession, exampleOpened_ran, hopen, exampleOpening_foreign, fun h => ?_⟩
  have hsame := h.session
  rw [hopen, hclosed] at hsame
  cases hsame

end Manager

end WsprryPico.Provisioning
