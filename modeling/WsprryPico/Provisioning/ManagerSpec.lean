import WsprryPico.Provisioning.Manager

/-!
# What a call on the manager does

Each of the four operations is refused, answered as before, or runs its body in the state
its expiry leaves; what the bodies do is said once here, and so is what a run keeps of the
replies.
-/

namespace WsprryPico.Provisioning

open Lib
open Wtp (PayloadDigest sha256)
open Wtp.Json (Bytes)
open Manager

/-- What the four operations have in common. -/
structure ManagerRequest where
  requestId : Bytes
  digest : PayloadDigest
  transport : Transport
  authorization : Authorization
  now : UInt64

def ManagerCall.request : ManagerCall → Option ManagerRequest
  | .open requestId sessionId requestedDevice transport authorization now =>
    some ⟨requestId, openDigest sessionId requestedDevice transport authorization, transport,
      authorization, now⟩
  | .write requestId sessionId offset input final transport authorization now =>
    some ⟨requestId, writeDigest sessionId offset input final transport authorization, transport,
      authorization, now⟩
  | .apply requestId sessionId expectedGeneration _ transport authorization now =>
    some ⟨requestId, applyDigest sessionId expectedGeneration transport authorization, transport,
      authorization, now⟩
  | .cancel requestId sessionId transport authorization now =>
    some ⟨requestId, cancelDigest sessionId transport authorization, transport, authorization, now⟩
  | .releaseActivation .. => none
  | .poll _ => none

theorem ManagerCall.kinds (call : ManagerCall) : (∃ r, call.request = some r) ∨
    (∃ now, call = .poll now) ∨
      ∃ requestId generation, call = .releaseActivation requestId generation := by
  cases call with
  | poll now => exact .inr (.inl ⟨now, rfl⟩)
  | releaseActivation requestId generation => exact .inr (.inr ⟨requestId, generation, rfl⟩)
  | _ => exact .inl ⟨_, rfl⟩

/-- What an operation does when nothing answers it before. -/
def ManagerCall.body (p : Parsers) (a : Answers) : ManagerCall → Manager → Reply × Manager
  | .open _ sessionId requestedDevice transport authorization now =>
    openBody sessionId requestedDevice transport authorization now
  | .write _ sessionId offset input final transport authorization now =>
    withSession sessionId transport authorization (writeBody offset input final now)
  | .apply requestId sessionId expectedGeneration activity transport authorization now =>
    withSession sessionId transport authorization
      (applyBody p a requestId expectedGeneration activity now)
  | .cancel _ sessionId transport authorization _ =>
    withSession sessionId transport authorization cancelBody
  | .releaseActivation .. => fun m => m.refuse .invalidRequest
  | .poll _ => fun m => m.refuse .invalidRequest

namespace Manager

variable {p : Parsers} {a : Answers} {m : Manager} {call : ManagerCall} {r : ManagerRequest}
  {requestId : Bytes} {digest : PayloadDigest} {now : UInt64} {session : Session}

theorem perform_request (h : call.request = some r) :
    m.perform p a call = (m.once r.requestId r.digest r.now (call.body p a)).map some id := by
  cases call <;> cases h <;> rfl

/-! ## Expiry -/

/-- The session that the clock leaves open. -/
def unexpired (now : UInt64) (m : Manager) : Option Session :=
  m.session.filter fun s => !elapsed now s.lastProgressMs sessionTimeoutMs

theorem expire_eq (now : UInt64) (m : Manager) :
    ∃ state, m.expire now =
        { m with replays := m.retained now, session := m.unexpired now, state } ∧
      (m.unexpired now = m.session → state = m.state) := by
  obtain ⟨deviceId, store, media, activation, session, replays, state, lastTransport⟩ := m
  cases session with
  | none => exact ⟨state, rfl, fun _ => rfl⟩
  | some s =>
    cases helapsed : elapsed now s.lastProgressMs sessionTimeoutMs with
    | false => exact ⟨state, by simp [expire, unexpired, Option.filter, helapsed, retained], fun _ => rfl⟩
    | true =>
      exact ⟨.expired, by simp [expire, unexpired, Option.filter, helapsed, retained, terminate],
        by simp [unexpired, Option.filter, helapsed]⟩

@[simp] theorem expire_store : (m.expire now).store = m.store := by
  obtain ⟨state, h, _⟩ := expire_eq now m
  rw [h]

@[simp] theorem expire_media : (m.expire now).media = m.media := by
  obtain ⟨state, h, _⟩ := expire_eq now m
  rw [h]

@[simp] theorem expire_activation : (m.expire now).activation = m.activation := by
  obtain ⟨state, h, _⟩ := expire_eq now m
  rw [h]

@[simp] theorem expire_replays : (m.expire now).replays = m.retained now := by
  obtain ⟨state, h, _⟩ := expire_eq now m
  rw [h]

theorem expire_session : (m.expire now).session = m.unexpired now := by
  obtain ⟨state, h, _⟩ := expire_eq now m
  rw [h]

theorem expire_open (h : (m.expire now).session = some session) : m.session = some session := by
  rw [expire_session, unexpired, Option.filter_eq_some_iff] at h
  exact h.1

/-! ## Replies -/

theorem once_cases (requestId : Bytes) (digest : PayloadDigest) (now : UInt64)
    (body : Manager → Reply × Manager) (m : Manager) :
    (Network.validDeviceId requestId = false ∧
      m.once requestId digest now body = (m.expire now).refuse .invalidRequest) ∨
    (∃ entry ∈ m.retained now, entry.requestId = requestId ∧ entry.digest ≠ digest ∧
      m.once requestId digest now body = (m.expire now).failed .replay) ∨
    (∃ entry ∈ m.retained now, entry.requestId = requestId ∧ entry.digest = digest ∧
      m.once requestId digest now body =
        ({ result := { entry.result with replayed := true } }, m.expire now)) ∨
    (Network.validDeviceId requestId = true ∧
      (∀ entry ∈ m.retained now, entry.requestId ≠ requestId) ∧
      m.once requestId digest now body =
        ((body (m.expire now)).1,
          (body (m.expire now)).2.remember requestId digest (body (m.expire now)).1.result now)) := by
  unfold once replay
  dsimp only
  rw [expire_replays]
  by_cases hvalid : Network.validDeviceId requestId = true
  · rw [if_neg (by simp [hvalid])]
    cases hfind : (m.retained now).find? fun entry => entry.requestId = requestId with
    | none =>
      refine .inr (.inr (.inr ⟨hvalid, fun entry hentry heq => ?_, rfl⟩))
      have hnot := List.find?_eq_none.mp hfind entry hentry
      exact hnot (decide_eq_true heq)
    | some found =>
      have hmem := List.mem_of_find?_eq_some hfind
      have hid : found.requestId = requestId := by simpa using List.find?_some hfind
      dsimp only
      by_cases hdigest : found.digest = digest
      · rw [if_neg (by simp [hdigest])]
        exact .inr (.inr (.inl ⟨found, hmem, hid, hdigest, rfl⟩))
      · rw [if_pos hdigest]
        exact .inr (.inl ⟨found, hmem, hid, hdigest, rfl⟩)
  · rw [Bool.not_eq_true] at hvalid
    rw [if_pos (by simp [hvalid])]
    exact .inl ⟨hvalid, rfl⟩

section

variable {result : Result}

/-- The replies after one more: some of those before, and perhaps the new one behind them. -/
theorem remember_cases (requestId : Bytes) (digest : PayloadDigest) (result : Result)
    (now : UInt64) (m : Manager) :
    m.remember requestId digest result now = m ∨
    (Network.validDeviceId requestId = true ∧ ∃ kept : List ReplayEntry, kept.Sublist m.replays ∧
      m.remember requestId digest result now =
        { m with replays := kept ++ [⟨requestId, digest, result, now⟩] }) := by
  unfold remember
  split
  · exact .inl rfl
  · rename_i hvalid
    rw [Bool.not_eq_true, Bool.not_eq_false'] at hvalid
    split
    · split
      · exact .inl rfl
      · exact .inr ⟨hvalid, _, List.eraseP_sublist, rfl⟩
    · exact .inr ⟨hvalid, m.replays, .refl _, rfl⟩

theorem remember_mem (hvalid : Network.validDeviceId requestId = true)
    (hnodup : (m.replays.map (·.requestId)).Nodup) :
    ⟨requestId, digest, result, now⟩ ∈ (m.remember requestId digest result now).replays := by
  unfold remember
  rw [if_neg (by simp [hvalid])]
  split
  · rename_i hfull
    split
    · rename_i hall
      exfalso
      obtain ⟨e, rest, hreplays⟩ := List.exists_cons_of_length_pos
        (l := m.replays) (by rw [hfull]; decide)
      obtain ⟨e', rest', hrest⟩ := List.exists_cons_of_length_pos (l := rest) (by
        rw [hreplays, List.length_cons, replayCapacity] at hfull
        omega)
      rw [hreplays, hrest] at hnodup hall
      simp only [List.all_cons, Bool.and_eq_true, protects] at hall
      cases hc : m.activation with
      | none => simp [hc] at hall
      | some c =>
        simp only [hc, Option.any_some, ActivationCoordinator.protectsReplay,
          ActivationCoordinator.terminalMatches, Bool.and_eq_true, decide_eq_true_eq] at hall
        have hsame : e.requestId = e'.requestId := hall.1.2.2.trans hall.2.1.2.2.symm
        simp [hsame] at hnodup
    · simp
  · simp

theorem remember_eq : m.remember requestId digest result now =
    { m with replays := (m.remember requestId digest result now).replays } := by
  rcases remember_cases requestId digest result now m with h | ⟨-, kept, -, h⟩ <;> rw [h]

@[simp] theorem remember_session :
    (m.remember requestId digest result now).session = m.session :=
  congrArg (·.session) remember_eq

@[simp] theorem remember_store : (m.remember requestId digest result now).store = m.store :=
  congrArg (·.store) remember_eq

@[simp] theorem remember_media : (m.remember requestId digest result now).media = m.media :=
  congrArg (·.media) remember_eq

@[simp] theorem remember_activation :
    (m.remember requestId digest result now).activation = m.activation :=
  congrArg (·.activation) remember_eq

@[simp] theorem remember_state : (m.remember requestId digest result now).state = m.state :=
  congrArg (·.state) remember_eq

end

/-! ## Bodies -/

/-- A refusal for a reason that is not a success. -/
def Refused (m : Manager) (after : Reply × Manager) : Prop := ∃ code ≠ .ok, after = m.refuse code

/-- A failure that ends the session. -/
def Failed (m : Manager) (after : Reply × Manager) : Prop := ∃ code ≠ .ok, after = m.failed code

theorem openBody_cases (sessionId requestedDevice : Bytes) (transport : Transport)
    (authorization : Authorization) (now : UInt64) (m : Manager) :
    Refused m (m.openBody sessionId requestedDevice transport authorization now) ∨
    (authorization.valid = true ∧ m.session = none ∧
      (∀ c, m.activation = some c → c.blocksAdmission = false) ∧
      m.openBody sessionId requestedDevice transport authorization now =
        ({ result := { generation := m.store.sequence } },
          { m with
            session := some
              { id := sessionId, principal := authorization.principal, transport,
                lastProgressMs := now }
            state := .receiving
            lastTransport := transport })) := by
  unfold openBody
  split
  · exact .inl ⟨_, by decide, rfl⟩
  split
  · exact .inl ⟨_, by decide, rfl⟩
  split
  · exact .inl ⟨_, by decide, rfl⟩
  rename_i hvalid
  split
  · exact .inl ⟨_, by decide, rfl⟩
  split
  · refine .inl ⟨_, ?_, rfl⟩
    split <;> decide
  · rename_i hblocks
    split
    · exact .inl ⟨_, by decide, rfl⟩
    · rename_i hsession
      refine .inr ⟨by simpa using hvalid, by simpa using hsession, fun c hc => ?_, rfl⟩
      simpa [hc] using hblocks

theorem withSession_cases (sessionId : Bytes) (transport : Transport)
    (authorization : Authorization) (body : Session → Manager → Reply × Manager) (m : Manager) :
    Refused m (m.withSession sessionId transport authorization body) ∨
    ∃ session, m.session = some session ∧ session.id = sessionId ∧
      session.transport = transport ∧ session.principal = authorization.principal ∧
      authorization.valid = true ∧
      m.withSession sessionId transport authorization body = body session m := by
  unfold withSession
  split
  · exact .inl ⟨_, by decide, rfl⟩
  rename_i hvalid
  cases hsession : m.session with
  | none => exact .inl ⟨_, by decide, rfl⟩
  | some session =>
    dsimp only
    split
    · exact .inl ⟨_, by decide, rfl⟩
    · rename_i hid
      split
      · exact .inl ⟨_, by decide, rfl⟩
      · rename_i hcaller
        simp only [ne_eq, not_or, Decidable.not_not] at hid hcaller
        exact .inr ⟨session, rfl, hid, hcaller.1, hcaller.2, by simpa using hvalid, rfl⟩

theorem writeBody_cases (offset : Nat) (input : Bytes) (final : Bool) (now : UInt64)
    (session : Session) (m : Manager) :
    Refused m (m.writeBody offset input final now session) ∨
    Failed m (m.writeBody offset input final now session) ∨
    (session.final = false ∧ offset = session.staged.length ∧
      (session.staged ++ input).length ≤ max maxProfileBytes session.staged.length ∧
      m.writeBody offset input final now session =
        ({ result := { generation := m.store.sequence,
                       acceptedBytes := (session.staged ++ input).length } },
          { m with
            session := some
              { session with
                staged := session.staged ++ input, fragments := session.fragments + 1,
                lastProgressMs := now, final }
            state := if final then .ready else .receiving })) := by
  unfold writeBody
  split
  · exact .inl ⟨_, by decide, rfl⟩
  · rename_i horder
    split
    · exact .inr (.inl ⟨_, by decide, rfl⟩)
    · rename_i hroom
      simp only [ne_eq, not_or, Decidable.not_not, Bool.not_eq_true] at horder hroom
      refine .inr (.inr ⟨horder.1, horder.2.1, ?_, rfl⟩)
      rw [List.length_append]
      omega

/-- The store counts the texts it has taken. -/
theorem select_sequence (p : Parsers) (source : ProfileSource) (profile : Bytes)
    (store : ProfileStore) (media : Media) :
    (store.select p source profile media).2.1.sequence = store.sequence ∨
      ((store.select p source profile media).1 = true ∧
        (store.select p source profile media).2.1.sequence = store.sequence + 1) := by
  unfold ProfileStore.select
  split
  · exact .inl rfl
  split
  · exact .inl rfl
  dsimp only
  split
  · exact .inl rfl
  split
  · exact .inl rfl
  split
  · exact .inr ⟨rfl, rfl⟩
  · exact .inl rfl

/-- The activation of what the store has taken, when it is a new generation. -/
def activated (a : PlatformAnswers) (requestId : Bytes) (profile : Profile)
    (generation previous : Nat) (now : UInt64) (c : ActivationCoordinator) :
    ActivationCoordinator :=
  if generation = previous then c
  else if (c.stage a requestId profile generation now).1 then
    (c.stage a requestId profile generation now).2
  else (c.stage a requestId profile generation now).2.committedFault a requestId generation .stage

theorem retry_state (b : PlatformAnswers) (c : ActivationCoordinator) :
    (c.retryFailClosed b).state = c.state := by
  unfold ActivationCoordinator.retryFailClosed
  split <;> rfl

theorem clear_state (c : ActivationCoordinator) : c.clearProfile.state = c.state := by
  unfold ActivationCoordinator.clearProfile
  split <;> rfl

theorem committedFault_state (b : PlatformAnswers) (requestId : Bytes) (generation : Nat)
    (fault : ActivationFault) (c : ActivationCoordinator) :
    (c.committedFault b requestId generation fault).state = .fault := by
  unfold ActivationCoordinator.committedFault ActivationCoordinator.latch
  rw [retry_state, clear_state]

theorem activate_eq (requestId : Bytes) (profile : Profile) (previous : Nat) (now : UInt64)
    (m : Manager) :
    ∃ code state, m.activate a requestId profile previous now =
        (code, { m with
          activation := m.activation.map
            (activated a.platform requestId profile m.store.sequence previous now)
          session := none, state }) ∧
      (code = .activationFault → ∃ c, m.activation.map
        (activated a.platform requestId profile m.store.sequence previous now) = some c ∧
          c.state = .fault) := by
  obtain ⟨deviceId, store, media, activation, session, replays, state, lastTransport⟩ := m
  cases activation with
  | none => exact ⟨_, _, rfl, nofun⟩
  | some c =>
    unfold activate activated
    dsimp only [Option.map_some]
    split
    · exact ⟨_, _, rfl, nofun⟩
    · rcases c.stage a.platform requestId profile store.sequence now with ⟨_ | _, c⟩
      · exact ⟨_, _, rfl, fun _ => ⟨_, rfl, committedFault_state _ _ _ _ _⟩⟩
      · exact ⟨_, _, rfl, nofun⟩

/-- A commit ends the session; its text goes to the store unless it is too long. -/
theorem commit_cases (requestId : Bytes) (profile : Profile) (now : UInt64) (m : Manager) :
    Failed m (m.commit p a requestId profile now) ∨
    ∃ code state activation,
      (serializeProfile profile).length ≤ maxProfileBytes ∧
      m.commit p a requestId profile now =
        ({ result :=
             { code
               generation :=
                 (m.store.select p .runtimeProfile (serializeProfile profile) m.media).2.1.sequence }
           replaced := some (serializeProfile profile) },
          { m with
            store := (m.store.select p .runtimeProfile (serializeProfile profile) m.media).2.1
            media := (m.store.select p .runtimeProfile (serializeProfile profile) m.media).2.2
            session := none, activation, state }) ∧
      (activation = m.activation ∨
        activation = m.activation.map (activated a.platform requestId profile
          (m.store.select p .runtimeProfile (serializeProfile profile) m.media).2.1.sequence
          m.store.sequence now)) ∧
      (code = .activationFault → ∃ c, activation = some c ∧ c.state = .fault) := by
  unfold commit
  dsimp only
  split
  · exact .inl ⟨_, by decide, rfl⟩
  · rename_i hlength
    rw [Nat.not_lt] at hlength
    have hsequence := select_sequence p .runtimeProfile (serializeProfile profile) m.store m.media
    generalize m.store.select p .runtimeProfile (serializeProfile profile) m.media = out
      at hsequence ⊢
    obtain ⟨_ | _, store, media⟩ := out
    · have hsame : store.sequence = m.store.sequence := hsequence.resolve_right (by simp)
      exact .inr ⟨.storageFault, .failed, m.activation, hlength, by rw [← hsame]; rfl, .inl rfl,
        nofun⟩
    · obtain ⟨code, state, h, hfault⟩ := activate_eq (a := a) requestId profile m.store.sequence now
        { m with store, media }
      refine .inr ⟨code, state, _, hlength, ?_, .inr rfl, hfault⟩
      dsimp only
      rw [h]

theorem commit_staged {profile : Profile} {c : ActivationCoordinator} {store : ProfileStore}
    {media : Media} (hlength : (serializeProfile profile).length ≤ maxProfileBytes)
    (hselect : m.store.select p .runtimeProfile (serializeProfile profile) m.media =
      (true, store, media))
    (hgrown : store.sequence ≠ m.store.sequence) (hc : m.activation = some c)
    (hstage : (c.stage a.platform requestId profile store.sequence now).1 = true) :
    m.commit p a requestId profile now =
      ({ result := { generation := store.sequence }, replaced := some (serializeProfile profile) },
        { m with
          store, media, session := none, state := .complete
          activation := some (c.stage a.platform requestId profile store.sequence now).2 }) := by
  unfold commit
  dsimp only
  rw [if_neg (Nat.not_lt.mpr hlength), hselect]
  unfold activate
  dsimp only
  rw [hc]
  dsimp only
  rw [if_neg hgrown]
  rcases hstaged : c.stage a.platform requestId profile store.sequence now with ⟨_ | _, c'⟩
  · rw [hstaged] at hstage
    cases hstage
  · rfl

theorem applyBody_cases (requestId : Bytes) (expectedGeneration : Nat) (activity : Activity)
    (now : UInt64) (session : Session) (m : Manager) :
    Refused m (m.applyBody p a requestId expectedGeneration activity now session) ∨
    Failed m (m.applyBody p a requestId expectedGeneration activity now session) ∨
    ∃ profile, session.final = true ∧ expectedGeneration = m.store.sequence ∧
      idleForAccess activity = true ∧ parseProfile session.staged = some profile ∧
      profile.deviceId = m.deviceId ∧ a.validate profile = true ∧
      m.applyBody p a requestId expectedGeneration activity now session =
        m.commit p a requestId profile now := by
  unfold applyBody
  split
  · exact .inl ⟨_, by decide, rfl⟩
  rename_i hfinal
  split
  · exact .inl ⟨_, by decide, rfl⟩
  rename_i hgeneration
  split
  · exact .inl ⟨_, by decide, rfl⟩
  rename_i hidle
  cases hparse : parseProfile session.staged with
  | none => exact .inr (.inl ⟨_, by decide, rfl⟩)
  | some profile =>
    dsimp only
    split
    · exact .inr (.inl ⟨_, by decide, rfl⟩)
    · rename_i hdevice
      split
      · exact .inr (.inl ⟨_, by decide, rfl⟩)
      · rename_i hvalidate
        simp only [ne_eq, Decidable.not_not] at hdevice
        simp only [Bool.not_eq_true, Bool.not_eq_false'] at hvalidate
        exact .inr (.inr ⟨profile, by simpa using hfinal, by simpa using hgeneration,
          by simpa using hidle, rfl, hdevice, hvalidate, rfl⟩)

/-- The caller is the one the open session belongs to. -/
structure Own (m : Manager) (session : Session) (sessionId : Bytes) (transport : Transport)
    (authorization : Authorization) : Prop where
  current : m.session = some session
  id : session.id = sessionId
  transport : session.transport = transport
  principal : session.principal = authorization.principal
  valid : authorization.valid = true

/-- All that the body of an operation can do. -/
inductive Acts (p : Parsers) (a : Answers) (m : Manager) : ManagerCall → Reply × Manager → Prop where
  | refused {call : ManagerCall} {code : Code} (hcode : code ≠ .ok) : Acts p a m call (m.refuse code)
  | failed {call : ManagerCall} {code : Code} (hcode : code ≠ .ok) : Acts p a m call (m.failed code)
  | opened {requestId sessionId requestedDevice : Bytes} {transport : Transport}
      {authorization : Authorization} {now : UInt64} (hvalid : authorization.valid = true)
      (hclosed : m.session = none)
      (hadmits : ∀ c, m.activation = some c → c.blocksAdmission = false) :
    Acts p a m (.open requestId sessionId requestedDevice transport authorization now)
      ({ result := { generation := m.store.sequence } },
        { m with
          session := some
            { id := sessionId, principal := authorization.principal, transport,
              lastProgressMs := now }
          state := .receiving
          lastTransport := transport })
  | wrote {requestId sessionId input : Bytes} {final : Bool} {transport : Transport}
      {authorization : Authorization} {now : UInt64} {session : Session}
      (hown : Own m session sessionId transport authorization) (hfinal : session.final = false)
      (hlength : (session.staged ++ input).length ≤ max maxProfileBytes session.staged.length) :
    Acts p a m
      (.write requestId sessionId session.staged.length input final transport authorization now)
      ({ result := { generation := m.store.sequence,
                     acceptedBytes := (session.staged ++ input).length } },
        { m with
          session := some
            { session with
              staged := session.staged ++ input, fragments := session.fragments + 1,
              lastProgressMs := now, final }
          state := if final then .ready else .receiving })
  | committed {requestId sessionId : Bytes} {activity : Activity} {transport : Transport}
      {authorization : Authorization} {now : UInt64} {session : Session} {profile : Profile}
      {store : ProfileStore} {media : Media} {code : Code} {state : State}
      {activation : Option ActivationCoordinator}
      (hown : Own m session sessionId transport authorization) (hfinal : session.final = true)
      (hidle : idleForAccess activity = true) (hparse : parseProfile session.staged = some profile)
      (hdevice : profile.deviceId = m.deviceId) (hvalidate : a.validate profile = true)
      (hlength : (serializeProfile profile).length ≤ maxProfileBytes)
      (hselect : (m.store.select p .runtimeProfile (serializeProfile profile) m.media).2 =
        (store, media))
      (hactivation : activation = m.activation ∨
        activation = m.activation.map
          (activated a.platform requestId profile store.sequence m.store.sequence now))
      (hcode : code = .activationFault → ∃ c, activation = some c ∧ c.state = .fault) :
    Acts p a m (.apply requestId sessionId m.store.sequence activity transport authorization now)
      ({ result := { code, generation := store.sequence },
         replaced := some (serializeProfile profile) },
        { m with store, media, session := none, activation, state })
  | cancelled {requestId sessionId : Bytes} {transport : Transport}
      {authorization : Authorization} {now : UInt64} {session : Session}
      (hown : Own m session sessionId transport authorization) :
    Acts p a m (.cancel requestId sessionId transport authorization now)
      ({ result := { generation := m.store.sequence } }, m.terminate .cancelled)

theorem Refused.acts {after : Reply × Manager} (h : Refused m after) : Acts p a m call after := by
  obtain ⟨code, hcode, rfl⟩ := h
  exact .refused hcode

theorem Failed.acts {after : Reply × Manager} (h : Failed m after) : Acts p a m call after := by
  obtain ⟨code, hcode, rfl⟩ := h
  exact .failed hcode

theorem body_acts (p : Parsers) (a : Answers) (call : ManagerCall) (m : Manager) :
    Acts p a m call (call.body p a m) := by
  cases call with
  | «open» _ sessionId requestedDevice transport authorization now =>
    dsimp only [ManagerCall.body]
    rcases openBody_cases sessionId requestedDevice transport authorization now m with
      h | ⟨hvalid, hclosed, hadmits, h⟩
    · exact h.acts
    · rw [h]
      exact .opened hvalid hclosed hadmits
  | write _ sessionId offset input final transport authorization now =>
    dsimp only [ManagerCall.body]
    rcases withSession_cases sessionId transport authorization (writeBody offset input final now) m
      with h | ⟨session, hsession, hid, htransport, hprincipal, hvalid, h⟩
    · exact h.acts
    · rw [h]
      rcases writeBody_cases offset input final now session m with
        h | h | ⟨hfinal, rfl, hlength, h⟩
      · exact h.acts
      · exact h.acts
      · rw [h]
        exact .wrote ⟨hsession, hid, htransport, hprincipal, hvalid⟩ hfinal hlength
  | apply requestId sessionId generation activity transport authorization now =>
    dsimp only [ManagerCall.body]
    rcases withSession_cases sessionId transport authorization
      (applyBody p a requestId generation activity now) m with
      h | ⟨session, hsession, hid, htransport, hprincipal, hvalid, h⟩
    · exact h.acts
    · rw [h]
      rcases applyBody_cases requestId generation activity now session m with
        h | h | ⟨profile, hfinal, rfl, hidle, hparse, hdevice, hvalidate, h⟩
      · exact h.acts
      · exact h.acts
      · rw [h]
        rcases commit_cases requestId profile now m with
          h | ⟨code, state, activation, hlength, h, hactivation, hcode⟩
        · exact h.acts
        · rw [h]
          exact .committed ⟨hsession, hid, htransport, hprincipal, hvalid⟩ hfinal hidle hparse
            hdevice hvalidate hlength rfl hactivation hcode
  | cancel _ sessionId transport authorization _ =>
    dsimp only [ManagerCall.body]
    rcases withSession_cases sessionId transport authorization cancelBody m with
      h | ⟨session, hsession, hid, htransport, hprincipal, hvalid, h⟩
    · exact h.acts
    · rw [h]
      exact .cancelled ⟨hsession, hid, htransport, hprincipal, hvalid⟩
  | releaseActivation | poll => exact .refused (by decide)

theorem body_replays (p : Parsers) (a : Answers) (call : ManagerCall) (m : Manager) :
    (call.body p a m).2.replays = m.replays := by
  have h := body_acts p a call m
  generalize call.body p a m = after at h
  cases h <;> rfl

/-- The state in which a call is looked at: the clock has closed what has timed out. -/
def entered (call : ManagerCall) (m : Manager) : Manager :=
  match call, call.request with
  | _, some r => m.expire r.now
  | .poll now, none => m.expire now
  | _, none => m

theorem entered_cases (call : ManagerCall) (m : Manager) :
    m.entered call = m ∨ ∃ now, m.entered call = m.expire now := by
  cases call with
  | releaseActivation => exact .inl rfl
  | _ => exact .inr ⟨_, rfl⟩

@[simp] theorem entered_store : (m.entered call).store = m.store := by
  obtain h | ⟨now, h⟩ := entered_cases call m <;> simp [h]

theorem entered_media : (m.entered call).media = m.media := by
  obtain h | ⟨now, h⟩ := entered_cases call m <;> simp [h]

@[simp] theorem entered_activation : (m.entered call).activation = m.activation := by
  obtain h | ⟨now, h⟩ := entered_cases call m <;> simp [h]

theorem perform_idle (p : Parsers) (a : Answers) (m : Manager) (h : call.request = none) :
    ∃ activation state, (m.perform p a call).2 = { m.entered call with activation, state } := by
  cases call with
  | poll now =>
    show ∃ activation state, m.poll a now = _
    unfold poll
    dsimp only
    split <;> exact ⟨_, _, rfl⟩
  | releaseActivation requestId generation =>
    show ∃ activation state, (m.releaseActivation a requestId generation).2 = _
    unfold releaseActivation
    split <;> exact ⟨_, _, rfl⟩
  | _ => cases h

theorem entered_request (hrequest : call.request = some r) : m.entered call = m.expire r.now := by
  cases call <;> simp_all [entered, ManagerCall.request]

/-! ## Runs -/

/-- A call changes the replies by dropping some, and by keeping the one it gives. -/
theorem perform_replays (p : Parsers) (a : Answers) (call : ManagerCall) (m : Manager) :
    (m.perform p a call).2.replays.Sublist m.replays ∨
    ∃ r kept, call.request = some r ∧ Network.validDeviceId r.requestId = true ∧
      kept.Sublist (m.retained r.now) ∧ (∀ entry ∈ m.retained r.now, entry.requestId ≠ r.requestId) ∧
      ∃ reply, (m.perform p a call).1 = some reply ∧
        (m.perform p a call).2.replays = kept ++ [⟨r.requestId, r.digest, reply.result, r.now⟩] := by
  have hretained (now : UInt64) : (m.retained now).Sublist m.replays := List.filter_sublist
  cases hrequest : call.request with
  | none =>
    obtain ⟨_, _, hidle⟩ := perform_idle p a m hrequest
    rw [hidle]
    left
    show (m.entered call).replays.Sublist m.replays
    obtain h | ⟨now, h⟩ := entered_cases call m
    · rw [h]
    · rw [h, expire_replays]
      exact hretained now
  | some r =>
    rw [perform_request hrequest]
    rcases once_cases r.requestId r.digest r.now (call.body p a) m with
      ⟨-, h⟩ | ⟨_, -, -, -, h⟩ | ⟨_, -, -, -, h⟩ | ⟨hvalid, hnew, h⟩
    · left
      rw [h]
      simpa [refuse] using hretained r.now
    · left
      rw [h]
      simpa [failed, terminate] using hretained r.now
    · left
      rw [h]
      simpa using hretained r.now
    · rw [h]
      have hbody := body_replays p a call (m.expire r.now)
      rw [expire_replays] at hbody
      rcases remember_cases r.requestId r.digest (call.body p a (m.expire r.now)).1.result r.now
        (call.body p a (m.expire r.now)).2 with hsame | ⟨hvalid, kept, hkept, hpush⟩
      · left
        rw [hsame]
        simpa [hbody] using hretained r.now
      · right
        rw [hbody] at hkept
        exact ⟨r, kept, rfl, hvalid, hkept, hnew, _, rfl, by rw [hpush]; rfl⟩

end Manager

structure ManagerEvent where
  call : ManagerCall
  reply : Option Reply

/-- A manager as it is built, with or without a coordinator of the activation. -/
def Manager.fresh (deviceId : Bytes) (store : ProfileStore) (media : Media) (activating : Bool) :
    Manager :=
  { deviceId, store, media, activation := if activating then some {} else none }

/-- The runs of a manager, by the calls so far. Whatever else uses the store takes turns with it. -/
inductive Ran (p : Parsers) : List ManagerEvent → Manager → Prop where
  | start (deviceId : Bytes) (store : ProfileStore) (media : Media) (activating : Bool) :
    Ran p [] (.fresh deviceId store media activating)
  | call {log : List ManagerEvent} {m : Manager} (h : Ran p log m) (a : Answers)
    (call : ManagerCall) :
    Ran p (log ++ [⟨call, (m.perform p a call).1⟩]) (m.perform p a call).2
  | elsewhere {log : List ManagerEvent} {m : Manager} (h : Ran p log m) (store : ProfileStore)
    (media : Media) (hsequence : m.store.sequence ≤ store.sequence) :
    Ran p log { m with store, media }

namespace Manager

variable {p : Parsers} {a : Answers} {m : Manager} {log : List ManagerEvent} {call : ManagerCall}
  {r : ManagerRequest}

/-- One reply at most is retained for a request id. -/
theorem replays_nodup (h : Ran p log m) : (m.replays.map (·.requestId)).Nodup := by
  induction h with
  | start => exact List.nodup_nil
  | elsewhere _ _ _ _ ih => exact ih
  | @call log m h a call ih =>
    rcases perform_replays p a call m with
      hsub | ⟨r, kept, -, -, hkept, hnew, reply, -, hreplays⟩
    · exact ih.sublist (hsub.map _)
    · rw [hreplays, List.map_append, List.nodup_append]
      refine ⟨ih.sublist ((hkept.trans List.filter_sublist).map _), List.nodup_singleton _, ?_⟩
      intro id hid other hother
      obtain ⟨entry, hentry, rfl⟩ := List.mem_map.mp hid
      rw [List.map_singleton, List.mem_singleton] at hother
      rw [hother]
      exact hnew entry (hkept.subset hentry)

theorem eq_of_requestId (h : Ran p log m) {e e' : ReplayEntry} {now : UInt64}
    (he : e ∈ m.retained now) (he' : e' ∈ m.retained now) (hid : e.requestId = e'.requestId) :
    e = e' :=
  List.inj_on_of_nodup_map (replays_nodup h) (List.mem_of_mem_filter he)
    (List.mem_of_mem_filter he') hid

theorem replays_valid (h : Ran p log m) :
    ∀ entry ∈ m.replays, Network.validDeviceId entry.requestId = true := by
  induction h with
  | start => exact nofun
  | elsewhere _ _ _ _ ih => exact ih
  | @call log m h a call ih =>
    intro entry hentry
    rcases perform_replays p a call m with
      hsub | ⟨r, kept, -, hvalid, hkept, -, reply, -, hreplays⟩
    · exact ih entry (hsub.subset hentry)
    · rw [hreplays, List.mem_append, List.mem_singleton] at hentry
      rcases hentry with hentry | rfl
      · exact ih entry (List.mem_of_mem_filter (hkept.subset hentry))
      · exact hvalid

/-- What an operation does to the manager: nothing but expiry, a failure, or what its body does
before the reply is kept. -/
theorem perform_acts (p : Parsers) (a : Answers) (m : Manager) (hrequest : call.request = some r) :
    ((m.perform p a call).2 = m.expire r.now ∧
      ∃ reply, (m.perform p a call).1 = some reply ∧ reply.replaced = none ∧
        (reply.result.code ≠ .ok ∨ reply.result.replayed = true)) ∨
    (∃ code ≠ .ok, m.perform p a call = ((m.expire r.now).failed code).map some id) ∨
    ∃ after, Acts p a (m.expire r.now) call after ∧
      m.perform p a call =
        (some after.1, after.2.remember r.requestId r.digest after.1.result r.now) := by
  rw [perform_request hrequest]
  rcases once_cases r.requestId r.digest r.now (call.body p a) m with
    ⟨-, h⟩ | ⟨_, -, -, -, h⟩ | ⟨_, -, -, -, h⟩ | ⟨-, -, h⟩
  · rw [h]
    exact .inl ⟨rfl, _, rfl, rfl, .inl (by simp)⟩
  · rw [h]
    exact .inr (.inl ⟨_, by decide, rfl⟩)
  · rw [h]
    exact .inl ⟨rfl, _, rfl, rfl, .inr rfl⟩
  · rw [h]
    exact .inr (.inr ⟨_, body_acts _ _ call _, rfl⟩)

end Manager

namespace ActivationCoordinator

variable {c : ActivationCoordinator} {b : PlatformAnswers}

theorem blocksAdmission_eq_false :
    c.blocksAdmission = false ↔ c.state ≠ .pendingDelivery ∧ c.state ≠ .fault := by
  simp [blocksAdmission]

theorem poll_admits (h : c.blocksAdmission = false) (now : UInt64) : c.poll b now = c := by
  obtain ⟨hpending, hfault⟩ := blocksAdmission_eq_false.mp h
  simp [poll, hpending, hfault]

theorem release_admits (h : c.blocksAdmission = false) (requestId : Bytes) (generation : Nat) :
    (c.release b requestId generation).2 = c := by
  obtain ⟨hpending, hfault⟩ := blocksAdmission_eq_false.mp h
  unfold release
  split
  · rfl
  · simp [hfault]

end ActivationCoordinator

namespace Manager

variable {p : Parsers} {a : Answers} {m : Manager} {log : List ManagerEvent} {call : ManagerCall}
  {r : ManagerRequest}

/-- While a session is open nothing is being activated. -/
def Admits (m : Manager) : Prop :=
  ∀ s c, m.session = some s → m.activation = some c → c.blocksAdmission = false

theorem Admits.expire (h : Admits m) (now : UInt64) : Admits (m.expire now) := by
  intro s c hs hc
  rw [expire_activation] at hc
  exact h s c (expire_open hs) hc

theorem Admits.entered (h : Admits m) : Admits (m.entered call) := by
  obtain hsame | ⟨now, hsame⟩ := entered_cases call m
  · rwa [hsame]
  · rw [hsame]
    exact h.expire now

theorem Admits.acts {after : Reply × Manager} (h : Admits m) (hacts : Acts p a m call after) :
    Admits after.2 := by
  intro s c hs hc
  cases hacts with
  | refused => exact h s c hs hc
  | failed => cases hs
  | opened _ _ hadmits => exact hadmits c hc
  | wrote hown => exact h _ c hown.current hc
  | committed => cases hs
  | cancelled => cases hs

theorem withActivation_admits {c : ActivationCoordinator} (h : c.blocksAdmission = false)
    (hc : m.activation = some c) : m.withActivation c = m := by
  have hfault := (ActivationCoordinator.blocksAdmission_eq_false.mp h).2
  simp [withActivation, hfault, ← hc]

theorem Admits.poll (h : Admits m) {s : Session} {now : UInt64}
    (hs : (m.expire now).session = some s) : m.poll a now = m.expire now := by
  unfold Manager.poll
  dsimp only
  cases hc : (m.expire now).activation with
  | none => rfl
  | some c =>
    have hadmits := h.expire now s c hs hc
    dsimp only
    rw [ActivationCoordinator.poll_admits hadmits, withActivation_admits hadmits hc]

theorem Admits.release (h : Admits m) {s : Session} (hs : m.session = some s) (requestId : Bytes)
    (generation : Nat) : (m.releaseActivation a requestId generation).2 = m := by
  unfold releaseActivation
  cases hc : m.activation with
  | none => rfl
  | some c =>
    have hadmits := h s c hs hc
    dsimp only
    rw [ActivationCoordinator.release_admits hadmits, withActivation_admits hadmits hc]

@[simp] theorem poll_session (now : UInt64) :
    (m.poll a now).session = (m.expire now).session := by
  unfold poll
  dsimp only
  split <;> rfl

@[simp] theorem release_session (requestId : Bytes) (generation : Nat) :
    (m.releaseActivation a requestId generation).2.session = m.session := by
  unfold releaseActivation
  split <;> rfl

theorem admits_ran (h : Ran p log m) : Admits m := by
  induction h with
  | start => exact nofun
  | elsewhere _ _ _ _ ih => exact ih
  | @call log m h a call ih =>
    obtain ⟨r, hrequest⟩ | ⟨now, rfl⟩ | ⟨requestId, generation, rfl⟩ := call.kinds
    · rcases perform_acts p a m hrequest with
        ⟨h, -⟩ | ⟨code, -, h⟩ | ⟨after, hacts, h⟩
      · rw [h]
        exact ih.expire r.now
      · rw [h]
        exact nofun
      · rw [h]
        intro s c hs hc
        rw [remember_session] at hs
        rw [remember_activation] at hc
        exact (ih.expire r.now).acts hacts s c hs hc
    · intro s c hs hc
      have hs' : (m.poll a now).session = some s := hs
      rw [poll_session] at hs'
      have hc' : (m.poll a now).activation = some c := hc
      rw [ih.poll hs'] at hc'
      exact ih.expire now s c hs' hc'
    · intro s c hs hc
      have hs' : (m.releaseActivation a requestId generation).2.session = some s := hs
      rw [release_session] at hs'
      have hc' : (m.releaseActivation a requestId generation).2.activation = some c := hc
      rw [ih.release hs'] at hc'
      exact ih s c hs' hc'

/-! ## A run with one session -/

/-- The calls one after the other, with the same answers. -/
def played (p : Parsers) (a : Answers) (calls : List ManagerCall)
    (run : List ManagerEvent × Manager) : List ManagerEvent × Manager :=
  calls.foldl (fun run call =>
    (run.1 ++ [⟨call, (run.2.perform p a call).1⟩], (run.2.perform p a call).2)) run

theorem ran_played {run : List ManagerEvent × Manager} (calls : List ManagerCall)
    (h : Ran p run.1 run.2) : Ran p (played p a calls run).1 (played p a calls run).2 := by
  induction calls generalizing run with
  | nil => exact h
  | cons call calls ih => exact ih (h.call a call)

def operator : Authorization :=
  { authenticated := true, confidential := true, isLocal := true, principal := ascii "operator" }

/-- An opening by the operator, and one without authorization under the same request id. -/
def exampleOpening (authenticated : Bool) : ManagerCall :=
  .open (List.replicate 32 48) (List.replicate 32 97) (List.replicate 32 98) .ble
    { operator with authenticated } 1

def exampleParsers : Parsers := ⟨fun _ => none, fun _ => none⟩

def exampleManager : Manager :=
  .fresh (List.replicate 32 98) { healthy := true } { flash := { bytes := fun _ => 255 } } true

/-- The manager after the opening by the operator. -/
def exampleOpened : Manager :=
  (exampleManager.perform exampleParsers {} (exampleOpening true)).2

def exampleSession : Session where
  id := List.replicate 32 97
  principal := ascii "operator"
  transport := .ble
  lastProgressMs := 1

def exampleLog : List ManagerEvent :=
  [⟨exampleOpening true, (exampleManager.perform exampleParsers {} (exampleOpening true)).1⟩]

theorem exampleOpened_ran : Ran exampleParsers exampleLog exampleOpened :=
  .call (.start _ _ _ _) {} (exampleOpening true)

end Manager

end WsprryPico.Provisioning
