import WsprryPico.Network.RadioTracks

/-!
# Logins and requests keep to the ledger

From `start` to `handle`, and over the runs of the API.
-/

/-!
## The radio API keeps to its ledger

Between two calls the phase of each slot is the one of its state (`Rests`); in a call one slot
may be on its way (`Mid`). Each function of the API leaves the slots at rest.
-/

namespace WsprryPico.Network

open Lib Wtp Wtp.Json
open Provisioning hiding ascii

variable {ω β γ : Type}

namespace ConsumerRadio

variable {a b : ConsumerRadio} {p q : Place} {s : RadioSession} {L L' : Ledger} {x : RadioEvent}
  {phase : Place → Option Phase} {φ ψ : Phase} {t : UInt64}

/-- The phases of the slots between two calls. -/
def rest (a : ConsumerRadio) (p : Place) : Option Phase := (a.slot p).state.phase

@[simp] theorem rest_recorded : (a.recorded x).rest = a.rest := by
  funext q
  simp [rest]

theorem rest_setSlot : (a.setSlot p s).rest = Function.update a.rest p s.state.phase := by
  funext q
  by_cases hq : q = p
  · subst hq
    simp [rest]
  · simp [rest, hq]

theorem rest_finishing (t : UInt64) (apply : Bool) : (a.finishing t apply).rest = a.rest := by
  funext q
  simp [rest, finishing_keeps]

theorem rest_closing : (a.closing p).rest = Function.update a.rest p none := by
  funext q
  by_cases hq : q = p
  · subst hq
    simp [rest, closing_self, RadioState.phase]
  · simp [rest, closing_keeps hq, hq]

def Rests (a : ConsumerRadio) (L : Ledger) : Prop := Tracks a.rest a L ∧ L.owed = none

def Mid (p : Place) (φ : Phase) (a : ConsumerRadio) (L : Ledger) : Prop :=
  Tracks (Function.update a.rest p (some φ)) a L ∧ L.owed = none

/-- What holds between two calls. -/
def Held (a : ConsumerRadio) : Prop := ∃ L, Rests a L

theorem rest_ne_failed : a.rest p ≠ some .failed := by
  unfold rest
  cases (a.slot p).state <;> simp [RadioState.phase]

theorem Rests.settled (h : Rests a L) : L.Settled := h.1.settled h.2 fun _ => rest_ne_failed

theorem Rests.ledger_rests (h : Rests a L) : L.Rests := by
  refine ⟨h.2, ?_⟩
  intro p life hlife
  obtain ⟨φ, hφ, rfl⟩ := h.1.life_inv hlife
  unfold rest at hφ
  cases hstate : (a.slot p).state with
  | none => simp [hstate, RadioState.phase] at hφ
  | pending =>
    rw [hstate] at hφ
    exact Or.inl (Option.some.inj hφ).symm
  | active =>
    rw [hstate] at hφ
    exact Or.inr (Option.some.inj hφ).symm

theorem Rests.mid (h : Rests a L) (hphase : a.rest p = some φ) : Mid p φ a L := by
  refine ⟨?_, h.2⟩
  rw [← hphase, Function.update_eq_self]
  exact h.1

theorem Mid.rests (h : Mid p φ a L) (hphase : a.rest p = some φ) : Rests a L := by
  have htracks := h.1
  rw [← hphase, Function.update_eq_self] at htracks
  exact ⟨htracks, h.2⟩

theorem Mid.settled (h : Mid p φ a L) (hφ : φ ≠ .failed) : L.Settled := by
  refine h.1.settled h.2 ?_
  intro q
  by_cases hq : q = p
  · subst hq
    simpa using hφ
  · simpa [hq] using rest_ne_failed

theorem Mid.life (h : Mid p φ a L) : L.lives p = some ((a.slot p).life φ) := h.1.life (by simp)

theorem Mid.step (h : Mid p φ a L) (hstep : L.Step a.history x L')
    (hlives : L'.lives = Function.update L.lives p (some (s.life ψ))) (hids : L'.ids = L.ids)
    (howed : L'.owed = none)
    (hbegun : ψ = .pending ∨ ψ = .proved → s.pendingTransaction = none ∧ s.nextSequence = 1)
    (hcounted : 0 < s.nextSequence.toNat)
    (hrecovery : p = .recovery → s.pendingTransaction = none) :
    Mid p ψ ((a.setSlot p s).recorded x) L' := by
  have hnew := h.1.step (φ := some ψ) hstep hlives hids (by simp)
    (fun hb => hbegun (by simpa using hb)) hcounted hrecovery
  rw [Function.update_idem] at hnew
  refine ⟨?_, howed⟩
  rw [rest_recorded, rest_setSlot, Function.update_idem]
  exact hnew

theorem Mid.touch (h : Mid p φ a L) (hlife : s.life φ = (a.slot p).life φ)
    (hsequence : s.nextSequence = (a.slot p).nextSequence) : Mid p φ (a.setSlot p s) L := by
  refine ⟨?_, h.2⟩
  rw [rest_setSlot, Function.update_idem]
  refine h.1.touch (fun ψ hψ => ?_) hsequence (congrArg Life.transaction hlife)
  obtain rfl : φ = ψ := by simpa using hψ
  exact hlife

theorem Rests.touch (h : Rests a L) (hnone : (a.slot p).state = .none) (hstate : s.state = .none)
    (hsequence : s.nextSequence = (a.slot p).nextSequence)
    (ht : s.pendingTransaction = (a.slot p).pendingTransaction) : Rests (a.setSlot p s) L := by
  have hrest : a.rest p = none := by rw [rest, hnone]; rfl
  refine ⟨?_, h.2⟩
  rw [rest_setSlot, hstate, show RadioState.none.phase = a.rest p from hrest.symm,
    Function.update_eq_self]
  exact h.1.touch (fun φ hφ => absurd (hrest.symm.trans hφ) (by simp)) hsequence ht

theorem Mid.frame (h : Mid p φ a L) (hhistory : b.history = a.history) (hslot : b.slot = a.slot)
    (hserial : b.sessionSerial = a.sessionSerial) : Mid p φ b L := by
  have hrest : b.rest = a.rest := by
    funext q
    simp [rest, hslot]
  exact ⟨by rw [hrest]; exact h.1.frame hhistory hslot hserial, h.2⟩

theorem Rests.frame (h : Rests a L) (hhistory : b.history = a.history) (hslot : b.slot = a.slot)
    (hserial : b.sessionSerial = a.sessionSerial) : Rests b L := by
  have hrest : b.rest = a.rest := by
    funext q
    simp [rest, hslot]
  exact ⟨by rw [hrest]; exact h.1.frame hhistory hslot hserial, h.2⟩

/-! ## Closing -/

theorem Rests.closing (h : Rests a L) (p : Place) :
    ∃ L', Rests (a.closing p) L' ∧ Tracks.Kept L L' := by
  obtain ⟨L', hL', howed, hkept⟩ := h.1.closing h.2 p
  refine ⟨L', ⟨?_, howed⟩, hkept⟩
  rw [rest_closing]
  exact hL'

theorem Mid.closing (h : Mid p φ a L) : ∃ L', Rests (a.closing p) L' ∧ Tracks.Kept L L' := by
  obtain ⟨L', hL', howed, hkept⟩ := h.1.closing h.2 p
  refine ⟨L', ⟨?_, howed⟩, hkept⟩
  rw [rest_closing]
  rwa [Function.update_idem] at hL'

theorem Mid.closing_other (h : Mid p φ a L) (hq : q ≠ p) : ∃ L', Mid p φ (a.closing q) L' := by
  obtain ⟨L', hL', howed, -⟩ := h.1.closing h.2 q
  refine ⟨L', ?_, howed⟩
  rw [rest_closing, Function.update_comm hq]
  exact hL'

theorem Mid.lost (h : Mid p φ a L) (t : UInt64) : ∃ L', Mid p φ (a.finishing t false) L' := by
  obtain ⟨L', hL', howed, -⟩ := h.1.lost h.2 t
  refine ⟨L', ?_, howed⟩
  rw [rest_finishing]
  exact hL'

def closingAll (a : ConsumerRadio) : ConsumerRadio :=
  (((a.closing (.session 0)).closing (.session 1)).closing (.session 2)).closing .recovery

theorem Tracks.closingAll (h : Tracks phase a L) (howed : L.owed = none) :
    ∃ L', Rests a.closingAll L' ∧ Tracks.Kept L L' := by
  obtain ⟨L₁, h₁, howed₁, hkept₁⟩ := h.closing howed (.session 0)
  obtain ⟨L₂, h₂, howed₂, hkept₂⟩ := h₁.closing howed₁ (.session 1)
  obtain ⟨L₃, h₃, howed₃, hkept₃⟩ := h₂.closing howed₂ (.session 2)
  obtain ⟨L₄, h₄, howed₄, hkept₄⟩ := h₃.closing howed₃ .recovery
  refine ⟨L₄, ⟨?_, howed₄⟩, hkept₁.trans (hkept₂.trans (hkept₃.trans hkept₄))⟩
  suffices hrest : a.closingAll.rest = Function.update (Function.update (Function.update
      (Function.update phase (.session 0) none) (.session 1) none) (.session 2) none)
      .recovery none by
    rw [hrest]
    exact h₄
  unfold ConsumerRadio.closingAll
  rw [rest_closing, rest_closing, rest_closing, rest_closing]
  funext q
  match q with
  | .session 0 | .session 1 | .session 2 | .recovery => simp

variable (host : RadioHost ω)

theorem close_api (r : Radio ω) : (close host r).2.api = r.api.closingAll := by
  have hspec : Triple (Is r.api) (close host) fun _ r' => r'.api = r.api.closingAll := by
    refine Is.then_ (closeSlot_api host _) ?_
    refine Is.then_ (closeSlot_api host _) ?_
    refine Is.then_ (closeSlot_api host _) ?_
    intro r' hr'
    rw [closeSlot_api, show r'.api = _ from hr']
    rfl
  exact hspec r rfl

/-! ## Polling -/

/-- The generation of the session in a slot was found current in this call. -/
def Checked (p : Place) (a : ConsumerRadio) (L : Ledger) : Prop :=
  (a.slot p).state ≠ .none → (p, (a.slot p).binding.generation) ∈ L.current

/-- The slots are at rest, and some of them checked, in a call. -/
def Polled (done : List Place) (call : Option (HttpRequest × ConsumerInterface))
    (a : ConsumerRadio) : Prop :=
  ∃ L, Rests a L ∧ L.call = call ∧ ∀ q ∈ done, Checked q a L

variable {done : List Place} {call : Option (HttpRequest × ConsumerInterface)} {now : UInt64}

theorem Polled.held (h : Polled done call a) : Held a := h.imp fun _ hL => hL.1

theorem Polled.closing (h : Polled done call a) (p : Place) :
    Polled (p :: done) call (a.closing p) := by
  obtain ⟨L, hrests, hcall, hdone⟩ := h
  obtain ⟨L', hrests', hkept⟩ := hrests.closing p
  refine ⟨L', hrests', hkept.call.trans hcall, ?_⟩
  intro q hq
  by_cases hqp : q = p
  · subst hqp
    exact fun hne => absurd (by rw [closing_self]) hne
  · intro hne
    rw [(closing_keeps hqp).1] at hne
    rw [(closing_keeps hqp).2, hkept.current]
    exact hdone q ((List.mem_cons.mp hq).resolve_left hqp) hne

theorem Polled.current (h : Polled done call a) (p : Place) :
    Polled (p :: done) call (a.recorded (.current p (a.slot p).binding.generation)) := by
  obtain ⟨L, hrests, hcall, hdone⟩ := h
  have hstep : L.Step a.history (.current p (a.slot p).binding.generation) _ :=
    .current hrests.settled
  have hnote := hrests.1.note hstep rfl rfl
  rw [← rest_recorded (x := .current p (a.slot p).binding.generation)] at hnote
  refine ⟨_, ⟨hnote, hrests.2⟩, hcall, ?_⟩
  intro q hq hne
  rw [slot_recorded] at hne ⊢
  rcases List.mem_cons.mp hq with rfl | hq
  · exact List.mem_cons_self
  · exact List.mem_cons_of_mem _ (hdone q hq hne)

theorem Polled.none (h : Polled done call a) (hnone : (a.slot p).state = .none) :
    Polled (p :: done) call a := by
  obtain ⟨L, hrests, hcall, hdone⟩ := h
  refine ⟨L, hrests, hcall, ?_⟩
  intro q hq
  rcases List.mem_cons.mp hq with rfl | hq
  · exact fun hne => absurd hnone hne
  · exact hdone q hq

theorem pollSlot_polled (healthy : Bool) (now : UInt64) (p : Place) :
    Triple (fun r => Polled done call r.api) (pollSlot host healthy now p)
      fun _ r => Polled (p :: done) call r.api := by
  refine Is.intro fun a ha => ?_
  refine Is.api (Is.look fun current => ?_)
  refine Triple.ite ?_ ?_
  · exact fun hnone => Is.pure fun r hr => by rw [hr]; exact ha.none hnone
  · intro _
    refine Triple.ite ?_ ?_
    · intro _ r hr
      show Polled _ _ (closeSlot host p r).2.api
      rw [closeSlot_api, show r.api = a from hr]
      exact ha.closing p
    · intro _ r hr
      show Polled _ _ (r.api.recorded _)
      rw [show r.api = a from hr]
      exact ha.current p

theorem Polled.frame (h : Polled [] call a) (hhistory : b.history = a.history)
    (hslot : b.slot = a.slot) (hserial : b.sessionSerial = a.sessionSerial) :
    Polled [] call b := by
  obtain ⟨L, hrests, hcall, -⟩ := h
  exact ⟨L, hrests.frame hhistory hslot hserial, hcall, by simp⟩

theorem pollPassword_polled : Triple (fun r => Polled [] call r.api) (pollPassword host)
    fun _ r => Polled [] call r.api := by
  refine Is.intro fun a ha => ?_
  refine Is.api (Is.look fun sequence => ?_)
  refine Triple.ite (fun _ => ?_) fun _ => Is.pure fun r hr => by rwa [hr]
  refine Is.look fun digest => ?_
  refine Triple.bind (R := fun _ r => Polled [] call r.api) ?_ fun _ => Is.intro fun b hb => ?_
  · unfold RadioM.when
    refine Triple.ite (fun _ => ?_) fun _ => Is.pure fun r hr => by rwa [hr]
    intro r hr
    show Polled [] call (close host r).2.api
    rw [close_api, show r.api = a from hr]
    obtain ⟨L, hrests, hcall, -⟩ := ha
    obtain ⟨L', hrests', hkept⟩ := hrests.1.closingAll hrests.2
    exact ⟨L', hrests', hkept.call.trans hcall, by simp⟩
  · refine Is.look fun sequence => ?_
    intro r hr
    have hapi : r.api = b := hr
    exact hb.frame (by show r.api.history = _; rw [hapi])
      (by funext q; show r.api.slot q = _; rw [hapi]) (by show r.api.sessionSerial = _; rw [hapi])

theorem poll_polled (now : UInt64) : Triple (fun r => Polled [] call r.api) (poll host now)
    fun _ r => Polled [.session 2, .session 1, .session 0, .recovery] call r.api := by
  refine Is.intro fun a ha => ?_
  refine Is.update ?_
  have hframe : Polled [] call (a.pollCredential now) := by
    unfold pollCredential
    split
    · exact ha.frame rfl rfl rfl
    · exact ha
  refine Triple.bind (R := fun _ r => Polled [] call r.api)
    ((pollPassword_polled host).strengthen fun r hr => by rw [show r.api = _ from hr]; exact hframe)
    fun _ => Is.intro fun b hb => ?_
  refine Is.api (Is.look fun healthy => ?_)
  refine Triple.bind (R := fun _ r => Polled [.recovery] call r.api) ?_ fun _ => ?_
  · refine (pollSlot_polled host healthy now .recovery).strengthen fun r hr => ?_
    rw [show r.api = _ from hr]
    exact hb
  · exact Triple.bind (pollSlot_polled host healthy now _) fun _ =>
      Triple.bind (pollSlot_polled host healthy now _) fun _ => pollSlot_polled host healthy now _

end ConsumerRadio

end WsprryPico.Network

namespace WsprryPico.Network

open Lib Wtp Wtp.Json
open Provisioning hiding ascii

variable {ω β γ : Type}

namespace ConsumerRadio

variable {a b : ConsumerRadio} {p q : Place} {s : RadioSession} {L L' : Ledger} {x : RadioEvent}
  {φ ψ : Phase} {t : UInt64} {P : Prop} {host : RadioHost ω}

theorem Is.fact {m : RadioM ω γ} {Q : γ → Radio ω → Prop} (h : P → Triple (Is a) m Q) :
    Triple (fun r => r.api = a ∧ P) m Q := fun r hr => h hr.2 r hr.1

theorem Is.held {c : γ} (h : Held a) :
    Triple (Is a) (Pure.pure c : RadioM ω γ) fun _ r => Held r.api :=
  Is.pure fun r hr => by rwa [hr]

/-- The API is this one, with a slot on its way. -/
def Went (b : ConsumerRadio) (p : Place) (φ : Phase) : Radio ω → Prop := fun r =>
  r.api = b ∧ ∃ L, Mid p φ b L

theorem Went.intro {m : RadioM ω γ} {Q : γ → Radio ω → Prop}
    (h : ∀ L, Mid p φ b L → Triple (Is b) m Q) : Triple (Went b p φ) m Q :=
  fun r hr => hr.2.elim fun L hL => h L hL r hr.1

theorem Mid.closed {c : γ} (h : Mid p φ a L) :
    Triple (Is a) (closeSlot host p >>= fun _ => (Pure.pure c : RadioM ω γ))
      fun _ r => Held r.api := by
  refine Is.then_ (closeSlot_api host p) (Is.held ?_)
  obtain ⟨L', hL', -⟩ := h.closing
  exact ⟨L', hL'⟩

theorem Rests.closed {c : γ} (h : Rests a L) (p : Place) :
    Triple (Is a) (closeSlot host p >>= fun _ => (Pure.pure c : RadioM ω γ))
      fun _ r => Held r.api := by
  refine Is.then_ (closeSlot_api host p) (Is.held ?_)
  obtain ⟨L', hL', -⟩ := h.closing p
  exact ⟨L', hL'⟩

/-! ## Ciphers -/

/-- What a place has sealed or proved changes its phase alone. -/
theorem Mid.tried (accepted : Bool) (h : Mid p φ a L)
    (hstep : L.Step a.history x
      (L.put p (some (Ledger.tried ((a.slot p).life φ) ψ accepted))))
    (hψ : ψ ≠ .pending) (hfirst : ψ = .proved →
      (a.slot p).pendingTransaction = none ∧ (a.slot p).nextSequence = 1) :
    ∃ L', Mid p (if accepted then ψ else .failed) (a.recorded x) L' := by
  have hrest : Tracks (Function.update (Function.update a.rest p (some φ)) p
      (some (if accepted then ψ else .failed))) ((a.setSlot p (a.slot p)).recorded x)
      (L.put p (some (Ledger.tried ((a.slot p).life φ) ψ accepted))) := by
    refine h.1.step hstep ?_ rfl (by simp) ?_ (h.1.counted p) ?_
    · cases accepted <;> rfl
    · cases accepted
      · simp
      · simpa [hψ] using hfirst
    · rintro rfl
      exact h.1.recovery
  have hself : a.setSlot p (a.slot p) = a := by
    cases p <;> simp [setSlot, slot]
  rw [Function.update_idem, hself] at hrest
  exact ⟨_, by rw [Mid, rest_recorded]; exact ⟨hrest, h.2⟩⟩

theorem authenticate_spec {request : HttpRequest} (h : Mid p .pending a L) :
    Triple (Is a) (authenticate host p request) fun accepted =>
      Went (a.recorded (.authenticated p (a.slot p).binding.session accepted)) p
        (if accepted then .proved else .failed) := by
  refine Is.api (Is.look fun password => Is.ask fun accepted => Is.record (Is.pure ?_))
  intro r hr
  obtain ⟨L', hL'⟩ := h.tried (ψ := .proved) accepted
    (.authenticated (h.settled (by simp)) h.life rfl) (by simp)
    fun _ => h.1.begun p (Or.inl (by simp))
  exact ⟨hr, L', hL'⟩

theorem sealReply_spec {plaintext : Bytes} {sequence : UInt64} (h : Mid p φ a L)
    (hstep : ∀ accepted, L.Step a.history (.sealed p (a.slot p).binding.session sequence accepted)
      (L.put p (some (Ledger.tried ((a.slot p).life φ) .ready accepted)))) :
    Triple (Is a) (sealReply host p plaintext sequence) fun response =>
      Went (a.recorded (.sealed p (a.slot p).binding.session sequence response.isSome)) p
        (if response.isSome then .ready else .failed) := by
  refine Is.api (Is.ask fun response => Is.record (Is.pure ?_))
  intro r hr
  obtain ⟨L', hL'⟩ := h.tried response.isSome (hstep _) (by simp) (by simp)
  exact ⟨hr, L', hL'⟩

/-! ## Logins -/

theorem draw_spec (p : Place) (taken : Bytes → Bool) (device boot : Bytes)
    (binding : ConsumerRadioBinding) :
    Triple (Is a) (draw host p taken device boot binding) fun _ r => r.api = a := by
  unfold draw
  split
  · exact Is.pure fun _ hr => hr
  · split
    · exact Is.pure fun _ hr => hr
    · refine Is.ask fun out => ?_
      refine Triple.ite (fun _ => Is.pure fun _ hr => hr) fun _ => Is.ask fun out' => ?_
      refine Triple.ite (fun _ => Is.pure fun _ hr => hr) fun _ => Is.ask fun begun => ?_
      exact Is.pure fun _ hr => hr

theorem rest_none (h : (a.slot p).state = .none) : a.rest p = none := by rw [rest, h]; rfl

theorem rest_pending (h : a.rest p = some .pending) : (a.slot p).state = .pending := by
  unfold rest at h
  cases hstate : (a.slot p).state <;> simp [hstate, RadioState.phase] at h ⊢

/-- A slot is at rest behind the start of its session. -/
theorem Rests.start {random : Bytes} (h : Rests a L) (hnone : (a.slot p).state = .none)
    (hserial : a.sessionSerial.toNat ≠ UInt64.size - 1)
    (halone : p ≠ .recovery → ∀ j, (a.sessions j).state ≠ .pending)
    (hid : s.binding.session = stamped random (a.sessionSerial + 1))
    (hidle : s.pendingTransaction = (a.slot p).pendingTransaction)
    (hfirst : s.nextSequence = (a.slot p).nextSequence) (hpending : s.state = .pending)
    (hhistory : b.history = a.history) (hslot : b.slot = Function.update a.slot p s)
    (hnext : b.sessionSerial = a.sessionSerial + 1) :
    Held (b.recorded
      (.started p s.binding.session s.binding.generation s.interface s.authority)) := by
  have hunused := h.1.unused p (rest_none hnone)
  obtain ⟨L', hL', howed⟩ := h.1.start h.settled (rest_none hnone) hserial hid
    (hidle.trans hunused.1) (hfirst.trans hunused.2)
    (fun hp j hj => halone hp j (rest_pending hj)) hhistory hslot hnext
  refine ⟨L', ?_, howed⟩
  have hrest : b.rest = Function.update a.rest p (some .pending) := by
    funext q
    by_cases hq : q = p
    · subst hq
      simp [rest, hslot, hpending, RadioState.phase]
    · simp [rest, hslot, hq]
  rwa [rest_recorded, hrest]

theorem beginSession_held {i : Fin 3} {request : HttpRequest} {now : UInt64}
    {interface : ConsumerInterface} (h : Rests a L) (hnone : (a.sessions i).state = .none)
    (halone : ∀ j, (a.sessions j).state ≠ .pending)
    (hserial : a.sessionSerial.toNat ≠ UInt64.size - 1) :
    Triple (Is a) (beginSession host i request now interface) fun _ r => Held r.api := by
  refine Is.api (Triple.bind (draw_spec _ _ _ _ _) ?_)
  rintro ⟨drawn, binding⟩
  refine Is.update ?_
  have hb := h.touch (p := .session i) (s := { a.sessions i with binding }) hnone hnone rfl rfl
  refine Triple.ite (fun _ => hb.closed _) fun _ => ?_
  refine Is.look fun picoKey => Is.update (Is.record (Is.held ?_))
  refine hb.start (p := .session i)
    (s := { a.sessions i with
      binding := { binding with session := stamped binding.session (a.sessionSerial + 1), picoKey }
      interface, authority := request.header "host", state := .pending, startedMs := now
      seenMs := now })
    (by simpa using hnone) (by simpa using hserial) (fun _ j => ?_) rfl (by simp)
    (by simp) rfl rfl ?_ rfl
  · by_cases hj : j = i
    · subst hj
      simp [hnone]
    · simpa [hj] using halone j
  · funext q
    cases q with
    | recovery => rfl
    | session j =>
      by_cases hj : j = i
      · subst hj
        simp [modifySlot, slot]
      · simp [modifySlot, hj, slot]

theorem start_held (request : HttpRequest) (now : UInt64) (interface : ConsumerInterface) :
    Triple (fun r => Held r.api) (start host request now interface) fun _ r => Held r.api := by
  refine Is.intro fun a ha => ?_
  obtain ⟨L, hL⟩ := ha
  have hheld : Held a := ⟨L, hL⟩
  refine Is.api (Is.look fun sequence => ?_)
  refine Triple.ite (fun _ => Is.held hheld) fun hpending => ?_
  split
  · exact Is.held hheld
  · rename_i i hi
    have hnone : (a.sessions i).state = .none := by
      have hfound := List.find?_some hi
      rw [Bool.and_eq_true, decide_eq_true_eq] at hfound
      exact hfound.2
    refine Triple.ite (fun _ => Is.held hheld) fun _ => ?_
    refine Triple.ite (fun _ => Is.held hheld) fun _ => ?_
    split
    · exact Is.held hheld
    · rename_i root generation _
      split
      · rename_i key nonce _ _
        refine Is.update ?_
        have hb := hL.touch (p := .session i)
          (s := { a.sessions i with
            binding := { (a.sessions i).binding with
              browserKey := key, browserNonce := nonce, generation } }) hnone hnone rfl rfl
        refine Triple.ite (fun _ => Is.held ⟨L, hb⟩) fun hserial => ?_
        refine beginSession_held hb (by simpa [modifySlot, slot] using hnone) (fun j => ?_)
          (by simpa [modifySlot] using hserial)
        have halone : (a.sessions j).state ≠ .pending := by
          have := hpending
          simp only [List.any_eq_true, not_exists] at this
          simpa using fun hj => this j ⟨Tracks.mem_slots j, by simpa using hj⟩
        by_cases hj : j = i
        · subst hj
          simp [modifySlot, slot, hnone]
        · simpa [modifySlot, hj] using halone
      · exact Is.held hheld

theorem Mid.activate {now : UInt64} (h : Mid p .ready a L) :
    Held (a.modifySlot p fun session =>
      { session with state := .active, startedMs := now, seenMs := now }) := by
  refine ⟨L, (h.touch (s := { a.slot p with state := .active, startedMs := now, seenMs := now })
    rfl rfl).rests ?_⟩
  simp [rest, RadioState.phase]

theorem finish_held (i : Fin 3) (request : HttpRequest) (now : UInt64) :
    Triple (fun r => Held r.api) (finish host i request now) fun _ r => Held r.api := by
  refine Is.intro fun a ha => ?_
  obtain ⟨L, hL⟩ := ha
  unfold finish
  refine Is.api (Triple.ite (fun _ => Is.held ⟨L, hL⟩) fun hcond => Is.update ?_)
  have hpending : (a.sessions i).state = .pending := by
    simp only [not_or, ne_eq, not_not] at hcond
    exact hcond.1
  have hphase : a.rest (.session i) = some .pending := by rw [rest, slot_session, hpending]; rfl
  have hmid := (hL.mid hphase).touch
    (s := { a.sessions i with state := .none }) (by simp [RadioSession.life, slot_session]) rfl
  refine Triple.bind (authenticate_spec hmid) fun accepted => Went.intro fun L' hb => ?_
  refine Triple.ite (fun _ => hb.closed) fun haccepted => ?_
  obtain rfl : accepted = true := by simpa using haccepted
  refine Triple.bind
    (sealReply_spec hb fun accepted => .greeted (hb.settled (by simp)) hb.life rfl ?_)
    fun response => Went.intro fun L'' hc => ?_
  · simp [RadioSession.life]
  · cases response with
    | none => exact hc.closed
    | some response =>
      exact Is.update (Is.held hc.activate)

theorem drawRecovery_spec (binding : ConsumerRadioBinding) :
    Triple (Is a) (drawRecovery host a binding) fun out r =>
      r.api = a ∧ (out.1 = true → a.sessionSerial.toNat ≠ UInt64.size - 1) := by
  refine Triple.ite (fun _ => Is.pure fun r hr => ⟨hr, by simp⟩) fun hserial => ?_
  exact (draw_spec _ _ _ _ _).weaken fun _ _ hr => ⟨hr, fun _ => hserial⟩

theorem beginRecovery_held {request : HttpRequest} {now : UInt64} {interface : ConsumerInterface}
    {target : Bytes} {binding : ConsumerRadioBinding} (h : Rests a L)
    (hnone : a.recovery.state = .none) :
    Triple (Is a) (beginRecovery host request now interface target binding)
      fun _ r => Held r.api := by
  refine Is.api (Triple.bind (drawRecovery_spec _) ?_)
  rintro ⟨drawn, binding⟩
  refine Is.fact fun hserial => ?_
  refine Triple.ite (fun _ => h.closed _) fun hdrawn => ?_
  refine Is.look fun picoKey => Is.update (Is.record (Is.held ?_))
  refine h.start (p := .recovery)
    (s := { a.recovery with
      binding := { binding with
        session := stamped binding.session (a.sessionSerial + 1)
        picoKey, recoveryContext := recoveryContext target interface (request.header "host") }
      state := .pending, startedMs := now, interface, authority := request.header "host" })
    hnone (hserial (by simpa using hdrawn)) (fun hp => absurd rfl hp) rfl rfl rfl rfl rfl ?_ rfl
  funext q
  cases q <;> simp [slot]

theorem recoveryStart_held (request : HttpRequest) (now : UInt64) (interface : ConsumerInterface) :
    Triple (fun r => Held r.api) (recoveryStart host request now interface)
      fun _ r => Held r.api := by
  refine Is.intro fun a ha => ?_
  obtain ⟨L, hL⟩ := ha
  have hheld : Held a := ⟨L, hL⟩
  unfold recoveryStart
  refine Is.api (Is.look fun sequence => Triple.ite (fun _ => Is.held hheld) fun _ => ?_)
  refine Triple.ite (fun _ => Is.held hheld) fun hnone => ?_
  refine Triple.ite (fun _ => Is.held hheld) fun _ => ?_
  refine Triple.ite (fun _ => Is.held hheld) fun _ => ?_
  split
  · exact Is.held hheld
  · split
    · refine Triple.ite (fun _ => Is.held hheld) fun _ => ?_
      refine Triple.ite (fun _ => Is.held hheld) fun _ => ?_
      refine Is.update (beginRecovery_held (hL.frame rfl ?_ rfl) (by simpa using hnone))
      funext q
      cases q <;> rfl
    · exact Is.held hheld

theorem retire_held {interface : ConsumerInterface} (h : Mid .recovery .proved a L)
    (hlast : a.history.getLast? = some (.authenticated .recovery a.recovery.binding.session true)) :
    Triple (Is a) (retire host interface) fun _ r => Held r.api := by
  refine Is.api (Triple.ite (fun _ => h.closed) fun _ => ?_)
  refine Triple.bind
    (sealReply_spec h fun accepted => .greeted (h.settled (by simp)) h.life rfl hlast)
    fun response => Went.intro fun L' hb => ?_
  generalize (if response.isSome then _ else none : Option (Fin 3)) = victim
  cases victim with
  | none => exact hb.closed
  | some i =>
    obtain ⟨L'', hc⟩ := hb.closing_other (q := .session i) (by simp)
    exact Is.then_ (closeSlot_api host _) hc.closed

theorem recoveryFinish_held (request : HttpRequest) (interface : ConsumerInterface) :
    Triple (fun r => Held r.api) (recoveryFinish host request interface)
      fun _ r => Held r.api := by
  refine Is.intro fun a ha => ?_
  obtain ⟨L, hL⟩ := ha
  unfold recoveryFinish
  refine Is.api (Triple.ite (fun _ => Is.held ⟨L, hL⟩) fun hcond => ?_)
  refine Triple.ite (fun _ => Is.held ⟨L, hL⟩) fun _ => Is.update ?_
  have hpending : a.recovery.state = .pending := by
    simp only [not_or, ne_eq, not_not] at hcond
    exact hcond.1
  have hphase : a.rest .recovery = some .pending := by rw [rest, slot_recovery, hpending]; rfl
  have hmid := (hL.mid hphase).touch
    (s := { a.recovery with state := .none }) (by simp [RadioSession.life, slot_recovery]) rfl
  refine Triple.bind (authenticate_spec hmid) fun accepted => Went.intro fun L' hb => ?_
  refine Triple.ite (fun _ => hb.closed) fun haccepted => ?_
  obtain rfl : accepted = true := by simpa using haccepted
  exact retire_held hb (by simp [slot, recorded])

end ConsumerRadio

end WsprryPico.Network
