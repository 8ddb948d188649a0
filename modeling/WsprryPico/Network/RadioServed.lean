import WsprryPico.Network.RadioKept

/-!
# The exchange keeps to the ledger

From the opened packet to its reply, and the runs of the API.
-/

namespace WsprryPico.Network

open Lib Wtp Wtp.Json
open Provisioning hiding ascii

variable {ω β γ : Type}

namespace ConsumerRadio

variable {a b : ConsumerRadio} {p q : Place} {s : RadioSession} {L L' : Ledger} {x : RadioEvent}
  {φ ψ : Phase} {t : UInt64} {P : Prop} {host : RadioHost ω} {packet : Packet}

/-! ## Packets on their way -/

/-- The session of a packet is in a phase, and the packet is its last one. -/
def InHand (packet : Packet) (φ : Phase) (a : ConsumerRadio) : Prop :=
  (∃ L, Mid (.session packet.slot) φ a L) ∧ (a.sessions packet.slot).state = .active ∧
    packet.sequence.toNat = (a.sessions packet.slot).nextSequence.toNat - 1

/-- The transaction of a packet, in its slot. -/
def hold (packet : Packet) (a : ConsumerRadio) : ConsumerRadio :=
  a.modifySlot (.session packet.slot) fun session =>
    { session with pendingTransaction := some packet.transaction }

/-- The request of a packet is taken, and its transaction is not yet in the slot. -/
def Taken (packet : Packet) (a : ConsumerRadio) : Prop := InHand packet .passed (a.hold packet)

/-- A packet is opened, and its request may be taken. -/
structure Faces (packet : Packet) (a : ConsumerRadio) (L : Ledger) : Prop where
  mid : Mid (.session packet.slot) .opened a L
  active : (a.sessions packet.slot).state = .active
  last : a.history.getLast? = some (.opened (.session packet.slot)
    (a.sessions packet.slot).binding.session packet.sequence true)
  next : packet.sequence.toNat = (a.sessions packet.slot).nextSequence.toNat - 1
  call : ∃ request interface, L.call = some (request, interface) ∧
    ((a.sessions packet.slot).interface = interface ∧
      (a.sessions packet.slot).authority = request.header "host") ∧
    headerMatches request.body (a.sessions packet.slot).binding.session packet.sequence = true
  current : (.session packet.slot, (a.sessions packet.slot).binding.generation) ∈ L.current
  nonzero : packet.transaction ≠ 0
  free : ∀ j, (a.sessions j).pendingTransaction ≠ some packet.transaction
  idle : (a.sessions packet.slot).pendingTransaction = none

theorem Faces.inHand (h : Faces packet a L) : InHand packet .opened a :=
  ⟨⟨L, h.mid⟩, h.active, h.next⟩

theorem free_ledger (h : Mid p φ a L) (hfree : ∀ j, (a.sessions j).pendingTransaction ≠ some t) :
    ¬ L.Holds t := by
  intro hholds
  obtain ⟨j, hj⟩ := h.1.holds_iff.mp hholds
  exact hfree j hj

theorem Faces.taken (h : Faces packet a L) (sink : Option Sink) :
    Taken packet (a.recorded (.dispatched (.session packet.slot)
      (a.sessions packet.slot).binding.session packet.sequence packet.transaction sink)) := by
  obtain ⟨request, interface, hcall, hfaces, hnames⟩ := h.call
  have hstep : L.Step a.history (.dispatched (.session packet.slot)
      (a.sessions packet.slot).binding.session packet.sequence packet.transaction sink) _ :=
    .dispatched (h.mid.settled (by simp)) h.mid.life rfl h.last h.next hcall hfaces hnames h.current
      h.nonzero (free_ledger h.mid h.free) h.idle
  have hnew := h.mid.step (ψ := .passed)
    (s := { a.sessions packet.slot with pendingTransaction := some packet.transaction }) hstep rfl
    rfl h.mid.2 (by simp) (h.mid.1.counted (.session packet.slot)) (by simp)
  refine ⟨⟨_, hnew⟩, ?_, ?_⟩
  · simpa [hold, modifySlot, recorded, slot] using h.active
  · simpa [hold, modifySlot, recorded, slot] using h.next

/-- A change beside the slots, the history and the serial. -/
theorem Taken.frame (h : Taken packet a) (hhistory : b.history = a.history)
    (hsessions : b.sessions = a.sessions) (hrecovery : b.recovery = a.recovery)
    (hserial : b.sessionSerial = a.sessionSerial) : Taken packet b := by
  obtain ⟨⟨L, hmid⟩, hactive, hnext⟩ := h
  have hslots : (b.hold packet).sessions = (a.hold packet).sessions := by
    simp [hold, modifySlot, slot, hsessions]
  refine ⟨⟨L, hmid.frame (by simpa [hold, modifySlot] using hhistory) ?_
    (by simpa [hold, modifySlot] using hserial)⟩, by rwa [hslots], by rwa [hslots]⟩
  funext q
  cases q with
  | session j => exact congrFun hslots j
  | recovery => exact hrecovery

/-! ## Sinks -/

theorem dispatch_taken (sink : Option Sink) (h : Faces packet a L) :
    Triple (Is a) (dispatch packet sink : RadioM ω Unit) fun _ r => Taken packet r.api := by
  refine Is.api ?_
  intro r hr
  show Taken packet (r.api.recorded _)
  rw [show r.api = a from hr]
  exact h.taken sink

theorem refuse_taken (status : Nat) (code : String) (h : Faces packet a L) :
    Triple (Is a) (refuse packet status code : RadioM ω HttpResponse)
      fun _ r => Taken packet r.api :=
  Triple.bind (dispatch_taken none h) fun _ => Triple.pure fun _ hr => hr

theorem ask_taken {f : ω → β × ω} :
    Triple (fun r => Taken packet r.api) (RadioM.ask f) fun _ r => Taken packet r.api :=
  fun _ hr => hr

theorem setupBusy_spec (inner : InnerRequest) :
    Triple (Is a) (setupBusy host inner) fun _ => Is a := by
  refine Is.api (Triple.ite (fun _ => Is.asked fun _ _ hr => hr) fun _ => Is.pure fun _ hr => hr)

theorem timeSink_taken (inner : InnerRequest) (request : HttpRequest) (h : Faces packet a L) :
    Triple (Is a) (timeSink host packet inner request) fun _ r => Taken packet r.api := by
  refine Is.api (Triple.ite (fun _ => refuse_taken _ _ h) fun _ => ?_)
  refine Triple.ite (fun _ => refuse_taken _ _ h) fun _ => ?_
  exact Triple.bind (dispatch_taken _ h) fun _ => ask_taken

theorem fieldSink_taken (inner : InnerRequest) (request : HttpRequest) (h : Faces packet a L) :
    Triple (Is a) (fieldSink host packet inner request) fun _ r => Taken packet r.api := by
  refine Triple.bind (dispatch_taken _ h) fun _ => Triple.bind ask_taken ?_
  rintro ⟨response, saved⟩ r hr
  have hsaved : Taken packet
      (if saved then { r.api with credentialTransaction := some packet.transaction } else r.api) := by
    split
    · exact hr.frame rfl rfl rfl rfl
    · exact hr
  show Taken packet (if _ then { (if saved then _ else _ : ConsumerRadio) with
    credentialChangedMs := packet.now } else _)
  split
  · exact hsaved.frame rfl rfl rfl rfl
  · exact hsaved

theorem passwordSink_taken (inner : InnerRequest) (request : HttpRequest) (h : Faces packet a L) :
    Triple (Is a) (passwordSink host packet inner request) fun _ r => Taken packet r.api := by
  refine Triple.bind (setupBusy_spec inner) fun busy => Triple.ite (fun _ => ?_) fun _ => ?_
  · exact Triple.bind (refuse_taken _ _ h) fun _ => Triple.pure fun _ hr => hr
  · refine Triple.bind (dispatch_taken _ h) fun _ => Triple.bind ask_taken fun response r hr => ?_
    show Taken packet (if _ then _ else _)
    split
    · exact hr.frame rfl rfl rfl rfl
    · exact hr

theorem setupSink_taken (inner : InnerRequest) (text : Bytes) (h : Faces packet a L) :
    Triple (Is a) (setupSink host packet inner text) fun _ r => Taken packet r.api := by
  exact Is.api (Triple.bind (dispatch_taken _ h) fun _ => ask_taken)

theorem apiSink_taken (inner : InnerRequest) (request : HttpRequest) (h : Faces packet a L) :
    Triple (Is a) (apiSink host packet inner request) fun _ r => Taken packet r.api := by
  refine Is.api (Triple.bind (setupBusy_spec inner) fun busy => Triple.ite (fun _ => ?_) fun _ => ?_)
  · exact refuse_taken _ _ h
  · exact Triple.bind (dispatch_taken _ h) fun _ => ask_taken

theorem serve_taken (inner : InnerRequest) (text : Bytes) (h : Faces packet a L) :
    Triple (Is a) (serve host packet inner text) fun _ r => Taken packet r.api := by
  have hpair {response : RadioM ω HttpResponse}
      (hm : Triple (Is a) response fun _ r => Taken packet r.api) :
      Triple (Is a) (response >>= fun response => (Pure.pure (response, false) : RadioM ω _))
        fun _ r => Taken packet r.api :=
    Triple.bind hm fun _ => Triple.pure fun _ hr => hr
  refine Is.api (Triple.ite (fun _ => hpair (timeSink_taken _ _ h)) fun _ => ?_)
  refine Triple.ite (fun _ => hpair (fieldSink_taken _ _ h)) fun _ => ?_
  refine Triple.ite (fun _ => passwordSink_taken _ _ h) fun _ => ?_
  exact Triple.ite (fun _ => hpair (setupSink_taken _ _ h)) fun _ => hpair (apiSink_taken _ _ h)

theorem respond_spec (inner : InnerRequest) (text : Bytes) (h : Faces packet a L) :
    Triple (Is a) (respond host packet inner text) fun _ r => InHand packet .passed r.api := by
  refine Triple.bind (serve_taken inner text h) ?_
  rintro ⟨response, saved⟩
  refine Triple.bind (R := fun _ r => Taken packet r.api) ?_ fun response r hr => by
    show InHand packet .passed (r.api.hold packet)
    exact hr
  refine Triple.ite (fun _ => ?_) fun _ => Triple.pure fun _ hr => hr
  exact Triple.bind ask_taken fun _ => Triple.pure fun _ hr => hr

/-! ## Replies -/

/-- What is left of a packet behind its reply: an answer leaves its session ready. -/
def Answered (packet : Packet) (sealed : Bool) (a : ConsumerRadio) : Prop :=
  ∃ φ, InHand packet φ a ∧ (sealed = true → φ = .ready)

theorem InHand.held (h : InHand packet .ready a) : Held a := by
  obtain ⟨⟨L, hmid⟩, hactive, -⟩ := h
  refine ⟨L, hmid.rests ?_⟩
  rw [rest, slot_session, hactive]
  rfl

theorem InHand.recorded_sealed {sealed : Bool} (h : InHand packet φ a) (hφ : φ.Busy) :
    InHand packet (if sealed then .ready else .failed) (a.recorded
      (.sealed (.session packet.slot) (a.sessions packet.slot).binding.session packet.sequence
        sealed)) := by
  obtain ⟨⟨L, hmid⟩, hactive, hnext⟩ := h
  have hφ' : φ ≠ .failed := by
    rintro rfl
    rcases hφ with h | h <;> cases h
  obtain ⟨L', hL'⟩ := hmid.tried sealed (.replied (hmid.settled hφ') hmid.life hφ hnext) (by simp)
    (by simp)
  exact ⟨⟨L', hL'⟩, hactive, hnext⟩

theorem sealResponse_spec {response : HttpResponse} (h : InHand packet φ a) (hφ : φ.Busy) :
    Triple (Is a) (sealResponse host packet response)
      fun result r => Answered packet result.isSome r.api := by
  have hmade : Triple (Is a) (enveloped host response) fun _ => Is a := by
    unfold enveloped
    split <;> first | exact Is.asked fun _ _ hr => hr | exact Is.pure fun _ hr => hr
  refine Triple.bind hmade fun made => Triple.ite (fun _ => Is.pure fun r hr => ?_) fun _ => ?_
  · rw [hr]
    exact ⟨φ, h, by simp⟩
  · unfold sealReply
    refine Is.api (Is.ask fun result => Is.record (Is.pure fun r hr => ?_))
    rw [hr]
    refine ⟨_, h.recorded_sealed hφ, ?_⟩
    intro hsome
    rw [if_pos hsome]

theorem InHand.frame (h : InHand packet φ a) (hhistory : b.history = a.history)
    (hslot : b.slot = a.slot) (hserial : b.sessionSerial = a.sessionSerial) :
    InHand packet φ b := by
  have hsession : b.sessions packet.slot = a.sessions packet.slot :=
    congrFun hslot (.session packet.slot)
  rw [InHand, hsession]
  exact ⟨h.1.imp fun _ hL => hL.frame hhistory hslot hserial, h.2⟩

theorem InHand.closingAll (h : InHand packet φ a) : Held a.closingAll := by
  obtain ⟨⟨L, hmid⟩, -⟩ := h
  obtain ⟨L', hL', -⟩ := hmid.1.closingAll hmid.2
  exact ⟨L', hL'⟩

theorem Held.lost (h : Held a) (t : UInt64) : Held (a.finishing t false) := by
  obtain ⟨L, hL⟩ := h
  obtain ⟨L', hL', howed, -⟩ := hL.1.lost hL.2 t
  exact ⟨L', by rw [rest_finishing]; exact hL', howed⟩

theorem Held.closing (h : Held a) (p : Place) : Held (a.closing p) := by
  obtain ⟨L, hL⟩ := h
  obtain ⟨L', hL', -⟩ := hL.closing p
  exact ⟨L', hL'⟩

theorem Held.closingAll (h : Held a) : Held a.closingAll := by
  obtain ⟨L, hL⟩ := h
  obtain ⟨L', hL', -⟩ := hL.1.closingAll hL.2
  exact ⟨L', hL'⟩

theorem InHand.lost (h : InHand packet φ a) (t : UInt64) : ∃ L,
    Mid (.session packet.slot) φ (a.finishing t false) L := by
  obtain ⟨⟨L, hmid⟩, -⟩ := h
  exact hmid.lost t

theorem lost_held {c : HttpResponse} (h : InHand packet φ a) (saved : Bool) :
    Triple (Is a) (finishRequest host packet.transaction false >>= fun _ =>
      closeSaved host packet saved >>= fun _ => (Pure.pure c : RadioM ω HttpResponse))
      fun _ r => Held r.api := by
  obtain ⟨L, hmid⟩ := h.lost packet.transaction
  refine Is.then_ (f := (·.finishing packet.transaction false)) (finishRequest_api host _ _) ?_
  cases saved with
  | false => exact hmid.closed
  | true =>
    refine Is.then_ (f := closingAll) (close_api host) (Is.held ?_)
    obtain ⟨L', hL', -⟩ := hmid.1.closingAll hmid.2
    exact ⟨L', hL'⟩

theorem reply_held {result : HttpResponse} {saved : Bool} (h : InHand packet φ a) (hφ : φ.Busy) :
    Triple (Is a) (reply host packet result saved) fun _ r => Held r.api := by
  refine Is.look fun fits => Triple.ite (fun _ => lost_held h saved) fun _ => ?_
  refine Triple.bind (sealResponse_spec h hφ) fun response => Is.intro fun b hb => ?_
  obtain ⟨ψ, hb, hready⟩ := hb
  unfold retirePassword
  cases saved with
  | true =>
    refine Triple.bind (R := fun _ r => Held r.api) ?_ fun _ => Is.intro fun c hc => ?_
    · refine Is.api (Is.look fun sequence => Is.look fun digest => Is.update ?_)
      intro r hr
      show Held (close host r).2.api
      rw [close_api, show r.api = _ from hr]
      rw [if_pos rfl]
      have hframe : InHand packet ψ { b with
          passwordSequence := sequence, passwordDigest := digest } := hb.frame rfl rfl rfl
      exact hframe.closingAll
    · cases response with
      | none =>
        refine Is.then_ (f := (·.finishing packet.transaction false)) (finishRequest_api host _ _) ?_
        exact Is.then_ (closeSlot_api host _) (Is.held ((hc.lost _).closing _))
      | some response => exact Is.held hc
  | false =>
    refine Triple.bind (R := fun _ => Is b) ?_ fun _ => ?_
    · refine Is.api (Is.look fun sequence => Is.look fun digest => Is.update ?_)
      exact Is.pure fun _ hr => hr
    · cases response with
      | none =>
        obtain ⟨L, hmid⟩ := hb.lost packet.transaction
        exact Is.then_ (f := (·.finishing packet.transaction false)) (finishRequest_api host _ _)
          hmid.closed
      | some response =>
        obtain rfl := hready rfl
        exact Is.held hb.held

/-! ## The exchange -/

theorem Faces.touch (h : Faces packet a L)
    (hs : s = { a.sessions packet.slot with seenMs := s.seenMs }) :
    Faces packet (a.setSlot (.session packet.slot) s) L := by
  generalize s.seenMs = seen at hs
  subst hs
  have hself : ((a.setSlot (.session packet.slot)
      { a.sessions packet.slot with seenMs := seen }).sessions packet.slot) =
      { a.sessions packet.slot with seenMs := seen } := by simp
  constructor
  · exact h.mid.touch rfl rfl
  · rw [hself]; exact h.active
  · rw [hself]; exact h.last
  · rw [hself]; exact h.next
  · rw [hself]; exact h.call
  · rw [hself]; exact h.current
  · exact h.nonzero
  · intro j
    by_cases hj : j = packet.slot
    · subst hj
      rw [hself]
      exact h.free packet.slot
    · simpa [hj] using h.free j
  · rw [hself]; exact h.idle

theorem command_held {inner : InnerRequest} (h : Faces packet a L) :
    Triple (Is a) (command host packet inner) fun _ r => Held r.api := by
  refine Is.update ?_
  generalize hb : a.modifySlot (.session packet.slot) _ = b
  have hfaces : Faces packet b L := by
    subst hb
    unfold modifySlot
    split
    · exact h.touch rfl
    · exact h.touch rfl
  refine Is.look fun payload => ?_
  split
  · exact hfaces.mid.closed
  · refine Triple.ite (fun _ => ?_) fun _ => ?_
    · refine Triple.bind (sealReply_spec hfaces.mid fun accepted => .replied
        (hfaces.mid.settled (by simp)) hfaces.mid.life (Or.inl rfl) hfaces.next) fun response => ?_
      exact Went.intro fun L' hc => hc.closed
    · refine Triple.bind (respond_spec _ _ hfaces) ?_
      rintro ⟨response, saved⟩
      exact Is.intro fun c hc => reply_held hc (Or.inr rfl)

/-- `openPacket`, without the cipher. -/
def opening (i : Fin 3) (accepted : Bool) (a : ConsumerRadio) : ConsumerRadio :=
  (a.setSlot (.session i)
      { a.sessions i with nextSequence := (a.sessions i).nextSequence + 1 }).recorded
    (.opened (.session i) (a.sessions i).binding.session (a.sessions i).nextSequence accepted)

theorem openPacket_spec {i : Fin 3} {request : HttpRequest} (h : Rests a L)
    (hactive : (a.sessions i).state = .active)
    (hlast : (a.sessions i).nextSequence.toNat ≠ UInt64.size - 1) :
    Triple (Is a) (openPacket host i request) fun plaintext r =>
      r.api = a.opening i plaintext.isSome ∧
      ((a.sessions i).nextSequence + 1).toNat - 1 = (a.sessions i).nextSequence.toNat ∧
      ∃ L', Mid (.session i) (if plaintext.isSome then .opened else .failed)
        (a.opening i plaintext.isSome) L' ∧ Tracks.Kept L L' := by
  have hphase : a.rest (.session i) = some .ready := by rw [rest, slot_session, hactive]; rfl
  have hmid := h.mid hphase
  have hcounted := h.1.counted (.session i)
  have hsucc : ((a.sessions i).nextSequence + 1).toNat = (a.sessions i).nextSequence.toNat + 1 := by
    have := (a.sessions i).nextSequence.toNat_lt
    rw [UInt64.toNat_add]
    simp only [UInt64.size] at hlast
    show ((a.sessions i).nextSequence.toNat + 1) % 2 ^ 64 = _
    omega
  unfold openPacket
  refine Is.api (Is.update (Is.ask fun plaintext => Is.record (Is.pure fun r hr =>
    ⟨hr, by rw [hsucc]; rfl, ?_⟩)))
  have hopened : ((a.sessions i).nextSequence + 1).toNat - 1 =
      (a.sessions i).nextSequence.toNat - 1 + 1 := by
    rw [slot_session] at hcounted
    omega
  have hstep : L.Step a.history (.opened (.session i) (a.sessions i).binding.session
      (a.sessions i).nextSequence plaintext.isSome) _ :=
    .opened (hmid.settled (by simp)) hmid.life rfl
      (show (a.sessions i).nextSequence.toNat = (a.sessions i).nextSequence.toNat - 1 + 1 by
        rw [slot_session] at hcounted
        omega)
  refine ⟨_, hmid.step (s := { a.sessions i with nextSequence := (a.sessions i).nextSequence + 1 })
    hstep ?_ rfl hmid.2 ?_ ?_ (by simp), rfl, rfl⟩
  · show Function.update _ _ _ = Function.update _ _ _
    congr 2
    cases plaintext.isSome <;>
      simp [RadioSession.life, Ledger.tried, slot_session, hopened, -UInt64.toNat_add]
  · cases plaintext.isSome <;> simp
  · simp [hsucc, -UInt64.toNat_add]

theorem opened_held (h : Faces packet a L) (plaintext : Bytes) :
    Triple (Is a)
      (match InnerRequest.read plaintext with
        | none => reply host packet (httpError 400 "invalid_radio_request") false
        | some inner => command host packet inner)
      fun _ r => Held r.api := by
  cases InnerRequest.read plaintext with
  | none => exact reply_held h.inHand (Or.inl rfl)
  | some inner => exact command_held h

theorem exchange_held {i : Fin 3} {request : HttpRequest} {interface : ConsumerInterface}
    {now transaction : UInt64} (h : Rests a L) (hcall : L.call = some (request, interface))
    (hfaces : (a.sessions i).interface = interface ∧
      (a.sessions i).authority = request.header "host")
    (hcurrent : Checked (.session i) a L) :
    Triple (Is a) (exchange host i request now transaction) fun _ r => Held r.api := by
  refine Is.api (Triple.ite (fun _ => h.closed _) fun hlast => ?_)
  refine Triple.ite (fun _ => Is.held ⟨L, h⟩) fun hcond => ?_
  refine Triple.ite (fun _ => Is.held ⟨L, h⟩) fun hfree => ?_
  simp only [not_or, ne_eq, not_not, Bool.not_eq_true', Bool.not_eq_false, Bool.not_eq_true,
    Option.isSome_eq_false_iff, Option.isNone_iff_eq_none] at hcond
  obtain ⟨hactive, hidle, -, hnames⟩ := hcond
  simp only [not_or, List.any_eq_true, not_exists, decide_eq_true_eq, not_and] at hfree
  refine Triple.bind (openPacket_spec h hactive fun hmax => hlast ⟨hactive, hmax⟩)
    fun plaintext => ?_
  refine Is.fact fun hopened => ?_
  obtain ⟨hnext, L', hmid, hkept⟩ := hopened
  cases plaintext with
  | none => exact hmid.closed
  | some plaintext =>
    have hself : (a.opening i true).sessions i =
        { a.sessions i with nextSequence := (a.sessions i).nextSequence + 1 } := by
      simp [opening, recorded]
    have hopen : Faces { slot := i, sequence := (a.sessions i).nextSequence, transaction, now }
        (a.opening i true) L' := by
      constructor
      · exact hmid
      · rw [hself]; exact hactive
      · rw [hself]; simp [opening]
      · rw [hself]; exact hnext.symm
      · rw [hself]
        exact ⟨request, interface, hkept.call.trans hcall, hfaces, hnames⟩
      · rw [hself, hkept.current]
        exact hcurrent (by rw [slot_session, hactive]; simp)
      · exact hfree.1
      · intro j
        by_cases hj : j = i
        · subst hj
          rw [hself]
          exact fun ht => hfree.2 j (Tracks.mem_slots j) ht
        · simpa [opening, recorded, hj] using fun ht => hfree.2 j (Tracks.mem_slots j) ht
      · rw [hself]; exact hidle
    exact opened_held hopen plaintext

/-! ## Requests -/

/-- All slots are at rest and checked, in a call of `handle`. -/
def Ready (request : HttpRequest) (interface : ConsumerInterface) (a : ConsumerRadio) : Prop :=
  Polled [.session 2, .session 1, .session 0, .recovery] (some (request, interface)) a

section Requests

variable {request : HttpRequest} {interface : ConsumerInterface} {now transaction : UInt64}

theorem packetRequest_held : Triple (fun r => Ready request interface r.api)
    (packetRequest host request now transaction interface) fun _ r => Held r.api := by
  refine Is.intro fun a ha => ?_
  obtain ⟨L, hL, hcall, hdone⟩ := ha
  unfold packetRequest
  refine Is.api ?_
  split
  · exact Is.held ⟨L, hL⟩
  · rename_i i _
    refine Triple.ite (fun _ => Is.held ⟨L, hL⟩) fun hcontext => ?_
    simp only [not_or, ne_eq, not_not] at hcontext
    refine Triple.ite (fun _ => (finish_held i request now).strengthen fun r hr => ?_) fun _ => ?_
    · rw [show r.api = a from hr]
      exact ⟨L, hL⟩
    · refine Triple.ite (fun _ => ?_) fun _ => Is.held ⟨L, hL⟩
      refine exchange_held hL hcall ⟨hcontext.1.symm, hcontext.2.symm⟩ (hdone _ ?_)
      match i with
      | 0 | 1 | 2 => simp

theorem sessionRequest_held : Triple (fun r => Ready request interface r.api)
    (sessionRequest host request now transaction interface) fun _ r => Held r.api := by
  have hheld : ∀ r : Radio ω, Ready request interface r.api → Held r.api := fun _ hr => hr.held
  refine Triple.ite (fun _ => Triple.pure hheld) fun _ => ?_
  refine Triple.ite (fun _ => (start_held request now interface).strengthen hheld) fun _ => ?_
  refine Triple.ite (fun _ => (recoveryStart_held request now interface).strengthen hheld)
    fun _ => ?_
  exact Triple.ite (fun _ => (recoveryFinish_held request interface).strengthen hheld)
    fun _ => packetRequest_held

theorem observed_held (h : Held a) (hfixed : PublicRead request) :
    Held (a.recorded (.observed request)) := by
  obtain ⟨L, hL⟩ := h
  have hnote := hL.1.note (.observed hL.settled hfixed) rfl rfl
  exact ⟨L, by rwa [rest_recorded], hL.2⟩

theorem wrapControl_held (special : Bool) (response : HttpResponse) :
    Triple (fun r => Held r.api) (wrapControl host special response) fun _ r => Held r.api := by
  refine Triple.ite (fun _ => ?_) fun _ => Triple.pure fun _ hr => hr
  exact Triple.bind (R := fun _ r => Held r.api) (fun _ hr => hr) fun _ => Triple.pure fun _ hr => hr

theorem observe_held {resource : Bytes} (h : Held a) (hlisted : resource ∈ publicReadResources) :
    Triple (Is a) (observe host resource transaction) fun _ r => Held r.api := by
  have hread : Held (a.recorded (.observed (publicRequest resource))) :=
    observed_held h (Or.inr ⟨resource, hlisted, rfl⟩)
  refine Is.api (Triple.ite (fun _ => Is.record (Is.ask fun response => ?_)) fun _ => ?_)
  · exact (wrapControl_held true response).strengthen fun r hr => by rw [hr]; exact hread
  · refine Triple.ite (fun _ => Is.record (Is.ask fun response => ?_)) fun _ => ?_
    · exact (wrapControl_held true response).strengthen fun r hr => by
        rw [hr]
        exact observed_held h (Or.inl rfl)
    · exact Is.record (Is.asked fun _ r hr => by rw [hr]; exact hread)

theorem publicRead_held : Triple (fun r => Held r.api) (publicRead host request transaction)
    fun _ r => Held r.api := by
  refine Is.intro fun a ha => ?_
  refine Is.api (Is.look fun memory => Triple.ite (fun _ => Is.held ha) fun _ => ?_)
  refine Triple.ite (fun _ => Is.held ha) fun _ => Triple.ite (fun _ => Is.held ha) fun _ => ?_
  refine Triple.ite (fun _ => Is.held ha) fun _ => Triple.ite (fun _ => Is.held ha) fun _ => ?_
  exact Triple.ite (fun _ => Is.held ha) fun hlisted => observe_held ha (not_not.mp hlisted)

theorem handle_held (request : HttpRequest) (now transaction : UInt64)
    (interface : ConsumerInterface) : Triple (fun r => Held r.api)
    (handle host request now transaction interface) fun _ r => Held r.api := by
  refine Is.intro fun a ha => ?_
  obtain ⟨L, hL⟩ := ha
  unfold handle
  refine Is.record ?_
  have hpolled : Polled [] (some (request, interface))
      (a.recorded (.handled request interface)) := by
    have hstep : L.Step a.history (.handled request interface) _ := .handled hL.ledger_rests
    have hnote := hL.1.note hstep rfl rfl
    rw [← rest_recorded (x := .handled request interface)] at hnote
    exact ⟨_, ⟨hnote, hL.2⟩, rfl, by simp⟩
  refine Triple.bind ((poll_polled host now).strengthen fun r hr => by rw [hr]; exact hpolled)
    fun _ => Is.intro fun b hb => ?_
  have hready : Ready request interface b := hb
  refine Is.api (Is.look fun open_ => Is.look fun page => ?_)
  refine Triple.ite (fun _ => Is.held hready.held) fun _ => ?_
  refine Triple.ite (fun _ => Is.held hready.held) fun _ => ?_
  refine Triple.ite (fun _ => publicRead_held.strengthen fun r hr => ?_) fun _ => ?_
  · rw [show r.api = b from hr]
    exact hready.held
  refine Triple.ite (fun _ => ?_) fun _ => ?_
  · refine Triple.ite (fun _ => Is.held hready.held) fun _ => Is.asked fun _ r hr => ?_
    rw [hr]
    exact hready.held
  refine Triple.ite (fun _ => Is.held hready.held) fun _ => ?_
  refine Triple.ite (fun _ => Is.looked fun _ r hr => by rw [hr]; exact hready.held) fun _ => ?_
  refine Triple.ite (fun _ => Is.looked fun _ r hr => by rw [hr]; exact hready.held) fun _ => ?_
  exact sessionRequest_held.strengthen fun r hr => by rw [hr]; exact hready

end Requests

/-! ## The other calls -/

theorem Held.frame (h : Held a) (hhistory : b.history = a.history) (hslot : b.slot = a.slot)
    (hserial : b.sessionSerial = a.sessionSerial) : Held b :=
  h.imp fun _ hL => hL.frame hhistory hslot hserial

theorem hearSlot_held (ap : Bool) (ip name : Bytes) (p : Place) :
    Triple (fun r => Held r.api) (hearSlot host ap ip name p) fun _ r => Held r.api := by
  refine Is.intro fun a ha => ?_
  refine Is.api (Triple.ite (fun _ r hr => ?_) fun _ => Is.held ha)
  show Held (closeSlot host p r).2.api
  rw [closeSlot_api, show r.api = a from hr]
  exact ha.closing p

theorem listeners_held (ap : Bool) (stationIp hostname : Bytes) :
    Triple (fun r => Held r.api) (listeners host ap stationIp hostname) fun _ r => Held r.api := by
  refine Is.intro fun a ha => ?_
  refine Is.api (Triple.ite (fun _ => Is.held ha) fun _ => ?_)
  refine Triple.bind ((hearSlot_held ap _ _ _).strengthen fun r hr => by rw [hr]; exact ha)
    fun _ => ?_
  refine Triple.bind (hearSlot_held ap _ _ _) fun _ => Triple.bind (hearSlot_held ap _ _ _) fun _ =>
    Triple.bind (hearSlot_held ap _ _ _) fun _ r hr => ?_
  exact Held.frame hr rfl rfl rfl

theorem admission_held (admissionOpen : Bool) :
    Triple (fun r => Held r.api) (admission host admissionOpen) fun _ r => Held r.api := by
  refine Is.intro fun a ha => ?_
  have hb : Held { a with admissionOpen } := ha.frame rfl rfl rfl
  refine Is.update (Triple.ite (fun _ r hr => ?_) fun _ => Is.held hb)
  show Held (close host r).2.api
  rw [close_api, show r.api = _ from hr]
  exact hb.closingAll

theorem perform_held (call : RadioCall ω) :
    Triple (fun r => Held r.api) (Radio.perform host call) fun _ r => Held r.api := by
  cases call with
  | handle request now transaction interface =>
    exact Triple.bind (handle_held request now transaction interface)
      fun _ => Triple.pure fun _ hr => hr
  | poll now =>
    intro r hr
    obtain ⟨L, hL⟩ := hr
    exact Polled.held (poll_polled host now r ⟨L, hL, rfl, by simp⟩)
  | finishRequest transaction apply =>
    refine Is.intro fun a ha => Is.record fun r hr => ?_
    rw [finishRequest_api, show r.api = _ from hr]
    obtain ⟨L, hL⟩ := ha
    obtain ⟨L', hL', howed, -⟩ := hL.1.reported hL.settled transaction apply
    exact ⟨L', by rw [rest_finishing, rest_recorded]; exact hL', howed⟩
  | close =>
    intro r hr
    show Held (close host r).2.api
    rw [close_api]
    exact hr.closingAll
  | listeners ap stationIp hostname => exact listeners_held ap stationIp hostname
  | admission admissionOpen => exact admission_held admissionOpen
  | passwordStorage =>
    intro r hr
    exact Held.frame hr rfl rfl rfl
  | timeAuthority =>
    intro r hr
    exact Held.frame hr rfl rfl rfl
  | setupHandler hooks =>
    intro r hr
    exact Held.frame hr rfl rfl rfl
  | elsewhere world => exact fun _ hr => hr

/-- The API keeps to its ledger over all runs. -/
theorem run_held (host : RadioHost ω) (device boot : Bytes) (crypto recovery : Bool) (world : ω)
    (calls : List (RadioCall ω)) :
    Held (Radio.run host device boot crypto recovery world calls).api := by
  suffices hrun : ∀ r : Radio ω, Held r.api →
      Held (calls.foldl (fun r call => (Radio.perform host call r).2) r).api by
    refine hrun _ ⟨{}, ⟨.nil, ?_, ?_, ?_, ?_, rfl, by simp⟩, rfl⟩
    · intro p
      cases p <;> rfl
    · intro p _
      cases p <;> exact ⟨rfl, rfl⟩
    · intro p _
      cases p <;> exact ⟨rfl, rfl⟩
    · intro p
      cases p <;> exact Nat.one_pos
  induction calls with
  | nil => exact fun _ hr => hr
  | cons call calls ih => exact fun r hr => ih _ (perform_held call r hr)

end ConsumerRadio

end WsprryPico.Network
