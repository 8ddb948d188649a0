import WsprryPico.Network.RadioLedger
import WsprryPico.Lib.Triple

/-!
# The radio API and its ledger

`Tracks`: the slots of the API hold the lives of the ledger, each in a phase. What one event
does to both, and what `finish_request`, `close` and `poll` do.
-/

namespace WsprryPico.Network

open Lib Wtp Wtp.Json
open Provisioning hiding ascii

variable {ω β γ : Type}

def RadioState.phase : RadioState → Option Phase
  | .none => Option.none
  | .pending => some .pending
  | .active => some .ready

def RadioSession.life (phase : Phase) (s : RadioSession) : Life where
  id := s.binding.session
  generation := s.binding.generation
  interface := s.interface
  authority := s.authority
  phase
  opened := s.nextSequence.toNat - 1
  transaction := s.pendingTransaction

namespace ConsumerRadio

variable {a b : ConsumerRadio} {p q : Place} {s : RadioSession} {L L' : Ledger} {x : RadioEvent}
  {phase : Place → Option Phase} {φ : Option Phase} {t : UInt64}

def recorded (x : RadioEvent) (a : ConsumerRadio) : ConsumerRadio :=
  { a with history := a.history ++ [x] }

@[simp] theorem slot_recorded : (a.recorded x).slot q = a.slot q := by cases q <;> rfl
@[simp] theorem history_recorded : (a.recorded x).history = a.history ++ [x] := rfl
@[simp] theorem serial_recorded : (a.recorded x).sessionSerial = a.sessionSerial := rfl

@[simp] theorem history_setSlot : (a.setSlot p s).history = a.history := by cases p <;> rfl
@[simp] theorem serial_setSlot : (a.setSlot p s).sessionSerial = a.sessionSerial := by
  cases p <;> rfl
@[simp] theorem setup_setSlot : (a.setSlot p s).setup = a.setup := by cases p <;> rfl

theorem slot_setSlot : (a.setSlot p s).slot = Function.update a.slot p s := by
  funext q
  cases p <;> cases q <;> simp [setSlot, slot, Function.update_apply]

@[simp] theorem slot_setSlot_self : (a.setSlot p s).slot p = s := by simp [slot_setSlot]

@[simp] theorem slot_setSlot_of_ne (h : q ≠ p) : (a.setSlot p s).slot q = a.slot q := by
  simp [slot_setSlot, h]

@[simp] theorem sessions_setSlot {i : Fin 3} :
    (a.setSlot (.session i) s).sessions = Function.update a.sessions i s := rfl

theorem slot_session (i : Fin 3) : a.slot (.session i) = a.sessions i := rfl

theorem slot_recovery : a.slot .recovery = a.recovery := rfl

/-! ## What closing does to the API -/

/-- `finish_request`, without the calls it makes. -/
def finishing (t : UInt64) (apply : Bool) (a : ConsumerRadio) : ConsumerRadio :=
  match slots.find? fun i => (a.sessions i).pendingTransaction = some t with
  | none => a
  | some i =>
    (a.modifySlot (.session i) fun s => { s with pendingTransaction := none }).recorded
      (.finished t apply)

def cancelling (a : ConsumerRadio) : Option UInt64 → ConsumerRadio
  | some t => a.finishing t false
  | none => a

/-- `close` of a slot, without the calls it makes. -/
def closing (p : Place) (a : ConsumerRadio) : ConsumerRadio :=
  ((a.cancelling (a.slot p).pendingTransaction).setSlot p { crypto := (a.slot p).crypto }).recorded
    (.closed p (a.slot p).binding.session)

theorem finishing_keeps (t : UInt64) (apply : Bool) (a : ConsumerRadio) (q : Place) :
    ((a.finishing t apply).slot q).state = (a.slot q).state ∧
      ((a.finishing t apply).slot q).binding = (a.slot q).binding := by
  unfold finishing
  split
  · exact ⟨rfl, rfl⟩
  · rename_i i _
    by_cases hq : q = .session i
    · subst hq
      simp [modifySlot]
    · simp [modifySlot, hq]

theorem cancelling_keeps (t : Option UInt64) (a : ConsumerRadio) (q : Place) :
    ((a.cancelling t).slot q).state = (a.slot q).state ∧
      ((a.cancelling t).slot q).binding = (a.slot q).binding := by
  cases t with
  | none => exact ⟨rfl, rfl⟩
  | some t => exact finishing_keeps t false a q

theorem closing_self : (a.closing p).slot p = { crypto := (a.slot p).crypto } := by
  simp [closing]

theorem closing_keeps (h : q ≠ p) : ((a.closing p).slot q).state = (a.slot q).state ∧
    ((a.closing p).slot q).binding = (a.slot q).binding := by
  simpa [closing, h] using cancelling_keeps (a.slot p).pendingTransaction a q

/-! ## Computations that know the API -/

def Is (a : ConsumerRadio) : Radio ω → Prop := fun r => r.api = a

section Is

variable {host : RadioHost ω} {Q : γ → Radio ω → Prop} {k : β → RadioM ω γ} {m : RadioM ω β}

theorem Is.intro {P : ConsumerRadio → Prop} {Q : β → Radio ω → Prop}
    (h : ∀ a, P a → Triple (Is a) m Q) : Triple (fun r => P r.api) m Q :=
  fun r hr => h r.api hr r rfl

theorem Is.pure {c : γ} (h : ∀ r : Radio ω, r.api = a → Q c r) :
    Triple (Is a) (Pure.pure c : RadioM ω γ) Q := Triple.pure h

theorem Is.api {k : ConsumerRadio → RadioM ω γ} (h : Triple (Is a) (k a) Q) :
    Triple (Is a) (RadioM.api >>= k) Q := by
  intro r hr
  subst hr
  exact h r rfl

theorem Is.look {f : ω → β} (h : ∀ x, Triple (Is a) (k x) Q) :
    Triple (Is a) (RadioM.look f >>= k) Q := fun r hr => h (f r.world) r hr

theorem Is.ask {f : ω → β × ω} (h : ∀ x, Triple (Is a) (k x) Q) :
    Triple (Is a) (RadioM.ask f >>= k) Q := fun _ hr => h _ _ hr

theorem Is.asked {f : ω → γ × ω} (h : ∀ x (r : Radio ω), r.api = a → Q x r) :
    Triple (Is a) (RadioM.ask f) Q := fun _ hr => h _ _ hr

theorem Is.looked {f : ω → γ} (h : ∀ x (r : Radio ω), r.api = a → Q x r) :
    Triple (Is a) (RadioM.look f) Q := fun _ hr => h _ _ hr

theorem Is.update {f : ConsumerRadio → ConsumerRadio} {k : Unit → RadioM ω γ}
    (h : Triple (Is (f a)) (k ()) Q) : Triple (Is a) (RadioM.update f >>= k) Q := by
  intro r hr
  subst hr
  exact h { r with api := f r.api } rfl

theorem Is.record {k : Unit → RadioM ω γ} (h : Triple (Is (a.recorded x)) (k ()) Q) :
    Triple (Is a) (RadioM.record x >>= k) Q := Is.update h

theorem Is.then_ {f : ConsumerRadio → ConsumerRadio} {m : RadioM ω Unit} {k : Unit → RadioM ω γ}
    (hm : ∀ r : Radio ω, (m r).2.api = f r.api) (h : Triple (Is (f a)) (k ()) Q) :
    Triple (Is a) (m >>= k) Q := by
  intro r hr
  subst hr
  exact h (m r).2 (hm r)

end Is

variable (host : RadioHost ω)

theorem finishRequest_api (t : UInt64) (apply : Bool) (r : Radio ω) :
    (finishRequest host t apply r).2.api = r.api.finishing t apply := by
  unfold finishRequest finishing
  show ((match List.find? _ slots with | none => _ | some i => _ : RadioM ω Unit) r).2.api = _
  cases hfind : slots.find? fun i => (r.api.sessions i).pendingTransaction = some t with
  | none => rfl
  | some i =>
    show ((RadioM.when _ _ : RadioM ω Unit) _).2.api = _
    unfold RadioM.when
    split <;> rfl

theorem cancelPending_api (t : Option UInt64) (r : Radio ω) :
    (cancelPending host t r).2.api = r.api.cancelling t := by
  cases t with
  | none => rfl
  | some t => exact finishRequest_api host t false r

theorem when_tell_api (c : Bool) (f : ω → ω) (r : Radio ω) :
    ((RadioM.when c (RadioM.tell f)) r).2.api = r.api := by
  unfold RadioM.when
  split <;> rfl

theorem closeSlot_api (p : Place) (r : Radio ω) :
    (closeSlot host p r).2.api = r.api.closing p := by
  have hspec : Triple (Is r.api) (closeSlot host p) fun _ r' => r'.api = r.api.closing p := by
    refine Is.api ?_
    refine Is.then_ (f := id) (when_tell_api _ _) ?_
    refine Is.then_ (f := (·.cancelling _)) (cancelPending_api host _) ?_
    refine Is.then_ (f := id) (when_tell_api _ _) ?_
    refine Is.then_ (f := id) (when_tell_api _ _) ?_
    refine Is.update ?_
    intro r' hr'
    show r'.api.recorded _ = _
    rw [show r'.api = _ from hr']
    rfl
  exact hspec r rfl

/-! ## Ids -/

theorem bigEndian_inj {m n : UInt64} (h : bigEndian m = bigEndian n) : m = n := by
  have hput := List.reverse_injective h
  have hget := congrArg Standalone.get hput
  rw [Standalone.get_put m.toNat_lt, Standalone.get_put n.toNat_lt] at hget
  exact UInt64.toNat_inj.mp hget

theorem length_bigEndian (n : UInt64) : (bigEndian n).length = 8 := by simp [bigEndian]

theorem stamped_inj {random random' : Bytes} {m n : UInt64} (h : stamped random m = stamped random' n) :
    m = n :=
  bigEndian_inj (List.append_inj_right' h (by rw [length_bigEndian, length_bigEndian]))

/-! ## The slots and the ledger -/

/-- The slots hold the lives of the ledger, each in the phase given for it. -/
structure Tracks (phase : Place → Option Phase) (a : ConsumerRadio) (L : Ledger) : Prop where
  run : Ledger.Runs a.history L
  lives : ∀ p, L.lives p = (phase p).map fun φ => (a.slot p).life φ
  unused : ∀ p, phase p = none → (a.slot p).pendingTransaction = none ∧ (a.slot p).nextSequence = 1
  begun : ∀ p, phase p = some .pending ∨ phase p = some .proved →
    (a.slot p).pendingTransaction = none ∧ (a.slot p).nextSequence = 1
  counted : ∀ p, 0 < (a.slot p).nextSequence.toNat
  recovery : (a.slot .recovery).pendingTransaction = none
  serials : ∀ id ∈ L.ids, ∃ random n, id = stamped random n ∧ n ≤ a.sessionSerial

namespace Tracks

theorem life (h : Tracks phase a L) {φ : Phase} (hphase : phase p = some φ) :
    L.lives p = some ((a.slot p).life φ) := by
  rw [h.lives p, hphase]
  rfl

theorem free (h : Tracks phase a L) (hphase : phase p = none) : L.lives p = none := by
  rw [h.lives p, hphase]
  rfl

theorem life_inv (h : Tracks phase a L) {life : Life} (hlife : L.lives p = some life) :
    ∃ φ, phase p = some φ ∧ life = (a.slot p).life φ := by
  rw [h.lives p] at hlife
  obtain ⟨φ, hφ, hlife⟩ := Option.map_eq_some_iff.mp hlife
  exact ⟨φ, hφ, hlife.symm⟩

theorem holds_iff (h : Tracks phase a L) :
    L.Holds t ↔ ∃ i, (a.sessions i).pendingTransaction = some t := by
  constructor
  · rintro ⟨p, life, hlife, ht⟩
    obtain ⟨φ, -, rfl⟩ := h.life_inv hlife
    cases p with
    | session i => exact ⟨i, ht⟩
    | recovery => exact absurd (h.recovery.symm.trans ht) (by simp)
  · rintro ⟨i, hi⟩
    cases hphase : phase (.session i) with
    | none => exact absurd ((h.unused _ hphase).1.symm.trans hi) (by simp)
    | some φ => exact ⟨_, _, h.life hphase, hi⟩

theorem settled (h : Tracks phase a L) (howed : L.owed = none)
    (hfailed : ∀ p, phase p ≠ some .failed) : L.Settled := by
  refine ⟨howed, ?_⟩
  intro p life hlife hphase
  obtain ⟨φ, hφ, rfl⟩ := h.life_inv hlife
  exact hfailed p (by rw [hφ]; exact congrArg some hphase)

/-- An event that changes no slot. -/
theorem note (h : Tracks phase a L) (hstep : L.Step a.history x L') (hlives : L'.lives = L.lives)
    (hids : L'.ids = L.ids) : Tracks phase (a.recorded x) L' where
  run := h.run.snoc hstep
  lives := by simpa [hlives] using h.lives
  unused := by simpa using h.unused
  begun := by simpa using h.begun
  counted := by simpa using h.counted
  recovery := by simpa using h.recovery
  serials := by simpa [hids] using h.serials

/-- A change of a slot that its life does not show. -/
theorem touch (h : Tracks phase a L)
    (hlife : ∀ φ, phase p = some φ → s.life φ = (a.slot p).life φ)
    (hsequence : s.nextSequence = (a.slot p).nextSequence)
    (ht : s.pendingTransaction = (a.slot p).pendingTransaction) : Tracks phase (a.setSlot p s) L := by
  have hslot : ∀ q, ((a.setSlot p s).slot q).nextSequence = (a.slot q).nextSequence ∧
      ((a.setSlot p s).slot q).pendingTransaction = (a.slot q).pendingTransaction := by
    intro q
    by_cases hq : q = p
    · subst hq
      simp [hsequence, ht]
    · simp [hq]
  constructor
  · simpa using h.run
  · intro q
    rw [h.lives q]
    by_cases hq : q = p
    · subst hq
      refine Option.map_congr fun φ hφ => ?_
      simpa using (hlife φ hφ).symm
    · simp [hq]
  · intro q
    simpa [(hslot q).1, (hslot q).2] using h.unused q
  · intro q
    simpa [(hslot q).1, (hslot q).2] using h.begun q
  · intro q
    simpa [(hslot q).1] using h.counted q
  · simpa [(hslot .recovery).2] using h.recovery
  · simpa using h.serials

theorem frame (h : Tracks phase a L) (hhistory : b.history = a.history) (hslot : b.slot = a.slot)
    (hserial : b.sessionSerial = a.sessionSerial) : Tracks phase b L where
  run := by rw [hhistory]; exact h.run
  lives := by rw [hslot]; exact h.lives
  unused := by rw [hslot]; exact h.unused
  begun := by rw [hslot]; exact h.begun
  counted := by rw [hslot]; exact h.counted
  recovery := by rw [hslot]; exact h.recovery
  serials := by rw [hserial]; exact h.serials

theorem step (h : Tracks phase a L) (hstep : L.Step a.history x L')
    (hlives : L'.lives = Function.update L.lives p (φ.map fun ψ => s.life ψ))
    (hids : L'.ids = L.ids)
    (hunused : φ = none → s.pendingTransaction = none ∧ s.nextSequence = 1)
    (hbegun : φ = some .pending ∨ φ = some .proved →
      s.pendingTransaction = none ∧ s.nextSequence = 1)
    (hcounted : 0 < s.nextSequence.toNat) (hrecovery : p = .recovery → s.pendingTransaction = none) :
    Tracks (Function.update phase p φ) ((a.setSlot p s).recorded x) L' := by
  constructor
  · simpa using h.run.snoc hstep
  · intro q
    by_cases hq : q = p
    · subst hq
      simp [hlives]
    · simpa [hlives, hq] using h.lives q
  · intro q
    by_cases hq : q = p
    · subst hq
      simpa using hunused
    · simpa [hq] using h.unused q
  · intro q
    by_cases hq : q = p
    · subst hq
      simpa using hbegun
    · simpa [hq] using h.begun q
  · intro q
    by_cases hq : q = p
    · subst hq
      simpa using hcounted
    · simpa [hq] using h.counted q
  · by_cases hq : Place.recovery = p
    · subst hq
      simpa using hrecovery rfl
    · simpa [hq] using h.recovery
  · simpa [hids] using h.serials

theorem start {random : Bytes} (h : Tracks phase a L) (hsettled : L.Settled)
    (hphase : phase p = none) (hserial : a.sessionSerial.toNat ≠ UInt64.size - 1)
    (hid : s.binding.session = stamped random (a.sessionSerial + 1))
    (hidle : s.pendingTransaction = none) (hfirst : s.nextSequence = 1)
    (halone : p ≠ .recovery → ∀ i, phase (.session i) ≠ some .pending)
    (hhistory : b.history = a.history) (hslot : b.slot = Function.update a.slot p s)
    (hnext : b.sessionSerial = a.sessionSerial + 1) :
    ∃ L', Tracks (Function.update phase p (some .pending))
      (b.recorded (.started p s.binding.session s.binding.generation s.interface s.authority)) L' ∧
      L'.owed = none := by
  have hsucc : (a.sessionSerial + 1).toNat = a.sessionSerial.toNat + 1 := by
    have := a.sessionSerial.toNat_lt
    rw [UInt64.toNat_add]
    simp only [UInt64.size] at hserial
    show (a.sessionSerial.toNat + 1) % 2 ^ 64 = _
    omega
  have hfresh : s.binding.session ∉ L.ids := by
    intro hmem
    obtain ⟨random', n, heq, hn⟩ := h.serials _ hmem
    have hlast := stamped_inj (hid.symm.trans heq)
    rw [← hlast, UInt64.le_iff_toNat_le, hsucc] at hn
    omega
  have hstep : L.Step a.history
      (.started p s.binding.session s.binding.generation s.interface s.authority) _ :=
    .started hsettled (h.free hphase) hfresh fun hp i life hlife hpending => by
      obtain ⟨φ, hφ, rfl⟩ := h.life_inv hlife
      exact halone hp i (hφ.trans (congrArg some hpending))
  have hrun := h.run.snoc hstep
  rw [← hhistory, ← history_recorded] at hrun
  refine ⟨_, ⟨hrun, ?_, ?_, ?_, ?_, ?_, ?_⟩, hsettled.1⟩
  · intro q
    rw [slot_recorded, hslot]
    by_cases hq : q = p
    · subst hq
      simp [Ledger.put, RadioSession.life, hidle, hfirst]
    · simpa [Ledger.put, hq] using h.lives q
  · intro q
    rw [slot_recorded, hslot]
    by_cases hq : q = p
    · subst hq
      simp
    · simpa [hq] using h.unused q
  · intro q
    rw [slot_recorded, hslot]
    by_cases hq : q = p
    · subst hq
      simp [hidle, hfirst]
    · simpa [hq] using h.begun q
  · intro q
    rw [slot_recorded, hslot]
    by_cases hq : q = p
    · subst hq
      simp [hfirst]
    · simpa [hq] using h.counted q
  · rw [slot_recorded, hslot]
    by_cases hq : Place.recovery = p
    · subst hq
      simpa using hidle
    · simpa [hq] using h.recovery
  · intro id hmem
    rw [serial_recorded, hnext]
    rcases List.mem_cons.mp hmem with rfl | hmem
    · exact ⟨random, _, hid, UInt64.le_refl _⟩
    · obtain ⟨random', n, heq, hn⟩ := h.serials id hmem
      refine ⟨random', n, heq, ?_⟩
      rw [UInt64.le_iff_toNat_le] at hn ⊢
      omega

/-! ## Closing -/

/-- What closing and finishing leave as it is. -/
structure Kept (L L' : Ledger) : Prop where
  call : L'.call = L.call
  current : L'.current = L.current

theorem Kept.refl : Kept L L := ⟨rfl, rfl⟩

theorem Kept.trans {L'' : Ledger} (h : Kept L L') (h' : Kept L' L'') : Kept L L'' :=
  ⟨h'.call.trans h.call, h'.current.trans h.current⟩

theorem transaction_slot (h : Tracks phase a L) (p : Place) :
    L.transaction p = (a.slot p).pendingTransaction := by
  rw [Ledger.transaction, h.lives p]
  cases hphase : phase p with
  | none => exact (h.unused p hphase).1.symm
  | some φ => rfl

theorem finishing_none (hnone : ∀ i, (a.sessions i).pendingTransaction ≠ some t) (apply : Bool) :
    a.finishing t apply = a := by
  unfold finishing
  rw [List.find?_eq_none.mpr]
  intro i _
  simpa using hnone i

theorem mem_slots (i : Fin 3) : i ∈ slots := by
  revert i
  decide

/-- `finish_request` for a transaction that waits in a slot: it is heard there. -/
theorem finishing_some (h : Tracks phase a L) {i : Fin 3}
    (hi : (a.sessions i).pendingTransaction = some t) (apply : Bool) : a.finishing t apply =
      (a.setSlot (.session i) { a.sessions i with pendingTransaction := none }).recorded
        (.finished t apply) := by
  unfold finishing
  have hsome : (slots.find? fun i => (a.sessions i).pendingTransaction = some t).isSome := by
    rw [List.find?_isSome]
    exact ⟨i, mem_slots i, by simpa using hi⟩
  obtain ⟨j, hj⟩ := Option.isSome_iff_exists.mp hsome
  have ht : (a.sessions j).pendingTransaction = some t := by simpa using List.find?_some hj
  have hplace := h.run.distinct.2 (.session i) (.session j) t
    (by rw [h.transaction_slot]; exact hi) (by rw [h.transaction_slot]; exact ht)
  obtain rfl : i = j := by simpa using hplace
  rw [hj]
  rfl

theorem finishing_slot (h : Tracks phase a L) (apply : Bool) (q : Place) :
    (a.finishing t apply).slot q =
      if (a.slot q).pendingTransaction = some t then
        { a.slot q with pendingTransaction := none } else a.slot q := by
  by_cases hex : ∃ i, (a.sessions i).pendingTransaction = some t
  · obtain ⟨i, hi⟩ := hex
    rw [h.finishing_some hi, slot_recorded]
    by_cases hq : q = .session i
    · subst hq
      rw [slot_setSlot_self, slot_session, if_pos hi]
    · rw [slot_setSlot_of_ne hq, if_neg]
      intro hqt
      refine hq (h.run.distinct.2 q (.session i) t ?_ ?_)
      · rw [h.transaction_slot, hqt]
      · rw [h.transaction_slot, slot_session, hi]
  · rw [finishing_none (fun i hi => hex ⟨i, hi⟩), if_neg]
    intro hqt
    cases q with
    | session i => exact hex ⟨i, hqt⟩
    | recovery => exact absurd (h.recovery.symm.trans hqt) (by simp)

theorem finishing (h : Tracks phase a L) (apply : Bool)
    (hheard : (L.owed = some (t, apply) ∧ a.history.getLast? = some (.reported t apply)) ∨
      (L.owed = none ∧ apply = false))
    (howed : L.owed ≠ none → L.Holds t) :
    ∃ L', Tracks phase (a.finishing t apply) L' ∧ L'.owed = none ∧ Kept L L' := by
  by_cases hex : ∃ i, (a.sessions i).pendingTransaction = some t
  · obtain ⟨i, hi⟩ := hex
    rw [h.finishing_some hi]
    obtain ⟨p, life, hlife, ht⟩ := h.holds_iff.mpr ⟨i, hi⟩
    obtain rfl : p = .session i := by
      refine h.run.distinct.2 p _ t ?_ ?_
      · simp [Ledger.transaction, hlife, ht]
      · rw [h.transaction_slot, slot_session, hi]
    obtain ⟨φ, hφ, rfl⟩ := h.life_inv hlife
    have hstep := Ledger.Step.finished hlife ht hheard
    have hnew := h.step (p := .session i) (φ := phase (.session i))
      (s := { a.sessions i with pendingTransaction := none }) hstep
      (by rw [hφ]; rfl) rfl
      (fun hnone => absurd (hφ.symm.trans hnone) (by simp))
      (fun hbegun => ⟨rfl, (h.begun _ hbegun).2⟩) (h.counted (.session i))
      (by simp)
    rw [Function.update_eq_self] at hnew
    exact ⟨_, hnew, rfl, rfl, rfl⟩
  · rw [finishing_none fun i hi => hex ⟨i, hi⟩]
    refine ⟨L, h, ?_, Kept.refl⟩
    by_contra hne
    exact hex (h.holds_iff.mp (howed hne))

theorem lost (h : Tracks phase a L) (howed : L.owed = none) (t : UInt64) :
    ∃ L', Tracks phase (a.finishing t false) L' ∧ L'.owed = none ∧ Kept L L' :=
  h.finishing false (Or.inr ⟨howed, rfl⟩) fun hne => absurd howed hne

/-- `finish_request` of the transport. -/
theorem reported (h : Tracks phase a L) (hsettled : L.Settled) (t : UInt64) (apply : Bool) :
    ∃ L', Tracks phase ((a.recorded (.reported t apply)).finishing t apply) L' ∧
      L'.owed = none ∧ Kept L L' := by
  by_cases hholds : L.Holds t
  · have hstep : L.Step a.history (.reported t apply) _ := .reported hsettled hholds
    have hnote := h.note hstep rfl rfl
    obtain ⟨L', hL', howed, hkept⟩ := hnote.finishing (t := t) apply
      (Or.inl ⟨rfl, by simp⟩) fun _ => hholds
    exact ⟨L', hL', howed, hkept.call, hkept.current⟩
  · have hstep : L.Step a.history (.reported t apply) _ := .unheld hsettled hholds
    have hnote := h.note hstep rfl rfl
    rw [finishing_none]
    · exact ⟨L, hnote, hsettled.1, Kept.refl⟩
    · intro i hi
      exact hholds (h.holds_iff.mpr ⟨i, hi⟩)

theorem cancelling (h : Tracks phase a L) (howed : L.owed = none) (t : Option UInt64) :
    ∃ L', Tracks phase (a.cancelling t) L' ∧ L'.owed = none ∧ Kept L L' := by
  cases t with
  | none => exact ⟨L, h, howed, Kept.refl⟩
  | some t => exact h.lost howed t

/-- `close` of a slot. -/
theorem closing (h : Tracks phase a L) (howed : L.owed = none) (p : Place) :
    ∃ L', Tracks (Function.update phase p none) (a.closing p) L' ∧ L'.owed = none ∧ Kept L L' := by
  obtain ⟨M, hM, hMowed, hkept⟩ := h.cancelling howed (a.slot p).pendingTransaction
  have hidle : ((a.cancelling (a.slot p).pendingTransaction).slot p).pendingTransaction = none := by
    cases ht : (a.slot p).pendingTransaction with
    | none => exact ht
    | some t =>
      show ((a.finishing t false).slot p).pendingTransaction = none
      rw [h.finishing_slot, if_pos ht]
  have hid : ((a.cancelling (a.slot p).pendingTransaction).slot p).binding =
      (a.slot p).binding := by
    cases ht : (a.slot p).pendingTransaction with
    | none => rfl
    | some t =>
      show ((a.finishing t false).slot p).binding = _
      rw [h.finishing_slot, if_pos ht]
  cases hphase : phase p with
  | none =>
    have hfree := hM.free hphase
    refine ⟨M, hM.step (φ := none) (Ledger.Step.unused hMowed hfree) ?_ rfl (fun _ => ⟨rfl, rfl⟩)
      (by simp) (show 0 < (1 : UInt64).toNat by decide) (fun _ => rfl), hMowed, hkept⟩
    exact (Function.update_eq_self_iff.mpr hfree.symm).symm
  | some φ =>
    have hlife := hM.life hphase
    have hstep := Ledger.Step.closed (h := (a.cancelling (a.slot p).pendingTransaction).history)
      hMowed hlife hidle
    have hid' : ((((a.cancelling (a.slot p).pendingTransaction).slot p).life φ).id) =
        (a.slot p).binding.session := congrArg ConsumerRadioBinding.session hid
    rw [hid'] at hstep
    exact ⟨_, hM.step (φ := none) hstep rfl rfl (fun _ => ⟨rfl, rfl⟩) (by simp)
      (show 0 < (1 : UInt64).toNat by decide) (fun _ => rfl), hMowed, hkept.call, hkept.current⟩

end Tracks

end ConsumerRadio

end WsprryPico.Network
