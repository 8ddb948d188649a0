import WsprryPico.Lib.History
import WsprryPico.Microchrony.Majority

/-!
# Correlated measurements

A reply becomes a measurement when it answers the latest request of its source, which no call
ended since, and the age of the clock is the time of such a measurement.
-/

namespace WsprryPico.Microchrony

open Lib Engine

variable {K : Type} [Scalar K]
  {e e' : Engine K} {now : Nat} {slot i : Slot} {config : Config K} {s : Source K}
  {m : Measurement K}

/-! ## The request in flight -/

namespace Source

/-- The request in flight, when it was sent and its token. -/
def flight (s : Source K) : Bool × Nat × Nat := (s.pending, s.sendNs, s.token)

theorem flight_core (s : Source K) : s.core.flight = s.flight := rfl

theorem append_flight (room : Nat) : (s.append config room m now).flight = s.flight :=
  congrArg Prod.fst (append_exchange room)

theorem setPoll_flight (random : Nat) : (setPoll now random s).flight = s.flight := rfl

theorem adaptPoll_flight : (adaptPoll config s).flight = s.flight := by
  unfold adaptPoll
  dsimp only
  split_ifs <;> rfl

end Source

theorem select_flight (scoreUpdate : Bool) :
    Same Source.flight e (e.select now scoreUpdate) := Same.select Source.flight_core _

theorem reject_flight (reason : Rejection) (candidate : Bool) :
    Same Source.flight e (e.reject slot reason candidate).2 := by
  unfold reject
  dsimp only
  exact Same.modify rfl

theorem kiss_flight (packet : List UInt8) : Same Source.flight e (e.kiss slot packet now).2 := by
  unfold kiss
  split_ifs
  · exact (Same.modify (by rw [Source.setPoll_flight]; rfl)).trans (reject_flight _ _)
  · exact ((Same.modify rfl).trans (select_flight _)).trans (reject_flight _ _)

theorem accept_flight : Same Source.flight e (e.accept slot m now) := by
  refine Same.trans (Same.modify (Source.append_flight _)) (Same.trans (Same.modify ?_)
    (select_flight _))
  rw [Source.setPoll_flight, Source.adaptPoll_flight]

theorem measure_flight (packet : List UInt8) :
    Same Source.flight e (e.measure slot packet now).2 := by
  unfold Engine.measure
  dsimp only
  split_ifs
  · exact reject_flight _ _
  · exact reject_flight _ _
  · have hnominate : Same Source.flight e
        (e.modify slot (nominate (measurement e (e.sources slot) packet (times e.config packet) now)
          now)) := Same.modify rfl
    split
    · exact hnominate.trans (reject_flight _ _)
    · exact hnominate.trans accept_flight

theorem unsynchronized_flight : Same Source.flight e (e.unsynchronized slot now).2 := by
  exact ((Same.modify rfl).trans (select_flight _)).trans (reject_flight _ _)

theorem answered_flight (e : Engine K) (slot : Slot) (now : Nat) (packet : List UInt8) :
    Same Source.flight (e.modify slot fun s => { s with pending := false })
      (e.answered slot packet now).2 := by
  unfold answered
  split_ifs
  · exact kiss_flight _
  · exact unsynchronized_flight
  · exact measure_flight _

theorem removeSlot_flight_other (h : i ≠ slot) :
    ((e.removeSlot slot now).sources i).flight = (e.sources i).flight := by
  unfold removeSlot
  rw [select_flight]
  simp only [modify_other _ _ h, withUsed, clear]

theorem removeSlot_flight (e : Engine K) (slot : Slot) (now : Nat) :
    ((e.removeSlot slot now).sources slot).flight = (false, 0, 0) := by
  unfold removeSlot
  rw [select_flight]
  simp only [modify_same, withUsed, clear]
  rfl

/-! ## What ends a request -/

/-- The call leaves no earlier request of `slot` in flight: a new request, a cancel, a removal or
another endpoint, a reset, a change of the network, or the answer. -/
def Call.Ends (slot : Slot) (e : Engine K) : Call → Prop
  | .request n now random force =>
    networkSlot n = some slot ∧ (e.request n now random force).1.isSome = true
  | .cancel n => networkSlot n = some slot
  | .remove n _ => networkSlot n = some slot
  | .configure n endpoint now => networkSlot n = some slot ∧
      (e.configure n endpoint now).1 = true ∧ (e.sources slot).status.endpoint ≠ endpoint
  | .reset _ => True
  | .online enabled _ => e.online ≠ enabled
  | .receive n packet now =>
    networkSlot n = some slot ∧ e.config.valid = true ∧ answers (e.sources slot) packet now = true
  | _ => False

/-- The call is a request of `slot`, which is sent. -/
def Call.Asks (slot : Slot) (sent token : Nat) (e : Engine K) (call : Call) : Prop :=
  ∃ n random force, networkSlot n = some slot ∧ call = .request n sent random force ∧
    (e.request n sent random force).1.isSome = true ∧ token = if random ≠ 0 then random else 1

theorem shiftReach_flight : (shiftReach s).flight = s.flight := by
  unfold shiftReach
  split_ifs <;> rfl

theorem shifted_flight : Same Source.flight e (e.shifted slot now) := by
  unfold shifted
  dsimp only
  split_ifs
  · exact ((Same.modify shiftReach_flight).trans (Same.modify rfl)).trans (select_flight _)
  · exact Same.modify shiftReach_flight

theorem ask_flight (random : Nat) :
    (ask now random s).flight = (true, now, if random ≠ 0 then random else 1) := rfl

/-! ## One call -/

theorem request_flight {n random : Nat} {force : Bool} (hslot : networkSlot n = some slot)
    (h : (e.request n now random force).1.isSome = true) :
    (((e.request n now random force).2.sources slot).flight =
      (true, now, if random ≠ 0 then random else 1)) ∧
    ∀ i, i ≠ slot → ((e.request n now random force).2.sources i).flight = (e.sources i).flight := by
  obtain hnone | ⟨-, hreq⟩ := request_cases e now random force hslot
  · rw [hnone] at h
    cases h
  · rw [hreq]
    refine ⟨by rw [modify_same, ask_flight], fun i hi => ?_⟩
    rw [modify_other _ _ hi, shifted_flight]

/-- A request of another source, or one that is refused, leaves the flight of a source. -/
theorem request_flight_other {n random : Nat} {force : Bool}
    (h : ¬ (networkSlot n = some slot ∧ (e.request n now random force).1.isSome = true)) :
    ((e.request n now random force).2.sources slot).flight = (e.sources slot).flight := by
  rcases hslot : networkSlot n with - | target
  · unfold request
    rw [hslot]
  · obtain hnone | ⟨hsent, -⟩ := request_cases e now random force hslot
    · rw [hnone]
    · refine (request_flight hslot hsent).2 slot fun heq => h ⟨?_, hsent⟩
      rw [hslot, heq]

theorem configure_flight {n endpoint : Nat}
    (h : ((e.configure n endpoint now).2.sources slot).pending = true) :
    ¬ (networkSlot n = some slot ∧ (e.configure n endpoint now).1 = true ∧
        (e.sources slot).status.endpoint ≠ endpoint) ∧
      ((e.configure n endpoint now).2.sources slot).flight = (e.sources slot).flight := by
  unfold configure at h ⊢
  rcases htarget : networkSlot n with - | target
  · rw [htarget] at h
    exact ⟨by simp, rfl⟩
  · rw [htarget] at h
    dsimp only at h ⊢
    split_ifs at h ⊢ with hvalid hused hsame
    · exact ⟨by simp, rfl⟩
    · exact ⟨by simp, rfl⟩
    · refine ⟨?_, rfl⟩
      rintro ⟨heq, -, hne⟩
      cases heq
      exact hne hsame
    · by_cases heq : slot = target
      · subst heq
        have hpending := congrArg Prod.fst (removeSlot_flight e slot now)
        simp only [modify_same, burst] at h
        rw [Source.flight, h] at hpending
        cases hpending
      · refine ⟨fun hends => heq (Option.some.inj hends.1).symm, ?_⟩
        rw [modify_other _ _ heq, removeSlot_flight_other heq]

theorem remove_flight {n : Nat} (h : ((e.remove n now).sources slot).pending = true) :
    networkSlot n ≠ some slot ∧ ((e.remove n now).sources slot).flight = (e.sources slot).flight := by
  unfold remove at h ⊢
  rcases htarget : networkSlot n with - | target
  · exact ⟨by simp, rfl⟩
  · rw [htarget] at h
    by_cases heq : slot = target
    · subst heq
      have hpending := congrArg Prod.fst (removeSlot_flight e slot now)
      rw [Source.flight, h] at hpending
      cases hpending
    · exact ⟨fun hends => heq (Option.some.inj hends).symm, removeSlot_flight_other heq⟩

theorem cancel_flight {n : Nat} (h : ((e.cancel n).sources slot).pending = true) :
    networkSlot n ≠ some slot ∧ ((e.cancel n).sources slot).flight = (e.sources slot).flight := by
  unfold cancel at h ⊢
  rcases htarget : networkSlot n with - | target
  · exact ⟨by simp, rfl⟩
  · rw [htarget] at h
    by_cases heq : slot = target
    · subst heq
      simp only [modify_same] at h
      cases h
    · exact ⟨fun hends => heq (Option.some.inj hends).symm, by rw [modify_other _ _ heq]⟩

theorem select_pending (e : Engine K) (scoreUpdate : Bool) :
    ((e.select now scoreUpdate).sources slot).pending = (e.sources slot).pending :=
  congrArg Prod.fst (select_flight scoreUpdate slot)

theorem reset_pending (hslot : slot ≠ referenceSlot) :
    ((e.reset now).sources slot).pending = false := by
  rw [reset, select_pending]
  dsimp only
  rw [if_neg hslot]
  rfl

theorem setOnline_flight {enabled : Bool} (hslot : slot ≠ referenceSlot)
    (h : ((e.setOnline enabled now).sources slot).pending = true) :
    e.online = enabled ∧
      ((e.setOnline enabled now).sources slot).flight = (e.sources slot).flight := by
  by_cases honline : e.online = enabled
  · exact ⟨honline, by rw [setOnline, if_pos honline]⟩
  · rw [setOnline, if_neg honline, select_pending] at h
    dsimp only at h
    rw [if_neg hslot] at h
    cases enabled <;> cases h

theorem poll_flight : Same Source.flight e (e.poll now) := by
  unfold poll
  split_ifs
  · exact select_flight _
  · exact Same.refl

theorem referenceClock_flight {enabled : Bool} (hslot : slot ≠ referenceSlot) :
    ((e.referenceClock enabled now).2.sources slot).flight = (e.sources slot).flight := by
  unfold referenceClock
  split
  · rfl
  · split
    · rfl
    · rw [select_flight, modify_other _ _ hslot]
      simp only [withUsed, clear, modify_other _ _ hslot]

theorem observeReference_flight {o : ReferenceObservation} (hslot : slot ≠ referenceSlot) :
    ((e.observeReference o now).2.sources slot).flight = (e.sources slot).flight := by
  unfold observeReference
  split_ifs
  · rfl
  · rw [select_flight, compareEpoch_sources, appendEpoch_other o hslot]

/-- A packet that answers the request in flight ends it; another one ends none. -/
theorem receive_flight {n : Nat} {packet : List UInt8}
    (h : ((e.receive n packet now).2.sources slot).pending = true) :
    ¬ (networkSlot n = some slot ∧ e.config.valid = true ∧
        answers (e.sources slot) packet now = true) ∧
      ((e.receive n packet now).2.sources slot).flight = (e.sources slot).flight := by
  unfold receive at h ⊢
  rcases htarget : networkSlot n with - | target
  · exact ⟨by simp, rfl⟩
  · rw [htarget] at h
    dsimp only at h ⊢
    split_ifs at h ⊢ with hvalid hanswers
    · exact ⟨fun hends => by simp [hends.2.1] at hvalid, rfl⟩
    · refine ⟨?_, reject_flight _ _ slot⟩
      rintro ⟨heq, -, hans⟩
      cases heq
      simp [hans] at hanswers
    · have hflight := answered_flight e target now packet slot
      by_cases heq : slot = target
      · subst heq
        have hpending := congrArg Prod.fst hflight
        rw [modify_same, Source.flight, h] at hpending
        cases hpending
      · refine ⟨fun hends => heq (Option.some.inj hends.1).symm, ?_⟩
        rw [hflight, modify_other _ _ heq]

/-- A call that leaves a request in flight is that request, or ends none. -/
theorem exec_flight (call : Call) (e : Engine K) (hslot : slot ≠ referenceSlot)
    (h : ((call.exec e).sources slot).pending = true) :
    (call.Asks slot ((call.exec e).sources slot).sendNs ((call.exec e).sources slot).token e) ∨
      ¬ call.Ends slot e ∧ ((call.exec e).sources slot).flight = (e.sources slot).flight := by
  cases call with
  | configure n endpoint now => exact .inr (configure_flight h)
  | remove n now => exact .inr (remove_flight h)
  | cancel n => exact .inr (cancel_flight h)
  | reset now =>
    have hpending : ((e.reset now).sources slot).pending = false := reset_pending hslot
    rw [show (e.reset now) = Call.exec (.reset now) e from rfl, h] at hpending
    cases hpending
  | online enabled now =>
    obtain ⟨honline, hflight⟩ := setOnline_flight hslot h
    exact .inr ⟨fun hends => hends honline, hflight⟩
  | seed frequencyPpb skewPpb =>
    refine .inr ⟨id, ?_⟩
    exact congrArg (fun f : Slot → Source K => (f slot).flight) (seed_sources _ _)
  | observeFrequencyReference reference now =>
    refine .inr ⟨id, ?_⟩
    exact congrArg (fun f : Slot → Source K => (f slot).flight) (observeFrequencyReference_sources _)
  | clearFrequencyReference now =>
    refine .inr ⟨id, ?_⟩
    exact congrArg (fun f : Slot → Source K => (f slot).flight) clearFrequencyReference_sources
  | retireFrequencyReference now =>
    refine .inr ⟨id, ?_⟩
    exact congrArg (fun f : Slot → Source K => (f slot).flight) retireFrequencyReference_sources
  | referenceClock enabled now => exact .inr ⟨id, referenceClock_flight hslot⟩
  | observeReference observation now => exact .inr ⟨id, observeReference_flight hslot⟩
  | poll now => exact .inr ⟨id, poll_flight slot⟩
  | request n now random force =>
    by_cases hends : networkSlot n = some slot ∧ (e.request n now random force).1.isSome = true
    · have hflight := (request_flight hends.1 hends.2).1
      have hsent : ((e.request n now random force).2.sources slot).sendNs = now :=
        congrArg (·.2.1) hflight
      have htoken : ((e.request n now random force).2.sources slot).token = _ :=
        congrArg (·.2.2) hflight
      refine .inl ⟨n, random, force, hends.1, ?_, ?_, htoken⟩
      · exact congrArg (Call.request n · random force) hsent.symm
      · exact (congrArg (fun t => (e.request n t random force).1.isSome) hsent).trans hends.2
    · exact .inr ⟨hends, request_flight_other hends⟩
  | receive n packet now => exact .inr (receive_flight h)

/-! ## What a packet can do -/

theorem uncorrelated_flight {n : Nat} {packet : List UInt8} (hslot : networkSlot n = some slot)
    (h : answers (e.sources slot) packet now = false) :
    (e.receive n packet now).1 = false ∧ Same Source.flight e (e.receive n packet now).2 := by
  have hreceive : e.receive n packet now = (false, e) ∨
      e.receive n packet now = e.reject slot .correlation := by
    unfold receive
    rw [hslot]
    simp only [h, Bool.not_false, if_true]
    split_ifs
    · exact .inl rfl
    · exact .inr rfl
  rcases hreceive with hreceive | hreceive
  · rw [hreceive]
    exact ⟨rfl, Same.refl⟩
  · rw [hreceive]
    exact ⟨rfl, reject_flight _ _⟩

theorem measure_repeated {packet : List UInt8} {last : Measurement K}
    (hlast : (e.sources slot).last = some last)
    (h : (times e.config packet).sendUtc = last.serverSendNs) :
    (e.measure slot packet now).1 = false := by
  have hrepeated : ∀ t : Times, t.sendUtc = last.serverSendNs →
      ((e.sources slot).last.any fun last => t.sendUtc = last.serverSendNs) = true := by
    intro t ht
    rw [hlast]
    exact decide_eq_true ht
  unfold Engine.measure
  dsimp only
  split_ifs with hrepeat
  · rfl
  · rfl
  · exact absurd (hrepeated _ h) hrepeat

theorem kiss_refused (packet : List UInt8) : (e.kiss slot packet now).1 = false := by
  unfold kiss
  split_ifs <;> rfl

/-- A reply with the server time of the last candidate is refused. -/
theorem repeated_refused {n : Nat} {packet : List UInt8} {last : Measurement K}
    (hslot : networkSlot n = some slot) (hlast : (e.sources slot).last = some last)
    (h : (times e.config packet).sendUtc = last.serverSendNs) :
    (e.receive n packet now).1 = false := by
  have hanswered : (e.answered slot packet now).1 = false := by
    unfold answered
    split_ifs
    · exact kiss_refused _
    · rfl
    · exact measure_repeated (by rw [modify_same]; exact hlast) h
  unfold receive
  rw [hslot]
  dsimp only
  split_ifs
  · rfl
  · rfl
  · exact hanswered

theorem answeredPass_record {packet : List UInt8} (hslot : slot ≠ referenceSlot)
    (h : e.answeredPass slot packet now = some (e', now, false)) : Same Source.record e e' := by
  have hpending : Same Source.record e (e.modify slot fun s => { s with pending := false }) :=
    Same.modify rfl
  unfold answeredPass refused unserved at h
  split_ifs at h
  · cases h
    exact hpending.trans (Same.modify rfl)
  · cases h
    exact hpending.trans (Same.modify rfl)
  · have hmeasure := measure_pass (e.modify slot fun s => { s with pending := false }) hslot packet
      now
    rw [h] at hmeasure
    cases hmeasure.2.2.1

/-- A refused packet leaves every history with its fit. -/
theorem refused_record {n : Nat} {packet : List UInt8} (h : (e.receive n packet now).1 = false) :
    Same Source.record e (e.receive n packet now).2 := by
  have hpass := exec_pass (.receive n packet now) e
  split at hpass
  · exact fun i => congrArg Prod.fst (hpass.2.shown i)
  · rename_i e₀ t b hsome
    obtain rfl : false = b := h.symm.trans hpass.1
    have hafter : Same Source.record (e₀.select t false) (e.receive n packet now).2 :=
      fun i => congrArg Prod.fst (hpass.2.shown i)
    refine Same.trans (Same.trans ?_ (Same.select Source.record_core false)) hafter
    simp only [Call.passes, Option.bind_eq_some_iff] at hsome
    obtain ⟨slot, hslot, hsome⟩ := hsome
    split_ifs at hsome
    have hanswer := answered_pass e (networkSlot_ne hslot) packet now
    rw [hsome] at hanswer
    obtain rfl := hanswer.2.1
    exact answeredPass_record (networkSlot_ne hslot) hsome

/-! ## The age of the clock -/

/-- What a discipline writes of the age of the clock. -/
def Engine.ledger (e : Engine K) : (Slot → Source K) × List (Update K) × Nat :=
  (e.sources, e.updates, e.lastSourceRawNs)

theorem settled_ledger (combined : List Slot) :
    (e.settled slot combined now).ledger = e.ledger := by
  unfold settled settle advance
  split_ifs <;> rfl

theorem rated_ledger (estimate : CombinedEstimate K) :
    (e.rated estimate now).ledger = e.ledger := by
  have h : (e.rated estimate now).unrated = e.unrated := rated_unrated estimate
  exact of_view h Engine.ledger fun _ => rfl

/-- A discipline notes nothing, or the newest measurement of the source it selects. -/
theorem discipline_note (e : Engine K) (slot : Slot) (combined : List Slot) (now : Nat) :
    ((e.discipline slot combined now).updates = e.updates ∧
      (e.discipline slot combined now).lastSourceRawNs = e.lastSourceRawNs) ∨
    ∃ u, (e.discipline slot combined now).updates = u :: e.updates ∧ u.slot = slot ∧
      u.measurement = (e.sources slot).samples.getLastD {} ∧
      (e.discipline slot combined now).lastSourceRawNs = u.measurement.receiveRawNs := by
  rcases hchanged : e.changed slot with - | -
  · rw [discipline_kept combined hchanged]
    exact .inl ⟨rfl, rfl⟩
  · rw [discipline_eq combined hchanged]
    generalize combineSources (e.estimates slot combined now) = estimate
    have hledger : ((e.settled slot combined now).rated estimate now).ledger = e.ledger :=
      (rated_ledger estimate).trans (settled_ledger combined)
    generalize (e.settled slot combined now).rated estimate now = e₁ at hledger
    have hsources : e₁.sources = e.sources := congrArg Prod.fst hledger
    have hupdates : e₁.updates = e.updates := congrArg (·.2.1) hledger
    rw [← hsources, ← hupdates]
    exact .inr ⟨_, rfl, rfl, rfl, rfl⟩

/-- The source time of the clock is that of the last discipline, whose measurement a call before
accepted of the source it selected. -/
def Dated (first : Engine K) (calls : List Call) (e : Engine K) : Prop :=
  (e.updates = [] ∧ e.lastSourceRawNs = 0) ∨
  ∃ u rest, e.updates = u :: rest ∧ e.lastSourceRawNs = u.measurement.receiveRawNs ∧
    ∃ p ∈ trace calls first, p.2.Yields u.slot u.measurement p.1

theorem Dated.snoc {first : Engine K} {calls : List Call} {call : Call}
    (h : Dated first calls (run calls first)) (hupdates : e'.updates = (run calls first).updates)
    (hsource : e'.lastSourceRawNs = (run calls first).lastSourceRawNs) :
    Dated first (calls ++ [call]) e' := by
  unfold Dated
  rw [hupdates, hsource, trace_snoc]
  refine h.imp id ?_
  rintro ⟨u, rest, hu, htime, p, hp, hyields⟩
  exact ⟨u, rest, hu, htime, p, List.mem_append_left _ hp, hyields⟩

/-- The source a pass disciplines the clock with has a sample. -/
theorem disciplined_sample [IsStrictOrderedRing K] {combined : List Slot}
    (hfitted : ∀ i, (e.sources i).Fitted) (h : (e.pass now b).2 = some (slot, combined)) :
    (e.sources slot).samples ≠ [] := by
  have hselected : (e.select now b).selected = some slot := by
    obtain ⟨hnone, -⟩ | ⟨slot', combined', hsome, hselect⟩ := e.select_cases now b
    · rw [h] at hnone
      cases hnone
    · rw [h] at hsome
      cases hsome
      rw [hselect, discipline_selected]
  obtain ⟨-, ⟨-, hmajority, best, combined', hbest, hmarked, -⟩ | ⟨-, hnone⟩⟩ :=
    select_spec now b hfitted
  · obtain rfl : best = slot := Option.some.inj (hbest.symm.trans hselected)
    have hgated := mem_passing.mp (hmajority.subset (List.mem_toFinset.mpr hmarked.best_mem))
    have husable := hgated.usable
    simp only [Source.usable, Bool.and_eq_true] at husable
    exact List.ne_nil_of_length_pos (Nat.zero_lt_of_lt (hfitted best husable.2))
  · rw [hselected] at hnone
    cases hnone

theorem select_note [IsStrictOrderedRing K] (now : Nat) (b : Bool)
    (hfitted : ∀ i, (e.sources i).Fitted) :
    ((e.select now b).updates = e.updates ∧
      (e.select now b).lastSourceRawNs = e.lastSourceRawNs) ∨
    ∃ u, (e.select now b).updates = u :: e.updates ∧
      u.measurement ∈ (e.sources u.slot).samples ∧
      (e.select now b).lastSourceRawNs = u.measurement.receiveRawNs := by
  have hpassed := e.pass_passed now b
  have hsteady := hpassed.steady
  have hupdates : (e.pass now b).1.updates = e.updates := by
    have h := congrArg Engine.updates hsteady
    exact h
  have hsource : (e.pass now b).1.lastSourceRawNs = e.lastSourceRawNs := by
    have h := congrArg Engine.lastSourceRawNs hsteady
    exact h
  obtain ⟨-, hselect⟩ | ⟨slot, combined, hchoice, hselect⟩ := e.select_cases now b
  · rw [hselect]
    exact .inl ⟨hupdates, hsource⟩
  · rw [hselect]
    obtain ⟨hkept, htime⟩ | ⟨u, hu, rfl, hmeasurement, htime⟩ :=
      discipline_note (e.pass now b).1 slot combined now
    · exact .inl ⟨hkept.trans hupdates, htime.trans hsource⟩
    · refine .inr ⟨u, hu.trans (by rw [hupdates]), ?_, htime⟩
      have hne := disciplined_sample hfitted hchoice
      rw [hmeasurement, hpassed.samples, List.getLastD_eq_getLast?, List.getLast?_eq_some_getLast hne]
      exact List.getLast_mem hne

theorem exec_dated [IsStrictOrderedRing K] (config : Config K) (calls : List Call) (call : Call)
    (hdated : Dated (construct config) calls (run calls (construct config))) :
    Dated (construct config) (calls ++ [call]) (call.exec (run calls (construct config))) := by
  have hpass := exec_pass call (run calls (construct config))
  split at hpass
  · have houtcome := hpass.2.outcome
    exact hdated.snoc (congrArg (·.2.2.2.2.2.1) houtcome) (congrArg (·.2.2.2.2.1) houtcome)
  · rename_i e₀ t b hsome
    have hupdates := congrArg Engine.updates hpass.2.shell
    have hsource := congrArg Engine.lastSourceRawNs hpass.2.shell
    have hupdates₀ := congrArg Engine.updates (passes_steady hsome)
    have hsource₀ := congrArg Engine.lastSourceRawNs (passes_steady hsome)
    obtain ⟨hkept, htime⟩ | ⟨u, hu, hmem, htime⟩ :=
      select_note t b (passes_fitted config calls hsome)
    · exact hdated.snoc (hupdates.trans (hkept.trans hupdates₀))
        (hsource.trans (htime.trans hsource₀))
    · refine .inr ⟨u, _, hupdates.trans hu, hsource.trans htime, ?_⟩
      -- The sample is in a history after the call, and so of a call up to it.
      have hrecord : ((call.exec (run calls (construct config))).sources u.slot).record =
          (e₀.sources u.slot).record := by
        have hselect : Same Source.record e₀ (e₀.select t b) := Same.select Source.record_core b
        exact (congrArg Prod.fst (hpass.2.shown u.slot)).trans (hselect u.slot)
      rw [← Source.record_samples hrecord] at hmem
      have hrecorded := run_recorded config (calls ++ [call])
      rw [run_snoc] at hrecorded
      exact hrecorded.yielded u.slot _ hmem

theorem run_dated [IsStrictOrderedRing K] (config : Config K) (calls : List Call) :
    Dated (construct config) calls (run calls (construct config)) :=
  run_induction (P := Dated (construct config)) (.inl ⟨rfl, rfl⟩) (exec_dated config) calls

/-! ## The request a measurement answers -/

/-- A request in flight is the latest of its source, and no call ended it since. -/
def InFlight (first : Engine K) (calls : List Call) (e : Engine K) : Prop :=
  ∀ slot, slot ≠ referenceSlot → (e.sources slot).pending = true →
    ∃ x after, Since (fun p => p.2.Ends slot p.1) x after (trace calls first) ∧
      x.2.Asks slot (e.sources slot).sendNs (e.sources slot).token x.1

theorem run_inFlight (config : Config K) (calls : List Call) :
    InFlight (construct config) calls (run calls (construct config)) := by
  refine run_induction (P := InFlight (construct config)) ?_ ?_ calls
  · intro slot _ hpending
    cases hpending
  · intro calls call ih slot hslot hpending
    rw [trace_snoc]
    rcases exec_flight call _ hslot hpending with hasks | ⟨hends, hflight⟩
    · exact ⟨_, _, Since.here, hasks⟩
    · have hold : ((run calls (construct config)).sources slot).pending = true :=
        (congrArg Prod.fst hflight).symm.trans hpending
      obtain ⟨x, after, hsince, hasks⟩ := ih slot hslot hold
      have hsent := congrArg (·.2.1) hflight
      have htoken := congrArg (·.2.2) hflight
      dsimp only [Source.flight] at hsent htoken
      rw [hsent, htoken]
      exact ⟨x, _, hsince.snoc hends, hasks⟩

theorem receive_answers {n : Nat} {packet : List UInt8} (h : (e.receive n packet now).1 = true) :
    ∃ slot, networkSlot n = some slot ∧ e.config.valid = true ∧
      answers (e.sources slot) packet now = true := by
  unfold receive at h
  rcases hslot : networkSlot n with - | slot
  · rw [hslot] at h
    cases h
  · rw [hslot] at h
    dsimp only at h
    split_ifs at h with hvalid hanswers
    · cases h
    · exact ⟨slot, rfl, by simpa using hvalid, by simpa using hanswers⟩

/-- The call accepts a reply of `slot`. -/
def Call.Measures (slot : Slot) (e : Engine K) (call : Call) : Prop :=
  ∃ n packet now, networkSlot n = some slot ∧ call = .receive n packet now ∧
    (e.receive n packet now).1 = true

theorem Call.Measures.ends {call : Call} (h : call.Measures slot e) : call.Ends slot e := by
  obtain ⟨n, packet, now, hslot, rfl, haccepted⟩ := h
  obtain ⟨slot', hslot', hvalid, hanswers⟩ := receive_answers haccepted
  obtain rfl : slot = slot' := Option.some.inj (hslot.symm.trans hslot')
  exact ⟨hslot, hvalid, hanswers⟩

/-- A reply that is accepted answers by its token the latest request of its source, which was sent
before it and which no call cancelled, withdrew or answered since. -/
theorem receive_correlated (config : Config K) (calls : List Call) {n : Nat}
    {packet : List UInt8} (h : ((run calls (construct config)).receive n packet now).1 = true) :
    ∃ slot sent x after, networkSlot n = some slot ∧ sent ≤ now ∧
      Since (fun p => p.2.Ends slot p.1) x after (trace calls (construct config)) ∧
      x.2.Asks slot sent (read (field packet 24 8)) x.1 := by
  obtain ⟨slot, hslot, -, hanswers⟩ := receive_answers h
  simp only [answers, Bool.and_eq_true, decide_eq_true_eq] at hanswers
  obtain ⟨⟨⟨⟨⟨⟨-, hpending⟩, hsent⟩, -⟩, -⟩, -⟩, htoken⟩ := hanswers
  obtain ⟨x, after, hsince, hasks⟩ := run_inFlight config calls slot (networkSlot_ne hslot) hpending
  rw [htoken]
  exact ⟨slot, _, x, after, hslot, hsent, hsince, hasks⟩

/-- A call of a run finds the engine the calls before it lead to. -/
theorem trace_split {calls : List Call} {l rest : List (Engine K × Call)} {y : Engine K × Call}
    (h : trace calls e = l ++ y :: rest) : ∃ before, trace before e = l ∧ y.1 = run before e := by
  induction calls generalizing e l with
  | nil => exact absurd h (by simp [trace])
  | cons call calls ih =>
    rcases l with - | ⟨z, l⟩
    · obtain ⟨rfl, -⟩ := List.cons.inj h
      exact ⟨[], rfl, rfl⟩
    · obtain ⟨rfl, hrest⟩ := List.cons.inj h
      obtain ⟨before, hbefore, hy⟩ := ih hrest
      exact ⟨call :: before, by rw [trace, hbefore], hy⟩

/-- Between two measurements of a source it was asked again. -/
theorem measurements_apart (config : Config K) {before mid rest : List (Engine K × Call)}
    {x y : Engine K × Call} {calls : List Call}
    (h : trace calls (construct config) = before ++ x :: (mid ++ y :: rest))
    (hx : x.2.Measures slot x.1) (hy : y.2.Measures slot y.1) :
    ∃ p ∈ mid, ∃ sent token, p.2.Asks slot sent token p.1 := by
  rw [← List.cons_append, ← List.append_assoc] at h
  obtain ⟨calls', htrace, hrun⟩ := trace_split h
  obtain ⟨n, packet, now, hslot, -, haccepted⟩ := hy
  rw [hrun] at haccepted
  obtain ⟨slot', sent, x', after, hslot', -, ⟨before', heq, hafter⟩, hasks⟩ :=
    receive_correlated config calls' haccepted
  obtain rfl : slot = slot' := Option.some.inj (hslot.symm.trans hslot')
  rw [htrace] at heq
  have hne : x ≠ x' := by
    rintro rfl
    obtain ⟨n, packet, now, -, hreceive, -⟩ := hx
    obtain ⟨n', random, force, -, hrequest, -⟩ := hasks
    rw [hreceive] at hrequest
    cases hrequest
  -- The request stands behind the first measurement, which would have ended it.
  rcases List.append_eq_append_iff.mp heq with ⟨between, -, hmid⟩ | ⟨between, -, hbetween⟩
  · rcases between with - | ⟨z, between⟩
    · exact absurd (List.cons.inj hmid).1 hne
    · refine ⟨x', ?_, sent, _, hasks⟩
      rw [(List.cons.inj hmid).2]
      simp
  · rcases between with - | ⟨z, between⟩
    · exact absurd (List.cons.inj hbetween).1.symm hne
    · have hmem : x ∈ after := by
        rw [(List.cons.inj hbetween).2]
        simp
      exact absurd hx.ends (hafter x hmem)

/-! ## The claims of a run -/

/-- In every run: an accepted reply answers the latest request of its source, once; a reply that
answers none leaves it in flight; a repeated server time is refused; the samples of a history
ascend; a refused packet leaves the histories and their fits; and the source time shown is that of
an accepted measurement of the source selected at the last discipline. -/
theorem measurements_correlated [IsStrictOrderedRing K] (config : Config K) (calls : List Call) :
    let first := construct config
    let e := run calls first
    (∀ n packet now, (e.receive n packet now).1 = true →
      ∃ slot sent x after, networkSlot n = some slot ∧ sent ≤ now ∧
        Since (fun p => p.2.Ends slot p.1) x after (trace calls first) ∧
        x.2.Asks slot sent (read (field packet 24 8)) x.1) ∧
    (∀ slot before x mid y rest, trace calls first = before ++ x :: (mid ++ y :: rest) →
      x.2.Measures slot x.1 → y.2.Measures slot y.1 →
      ∃ p ∈ mid, ∃ sent token, p.2.Asks slot sent token p.1) ∧
    (∀ n slot packet now, networkSlot n = some slot → answers (e.sources slot) packet now = false →
      (e.receive n packet now).1 = false ∧ Same Source.flight e (e.receive n packet now).2) ∧
    (∀ n slot packet now last, networkSlot n = some slot → (e.sources slot).last = some last →
      (times e.config packet).sendUtc = last.serverSendNs → (e.receive n packet now).1 = false) ∧
    (∀ slot, (e.sources slot).samples.Pairwise (·.rawNs < ·.rawNs)) ∧
    (∀ n packet now, (e.receive n packet now).1 = false →
      Same Source.record e (e.receive n packet now).2) ∧
    ∀ now, (e.updates = [] ∧ (e.tracking now).sourceRawNs = 0) ∨
      ∃ u rest, e.updates = u :: rest ∧ (e.tracking now).sourceRawNs = u.measurement.receiveRawNs ∧
        ∃ p ∈ trace calls first, p.2.Yields u.slot u.measurement p.1 := by
  have hsource : ∀ now, ((run calls (construct config)).tracking now).sourceRawNs =
      (run calls (construct config)).lastSourceRawNs := by
    intro now
    unfold tracking
    split_ifs <;> rfl
  refine ⟨fun n packet now => receive_correlated config calls,
    fun slot before x mid y rest => measurements_apart config,
    fun n slot packet now => uncorrelated_flight,
    fun n slot packet now last => repeated_refused,
    (run_recorded config calls).ascending, fun n packet now => refused_record, fun now => ?_⟩
  rw [hsource]
  exact run_dated config calls

/-- The third reply is accepted: it answers the request before it. -/
theorem measurements_correlated_third :
    let calls := threeMeasurements.dropLast.map Prod.snd
    let reply := answer (192 * second) (fastServer (192 * second))
    let now := 192 * second + 1000000
    ((run calls (construct stock)).receive 0 reply now).1 = true ∧
    ∃ slot sent x after, networkSlot 0 = some slot ∧ sent ≤ now ∧
      Since (fun p => p.2.Ends slot p.1) x after (trace calls (construct stock)) ∧
      x.2.Asks slot sent (read (field reply 24 8)) x.1 := by
  intro calls reply now
  have haccepted : ((run calls (construct stock)).receive 0 reply now).1 = true := by decide +kernel
  exact ⟨haccepted, (measurements_correlated stock calls).1 0 reply now haccepted⟩

end WsprryPico.Microchrony
