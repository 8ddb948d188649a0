import WsprryPico.Wtp.Dispatch

/-!
# The dispatch law

Over every run of an endpoint its history is legal. So requests are dispatched in the order of
their payloads and answered once, a payload that waits is given up in its time, and the
events of a boot are counted upwards.
-/

namespace WsprryPico.Wtp

open Lib Json WireEvent

variable {ω : Type} (host : Host ω) {device firmware : Bytes} {x : WireEvent}
  {l before after mid : List WireEvent}

/-! ## Runs -/

namespace Endpoint

open WireM

theorem perform_keeps (call : WireCall ω) :
    Keeps (On (Between device firmware)) (call.perform host) := by
  cases call with
  | connect principal => exact fun w ⟨since, h⟩ => connect_triple host principal w h
  | disconnect =>
    refine triple_update fun e he => ?_
    obtain ⟨since, h⟩ := he
    exact ⟨since, h.disconnect⟩
  | poll now => exact fun w ⟨since, h⟩ => poll_triple host now w h
  | receive input now =>
    exact Keeps.bind (receiveBytes_triple host now _ 0) fun _ => Keeps.pure ()
  | consumeOutput count now => exact triple_update fun e he => consumeOutput_between he count now
  | elsewhere service => exact fun w h => h

theorem construct_between (service : Sys ω) :
    Between device firmware (construct host device firmware service).endpoint := by
  refine ⟨0, ⟨⟨Each.nil.snoc ⟨fun y hy => (by cases hy), trivial⟩, ⟨rfl, rfl⟩, rfl,
    fun hopen => Bool.noConfusion hopen, ⟨[], ⟨[], rfl, by simp⟩, by simp⟩, quiet_fresh⟩, rfl,
    fun _ => rfl, fun hne => absurd rfl hne, ?_, rfl⟩⟩
  exact answered_snoc (l := []) id

theorem run_between (service : Sys ω) (calls : List (WireCall ω)) :
    Between device firmware (Wire.run host device firmware service calls).endpoint := by
  induction calls using List.reverseRecOn with
  | nil => exact construct_between host service
  | append_singleton calls call ih =>
    rw [Wire.run, List.foldl_append]
    exact perform_keeps host call _ ih

/-! ## The end of waiting -/

/-- The connection is closed or closes. -/
def Closes (e : Endpoint) : Prop := e.closing = true ∨ e.closed = true

/-- A payload that waits since then, or no connection. -/
def Waiting (since : UInt64) (e : Endpoint) : Prop :=
  e.closed = true ∨ e.pendingInput ≠ [] ∧ e.pendingInputSinceMs = since

theorem waiting_tolerates (since : UInt64) : Tolerates (Waiting since) where
  disconnect _ _ := .inl rfl
  spent _ he _ := he
  notified _ _ _ _ _ he _ _ := he
  observeBoot _ _ he := he
  observed _ _ he := he

/-- A poll gives up a payload that has waited too long, with its connection. -/
theorem poll_overdue {now since : UInt64} (hlate : overdue now since = true) :
    Triple (On (Waiting since)) (poll host now) fun _ => On Closes := by
  refine Triple.bind (keeps_serve _) fun _ =>
    Triple.bind (observe_keeps host (waiting_tolerates since) now false) fun _ => ?_
  refine triple_read fun e he => Triple.ite (fun hclosed => ?_) fun hopen =>
    Triple.ite (fun _ => triple_update fun _ _ => .inr rfl) fun _ => ?_
  · refine Triple.pure fun w hw => .inr ?_
    rw [show w.endpoint = e from hw]
    exact hclosed
  · obtain hclosed | ⟨hne, hsince⟩ := he
    · exact absurd hclosed hopen
    have hgiven : Triple (On fun e' => e' = e) (pollPending host now)
        fun _ => On fun e' : Endpoint => e'.closing = true := by
      refine triple_read fun e' he' => ?_
      rw [he', hsince, if_pos (by simpa using hne), if_pos hlate]
      exact triple_update fun _ _ => rfl
    refine Triple.bind hgiven fun _ => triple_read fun e' he' => ?_
    rw [if_neg (by simp [he'])]
    refine Triple.pure fun w hw => .inl ?_
    rw [show w.endpoint = e' from hw]
    exact he'

end Endpoint

/-! ## What a legal history says -/

def isArrived : WireEvent → Bool
  | .arrived _ => true
  | _ => false

def isReplied : WireEvent → Bool
  | .replied _ => true
  | _ => false

/-- The payloads that have arrived, and those of them whose requests were dispatched. -/
structure Tally where
  arrivals : Nat := 0
  served : List Nat := []

def tally (c : Tally) : WireEvent → Tally
  | .arrived _ => { c with arrivals := c.arrivals + 1 }
  | .dispatched _ _ => { c with served := c.served ++ [c.arrivals] }
  | _ => c

def tallied (history : List WireEvent) : Tally := history.foldl tally {}

@[simp] theorem tallied_snoc : tallied (l ++ [x]) = tally (tallied l) x := by simp [tallied]

/-- The dispatched payloads are in the order of their arrival, and one in hand or waiting is
behind them. -/
theorem served_increasing (h : Each (Legal device firmware) l) :
    (tallied l).served.Pairwise (· < ·) ∧
    (∀ n ∈ (tallied l).served, n ≤ (tallied l).arrivals) ∧
    ((seen l).phase ≠ .idle → ∀ n ∈ (tallied l).served, n < (tallied l).arrivals) := by
  induction l using List.reverseRecOn with
  | nil => exact ⟨List.Pairwise.nil, by simp [tallied], by simp [tallied]⟩
  | append_singleton l x ih =>
    obtain ⟨hpair, hle, hlt⟩ := ih h.init
    obtain ⟨-, hx⟩ := h.last
    rw [tallied_snoc, seen_snoc]
    cases x with
    | arrived payload =>
      refine ⟨hpair, fun n hn => ?_, fun _ n hn => ?_⟩
      · exact Nat.le_succ_of_le (hle n hn)
      · exact Nat.lt_succ_of_le (hle n hn)
    | dispatched request response =>
      have hbelow := hlt (by rw [hx.1]; exact Phase.noConfusion)
      refine ⟨List.pairwise_append.mpr ⟨hpair, List.pairwise_singleton _ _, fun n hn m hm => ?_⟩,
        fun n hn => ?_, fun hbusy => absurd rfl hbusy⟩
      · rw [List.mem_singleton.mp hm]
        exact hbelow n hn
      · rcases List.mem_append.mp hn with hn | hn
        · exact hle n hn
        · exact Nat.le_of_eq (List.mem_singleton.mp hn)
    | resumed now => exact ⟨hpair, hle, fun _ => hlt (by rw [hx.1]; exact Phase.noConfusion)⟩
    | deferred now =>
      have hphase : (seen l).phase = .inHand := hx
      exact ⟨hpair, hle, fun _ => hlt (by rw [hphase]; exact Phase.noConfusion)⟩
    | refused request response => exact ⟨hpair, hle, fun hbusy => absurd rfl hbusy⟩
    | ended => exact ⟨hpair, hle, fun hbusy => absurd rfl hbusy⟩
    | disconnected =>
      refine ⟨hpair, hle, fun hbusy => hlt fun hidle => hbusy ?_⟩
      simp [see, hidle]
    | booted boot => exact ⟨hpair, hle, hlt⟩
    | connected principal => exact ⟨hpair, hle, hlt⟩
    | accepted byte => exact ⟨hpair, hle, hlt⟩
    | replied frame => exact ⟨hpair, hle, hlt⟩
    | notified id frame => exact ⟨hpair, hle, hlt⟩
    | sent => exact ⟨hpair, hle, hlt⟩

/-- Behind a response no other is queued, and no request asked, until a payload arrives. -/
theorem replied_once {frame : OutputFrame} (hidle : (seen before).phase = .idle)
    (h : Each (Legal device firmware) (before ++ .replied frame :: mid))
    (hmid : ∀ y ∈ mid, isArrived y = false) :
    (seen (before ++ .replied frame :: mid)).phase = .idle ∧
    NoneAsked (before ++ .replied frame :: mid) ∧ ∀ y ∈ mid, isReplied y = false := by
  induction mid using List.reverseRecOn with
  | nil =>
    refine ⟨?_, answered_snoc id, by simp⟩
    rw [seen_snoc]
    exact hidle
  | append_singleton mid x ih =>
    rw [← List.cons_append, ← List.append_assoc] at h ⊢
    obtain ⟨hphase, hasked, hreplied⟩ := ih h.init fun y hy => hmid y (List.mem_append_left _ hy)
    have harrived := hmid x (by simp)
    obtain ⟨-, hx⟩ := h.last
    generalize before ++ .replied frame :: mid = l at h hphase hasked hx
    have hkeep : (see (seen l) x).phase = .idle ∧ ¬ Asks x ∧ isReplied x = false := by
      cases x with
      | arrived payload => cases harrived
      | deferred now => exact absurd (hphase.symm.trans hx) Phase.noConfusion
      | resumed now => exact absurd (hphase.symm.trans hx.1) Phase.noConfusion
      | dispatched request response => exact absurd (hphase.symm.trans hx.1) Phase.noConfusion
      | refused request response => exact absurd (hphase.symm.trans hx) Phase.noConfusion
      | replied frame' =>
        obtain ⟨request, response, -, hlast | hlast, -⟩ := hx
        · exact absurd trivial (hasked _ hlast)
        · exact absurd trivial (hasked _ hlast)
      | ended => exact ⟨rfl, id, rfl⟩
      | disconnected => exact ⟨by simp [see, hphase], id, rfl⟩
      | booted boot => exact ⟨hphase, id, rfl⟩
      | connected principal => exact ⟨hphase, id, rfl⟩
      | accepted byte => exact ⟨hphase, id, rfl⟩
      | notified id frame => exact ⟨hphase, fun h => h, rfl⟩
      | sent => exact ⟨hphase, id, rfl⟩
    refine ⟨by rw [seen_snoc]; exact hkeep.1, answered_snoc hkeep.2.1, fun y hy => ?_⟩
    rcases List.mem_append.mp hy with hy | hy
    · exact hreplied y hy
    · rw [List.mem_singleton.mp hy]
      exact hkeep.2.2

/-- The one response to a request is queued behind it, or the connection is lost. -/
def AnsweredOnce (device firmware : Bytes) (request : Codec.Request) (response : Response)
    (after : List WireEvent) : Prop :=
  (∃ frame rest config, after = .replied frame :: rest ∧
    frame.payload = encodeResponse request response config device firmware ∧
    ∀ mid rest', rest = mid ++ rest' → (∀ y ∈ mid, isArrived y = false) →
      ∀ y ∈ mid, isReplied y = false) ∨
  ∃ rest, after = .disconnected :: rest

theorem answered_once {request : Codec.Request} {response : Response}
    (h : Each (Legal device firmware) (before ++ .dispatched request response :: after))
    (hend : NoneAsked (before ++ .dispatched request response :: after)) :
    AnsweredOnce device firmware request response after := by
  cases after with
  | nil => exact absurd trivial (hend _ (List.getLast?_concat ..))
  | cons x rest =>
    rw [← List.singleton_append, ← List.append_assoc] at h
    obtain ⟨hfollows, hx⟩ := h _ x rest rfl
    have hanswers := hfollows _ (List.getLast?_concat ..) trivial
    cases x with
    | replied frame =>
      obtain ⟨request', response', config, hlast, hframe⟩ := hx
      rw [List.getLast?_concat] at hlast
      obtain hlast | hlast := hlast
      · cases hlast
        refine .inl ⟨frame, rest, config, rfl, hframe, fun mid rest' heq hmid => ?_⟩
        rw [heq, ← List.cons_append, ← List.append_assoc] at h
        exact (replied_once (by rw [seen_snoc]; rfl) h.of_append hmid).2.2
      · cases hlast
    | disconnected => exact .inr ⟨rest, rfl⟩
    | _ => exact hanswers.elim

/-- Over every run, with any service, memory and clock: requests are dispatched in the order in
which their payloads arrived, each payload once; none is left in hand between two calls; bytes
are taken while no frame is on its way out and no payload waits; a dispatched request is that of
its payload, with the digest of the bytes that arrived, on a session that a HELLO began, and is
answered once or the connection is lost; a payload is resumed within five seconds of its first
deferral, and given up with its connection behind them; and the events of a boot are counted
upwards. -/
theorem dispatch_law (device firmware : Bytes) (service : Sys ω) (calls : List (WireCall ω)) :
    let w := Wire.run host device firmware service calls
    let history := w.endpoint.history
    (tallied history).served.Pairwise (· < ·) ∧ (seen history).phase ≠ .inHand ∧
    (∀ before byte after, history = before ++ .accepted byte :: after →
      (seen before).queue = [] ∧ (seen before).phase = .idle) ∧
    (∀ before request response after,
      history = before ++ .dispatched request response :: after →
      (seen before).phase = .inHand ∧ Decoded before request ∧ OfSession before request ∧
        AnsweredOnce device firmware request response after) ∧
    (∀ before now after, history = before ++ .resumed now :: after →
      ∃ t, (seen before).first = some t ∧ Endpoint.overdue now t = false) ∧
    (∀ now t, (seen history).phase = .waiting → (seen history).first = some t →
      Endpoint.overdue now t = true → (((WireCall.poll now).perform host w).2.endpoint).Closes) ∧
    ∀ before id frame after, history = before ++ .notified id frame :: after →
      ∃ boot mid session name body, Since Boots (.booted boot) mid before ∧
        (∀ id' frame', .notified id' frame' ∈ mid → id' < id) ∧
        frame.payload = Endpoint.eventText session boot id name body := by
  intro w history
  obtain ⟨since, hat⟩ : Endpoint.Between device firmware w.endpoint :=
    Endpoint.run_between host service calls
  refine ⟨(served_increasing hat.legal).1, ?_, ?_, ?_, ?_, ?_, ?_⟩
  · intro hbusy
    have hphase := hat.phase
    rw [show (seen w.endpoint.history).phase = .inHand from hbusy] at hphase
    cases hempty : w.endpoint.pendingInput.isEmpty <;> simp [hempty] at hphase
  · intro before byte after heq
    exact (hat.legal before _ after heq).2
  · intro before request response after heq
    obtain ⟨-, hphase, hdecoded, hsession⟩ := hat.legal before _ after heq
    have hlegal : Each (Legal device firmware) history := hat.legal
    have hend : NoneAsked history := hat.answered
    rw [heq] at hlegal hend
    exact ⟨hphase, hdecoded, hsession, answered_once hlegal hend⟩
  · intro before now after heq
    exact (hat.legal before _ after heq).2.2
  · intro now t hwaiting hfirst hlate
    have hne : w.endpoint.pendingInput ≠ [] := by
      intro hempty
      have hphase := hat.phase
      rw [hempty] at hphase
      exact absurd (hwaiting.symm.trans hphase) Phase.noConfusion
    have htime := (hat.held hne).2
    rw [show (seen w.endpoint.history).first = some t from hfirst] at htime
    obtain rfl : t = since := Option.some.inj htime
    exact Endpoint.poll_overdue host hlate w (.inr ⟨hne, hat.since⟩)
  · intro before id frame after heq
    exact (hat.legal before _ after heq).2

end WsprryPico.Wtp
