import WsprryPico.Usb.ManagementEndpoint
import WsprryPico.Lib.History

/-!
# Acknowledged transactions

Each call of the handler opens a transaction and one call of the finisher settles it. What
the history of an endpoint says of an event stands before the event: `Legal`.
-/

namespace WsprryPico.Usb

open Lib Wtp.Json ManagementEndpoint

/-! ## Histories -/

namespace EndpointEvent

def EndsConnection : EndpointEvent → Prop
  | connected _ | disconnected => True
  | _ => False

def EndsTiming : EndpointEvent → Prop
  | started _ | disconnected => True
  | _ => False

/-- The handler is called or a connection begins. -/
def Begins : EndpointEvent → Prop
  | handled _ _ | connected _ => True
  | _ => False

def isHandled : EndpointEvent → Bool
  | handled _ _ => true
  | _ => false

def isFinished : EndpointEvent → Bool
  | finished _ _ => true
  | _ => false

/-- `finish_` is called for a transaction. -/
def finishes (transaction : Nat) : EndpointEvent → Bool
  | finished t _ => t = transaction
  | _ => false

def opened : EndpointEvent → Option Nat
  | handled _ t => some t
  | _ => none

/-- The open transaction after an event. -/
def settle (outstanding : Option Nat) : EndpointEvent → Option Nat
  | handled _ t => some t
  | finished _ _ => none
  | _ => outstanding

/-- The events that say nothing of transactions, ids, connections and times. -/
def Plain (x : EndpointEvent) : Prop :=
  x = hello ∨ x = consumed ∨ ∃ payload now, x = acknowledged payload now

end EndpointEvent

open EndpointEvent

variable {device boot : Bytes} {l before after mid : List EndpointEvent} {x : EndpointEvent}

def transactions (history : List EndpointEvent) : List Nat := history.filterMap opened

def outstanding (history : List EndpointEvent) : Option Nat := history.foldl settle none

@[simp] theorem transactions_snoc :
    transactions (l ++ [x]) = transactions l ++ (opened x).toList := by
  cases h : opened x <;> simp [transactions, h]

@[simp] theorem outstanding_snoc : outstanding (l ++ [x]) = settle (outstanding l) x := by
  simp [outstanding]

/-- The text of a member. -/
def textOf (v : Value) (name : String) : Option Bytes :=
  (v.get (ascii name)).bind fun m => if m.type = 34 then some m.string else none

/-- An acknowledgement of an id, for a session and a target. -/
def AckFrame (device boot session : Bytes) (id : Int) (payload : Bytes) : Prop :=
  ∃ root target, parse payload = some root ∧ envelope root = some (id, ascii "ack") ∧
    fields root ackFields = true ∧ textOf root "session" = some session ∧
    root.get (ascii "target") = some target ∧
    fields target (["scope", "device_id", "boot_id"].map ascii) = true ∧
    textOf target "scope" = some (ascii "member") ∧ textOf target "device_id" = some device ∧
    textOf target "boot_id" = some boot

/-- A request behind a hello on its connection, with the greatest id there, and its
transaction. -/
def Requested (before : List EndpointEvent) (t : Nat) : Prop :=
  ∃ session connection generation id,
    Since EndsConnection (.connected session) (connection ++ [.identified id]) before ∧
    .hello ∈ connection ∧ (∀ id', .identified id' ∈ connection → id' < id) ∧
    t = transactionId generation id

/-- The reply of a transaction is consumed and then acknowledged, on the connection and in
the time of its request. -/
def Acknowledged (device boot : Bytes) (before : List EndpointEvent) (t : Nat) : Prop :=
  ∃ l id request payload now session connection began timed,
    before = l ++ [.identified id, .handled request t, .consumed, .acknowledged payload now] ∧
    AckFrame device boot session id payload ∧
    Since EndsConnection (.connected session) connection before ∧
    Since EndsTiming (.started began) timed before ∧
    Provisioning.elapsed now began transactionTimeoutMs = false

/-- What stands before an event. -/
def Legal (device boot : Bytes) (before : List EndpointEvent) : EndpointEvent → Prop
  | .handled _ t =>
    outstanding before = none ∧ Requested before t ∧ (∀ t' ∈ transactions before, t' < t) ∧
      2 ^ 62 ≤ t ∧ t < 2 ^ 63
  | .finished t delivered =>
    outstanding before = some t ∧ (delivered = true → Acknowledged device boot before t)
  | .connected _ => outstanding before = none
  | _ => True

/-! ## Ids -/

theorem transactionId_eq {generation : Nat} {id : Int} (hgeneration : generation ≤ 0x3fffffff)
    (hid : 0 ≤ id ∧ id ≤ int32Max) :
    transactionId generation id = 2 ^ 62 + generation * 2 ^ 31 + id.toNat := by
  have hlow : id.toNat < 2 ^ 31 := by unfold int32Max at hid; omega
  have hhigh : generation < 2 ^ 31 := by omega
  rw [transactionId, show 1 <<< 62 = (1 <<< 31) <<< 31 from rfl, ← Nat.shiftLeft_or_distrib,
    ← Nat.shiftLeft_add_eq_or_of_lt hlow, ← Nat.shiftLeft_add_eq_or_of_lt hhigh,
    Nat.shiftLeft_eq, Nat.shiftLeft_eq]
  omega

theorem fromChars_le {least greatest n : Int} {s rest : Bytes}
    (h : fromChars least greatest s = some (n, rest)) : n ≤ greatest := by
  simp only [fromChars, Option.ite_none_left_eq_some, Option.some.injEq, Prod.mk.injEq,
    Bool.or_eq_true, decide_eq_true_eq, not_or] at h
  obtain ⟨⟨-, hle⟩, rfl, -⟩ := h
  exact Int.not_lt.mp hle

theorem integer_le (v : Value) : v.integer ≤ int32Max := by
  rw [Value.integer, integerToken]
  split
  · decide
  · split
    · rename_i h
      exact fromChars_le h
    · decide

theorem envelope_spec {root : Value} {id : Int} {operation : Bytes}
    (h : envelope root = some (id, operation)) : 0 < id ∧ id ≤ int32Max := by
  unfold envelope at h
  split at h
  · split at h
    · cases h
    · rename_i hcond
      obtain ⟨rfl, -⟩ := h
      exact ⟨by omega, integer_le _⟩
  · cases h

/-! ## What a state keeps -/

namespace ManagementEndpoint

variable {e : ManagementEndpoint}

/-- What the history and the state say of each other. -/
structure Recorded (device boot : Bytes) (e : ManagementEndpoint) : Prop where
  legal : Each (Legal device boot) e.history
  outstanding : outstanding e.history = if e.pending then some e.transaction else none
  session : e.closed = false →
    ∃ connection, Since EndsConnection (.connected e.session) connection e.history ∧
      (∀ id, .identified id ∈ connection → id ≤ e.lastId) ∧
      (e.negotiated = true → .hello ∈ connection)
  began : e.timing = true → ∃ timed, Since EndsTiming (.started e.startedMs) timed e.history
  issued : ∀ t ∈ transactions e.history, t ≤ transactionId e.generation e.lastId
  generation : e.generation ≤ 0x3fffffff
  lastId : 0 ≤ e.lastId ∧ e.lastId ≤ int32Max
  live : e.pending = true → e.timing = true
  names : e.device = device ∧ e.boot = boot

/-- Between two calls: a pending transaction stands at the end of the history, with its reply
on its way out or consumed, and no frame is begun beside a reply. -/
structure Holds (device boot : Bytes) (e : ManagementEndpoint) : Prop
    extends Recorded device boot e where
  phase : e.pending = true → ∃ l request,
    e.history = l ++ .identified e.lastId :: .handled request e.transaction ::
      (if e.output.isSome then [] else [.consumed])
  framed : e.header ≠ [] → e.timing = true ∧ e.output = none

theorem Recorded.clearInput (h : Recorded device boot e) : Recorded device boot e.clearInput := by
  cases h
  constructor <;> assumption

theorem Recorded.session_snoc (h : Recorded device boot e) (hends : ¬ EndsConnection x)
    (hid : ∀ id, x ≠ .identified id) (hopen : e.closed = false) :
    ∃ connection, Since EndsConnection (.connected e.session) connection (e.history ++ [x]) ∧
      (∀ id, .identified id ∈ connection → id ≤ e.lastId) ∧
      (e.negotiated = true → .hello ∈ connection) := by
  obtain ⟨connection, hsince, hids, hhello⟩ := h.session hopen
  refine ⟨_, hsince.snoc hends, ?_, fun hn => List.mem_append_left _ (hhello hn)⟩
  intro id hmem
  rcases List.mem_append.mp hmem with hmem | hmem
  · exact hids id hmem
  · exact absurd (List.mem_singleton.mp hmem).symm (hid id)

theorem Recorded.began_snoc (h : Recorded device boot e) (hends : ¬ EndsTiming x)
    (htiming : e.timing = true) :
    ∃ timed, Since EndsTiming (.started e.startedMs) timed (e.history ++ [x]) := by
  obtain ⟨timed, hsince⟩ := h.began htiming
  exact ⟨_, hsince.snoc hends⟩

theorem Recorded.plain (h : Recorded device boot e) (hx : Plain x) :
    Recorded device boot (e.record x) := by
  have hends : ¬ EndsConnection x ∧ ¬ EndsTiming x := by
    obtain rfl | rfl | ⟨_, _, rfl⟩ := hx <;> exact ⟨id, id⟩
  have hkeeps : settle (Usb.outstanding e.history) x = Usb.outstanding e.history ∧
      opened x = none := by
    obtain rfl | rfl | ⟨_, _, rfl⟩ := hx <;> exact ⟨rfl, rfl⟩
  have hlegal : Legal device boot e.history x := by
    obtain rfl | rfl | ⟨_, _, rfl⟩ := hx <;> trivial
  have hid : ∀ id, x ≠ .identified id := by
    obtain rfl | rfl | ⟨_, _, rfl⟩ := hx <;> exact fun _ => EndpointEvent.noConfusion
  refine ⟨h.legal.snoc hlegal, ?_, ?_, ?_, ?_, h.generation, h.lastId, h.live, h.names⟩
  · show Usb.outstanding (e.history ++ [x]) = _
    rw [outstanding_snoc, hkeeps.1]
    exact h.outstanding
  · exact h.session_snoc hends.1 hid
  · exact h.began_snoc hends.2
  · simpa [record, hkeeps] using h.issued

theorem Recorded.finish (h : Recorded device boot e) (hpending : e.pending = true)
    {delivered : Bool}
    (hack : delivered = true → Acknowledged device boot e.history e.transaction) :
    Recorded device boot (e.finish delivered) := by
  have hout : Usb.outstanding e.history = some e.transaction := by
    rw [h.outstanding, if_pos hpending]
  refine ⟨h.legal.snoc ⟨hout, hack⟩, by simp [ManagementEndpoint.finish, record, settle], ?_, ?_,
    ?_, h.generation, h.lastId, fun hp => Bool.noConfusion hp, h.names⟩
  · exact h.session_snoc id nofun
  · exact h.began_snoc id
  · simpa [ManagementEndpoint.finish, record, opened] using h.issued

theorem disconnect_holds (h : Recorded device boot e) :
    Holds device boot e.disconnect ∧ e.disconnect.closed = true ∧
      e.disconnect.pending = false ∧ e.disconnect.negotiated = false := by
  -- first the transaction is given up, then the connection
  have hgiven : ∃ e', Recorded device boot e' ∧ e'.pending = false ∧ e.disconnect =
      { e'.clearInput.record .disconnected with
        output := none, outputOffset := 0, timing := false, negotiated := false, closed := true,
        session := [] } := by
    by_cases hpending : e.pending = true
    · exact ⟨e.finish false, h.finish hpending (fun hd => Bool.noConfusion hd), rfl,
        by rw [disconnect, if_pos hpending]⟩
    · exact ⟨e, h, by simpa using hpending, by rw [disconnect, if_neg hpending]⟩
  obtain ⟨e', h', hpending, heq⟩ := hgiven
  rw [heq]
  refine ⟨⟨⟨h'.legal.snoc trivial, ?_, fun hc => Bool.noConfusion hc, fun ht => Bool.noConfusion ht,
    ?_, h'.generation, h'.lastId, fun hp => ?_, h'.names⟩, fun hp => ?_,
    fun hne => absurd rfl hne⟩, rfl, hpending, rfl⟩
  · show outstanding (e'.history ++ [.disconnected]) = _
    rw [outstanding_snoc]
    exact h'.outstanding
  · simpa [record, clearInput, opened] using h'.issued
  · exact absurd (hpending.symm.trans hp) Bool.noConfusion
  · exact absurd (hpending.symm.trans hp) Bool.noConfusion

/-! ## Replies -/

theorem respond_cases (memory : Memory) (status : Nat) (response : HttpResponse)
    (delivery : Bool) (e : ManagementEndpoint) :
    e.respond memory status response delivery = (false, e) ∨
    ∃ o header, e.respond memory status response delivery =
      (true, { e with output := some o, outputHeader := header, outputOffset := 0 }) := by
  simp only [respond]
  split
  · split
    · exact .inl rfl
    · exact .inr ⟨_, _, rfl⟩
  · split
    · exact .inl rfl
    · exact .inr ⟨_, _, rfl⟩

theorem Recorded.reply (h : Recorded device boot e) (output : Option Output) (outputHeader : Bytes)
    (outputOffset : Nat) :
    Recorded device boot { e with output, outputHeader, outputOffset } := by
  cases h
  constructor <;> assumption

theorem Holds.reply (h : Holds device boot e) {o : Output} (ho : e.output = some o) (o' : Output)
    (outputHeader : Bytes) (outputOffset : Nat) :
    Holds device boot { e with output := some o', outputHeader, outputOffset } := by
  refine ⟨h.toRecorded.reply _ _ _, ?_, ?_⟩
  · intro hp
    obtain ⟨l, request, heq⟩ := h.phase hp
    rw [ho] at heq
    exact ⟨l, request, heq⟩
  · intro hne
    have hnone := (h.framed hne).2
    rw [ho] at hnone
    cases hnone

/-- A poll disconnects, or counts the reply on its way out. -/
theorem poll_cases (now : UInt64) (e : ManagementEndpoint) :
    e.poll now = e.disconnect ∨
    (¬ (e.timing = true ∧ Provisioning.elapsed now e.startedMs transactionTimeoutMs = true) ∧
      (e.poll now = e ∨
        ∃ o o' header, e.output = some o ∧
          e.poll now = { e with output := some o', outputHeader := header })) := by
  unfold poll
  split
  · exact .inl rfl
  · rename_i htime
    split
    · exact .inr ⟨htime, .inl rfl⟩
    · rename_i o ho
      split
      · exact .inr ⟨htime, .inl rfl⟩
      · split
        · exact .inl rfl
        · split
          · split
            · exact .inl rfl
            · exact .inr ⟨htime, .inr ⟨o, _, _, ho, rfl⟩⟩
          · exact .inr ⟨htime, .inr ⟨o, _, e.outputHeader, ho, rfl⟩⟩

theorem poll_holds (h : Holds device boot e) (now : UInt64) : Holds device boot (e.poll now) := by
  obtain heq | ⟨-, heq | ⟨o, o', header, ho, heq⟩⟩ := poll_cases now e
  · rw [heq]
    exact (disconnect_holds h.toRecorded).1
  · rwa [heq]
  · rw [heq]
    exact h.reply ho o' header e.outputOffset

/-- The endpoint that a poll leaves open is within the time of its transaction. -/
theorem poll_timely (h : Recorded device boot e) (now : UInt64)
    (hopen : (e.poll now).closed = false)
    (htiming : (e.poll now).timing = true) :
    Provisioning.elapsed now (e.poll now).startedMs transactionTimeoutMs = false := by
  obtain heq | ⟨htime, heq⟩ := poll_cases now e
  · rw [heq, (disconnect_holds h).2.1] at hopen
    cases hopen
  · have hsame : (e.poll now).timing = e.timing ∧ (e.poll now).startedMs = e.startedMs := by
      obtain heq | ⟨_, _, _, -, heq⟩ := heq <;> rw [heq] <;> exact ⟨rfl, rfl⟩
    rw [hsame.1] at htiming
    rw [hsame.2]
    exact Bool.eq_false_iff.mpr fun hlate => htime ⟨htiming, hlate⟩

theorem consumeOutput_holds (h : Holds device boot e) (bytes : Nat) :
    Holds device boot (e.consumeOutput bytes) := by
  simp only [consumeOutput]
  split
  · exact (disconnect_holds h.toRecorded).1
  · split
    · rename_i ho
      refine ⟨h.toRecorded.reply e.output e.outputHeader _, ?_, ?_⟩
      · exact h.phase
      · exact h.framed
    · rename_i o ho
      replace ho : e.output = some o := ho
      split
      · have hplain := h.toRecorded.plain (x := .consumed) (.inr (.inl rfl))
        refine ⟨⟨hplain.legal, hplain.outstanding, hplain.session, ?_, hplain.issued,
          hplain.generation, hplain.lastId, ?_, hplain.names⟩, ?_, ?_⟩
        · intro htiming
          refine hplain.began ?_
          cases hp : e.pending <;> simp_all [record]
        · intro hp
          replace hp : e.pending = true := hp
          simpa [record, hp] using h.live hp
        · intro hp
          obtain ⟨l, request, heq⟩ := h.phase hp
          rw [ho] at heq
          exact ⟨l, request, by simp [record, heq]⟩
        · intro hne
          have hnone := (h.framed hne).2
          rw [ho] at hnone
          cases hnone
      · have hreply := h.reply ho o e.outputHeader (e.outputOffset + bytes)
        rwa [← ho] at hreply

/-! ## Connections -/

theorem connect_holds (h : Holds device boot e) (session : Bytes) :
    Holds device boot (e.connect session) := by
  obtain ⟨hd, -, hpending, hnegotiated⟩ := disconnect_holds h.toRecorded
  simp only [connect]
  split
  · exact hd
  · rename_i hcond
    simp only [not_or] at hcond
    generalize e.disconnect = e at hd hpending hnegotiated hcond
    have hout : Usb.outstanding e.history = none := by
      rw [hd.outstanding, hpending]
      rfl
    have hnext : e.generation + 1 ≤ 0x3fffffff := by
      have := hd.generation
      omega
    refine ⟨⟨hd.legal.snoc hout, ?_, ?_, ?_, ?_, hnext, by simp [int32Max], hd.live, hd.names⟩, ?_,
      hd.framed⟩
    · show Usb.outstanding (e.history ++ [.connected session]) = _
      rw [outstanding_snoc]
      exact hd.outstanding
    · intro _
      exact ⟨[], Since.here, by simp, fun hn => absurd (hnegotiated.symm.trans hn) Bool.noConfusion⟩
    · intro htiming
      obtain ⟨timed, hsince⟩ := hd.began htiming
      exact ⟨_, hsince.snoc id⟩
    · intro t ht
      have hle := hd.issued t (by simpa [record, opened] using ht)
      have hid := hd.lastId
      rw [transactionId_eq hd.generation hid] at hle
      have hstart : transactionId (e.generation + 1) 0 = _ :=
        transactionId_eq hnext (by simp [int32Max])
      unfold int32Max at hid
      calc t ≤ 2 ^ 62 + e.generation * 2 ^ 31 + e.lastId.toNat := hle
        _ ≤ 2 ^ 62 + (e.generation + 1) * 2 ^ 31 + (0 : Int).toNat := by omega
        _ = transactionId (e.generation + 1) 0 := hstart.symm
    · intro hp
      exact absurd (hpending.symm.trans hp) Bool.noConfusion

/-! ## Frames -/

/-- A frame is dispatched: what is recorded, and what holds when it is accepted. -/
def Sound (device boot : Bytes) (r : Bool × ManagementEndpoint) : Prop :=
  Recorded device boot r.2 ∧ (r.1 = true → Holds device boot r.2.clearInput)

theorem Recorded.refused (h : Recorded device boot e) : Sound device boot (false, e) :=
  ⟨h, fun hf => Bool.noConfusion hf⟩

theorem Recorded.respond (h : Recorded device boot e)
    (hphase : e.pending = true → ∃ l request,
      e.history = l ++ [.identified e.lastId, .handled request e.transaction])
    (memory : Memory) (status : Nat) (response : HttpResponse) (delivery : Bool) :
    Sound device boot (e.respond memory status response delivery) := by
  obtain heq | ⟨o, header, heq⟩ := respond_cases memory status response delivery e
  · rw [heq]
    exact h.refused
  · rw [heq]
    have hreply := h.reply (some o) header 0
    exact ⟨hreply, fun _ => ⟨hreply.clearInput, hphase, fun hne => absurd rfl hne⟩⟩

theorem textOf_member {v : Value} {name : String}
    (h : ((v.get (ascii name)).getD {}).type = 34) :
    textOf v name = some ((v.get (ascii name)).getD {}).string := by
  cases hget : v.get (ascii name) with
  | none =>
    rw [hget] at h
    exact absurd h (by decide)
  | some m =>
    rw [hget] at h
    rw [textOf, hget]
    exact if_pos h

theorem binding_bound {root : Value} (h : e.binding root = true) :
    textOf root "session" = some e.session ∧
    ∃ target, root.get (ascii "target") = some target ∧
      fields target (["scope", "device_id", "boot_id"].map ascii) = true ∧
      textOf target "scope" = some (ascii "member") ∧
      textOf target "device_id" = some e.device ∧ textOf target "boot_id" = some e.boot := by
  unfold binding at h
  split at h
  · rename_i session target hsession htarget
    simp only [Bool.and_eq_true, decide_eq_true_eq, List.all_eq_true] at h
    obtain ⟨⟨⟨⟨⟨⟨htype, hstring⟩, hfields⟩, htypes⟩, hscope⟩, hdevice⟩, hboot⟩ := h
    have htext : ∀ name ∈ ["scope", "device_id", "boot_id"],
        textOf target name = some ((target.get (ascii name)).getD {}).string :=
      fun name hname => textOf_member (htypes name hname)
    refine ⟨?_, target, htarget, hfields, ?_, ?_, ?_⟩
    · rw [textOf, hsession, ← hstring]
      exact if_pos htype
    · rw [htext "scope" (by simp), hscope]
    · rw [htext "device_id" (by simp), hdevice]
    · rw [htext "boot_id" (by simp), hboot]
  · cases h

theorem greet_sound (h : Recorded device boot e) (hopen : e.closed = false)
    (hpending : e.pending = false)
    (memory : Memory) (root : Value) : Sound device boot (e.greet memory root) := by
  simp only [greet]
  split
  · exact h.refused
  · have hplain := h.plain (x := .hello) (.inl rfl)
    have hrec : Recorded device boot { e.record .hello with negotiated := true } := by
      refine ⟨hplain.legal, hplain.outstanding, ?_, hplain.began, hplain.issued,
        hplain.generation, hplain.lastId, hplain.live, hplain.names⟩
      intro _
      obtain ⟨connection, hsince, hids, -⟩ := h.session hopen
      exact ⟨_, hsince.snoc id, fun id hmem => hids id (by simpa using hmem), fun _ => by simp⟩
    refine hrec.respond ?_ memory 200 _ false
    intro hp
    exact absurd (hpending.symm.trans hp) Bool.noConfusion

/-- An acknowledgement settles the pending transaction, or changes nothing. -/
theorem acknowledge_sound (h : Holds device boot e) (hopen : e.closed = false)
    (hout : e.output = none)
    {now : UInt64} {root : Value} {sequence : Int}
    (htime : Provisioning.elapsed now e.startedMs transactionTimeoutMs = false)
    (hparse : parse e.input = some root) (henvelope : envelope root = some (sequence, ascii "ack"))
    (memory : Memory) : Sound device boot (e.acknowledge memory now root sequence) := by
  unfold acknowledge
  split
  · exact h.toRecorded.refused
  · rename_i hcond
    simp only [not_or, Bool.not_eq_true', Bool.not_eq_false, ne_eq, not_not] at hcond
    obtain ⟨hfields, -, hpending, rfl, hbinding⟩ := hcond
    obtain heq | ⟨o, header, heq⟩ := respond_cases memory 200 acknowledgement false e
    · rw [heq]
      exact h.toRecorded.refused
    · rw [heq]
      have hnext := (h.toRecorded.reply (some o) header 0).plain
        (x := .acknowledged e.input now) (.inr (.inr ⟨_, _, rfl⟩))
      obtain ⟨l, request, hhistory⟩ := h.phase hpending
      rw [hout] at hhistory
      obtain ⟨connection, hsession, -⟩ := h.session hopen
      obtain ⟨timed, hbegan⟩ := h.began (h.live hpending)
      obtain ⟨htext, target, htarget⟩ := binding_bound hbinding
      rw [h.names.1, h.names.2] at htarget
      have hack : Acknowledged device boot (e.history ++ [.acknowledged e.input now])
          e.transaction :=
        ⟨l, e.lastId, request, e.input, now, e.session, _, e.startedMs, _, by simp [hhistory],
          ⟨root, target, hparse, henvelope, hfields, htext, htarget⟩, hsession.snoc id,
          hbegan.snoc id, htime⟩
      have hdone : Recorded device boot (finish true _) := hnext.finish hpending fun _ => hack
      exact ⟨hdone, fun _ => ⟨hdone.clearInput, fun hp => Bool.noConfusion hp,
        fun hne => absurd rfl hne⟩⟩

/-- The state behind a frame with the next id. -/
structure Identified (e : ManagementEndpoint) : Prop where
  requested : ∃ session connection,
    Since EndsConnection (.connected session) (connection ++ [.identified e.lastId]) e.history ∧
    (∀ id, .identified id ∈ connection → id < e.lastId) ∧
    (e.negotiated = true → .hello ∈ connection)
  issued : ∀ t ∈ transactions e.history, t < transactionId e.generation e.lastId
  positive : 0 < e.lastId

theorem Recorded.identify (h : Recorded device boot e) (hopen : e.closed = false)
    (hpending : e.pending = false)
    {sequence : Int} (hgreater : e.lastId < sequence) (hle : sequence ≤ int32Max) :
    Recorded device boot { e.record (.identified sequence) with lastId := sequence } ∧
    Identified { e.record (.identified sequence) with lastId := sequence } := by
  obtain ⟨connection, hsince, hids, hhello⟩ := h.session hopen
  have hid := h.lastId
  have hnew : 0 ≤ sequence ∧ sequence ≤ int32Max := ⟨by omega, hle⟩
  have hissued : ∀ t ∈ transactions (e.history ++ [.identified sequence]),
      t < transactionId e.generation sequence := by
    intro t ht
    have hbound := h.issued t (by simpa [opened] using ht)
    rw [transactionId_eq h.generation hid] at hbound
    rw [transactionId_eq h.generation hnew]
    omega
  refine ⟨⟨h.legal.snoc trivial, ?_, ?_, ?_, fun t ht => Nat.le_of_lt (hissued t ht),
    h.generation, hnew, fun hp => ?_, h.names⟩,
    ⟨⟨_, connection, hsince.snoc id, ?_, hhello⟩, hissued, ?_⟩⟩
  · show Usb.outstanding (e.history ++ [.identified sequence]) = _
    rw [outstanding_snoc]
    exact h.outstanding
  · intro _
    refine ⟨_, hsince.snoc id, ?_, fun hn => List.mem_append_left _ (hhello hn)⟩
    intro id hmem
    rcases List.mem_append.mp hmem with hmem | hmem
    · have := hids id hmem
      show id ≤ sequence
      omega
    · obtain rfl : id = sequence := by simpa using hmem
      exact Int.le_refl _
  · intro htiming
    obtain ⟨timed, hbegan⟩ := h.began htiming
    exact ⟨_, hbegan.snoc id⟩
  · exact absurd (hpending.symm.trans hp) Bool.noConfusion
  · intro id hmem
    have := hids id hmem
    show id < sequence
    omega
  · show 0 < sequence
    omega

theorem Identified.last (h : Identified e) : ∃ l, e.history = l ++ [.identified e.lastId] := by
  obtain ⟨session, connection, ⟨before, heq, -⟩, -⟩ := h.requested
  exact ⟨before ++ .connected session :: connection, by simp [heq]⟩

theorem Recorded.handled (h : Recorded device boot e) (hid : Identified e)
    (hpending : e.pending = false)
    (hnegotiated : e.negotiated = true) (htiming : e.timing = true) (request : HttpRequest) :
    Recorded device boot { e.clearInput.record
      (.handled request (transactionId e.generation e.lastId)) with
      transaction := transactionId e.generation e.lastId, pending := true } := by
  obtain ⟨session, connection, hsince, hids, hhello⟩ := hid.requested
  have hvalue := transactionId_eq h.generation h.lastId
  have hlast := h.lastId
  have hgeneration := h.generation
  have hlegal : Legal device boot e.history
      (.handled request (transactionId e.generation e.lastId)) := by
    refine ⟨?_, ⟨session, connection, e.generation, e.lastId, hsince, hhello hnegotiated, hids,
      rfl⟩, hid.issued, ?_, ?_⟩
    · rw [h.outstanding, hpending]
      rfl
    · rw [hvalue]
      omega
    · rw [hvalue]
      unfold int32Max at hlast
      omega
  refine ⟨h.legal.snoc hlegal, ?_, ?_, ?_, ?_, h.generation, h.lastId, fun _ => htiming, h.names⟩
  · show Usb.outstanding (e.history ++ [.handled request _]) = _
    rw [outstanding_snoc]
    rfl
  · exact h.session_snoc id nofun
  · exact h.began_snoc id
  · intro t ht
    obtain ht | rfl : t ∈ transactions e.history ∨ t = transactionId e.generation e.lastId := by
      simpa [record, ManagementEndpoint.clearInput, opened] using ht
    · exact h.issued t ht
    · exact Nat.le_refl _

theorem handle_sound (h : Recorded device boot e) (hid : Identified e)
    (hpending : e.pending = false)
    (htiming : e.timing = true) (memory : Memory) (handler : HttpRequest → HttpResponse)
    (root : Value) : Sound device boot (e.handle memory handler root e.lastId) := by
  simp only [handle]
  split
  · exact h.refused
  · rename_i hcond
    simp only [not_or, Bool.not_eq_true', Bool.not_eq_false] at hcond
    split
    · exact h.refused
    · rename_i request _
      refine (h.handled hid hpending hcond.1 htiming request).respond ?_ memory _ _ _
      intro _
      obtain ⟨l, heq⟩ := hid.last
      exact ⟨l, request, by simp [record, clearInput, heq]⟩

theorem dispatch_sound (h : Holds device boot e) (hopen : e.closed = false) (hout : e.output = none)
    {now : UInt64} (htiming : e.timing = true)
    (htime : Provisioning.elapsed now e.startedMs transactionTimeoutMs = false)
    (memory : Memory) (handler : HttpRequest → HttpResponse) :
    Sound device boot (e.dispatch memory handler now) := by
  unfold dispatch
  split
  · exact h.toRecorded.refused
  · rename_i root hparse
    split
    · exact h.toRecorded.refused
    · rename_i sequence operation henvelope
      split
      · rename_i hop
        exact acknowledge_sound h hopen hout htime hparse (hop ▸ henvelope) memory
      · split
        · exact h.toRecorded.refused
        · rename_i hcond
          simp only [not_or, Int.not_le, Bool.not_eq_true] at hcond
          obtain ⟨hgreater, hpending⟩ := hcond
          obtain ⟨hrec, hid⟩ :=
            h.toRecorded.identify hopen hpending hgreater (envelope_spec henvelope).2
          dsimp only
          split
          · exact greet_sound hrec hopen hpending memory root
          · split
            · exact hrec.refused
            · exact handle_sound hrec hid hpending htiming memory handler root

/-! ## Bytes -/

theorem Holds.buffer (h : Holds device boot e) (header : Bytes) (expected : Nat) (input : Bytes)
    (hframed : header ≠ [] → e.timing = true ∧ e.output = none) :
    Holds device boot { e with header, expected, input } := by
  obtain ⟨⟨_, _, _, _, _, _, _, _, _⟩, hphase, -⟩ := h
  exact ⟨by constructor <;> assumption, hphase, hframed⟩

theorem elapsed_self (now : UInt64) :
    Provisioning.elapsed now now transactionTimeoutMs = false := by
  simp [Provisioning.elapsed, transactionTimeoutMs]

/-- The time of a transaction runs from the first byte. -/
theorem start_holds {now : UInt64} (h : Holds device boot e)
    (htime : e.timing = true → Provisioning.elapsed now e.startedMs transactionTimeoutMs = false)
    (bytes : Bytes) :
    Holds device boot (e.start bytes now) ∧ (e.start bytes now).closed = e.closed ∧
    (e.start bytes now).output = e.output ∧
    (bytes ≠ [] → (e.start bytes now).timing = true) ∧
    ((e.start bytes now).timing = true →
      Provisioning.elapsed now (e.start bytes now).startedMs transactionTimeoutMs = false) := by
  unfold start
  split
  · rename_i hcond
    obtain ⟨-, hidle⟩ := hcond
    replace hidle : e.timing = false := by simpa using hidle
    have hpending : e.pending = false := by
      cases hp : e.pending with
      | false => rfl
      | true => exact absurd (h.live hp) (by simp [hidle])
    refine ⟨⟨⟨h.legal.snoc trivial, ?_, ?_, fun _ => ⟨_, Since.here⟩, ?_, h.generation, h.lastId,
      fun _ => rfl, h.names⟩, ?_, fun hne => ⟨rfl, (h.framed hne).2⟩⟩, rfl, rfl, fun _ => rfl,
      fun _ => elapsed_self now⟩
    · show Usb.outstanding (e.history ++ [.started now]) = _
      rw [outstanding_snoc]
      exact h.outstanding
    · exact h.session_snoc id nofun
    · simpa [record, opened] using h.issued
    · intro hp
      exact absurd (hpending.symm.trans hp) Bool.noConfusion
  · rename_i hcond
    refine ⟨h, rfl, rfl, fun hne => ?_, htime⟩
    cases htiming : e.timing with
    | true => rfl
    | false => exact absurd ⟨by simpa using hne, by simp [htiming]⟩ hcond

theorem receivePayload_holds (h : Holds device boot e) (hopen : e.closed = false)
    (hout : e.output = none)
    {now : UInt64} (htiming : e.timing = true)
    (htime : Provisioning.elapsed now e.startedMs transactionTimeoutMs = false)
    (memory : Memory) (handler : HttpRequest → HttpResponse) (rest : Bytes) :
    Holds device boot (e.receivePayload memory handler rest now).2 := by
  have hread := h.buffer e.header e.expected
    (e.input ++ rest.take (e.expected - e.input.length)) h.framed
  simp only [receivePayload]
  split
  · have hsound := dispatch_sound hread hopen hout htiming htime memory handler
    split <;> rename_i hdispatch <;> rw [hdispatch] at hsound
    · exact hsound.2 rfl
    · exact (disconnect_holds hsound.1).1
  · exact hread

theorem receive_holds (h : Holds device boot e) (memory : Memory)
    (handler : HttpRequest → HttpResponse)
    (bytes : Bytes) (now : UInt64) : Holds device boot (e.receive memory handler bytes now).2 := by
  have hpoll := poll_holds h now
  have htimely := poll_timely h.toRecorded now
  simp only [receive]
  generalize e.poll now = e at hpoll htimely
  split
  · exact hpoll
  · rename_i hcond
    simp only [not_or, Bool.not_eq_true, Option.isSome_eq_false_iff, Option.isNone_iff_eq_none]
      at hcond
    obtain ⟨hopen, hout⟩ := hcond
    obtain ⟨hstart, hclosed, houtput, hruns, htime⟩ := start_holds hpoll (htimely hopen) bytes
    rw [hopen] at hclosed
    rw [hout] at houtput
    generalize e.start bytes now = e at hstart hclosed houtput hruns htime
    -- a header that is begun has begun the time
    have hframed : e.header ++ bytes.take (8 - e.header.length) ≠ [] →
        e.timing = true ∧ e.output = none := by
      intro hne
      refine ⟨?_, houtput⟩
      by_cases hheader : e.header = []
      · refine hruns fun hbytes => hne ?_
        rw [hheader, hbytes]
        rfl
      · exact (hstart.framed hheader).1
    have hread := hstart.buffer _ e.expected e.input hframed
    split
    · exact hread
    · rename_i hlength
      split
      · exact (disconnect_holds hread.toRecorded).1
      · rename_i e' hbegin
        have hne : e.header ++ bytes.take (8 - e.header.length) ≠ [] := by
          intro hnil
          rw [hnil] at hlength
          exact hlength (by decide)
        have htiming := (hframed hne).1
        obtain ⟨expected, rfl⟩ : ∃ expected, e' =
            { e with header := e.header ++ bytes.take (8 - e.header.length), expected } := by
          unfold beginFrame at hbegin
          split at hbegin
          · exact ⟨_, by simpa using hbegin.symm⟩
          · split at hbegin
            · cases hbegin
            · simp only [Option.ite_none_left_eq_some, Option.some.injEq] at hbegin
              exact ⟨_, hbegin.2.symm⟩
        exact receivePayload_holds (hstart.buffer _ expected e.input hframed) hclosed houtput
          htiming (htime htiming) memory handler _

/-! ## Runs -/

theorem perform_holds (h : Holds device boot e) (call : EndpointCall) :
    Holds device boot (e.perform call) := by
  cases call with
  | connect session => exact connect_holds h session
  | disconnect => exact (disconnect_holds h.toRecorded).1
  | poll now => exact poll_holds h now
  | receive memory handler bytes now => exact receive_holds h memory handler bytes now
  | consumeOutput bytes => exact consumeOutput_holds h bytes

theorem initial_holds (device boot firmware : Bytes) :
    Holds device boot ({ device, boot, firmware } : ManagementEndpoint) :=
  ⟨⟨Each.nil, rfl, fun hc => Bool.noConfusion hc, fun ht => Bool.noConfusion ht,
    fun t ht => absurd ht (by simp [transactions]), Nat.zero_le _, by simp [int32Max],
    fun hp => Bool.noConfusion hp, rfl, rfl⟩, fun hp => Bool.noConfusion hp,
    fun hne => absurd rfl hne⟩

theorem run_holds (device boot firmware : Bytes) (calls : List EndpointCall) :
    Holds device boot (run device boot firmware calls) := by
  induction calls using List.reverseRecOn with
  | nil => exact initial_holds device boot firmware
  | append_singleton calls call ih =>
    rw [run, List.foldl_append]
    exact perform_holds ih call

end ManagementEndpoint

/-! ## What a legal history says -/

section

variable {history : List EndpointEvent} {t : Nat}

/-- The open transaction is that of the last event that is of a transaction. -/
theorem outstanding_since (h : outstanding history = some t) : ∃ request after,
    Since (fun y => isHandled y || isFinished y) (.handled request t) after history := by
  induction history using List.reverseRecOn with
  | nil => cases h
  | append_singleton l x ih =>
    rw [outstanding_snoc] at h
    cases x with
    | handled request t' =>
      obtain rfl : t' = t := by simpa [settle] using h
      exact ⟨request, [], Since.here⟩
    | finished t' delivered => cases h
    | _ =>
      obtain ⟨request, after, hsince⟩ := ih h
      exact ⟨request, _, hsince.snoc (by simp [isHandled, isFinished])⟩

theorem transactions_increasing (h : Each (Legal device boot) history) :
    (transactions history).Pairwise (· < ·) := by
  induction history using List.reverseRecOn with
  | nil => exact List.Pairwise.nil
  | append_singleton l x ih =>
    rw [transactions_snoc]
    have hl := ih h.init
    cases x with
    | handled request t =>
      refine List.pairwise_append.mpr ⟨hl, List.pairwise_singleton _ _, ?_⟩
      intro t' ht' u hu
      obtain rfl : t = u := by simpa [opened, eq_comm] using hu
      exact h.last.2.2.1 t' ht'
    | _ => simpa [opened] using hl

/-- As many transactions are finished as are opened, but for the open one. -/
theorem accounted (h : Each (Legal device boot) history) :
    history.countP isHandled =
      history.countP isFinished + (outstanding history).toList.length := by
  induction history using List.reverseRecOn with
  | nil => rfl
  | append_singleton l x ih =>
    have hl := ih h.init
    rw [List.countP_append, List.countP_append, outstanding_snoc, hl]
    cases x with
    | handled request t =>
      rw [h.last.1]
      simp [settle, isHandled, isFinished]
    | finished t delivered =>
      rw [h.last.1]
      simp [settle, isHandled, isFinished]
    | _ => simp [settle, isHandled, isFinished]

/-- Behind a call of the handler its transaction is open, or has been finished once. -/
theorem finished_once {request : HttpRequest}
    (h : Each (Legal device boot) (before ++ .handled request t :: after)) :
    outstanding (before ++ .handled request t :: after) = some t ∧
      after.countP (finishes t) = 0 ∨
    outstanding (before ++ .handled request t :: after) ≠ some t ∧
      after.countP (finishes t) = 1 := by
  induction after using List.reverseRecOn with
  | nil => exact .inl ⟨by rw [outstanding_snoc]; rfl, rfl⟩
  | append_singleton l x ih =>
    rw [← List.cons_append, ← List.append_assoc] at h ⊢
    have hlast := h.last
    have hl := ih h.init
    have hopened : t ∈ transactions (before ++ .handled request t :: l) := by
      simp [transactions, opened]
    rw [outstanding_snoc, List.countP_append]
    generalize before ++ .handled request t :: l = history at hlast hl hopened
    cases x with
    | handled request' t' =>
      obtain ⟨hnone, -, hgreater, -⟩ := hlast
      have hother := hgreater t hopened
      rw [hnone] at hl
      obtain ⟨hopen, -⟩ | ⟨-, hcount⟩ := hl
      · cases hopen
      · refine .inr ⟨?_, by simp [finishes, hcount]⟩
        simp only [settle, ne_eq, Option.some.injEq]
        omega
    | finished t' delivered =>
      have hsome := hlast.1
      rw [hsome] at hl
      obtain ⟨hopen, hcount⟩ | ⟨hopen, hcount⟩ := hl
      · obtain rfl : t' = t := by simpa using hopen
        exact .inr ⟨by simp [settle], by simp [finishes, hcount]⟩
      · have hother : t' ≠ t := by simpa using hopen
        exact .inr ⟨by simp [settle], by simp [finishes, hcount, hother]⟩
    | _ => simpa [settle, finishes] using hl

end

/-- Over every run each call of the handler is finished at most once, and once before the next
call and the next connection; `finish_` is called for the transaction of the last call of the
handler, and with a delivery only behind its acknowledgement; one transaction is open at most;
each is requested behind a hello with an id greater than those before it; and the transactions
are distinct, below bit 63. -/
theorem acknowledged_once (device boot firmware : Bytes) (calls : List EndpointCall) :
    let history := (run device boot firmware calls).history
    (∀ before request t after, history = before ++ .handled request t :: after →
      after.countP (finishes t) ≤ 1 ∧
      ∀ mid x rest, after = mid ++ x :: rest → Begins x → mid.countP (finishes t) = 1) ∧
    (∀ before t delivered after, history = before ++ .finished t delivered :: after →
      (∃ request mid,
        Since (fun y => isHandled y || isFinished y) (.handled request t) mid before) ∧
      (delivered = true → Acknowledged device boot before t)) ∧
    (∀ before, before <+: history →
      before.countP isFinished ≤ before.countP isHandled ∧
      before.countP isHandled ≤ before.countP isFinished + 1) ∧
    (∀ before request t after, history = before ++ .handled request t :: after →
      Requested before t) ∧
    (transactions history).Nodup ∧ ∀ t ∈ transactions history, 2 ^ 62 ≤ t ∧ t < 2 ^ 63 := by
  intro history
  have hlegal : Each (Legal device boot) history := (run_holds device boot firmware calls).legal
  refine ⟨?_, ?_, ?_, ?_, ?_, ?_⟩
  · intro before request t after heq
    rw [heq] at hlegal
    constructor
    · obtain ⟨-, hcount⟩ | ⟨-, hcount⟩ := finished_once hlegal <;> omega
    · intro mid x rest hafter hbegins
      subst hafter
      rw [← List.cons_append, ← List.append_assoc] at hlegal
      have hnone : outstanding (before ++ .handled request t :: mid) = none := by
        have hx := hlegal _ x rest rfl
        cases x with
        | handled => exact hx.1
        | connected => exact hx
        | _ => exact hbegins.elim
      obtain ⟨hopen, -⟩ | ⟨-, hcount⟩ := finished_once hlegal.of_append
      · rw [hnone] at hopen
        cases hopen
      · exact hcount
  · intro before t delivered after heq
    obtain ⟨hopen, hack⟩ := hlegal before _ after heq
    exact ⟨outstanding_since hopen, hack⟩
  · rintro before ⟨after, heq⟩
    rw [← heq] at hlegal
    have hcount := accounted hlegal.of_append
    have hone : (outstanding before).toList.length ≤ 1 := by
      cases outstanding before <;> simp
    omega
  · intro before request t after heq
    exact (hlegal before _ after heq).2.1
  · exact (transactions_increasing hlegal).imp Nat.ne_of_lt
  · intro t ht
    obtain ⟨x, hx, hopened⟩ := List.mem_filterMap.mp ht
    obtain ⟨before, after, heq⟩ := List.append_of_mem hx
    have hhere := hlegal before x after heq
    cases x with
    | handled request t' =>
      obtain rfl : t' = t := by simpa [opened] using hopened
      exact hhere.2.2.2
    | _ => cases hopened

end WsprryPico.Usb
