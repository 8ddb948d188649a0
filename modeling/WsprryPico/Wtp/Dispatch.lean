import WsprryPico.Wtp.Endpoint
import WsprryPico.Wtp.ByteFeed
import WsprryPico.Wtp.Decode
import WsprryPico.Lib.History
import WsprryPico.Lib.Triple

/-!
# The order of dispatch

What stands before each event of an endpoint: `Legal`. A payload is in hand from its arrival,
or from its resumption, until it is dispatched, refused, deferred or given up; bytes are taken
when none is in hand and none waits.
-/

namespace WsprryPico.Wtp

open Lib Json

variable {ω α : Type} {device firmware : Bytes} {x y : WireEvent}
  {l before after mid : List WireEvent}

/-! ## Histories -/

namespace WireEvent

def EndsConnection : WireEvent → Prop
  | connected _ | disconnected => True
  | _ => False

def Boots : WireEvent → Prop
  | booted _ => True
  | _ => False

/-- Another payload, another connection, or the end of the one in hand. -/
def Serves : WireEvent → Prop
  | arrived _ | dispatched _ _ | refused _ _ | ended | connected _ | disconnected => True
  | _ => False

/-- A request is to be answered. -/
def Asks : WireEvent → Prop
  | dispatched _ _ | refused _ _ => True
  | _ => False

/-- A response is queued, or the connection is lost. -/
def Answers : WireEvent → Prop
  | replied _ | disconnected => True
  | _ => False

/-- A successful HELLO. -/
def Greets (request : Codec.Request) (x : WireEvent) : Prop :=
  ∃ response, x = dispatched request response ∧ response.ok = true ∧
    request.operation = ascii "HELLO"

end WireEvent

open WireEvent

inductive Phase where
  | idle | inHand | waiting
  deriving DecidableEq

/-- What a history says: of the last payload, of the time it was deferred first, and of the
frames on their way out. -/
structure Seen where
  phase : Phase := .idle
  first : Option UInt64 := none
  queue : List OutputFrame := []

def see (s : Seen) : WireEvent → Seen
  | .arrived _ => { s with phase := .inHand, first := none }
  | .resumed _ => { s with phase := .inHand }
  | .deferred now => { s with phase := .waiting, first := s.first.or (some now) }
  | .dispatched _ _ | .refused _ _ | .ended => { s with phase := .idle }
  | .disconnected =>
    -- a payload in hand is answered on a lost connection too
    { s with phase := if s.phase = .waiting then .idle else s.phase, queue := [] }
  | .replied frame | .notified _ frame => { s with queue := s.queue ++ [frame] }
  | .sent => { s with queue := s.queue.tail }
  | _ => s

def seen (history : List WireEvent) : Seen := history.foldl see {}

@[simp] theorem seen_snoc : seen (l ++ [x]) = see (seen l) x := by simp [seen]

theorem phase_snoc : (seen (l ++ [x])).phase = (see (seen l) x).phase := by rw [seen_snoc]

theorem queue_snoc : (seen (l ++ [x])).queue = (see (seen l) x).queue := by rw [seen_snoc]

/-- A request of the last payload, with the digest of its bytes, decoded for the connection. -/
def Decoded (before : List WireEvent) (request : Codec.Request) : Prop :=
  ∃ payload mid principal connection allocate replayId v,
    Since Serves (.arrived payload) mid before ∧
    Since EndsConnection (.connected principal) connection before ∧
    parse payload = some v ∧
    Codec.decodeRequest allocate v principal payload replayId = some request ∧
    request.payloadDigest = sha256 payload

/-- A request of the session of its connection, or a first HELLO. -/
def OfSession (before : List WireEvent) (request : Codec.Request) : Prop :=
  ∃ principal connection, Since EndsConnection (.connected principal) connection before ∧
    (request.operation ≠ ascii "HELLO" → ∃ greeting, ∃ x ∈ connection, Greets greeting x) ∧
    ∀ greeting, ∀ x ∈ connection, Greets greeting x → request.sessionId = greeting.sessionId

/-- What stands before an event of a kind. -/
def Preceded (device firmware : Bytes) (before : List WireEvent) : WireEvent → Prop
  | .accepted _ => (seen before).queue = [] ∧ (seen before).phase = .idle
  | .arrived payload => payload ≠ [] ∧ (seen before).phase = .idle
  | .deferred _ => (seen before).phase = .inHand
  | .resumed now => (seen before).phase = .waiting ∧
    ∃ t, (seen before).first = some t ∧ Endpoint.overdue now t = false
  | .dispatched request _ =>
    (seen before).phase = .inHand ∧ Decoded before request ∧ OfSession before request
  | .refused _ _ => (seen before).phase = .inHand
  | .replied frame => ∃ request response config,
    (before.getLast? = some (.dispatched request response) ∨
      before.getLast? = some (.refused request response)) ∧
    frame.payload = encodeResponse request response config device firmware
  | .notified id frame => ∃ boot mid session name body,
    Since Boots (.booted boot) mid before ∧
    (∀ id' frame', .notified id' frame' ∈ mid → id' < id) ∧
    frame.payload = Endpoint.eventText session boot id name body
  | _ => True

/-- What stands before an event; a request is answered at once. -/
def Legal (device firmware : Bytes) (before : List WireEvent) (x : WireEvent) : Prop :=
  (∀ y, before.getLast? = some y → Asks y → Answers x) ∧ Preceded device firmware before x

/-- No request is left to be answered. -/
def NoneAsked (history : List WireEvent) : Prop := ∀ y, history.getLast? = some y → ¬ Asks y

theorem NoneAsked.legal (h : NoneAsked l) (hx : Preceded device firmware l x) :
    Legal device firmware l x :=
  ⟨fun y hlast hasks => absurd hasks (h y hlast), hx⟩

theorem answered_snoc (h : ¬ Asks x) : NoneAsked (l ++ [x]) := by
  intro y hlast
  rw [List.getLast?_concat, Option.some.injEq] at hlast
  rwa [← hlast]

/-- The bytes of the last payload, as they are or compacted, with the digest they go with. -/
def Holding (history : List WireEvent) (bytes : Bytes) (digest : Option PayloadDigest) : Prop :=
  ∃ payload mid, Since Serves (.arrived payload) mid history ∧
    (bytes = payload ∧ bytes ≠ [] ∧ digest = none ∨
      bytes = compactValidatedJson payload ∧ bytes ≠ [] ∧ digest = some (sha256 payload) ∧
        ∃ v, parse payload = some v)

theorem Holding.snoc {bytes : Bytes} {digest : Option PayloadDigest} (h : Holding l bytes digest)
    (hx : ¬ Serves x) : Holding (l ++ [x]) bytes digest := by
  obtain ⟨payload, mid, hsince, heq⟩ := h
  exact ⟨payload, _, hsince.snoc hx, heq⟩

section

variable {bytes : Bytes} {digest : Option PayloadDigest}

theorem parse_nil : parse [] = none := rfl

theorem decode_identified {allocate : Nat → Bool} {root : Value}
    {principal payload replayId : Bytes}
    {request : Codec.Request}
    (h : Codec.decodeRequest allocate root principal payload replayId digest = some request) :
    request.sessionId ≠ [] := by
  unfold Codec.decodeRequest at h
  split at h
  · cases h
  · rename_i hcond
    simp only [not_or, not_not] at hcond
    obtain ⟨-, -, hidentifier, -⟩ := hcond
    cases h
    unfold identifier at hidentifier
    split at hidentifier
    · cases hidentifier
    · intro hempty
      rw [show (Codec.get root "session_id").string = [] from hempty] at hidentifier
      exact absurd hidentifier (by decide)

theorem decode_digest {allocate : Nat → Bool} {root : Value} {principal payload replayId : Bytes}
    {request : Codec.Request}
    (h : Codec.decodeRequest allocate root principal payload replayId digest = some request) :
    request.payloadDigest = digest.getD (sha256 payload) := by
  unfold Codec.decodeRequest at h
  split at h
  · cases h
  · cases h
    rfl

/-- The request of the bytes in hand is that of their payload, with its digest. -/
theorem Holding.decoded {history : List WireEvent} (h : Holding history bytes digest) {root : Value}
    (hroot : parse bytes = some root) {allocate : Nat → Bool} {principal replayId : Bytes}
    {request : Codec.Request} {connection : List WireEvent}
    (hconnection : Since EndsConnection (.connected principal) connection history)
    (hrequest : Codec.decodeRequest allocate root principal bytes replayId digest = some request) :
    Decoded history request := by
  obtain ⟨payload, mid, hsince, ⟨rfl, -, rfl⟩ | ⟨rfl, -, rfl, v, hv⟩⟩ := h
  · exact ⟨bytes, mid, principal, connection, allocate, replayId, root, hsince, hconnection, hroot,
      hrequest, decode_digest hrequest⟩
  · obtain ⟨-, v', hv', -, hsame⟩ := Codec.compaction_preserves hv
    obtain rfl : root = v' := Option.some.inj (hroot.symm.trans hv')
    rw [hsame] at hrequest
    exact ⟨payload, mid, principal, connection, allocate, replayId, v, hsince, hconnection, hv,
      hrequest, decode_digest hrequest⟩

theorem Holding.ne_nil {history : List WireEvent} (h : Holding history bytes digest) :
    bytes ≠ [] := by
  obtain ⟨_, _, _, ⟨-, hne, -⟩ | ⟨-, hne, -⟩⟩ := h <;> exact hne

/-- The bytes in hand, without a digest, are compacted. -/
theorem Holding.compacted {history : List WireEvent} (h : Holding history bytes none)
    {root : Value} (hroot : parse bytes = some root) :
    Holding history (compactValidatedJson bytes) (some (sha256 bytes)) := by
  obtain ⟨payload, mid, hsince, ⟨rfl, -, -⟩ | ⟨-, -, hdigest, -⟩⟩ := h
  · obtain ⟨-, v', hv', -⟩ := Codec.compaction_preserves hroot
    refine ⟨bytes, mid, hsince, .inr ⟨rfl, fun hnil => ?_, rfl, root, hroot⟩⟩
    rw [hnil, parse_nil] at hv'
    cases hv'
  · cases hdigest

end

/-- The session of a connection: the one of every HELLO that succeeded there. -/
def Greeted (connection : List WireEvent) (session : Bytes) : Prop :=
  (∀ greeting, ∀ x ∈ connection, Greets greeting x →
    greeting.sessionId = session ∧ greeting.sessionId ≠ []) ∧
  (session ≠ [] → ∃ greeting, ∃ x ∈ connection, Greets greeting x)

theorem Greeted.snoc {session : Bytes} (h : Greeted l session) (hx : ∀ r, ¬ Greets r x) :
    Greeted (l ++ [x]) session := by
  constructor
  · intro greeting y hy hgreets
    rcases List.mem_append.mp hy with hy | hy
    · exact h.1 greeting y hy hgreets
    · rw [List.mem_singleton.mp hy] at hgreets
      exact absurd hgreets (hx greeting)
  · intro hne
    obtain ⟨greeting, y, hy, hgreets⟩ := h.2 hne
    exact ⟨greeting, y, List.mem_append_left _ hy, hgreets⟩

/-! ## What a state keeps -/

namespace Endpoint

variable {e e' : Endpoint} {busy : Bool} {t since now : UInt64}

/-- What the history and the state say of each other. -/
structure Core (device firmware : Bytes) (e : Endpoint) : Prop where
  legal : Each (Legal device firmware) e.history
  names : e.deviceId = device ∧ e.firmwareVersion = firmware
  queue : (seen e.history).queue = e.output
  connection : e.closed = false → ∃ connection,
    Since EndsConnection (.connected e.principal) connection e.history ∧
      Greeted connection e.session
  boot : ∃ mid, Since Boots (.booted e.boot) mid e.history ∧
    ∀ id frame, .notified id frame ∈ mid → id < e.eventId
  quiet : e.parser.Quiet

/-- A payload in hand (`busy`), or between two payloads; one that waits was deferred first at
`t`, and `since` is the time the state keeps. -/
structure At (device firmware : Bytes) (busy : Bool) (t since : UInt64) (e : Endpoint) : Prop
    extends Core device firmware e where
  phase : (seen e.history).phase =
    if busy then .inHand else if e.pendingInput.isEmpty then .idle else .waiting
  empty : busy = true → e.pendingInput = []
  held : e.pendingInput ≠ [] →
    Holding e.history e.pendingInput e.pendingInputDigest ∧ (seen e.history).first = some t
  answered : NoneAsked e.history
  since : e.pendingInputSinceMs = since

/-- An event that is of no connection and no boot leaves what is said of them. -/
theorem Core.step (h : Core device firmware e) (hhistory : e'.history = e.history ++ [x])
    (hlegal : Legal device firmware e.history x)
    (hconnection : ¬ EndsConnection x) (hgreets : ∀ r, ¬ Greets r x) (hboots : ¬ Boots x)
    (hsame : e'.deviceId = e.deviceId ∧ e'.firmwareVersion = e.firmwareVersion ∧
      e'.principal = e.principal ∧ e'.session = e.session ∧ e'.boot = e.boot)
    (hclosed : e'.closed = false → e.closed = false)
    (hqueue : (see (seen e.history) x).queue = e'.output)
    (hevent : e.eventId ≤ e'.eventId)
    (hid : ∀ id frame, x = .notified id frame → id < e'.eventId)
    (hquiet : e'.parser.Quiet) : Core device firmware e' := by
  obtain ⟨hdevice, hfirmware, hprincipal, hsession, hboot⟩ := hsame
  refine ⟨?_, ?_, ?_, ?_, ?_, hquiet⟩
  · rw [hhistory]
    exact h.legal.snoc hlegal
  · rw [hdevice, hfirmware]
    exact h.names
  · rw [hhistory, seen_snoc]
    exact hqueue
  · intro hopen
    obtain ⟨connection, hsince, hgreeted⟩ := h.connection (hclosed hopen)
    rw [hhistory, hprincipal, hsession]
    exact ⟨_, hsince.snoc hconnection, hgreeted.snoc hgreets⟩
  · obtain ⟨mid, hsince, hids⟩ := h.boot
    rw [hhistory, hboot]
    refine ⟨_, hsince.snoc hboots, ?_⟩
    intro id frame hmem
    rcases List.mem_append.mp hmem with hmem | hmem
    · exact UInt64.lt_of_lt_of_le (hids id frame hmem) hevent
    · exact hid id frame (List.mem_singleton.mp hmem).symm

/-- The state without its history may change where nothing is said of it. -/
theorem Core.same (h : Core device firmware e) (hhistory : e'.history = e.history)
    (hsame : e'.deviceId = e.deviceId ∧ e'.firmwareVersion = e.firmwareVersion ∧
      e'.principal = e.principal ∧ e'.session = e.session ∧ e'.boot = e.boot)
    (hclosed : e'.closed = e.closed) (hqueue : e'.output = e.output)
    (hevent : e.eventId ≤ e'.eventId) (hquiet : e'.parser.Quiet) : Core device firmware e' := by
  obtain ⟨hdevice, hfirmware, hprincipal, hsession, hboot⟩ := hsame
  refine ⟨by rw [hhistory]; exact h.legal, by rw [hdevice, hfirmware]; exact h.names,
    by rw [hhistory, hqueue]; exact h.queue, ?_, ?_, hquiet⟩
  · rw [hclosed, hhistory, hprincipal, hsession]
    exact h.connection
  · obtain ⟨mid, hsince, hids⟩ := h.boot
    rw [hhistory, hboot]
    exact ⟨mid, hsince, fun id frame hmem => UInt64.lt_of_lt_of_le (hids id frame hmem) hevent⟩

theorem quiet_fresh : ({} : FrameParser).Quiet := .inr (.inl (by decide))

theorem Core.disconnect (h : Core device firmware e)
    (hlegal : Legal device firmware e.history .disconnected) :
    Core device firmware e.disconnect := by
  refine ⟨h.legal.snoc hlegal, h.names, queue_snoc, fun hopen => Bool.noConfusion hopen, ?_,
    quiet_fresh⟩
  obtain ⟨mid, hsince, hids⟩ := h.boot
  refine ⟨_, hsince.snoc id, ?_⟩
  intro id frame hmem
  exact hids id frame (by simpa using hmem)

/-- An event that is of no payload, and changes nothing of the one that waits. -/
theorem At.step (h : At device firmware busy t since e)
    (hhistory : e'.history = e.history ++ [x]) (hcore : Core device firmware e')
    (hphase : (see (seen e.history) x).phase = (seen e.history).phase)
    (hfirst : (see (seen e.history) x).first = (seen e.history).first)
    (hserves : ¬ Serves x) (hasks : ¬ Asks x)
    (hsame : e'.pendingInput = e.pendingInput ∧ e'.pendingInputDigest = e.pendingInputDigest ∧
      e'.pendingInputSinceMs = e.pendingInputSinceMs) : At device firmware busy t since e' := by
  obtain ⟨hpending, hdigest, hsince⟩ := hsame
  refine ⟨hcore, ?_, ?_, ?_, ?_, ?_⟩
  · rw [hhistory, seen_snoc, hphase, hpending]
    exact h.phase
  · rw [hpending]
    exact h.empty
  · rw [hhistory, seen_snoc, hfirst, hpending, hdigest]
    exact fun hne => ⟨(h.held hne).1.snoc hserves, (h.held hne).2⟩
  · rw [hhistory]
    exact answered_snoc hasks
  · rw [hsince]
    exact h.since

/-- The state without its history may change where nothing is said of it. -/
theorem At.same (h : At device firmware busy t since e) (hcore : Core device firmware e')
    (hhistory : e'.history = e.history)
    (hsame : e'.pendingInput = e.pendingInput ∧ e'.pendingInputDigest = e.pendingInputDigest ∧
      e'.pendingInputSinceMs = e.pendingInputSinceMs) : At device firmware busy t since e' := by
  obtain ⟨hpending, hdigest, hsince⟩ := hsame
  refine ⟨hcore, ?_, ?_, ?_, ?_, ?_⟩
  · rw [hhistory, hpending]
    exact h.phase
  · rw [hpending]
    exact h.empty
  · rw [hhistory, hpending, hdigest]
    exact h.held
  · rw [hhistory]
    exact h.answered
  · rw [hsince]
    exact h.since

theorem At.free (h : At device firmware false t since e) (hempty : e.pendingInput = [])
    (t' : UInt64) : At device firmware false t' since e :=
  ⟨h.toCore, h.phase, h.empty, fun hne => absurd hempty hne, h.answered, h.since⟩

theorem At.disconnect (h : At device firmware busy t since e) :
    At device firmware busy t since e.disconnect := by
  refine ⟨h.toCore.disconnect (h.answered.legal trivial), ?_, fun _ => rfl,
    fun hne => absurd rfl hne, answered_snoc id, h.since⟩
  refine phase_snoc.trans ?_
  have hphase := h.phase
  cases busy with
  | true =>
    rw [if_pos rfl] at hphase ⊢
    simp [see, hphase]
  | false =>
    rw [if_neg Bool.false_ne_true] at hphase ⊢
    cases hempty : e.pendingInput.isEmpty <;> simp [see, hphase, hempty, Endpoint.disconnect]

theorem quiet_ended (parser : FrameParser) : (endOfStream parser).Quiet := .inl rfl

/-- The connection closes, with the payload in hand or the one that waits. -/
theorem At.closeAfterOutput (h : At device firmware busy t since e) (t' : UInt64) :
    At device firmware false t' since e.closeAfterOutput := by
  refine ⟨h.toCore.step rfl (h.answered.legal trivial) id (fun r hr => ?_) id
    ⟨rfl, rfl, rfl, rfl, rfl⟩ (fun hopen => ?_) h.queue (UInt64.le_refl _)
    (fun id frame hid => WireEvent.noConfusion hid) (quiet_ended _), phase_snoc, fun _ => rfl,
    fun hne => absurd rfl hne, answered_snoc id, h.since⟩
  · obtain ⟨response, heq, -⟩ := hr
    cases heq
  · unfold Endpoint.closeAfterOutput at hopen
    cases hempty : e.output.isEmpty <;> simp_all

theorem notGreets (hx : ∀ request response, x ≠ .dispatched request response)
    (r : Codec.Request) : ¬ Greets r x := by
  rintro ⟨response, heq, -⟩
  exact hx r response heq

/-! ## Events -/

theorem lt_next {n : UInt64} (h : n ≠ u64Max) : n < n + 1 := by
  have hlimit := n.toNat_lt
  have hne : n.toNat ≠ u64Max.toNat := fun heq => h (UInt64.toNat_inj.mp heq)
  have hmax : u64Max.toNat = 2 ^ 64 - 1 := rfl
  rw [UInt64.lt_iff_toNat_lt, UInt64.toNat_add, UInt64.toNat_one]
  omega

/-- The next event is queued. -/
theorem At.notified (h : At device firmware busy t since e) (hid : e.eventId ≠ u64Max)
    {name : String} {body : Bytes} {frame : OutputFrame}
    (hframe : frame.payload = eventText e.session e.boot e.eventId name body) (now : UInt64) :
    At device firmware busy t since
      (push frame now (.notified e.eventId frame) { e with eventId := e.eventId + 1 }) := by
  have hlegal : Legal device firmware e.history (.notified e.eventId frame) := by
    obtain ⟨mid, hsince, hids⟩ := h.boot
    exact h.answered.legal ⟨e.boot, mid, e.session, name, body, hsince, hids, hframe⟩
  refine h.step rfl (h.toCore.step rfl hlegal id (notGreets fun _ _ => WireEvent.noConfusion) id
    ⟨rfl, rfl, rfl, rfl, rfl⟩ id ?_ (UInt64.le_of_lt (lt_next hid)) ?_ h.quiet) rfl rfl id id
    ⟨rfl, rfl, rfl⟩
  · simp only [see, h.queue]
    rfl
  · intro id' frame' heq
    cases heq
    exact lt_next hid

theorem At.spent (h : At device firmware busy t since e) (hid : e.eventId ≠ u64Max) :
    At device firmware busy t since { e with eventId := e.eventId + 1 } :=
  h.same (h.toCore.same rfl ⟨rfl, rfl, rfl, rfl, rfl⟩ rfl rfl (UInt64.le_of_lt (lt_next hid))
    h.quiet) rfl ⟨rfl, rfl, rfl⟩

/-! ## Computations -/

open WireM

variable (host : Host ω)

/-- A property of the endpoint of a wire. -/
def On (P : Endpoint → Prop) (w : Wire ω) : Prop := P w.endpoint

variable {P Q : Endpoint → Prop}

theorem keeps_serve (m : SysM ω α) : Keeps (On P) (serve m) := fun _ h => h

theorem keeps_ask (f : ω → α × ω) : Keeps (On P) (ask f) := fun _ h => h

theorem triple_update {f : Endpoint → Endpoint} (h : ∀ e, P e → Q (f e)) :
    Triple (On (ω := ω) P) (update f) fun _ => On Q := fun w hw => h w.endpoint hw

theorem triple_at {e : Endpoint} {f : Endpoint → Endpoint} (h : Q (f e)) :
    Triple (On (ω := ω) fun e' => e' = e) (update f) fun _ => On Q :=
  triple_update fun e' he' => by rwa [he']

theorem triple_read {k : Endpoint → WireM ω α} {R : α → Wire ω → Prop}
    (h : ∀ e, P e → Triple (On fun e' => e' = e) (k e) R) : Triple (On P) (endpoint >>= k) R :=
  fun w hw => h w.endpoint hw w rfl

theorem On.read {w : Wire ω} (h : P e) (hw : On (fun e' => e' = e) w) : On P w := by
  rwa [On, show w.endpoint = e from hw]

theorem enqueue_triple {text : Bytes} {paged advisory : Bool} {now : UInt64}
    {mark : OutputFrame → WireEvent}
    (hpush : ∀ e, P e → ∀ frame : OutputFrame, frame.payload = text → text ≠ [] →
      Q (push frame now (mark frame) e))
    (hfail : ∀ e, P e → Q (if advisory then e else e.disconnect)) :
    Triple (On P) (enqueue host text paged now advisory mark) fun _ => On Q := by
  have hask : Triple (On P) (admitsFrame host text) fun b w => P w.endpoint ∧
      (b = true → text ≠ []) := by
    refine triple_read fun e he => Triple.ite (fun hroom w hw => ?_) fun _ w hw => ?_
    · refine ⟨On.read he hw, fun _ hempty => ?_⟩
      simp [room, hempty] at hroom
    · exact ⟨On.read he hw, fun hb => Bool.noConfusion hb⟩
  refine hask.bind fun admitted => Triple.ite (fun hadmitted w hw => ?_) fun _ =>
    Triple.ite (fun hadvisory w hw => ?_) fun hadvisory w hw => ?_
  · exact hpush _ hw.1 _ rfl (hw.2 hadmitted)
  · have hq := hfail _ hw.1
    rwa [if_neg (by simpa using hadvisory)] at hq
  · have hq := hfail _ hw.1
    rwa [if_pos (by simpa using hadvisory)] at hq

/-- What an endpoint tells of its service leaves the property. -/
structure Tolerates (P : Endpoint → Prop) : Prop where
  disconnect : ∀ e, P e → P e.disconnect
  spent : ∀ e, P e → e.eventId ≠ u64Max → P { e with eventId := e.eventId + 1 }
  notified : ∀ e name body now (frame : OutputFrame), P e → e.eventId ≠ u64Max →
    frame.payload = eventText e.session e.boot e.eventId name body →
    P (push frame now (.notified e.eventId frame) { e with eventId := e.eventId + 1 })
  observeBoot : ∀ e boot, P e → P (e.observeBoot boot)
  observed : ∀ e s, P e → P { e with observed := s }

theorem event_keeps (h : Tolerates P) (name : String) (body : Bytes) (now : UInt64) :
    Keeps (On P) (event host name body now) := by
  refine triple_read fun e he => Triple.ite (fun _ w hw => ?_) fun _ =>
    Triple.ite (fun _ w hw => ?_) fun hid => ?_
  · exact On.read he hw
  · show P w.endpoint.disconnect
    rw [show w.endpoint = e from hw]
    exact h.disconnect e he
  · refine Triple.bind (triple_at (Q := fun e' =>
      e' = { e with eventId := e.eventId + 1 }) rfl) fun _ => ?_
    refine enqueue_triple host (fun e' he' frame hframe _ => ?_) fun e' he' => ?_
    · rw [he']
      exact h.notified e name body now frame he hid hframe
    · rw [if_pos rfl, he']
      exact h.spent e he hid

theorem notify_keeps (h : Tolerates P) (now : UInt64) (news : List (String × Bytes)) :
    Keeps (On P) (notify host now news) := by
  induction news with
  | nil => exact Keeps.pure ()
  | cons entry rest ih => exact (event_keeps host h entry.1 entry.2 now).bind fun _ => ih

/-- The boot id of the service is taken, and its events counted from zero. -/
theorem At.observeBoot (h : At device firmware busy t since e) (boot : String) :
    At device firmware busy t since (e.observeBoot boot) := by
  have hlegal : Legal device firmware e.history (.booted boot) := h.answered.legal trivial
  refine h.step rfl ⟨h.legal.snoc hlegal, h.names, queue_snoc.trans h.queue, fun hopen => ?_, ?_,
    h.quiet⟩ rfl rfl id id ⟨rfl, rfl, rfl⟩
  · obtain ⟨connection, hsince, hgreeted⟩ := h.connection hopen
    exact ⟨_, hsince.snoc id, hgreeted.snoc (notGreets fun _ _ => WireEvent.noConfusion)⟩
  · exact ⟨[], Since.here, by simp⟩

theorem At.observed (h : At device firmware busy t since e) (s : ServiceStatus) :
    At device firmware busy t since { e with observed := s } :=
  h.same (h.toCore.same rfl ⟨rfl, rfl, rfl, rfl, rfl⟩ rfl rfl (UInt64.le_refl _) h.quiet) rfl
    ⟨rfl, rfl, rfl⟩

theorem at_tolerates : Tolerates (At device firmware busy t since) where
  disconnect _ he := he.disconnect
  spent _ he := he.spent
  notified _ _ _ now _ he hid hframe := he.notified hid hframe now
  observeBoot _ boot he := he.observeBoot boot
  observed _ s he := he.observed s

theorem observe_keeps (h : Tolerates P) (now : UInt64) (released : Bool) :
    Keeps (On P) (observe host now released) := by
  refine Keeps.bind (keeps_serve _) fun s => triple_read fun e he => Triple.ite (fun _ => ?_)
    fun _ => ?_
  · exact triple_at (h.observed _ s (h.disconnect _ (h.observeBoot e s.bootId he)))
  · refine Triple.bind (R := fun _ => On P) ?_ fun _ => triple_update fun e' => h.observed e' s
    exact (notify_keeps host h now _).strengthen fun _ => On.read he

/-! ## Requests -/

/-- A request is to be answered. -/
structure Asked (device firmware : Bytes) (request : Codec.Request) (response : Response)
    (since : UInt64) (e : Endpoint) : Prop extends Core device firmware e where
  phase : (seen e.history).phase = .idle
  empty : e.pendingInput = []
  last : e.history.getLast? = some (.dispatched request response) ∨
    e.history.getLast? = some (.refused request response)
  since : e.pendingInputSinceMs = since

/-- A payload in hand, of which a request was decoded on an open connection. -/
structure Hand (device firmware : Bytes) (request : Codec.Request) (t since : UInt64)
    (e : Endpoint) : Prop extends At device firmware true t since e where
  opened : e.closed = false
  decoded : Decoded e.history request
  identified : request.sessionId ≠ []

theorem At.refused (h : At device firmware true t since e) (request : Codec.Request)
    (response : Response) :
    Asked device firmware request response since (e.record (.refused request response)) := by
  have hphase : (seen e.history).phase = .inHand := by simpa using h.phase
  exact ⟨h.toCore.step rfl (h.answered.legal hphase) id
    (notGreets fun _ _ => WireEvent.noConfusion) id ⟨rfl, rfl, rfl, rfl, rfl⟩ id h.queue
    (UInt64.le_refl _) (fun id frame hid => WireEvent.noConfusion hid) h.quiet, phase_snoc,
    h.empty rfl, .inr (List.getLast?_concat ..), h.since⟩

theorem greets_dispatched {request greeting : Codec.Request} {response : Response}
    (h : Greets greeting (.dispatched request response)) :
    greeting = request ∧ (response.ok && request.operation = ascii "HELLO") = true := by
  obtain ⟨response', heq, hok, hop⟩ := h
  cases heq
  exact ⟨rfl, by simp [hok, hop]⟩

/-- The service handles the request of the payload in hand. -/
theorem Hand.dispatched {request : Codec.Request} (h : Hand device firmware request t since e)
    (hnone : e.sessionError request = none) (response : Response) :
    Asked device firmware request response since
      (greet request response (e.record (.dispatched request response))) := by
  obtain ⟨connection, hconnection, hgreeted⟩ := h.connection h.opened
  have hphase : (seen e.history).phase = .inHand := by simpa using h.phase
  -- the endpoint has refused all others
  have hsession : (e.session = [] → request.operation = ascii "HELLO") ∧
      (e.session ≠ [] → e.session = request.sessionId) := by
    unfold sessionError at hnone
    split at hnone
    · cases hnone
    · split at hnone
      · cases hnone
      · rename_i hhello
        split at hnone
        · cases hnone
        · rename_i hreplaced
          constructor
          · intro hempty
            simpa [hempty] using hhello
          · intro hne
            simpa [hne] using hreplaced
  have hadmitted : OfSession e.history request := by
    refine ⟨e.principal, connection, hconnection, fun hop => hgreeted.2 fun hempty => ?_, ?_⟩
    · exact hop (hsession.1 hempty)
    · intro greeting x hx hgreets
      obtain ⟨heq, hne⟩ := hgreeted.1 greeting x hx hgreets
      rw [heq, hsession.2 (heq ▸ hne)]
  have hlegal : Legal device firmware e.history (.dispatched request response) :=
    h.answered.legal ⟨hphase, h.decoded, hadmitted⟩
  have hsame : (greet request response (e.record (.dispatched request response))).history =
      e.history ++ [.dispatched request response] := by
    unfold greet
    split <;> rfl
  have hboot : ∃ mid, Since Boots (.booted e.boot) mid
      (e.history ++ [.dispatched request response]) ∧
      ∀ id frame, .notified id frame ∈ mid → id < e.eventId := by
    obtain ⟨mid, hsince, hids⟩ := h.boot
    exact ⟨_, hsince.snoc id, fun id frame hmem => hids id frame (by simpa using hmem)⟩
  have hqueue : (seen (e.history ++ [.dispatched request response])).queue = e.output :=
    queue_snoc.trans h.queue
  have hsince := hconnection.snoc (y := .dispatched request response) id
  have hlast : (e.history ++ [WireEvent.dispatched request response]).getLast? =
      some (.dispatched request response) := List.getLast?_concat ..
  unfold greet
  split
  · rename_i hok
    refine ⟨⟨h.legal.snoc hlegal, h.names, hqueue, fun _ => ⟨_, hsince, ?_, fun _ => ?_⟩, hboot,
      h.quiet⟩, phase_snoc, h.empty rfl, .inl hlast, h.since⟩
    · intro greeting y hy hgreets
      rcases List.mem_append.mp hy with hy | hy
      · obtain ⟨heq, hne⟩ := hgreeted.1 greeting y hy hgreets
        exact ⟨heq.trans (hsession.2 (heq ▸ hne)), hne⟩
      · rw [List.mem_singleton.mp hy] at hgreets
        rw [(greets_dispatched hgreets).1]
        exact ⟨rfl, h.identified⟩
    · simp only [Bool.and_eq_true, decide_eq_true_eq] at hok
      exact ⟨request, _, List.mem_append_right _ (List.mem_singleton_self _), response, rfl, hok⟩
  · rename_i hok
    refine ⟨⟨h.legal.snoc hlegal, h.names, hqueue, fun _ => ⟨_, hsince, hgreeted.snoc ?_⟩, hboot,
      h.quiet⟩, phase_snoc, h.empty rfl, .inl hlast, h.since⟩
    intro greeting hgreets
    exact hok (greets_dispatched hgreets).2

theorem respond_triple (request : Codec.Request) (now : UInt64) :
    Triple (On (Hand device firmware request t since)) (respond host request now)
      fun response => On (Asked device firmware request response since) := by
  refine triple_read fun e he => ?_
  have hbusy : ∀ w : Wire ω, On (fun e' => e' = e) w →
      On (At device firmware true t since) w := fun _ => On.read he.toAt
  split
  · refine Triple.bind ((event_keeps host at_tolerates _ _ now).strengthen hbusy) fun _ => ?_
    exact (triple_update fun e' he' => he'.refused request _).bind fun _ => Triple.pure fun w hw =>
      hw
  · exact Triple.bind ((triple_update fun e' he' => At.refused he' request _).strengthen hbusy)
      fun _ => Triple.pure fun w hw => hw
  · rename_i hnone
    refine Triple.bind (keeps_serve _) fun response => ?_
    refine Triple.bind (triple_at (Q := fun e' =>
      e' = e.record (.dispatched request response)) rfl) fun _ => ?_
    exact Triple.bind (triple_at (he.dispatched hnone response)) fun _ => Triple.pure fun w hw => hw

/-- The stream of a LOAD reply is the whole of it, or empty. -/
theorem loadResponseStream_triple (request : Codec.Request) (response : Response) (text : Bytes) :
    Triple (On P) (loadResponseStream host request response text)
      fun encoded w => On P w ∧ (encoded = text ∨ encoded = []) := by
  have hnone : Triple (On (ω := ω) P) (pure ([] : Bytes))
      fun encoded w => On P w ∧ (encoded = text ∨ encoded = []) :=
    Triple.pure fun w hw => ⟨hw, .inr rfl⟩
  refine Triple.ite (fun _ => hnone) fun _ => Triple.bind (keeps_ask _) fun admitted => ?_
  refine Triple.ite (fun _ => hnone) fun _ => Triple.ite (fun _ => hnone) fun _ => ?_
  refine Triple.bind (keeps_ask _) fun page => Triple.ite (fun _ => hnone) fun _ => ?_
  exact Triple.pure fun w hw => ⟨hw, .inl rfl⟩

/-- The response to the request is queued, or the connection is lost. -/
theorem Asked.replied {request : Codec.Request} {response : Response}
    (h : Asked device firmware request response since e) (config : ServiceConfig) (now : UInt64)
    {frame : OutputFrame} (t : UInt64)
    (hframe : frame.payload = encodeResponse request response config device firmware) :
    At device firmware false t since (push frame now (.replied frame) e) := by
  have hlegal : Legal device firmware e.history (.replied frame) :=
    ⟨fun _ _ _ => trivial, request, response, config, h.last, hframe⟩
  refine ⟨h.toCore.step rfl hlegal id (notGreets fun _ _ => WireEvent.noConfusion) id
    ⟨rfl, rfl, rfl, rfl, rfl⟩ id ?_ (UInt64.le_refl _)
    (fun id frame hid => WireEvent.noConfusion hid) h.quiet, ?_, fun hb => Bool.noConfusion hb,
    fun hne => absurd h.empty hne, answered_snoc id, h.since⟩
  · simp only [see, h.queue]
    rfl
  · refine phase_snoc.trans (h.phase.trans ?_)
    show _ = if e.pendingInput.isEmpty then Phase.idle else .waiting
    rw [h.empty]
    rfl

theorem Asked.disconnect {request : Codec.Request} {response : Response}
    (h : Asked device firmware request response since e) (t : UInt64) :
    At device firmware false t since e.disconnect := by
  refine ⟨h.toCore.disconnect ⟨fun _ _ _ => trivial, trivial⟩, ?_, fun _ => rfl,
    fun hne => absurd rfl hne, answered_snoc id, h.since⟩
  refine phase_snoc.trans ?_
  simp [see, h.phase, Endpoint.disconnect]

theorem reply_triple (request : Codec.Request) (response : Response) (now t : UInt64) :
    Triple (On (Asked device firmware request response since)) (reply host request response now)
      fun _ => On (At device firmware false t since) := by
  refine triple_read fun e he => Triple.bind (keeps_serve _) fun a => ?_
  have henqueue : ∀ (encoded : Bytes) (paged : Bool),
      (encoded = encodeResponse request response a.config e.deviceId e.firmwareVersion ∨
        encoded = []) →
      Triple (On fun e' => e' = e) (enqueue host encoded paged now false .replied)
        fun _ => On (At device firmware false t since) := by
    intro encoded paged hencoded
    refine enqueue_triple host (fun e' he' frame hframe hne => ?_) fun e' he' => ?_
    · rw [he']
      obtain hencoded | hempty := hencoded
      · rw [hencoded, he.names.1, he.names.2] at hframe
        exact he.replied a.config now t hframe
      · exact absurd hempty hne
    · rw [he']
      exact he.disconnect t
  refine Triple.ite (fun _ => ?_) fun _ => ?_
  · refine Triple.bind (loadResponseStream_triple host request response _) fun encoded => ?_
    intro w hw
    exact Triple.bind (keeps_serve _) (fun _ => henqueue encoded true hw.2) w hw.1
  · exact Triple.bind (keeps_serve _) fun _ => henqueue _ false (.inl rfl)

theorem answer_triple (request : Codec.Request) (now t' : UInt64) :
    Triple (On (Hand device firmware request t since)) (answer host request now)
      fun _ => On (At device firmware false t' since) := by
  refine Triple.bind (respond_triple host request now) fun response => ?_
  refine Triple.bind (keeps_serve _) fun _ => ?_
  refine Triple.bind (reply_triple host request response now t') fun _ => ?_
  refine Triple.bind (observe_keeps host at_tolerates now _) fun _ => ?_
  exact Triple.ite (fun _ => triple_update fun e he => he.closeAfterOutput t') fun _ =>
    Triple.pure fun w hw => hw

/-! ## Payloads -/

/-- A payload in hand on an open connection, that was deferred first at `t` or is about to be
at `now`. -/
structure Bears (device firmware : Bytes) (bytes : Bytes) (digest : Option PayloadDigest)
    (t now since : UInt64) (e : Endpoint) : Prop extends At device firmware true t since e where
  opened : e.closed = false
  holding : Holding e.history bytes digest
  first : (seen e.history).first.getD now = t

/-- Behind a payload in hand: none waits, or it has just been deferred. -/
def Left (device firmware : Bytes) (t now since : UInt64) (e : Endpoint) : Prop :=
  (∀ t', At device firmware false t' since e) ∨ At device firmware false t now e

variable {bytes : Bytes} {digest : Option PayloadDigest}

theorem Bears.closeAfterOutput (h : Bears device firmware bytes digest t now since e) :
    Left device firmware t now since e.closeAfterOutput :=
  .inl h.toAt.closeAfterOutput

/-- The payload in hand waits. -/
theorem Bears.retain (h : Bears device firmware bytes digest t now since e) :
    Left device firmware t now since (retain bytes digest now e) := by
  have hphase : (seen e.history).phase = .inHand := by simpa using h.phase
  refine .inr ⟨h.toCore.step rfl (h.answered.legal hphase) id
    (notGreets fun _ _ => WireEvent.noConfusion) id ⟨rfl, rfl, rfl, rfl, rfl⟩ id h.queue
    (UInt64.le_refl _) (fun id frame hid => WireEvent.noConfusion hid) h.quiet, ?_,
    fun hb => Bool.noConfusion hb, fun _ => ⟨h.holding.snoc id, ?_⟩, answered_snoc id, rfl⟩
  · show (seen (e.history ++ [.deferred now])).phase = if bytes.isEmpty then .idle else .waiting
    rw [seen_snoc, if_neg (by simpa using h.holding.ne_nil)]
    rfl
  · show (seen (e.history ++ [.deferred now])).first = some t
    rw [seen_snoc, ← h.first]
    cases hfirst : (seen e.history).first <;> simp [see, hfirst]

theorem Bears.workspace (h : Bears device firmware bytes digest t now since e) (n : Nat) :
    Bears device firmware bytes digest t now since { e with pendingInputWorkspace := n } :=
  ⟨h.toAt.same (h.toCore.same rfl ⟨rfl, rfl, rfl, rfl, rfl⟩ rfl rfl (UInt64.le_refl _) h.quiet) rfl
    ⟨rfl, rfl, rfl⟩, h.opened, h.holding, h.first⟩

theorem decode_triple {root : Value} (hroot : parse bytes = some root) (replayId : Bytes) :
    Triple (On (Bears device firmware bytes digest t now since))
      (decode host root bytes digest replayId now) fun _ =>
        On (Left device firmware t now since) := by
  refine Triple.bind (keeps_ask _) fun allocate => triple_read fun e he => ?_
  obtain ⟨connection, hconnection, -⟩ := he.connection he.opened
  refine Triple.bind (keeps_serve _) fun _ => ?_
  split
  · exact triple_at he.closeAfterOutput
  · rename_i request hrequest
    have hhand : Hand device firmware request t since e :=
      ⟨he.toAt, he.opened, he.holding.decoded hroot hconnection hrequest,
        decode_identified hrequest⟩
    exact fun w hw => .inl fun t' => answer_triple host request now t' w (On.read hhand hw)

theorem parsePayload_triple (bytes : Bytes) :
    Triple (On P) (parsePayload host bytes) fun root w => On P w ∧ root = parse bytes :=
  Triple.bind (keeps_serve _) fun _ => Triple.pure fun _ hw => ⟨hw, rfl⟩

theorem pollServiceTimes_keeps (n : Nat) : Keeps (On P) (pollServiceTimes host n) := by
  induction n with
  | zero => exact Keeps.pure ()
  | succ n ih => exact (keeps_serve _).bind fun _ => ih

theorem admitsRoot_keeps (root : Value) (replayId : Bytes) :
    Keeps (On (Bears device firmware bytes digest t now since))
      (admitsRoot host root replayId) :=
  Keeps.bind (triple_update fun _ he => he.workspace _) fun _ => keeps_ask _

/-- A parsed payload is decoded, or goes another way. -/
theorem root_triple {root : Value} (hroot : parse bytes = some root) (rest : WireM ω Unit)
    (hrest : Triple (On (Bears device firmware bytes digest t now since)) rest
      fun _ => On (Left device firmware t now since)) :
    Triple (On (Bears device firmware bytes digest t now since))
      (do
        let replayId ← activeLoadReplayId
        if ← admitsRoot host root replayId then
          decode host root bytes digest replayId now
        else
          rest) fun _ => On (Left device firmware t now since) := by
  refine Triple.bind (Keeps.bind (keeps_serve _) fun _ => Keeps.pure _) fun replayId => ?_
  refine Triple.bind (admitsRoot_keeps host root replayId) fun admitted => ?_
  exact Triple.ite (fun _ => decode_triple host hroot replayId) fun _ => hrest

theorem Bears.compacted (h : Bears device firmware bytes none t now since e) {root : Value}
    (hroot : parse bytes = some root) :
    Bears device firmware (compactValidatedJson bytes) (some (sha256 bytes)) t now since e :=
  ⟨h.toAt, h.opened, h.holding.compacted hroot, h.first⟩

theorem compactPayload_triple {root : Value} (hroot : parse bytes = some root) :
    Triple (On (Bears device firmware bytes none t now since)) (compactPayload host bytes now)
      fun _ => On (Left device firmware t now since) := by
  refine Triple.strengthen (P := On (Bears device firmware (compactValidatedJson bytes)
    (some (sha256 bytes)) t now since)) ?_ fun w hw => Bears.compacted hw hroot
  refine Triple.bind (pollServiceTimes_keeps host _) fun _ => ?_
  refine Triple.bind (pollServiceTimes_keeps host _) fun _ => Triple.bind (keeps_ask _) fun _ => ?_
  refine Triple.ite (fun _ => triple_update fun e he => he.retain) fun _ => ?_
  refine Triple.bind (parsePayload_triple host _) fun found w hw => ?_
  obtain ⟨hw, rfl⟩ := hw
  cases hfound : parse (compactValidatedJson bytes) with
  | none => exact triple_update (fun e he => he.closeAfterOutput) w hw
  | some root => exact root_triple host hfound _ (triple_update fun e he => he.retain) w hw

/-- A payload in hand is dispatched, refused, given up or deferred. -/
theorem payload_triple (digest : Option PayloadDigest) :
    Triple (On (Bears device firmware bytes digest t now since)) (payload host bytes now digest)
      fun _ => On (Left device firmware t now since) := by
  refine Triple.bind (triple_update fun e he => he.workspace 6144) fun _ => ?_
  refine Triple.bind (keeps_ask _) fun admitted => ?_
  refine Triple.ite (fun _ => triple_update fun e he => he.retain) fun _ => ?_
  refine Triple.bind (keeps_serve _) fun _ => ?_
  refine Triple.bind (parsePayload_triple host _) fun found w hw => ?_
  obtain ⟨hw, rfl⟩ := hw
  cases hfound : parse bytes with
  | none => exact triple_update (fun e he => he.closeAfterOutput) w hw
  | some root =>
    refine root_triple host hfound _ (Triple.ite (fun hnone => ?_) fun _ => ?_) w hw
    · obtain rfl : digest = none := by simpa using hnone
      exact compactPayload_triple host hfound
    · exact triple_update fun e he => he.retain

/-! ## Bytes -/

/-- Between two calls. -/
def Between (device firmware : Bytes) (e : Endpoint) : Prop :=
  ∃ since, At device firmware false since since e

/-- Frames without a payload leave the one that waits, or give it up. -/
theorem frameEvents_keeps (now : UInt64) {events : List FrameEvent}
    (h : FrameParser.Silent events) :
    Keeps (On (At device firmware false since since)) (frameEvents host now events) := by
  induction events with
  | nil => exact Keeps.pure ()
  | cons event rest ih =>
    have hrest : FrameParser.Silent rest := fun bytes hmem => h bytes (List.mem_cons_of_mem _ hmem)
    cases event with
    | payload bytes => exact absurd List.mem_cons_self (h bytes)
    | invalidFrame => exact Keeps.bind (event_keeps host at_tolerates _ _ now) fun _ => ih hrest
    | closed =>
      exact Keeps.bind (triple_update fun e he => he.closeAfterOutput since) fun _ => ih hrest

theorem At.parsed (h : At device firmware busy t since e) {parser : FrameParser}
    (hquiet : parser.Quiet) : At device firmware busy t since { e with parser } :=
  h.same (h.toCore.same rfl ⟨rfl, rfl, rfl, rfl, rfl⟩ rfl rfl (UInt64.le_refl _) hquiet) rfl
    ⟨rfl, rfl, rfl⟩

/-- A payload arrives on an open connection, where none is in hand and none waits. -/
theorem At.arrived (h : At device firmware false t since e) (hopen : e.closed = false)
    (hempty : e.pendingInput = []) {bytes : Bytes} (hne : bytes ≠ []) (now : UInt64) :
    Bears device firmware bytes none now now since (e.record (.arrived bytes)) := by
  have hphase : (seen e.history).phase = .idle := by simpa [hempty] using h.phase
  refine ⟨⟨h.toCore.step rfl (h.answered.legal ⟨hne, hphase⟩) id
    (notGreets fun _ _ => WireEvent.noConfusion) id ⟨rfl, rfl, rfl, rfl, rfl⟩ id h.queue
    (UInt64.le_refl _) (fun id frame hid => WireEvent.noConfusion hid) h.quiet, phase_snoc,
    fun _ => hempty, fun hne => absurd hempty hne, answered_snoc id, h.since⟩, hopen,
    ⟨bytes, [], Since.here, .inl ⟨rfl, hne, rfl⟩⟩, ?_⟩
  show (seen (e.history ++ [.arrived bytes])).first.getD now = now
  rw [seen_snoc]
  rfl

theorem Left.between (h : Left device firmware now now since e) : Between device firmware e := by
  obtain h | h := h
  · exact ⟨since, h since⟩
  · exact ⟨now, h⟩

theorem At.accepted (h : At device firmware false t since e) (hreceive : e.canReceive = true)
    (byte : UInt8) : At device firmware false t since (e.record (.accepted byte)) := by
  simp only [canReceive, Bool.and_eq_true, Bool.not_eq_true', List.isEmpty_iff] at hreceive
  obtain ⟨⟨-, houtput⟩, hempty⟩ := hreceive
  have hlegal : Legal device firmware e.history (.accepted byte) := by
    refine h.answered.legal ⟨?_, ?_⟩
    · rw [h.queue, houtput]
    · simpa [hempty] using h.phase
  exact h.step rfl (h.toCore.step rfl hlegal id (notGreets fun _ _ => WireEvent.noConfusion) id
    ⟨rfl, rfl, rfl, rfl, rfl⟩ id h.queue (UInt64.le_refl _)
    (fun id frame hid => WireEvent.noConfusion hid) h.quiet) rfl rfl id id ⟨rfl, rfl, rfl⟩

theorem feedByte_triple (byte : UInt8) (now : UInt64) :
    Triple (On fun e => Between device firmware e ∧ e.canReceive = true) (feedByte host byte now)
      fun _ => On (Between device firmware) := by
  refine Triple.bind (triple_update (Q := fun e => Between device firmware e ∧ e.closed = false ∧
    e.pendingInput = []) fun e he => ?_) fun _ => Triple.bind (keeps_ask _) fun memory => ?_
  · obtain ⟨⟨since, h⟩, hreceive⟩ := he
    have haccepted := h.accepted hreceive byte
    simp only [canReceive, Bool.and_eq_true, Bool.not_eq_true', List.isEmpty_iff] at hreceive
    exact ⟨⟨since, haccepted⟩, hreceive.1.1.1, hreceive.2⟩
  · refine triple_read fun e he => ?_
    obtain ⟨⟨since, h⟩, hopen, hempty⟩ := he
    obtain ⟨hquiet, hevents⟩ := FrameParser.feed_byte h.quiet memory byte now
    have hparsed := h.parsed hquiet
    refine Triple.bind (triple_at (Q := fun e' =>
      e' = { e with parser := (e.parser.feed memory [byte] now).1 }) rfl)
      fun _ => ?_
    obtain ⟨bytes, hne, heq⟩ | hsilent := hevents
    · rw [heq]
      exact Triple.bind (triple_at (hparsed.arrived hopen hempty hne now)) fun _ =>
        Triple.bind (payload_triple host none) fun _ => Triple.pure fun w hw => Left.between hw
    · refine Triple.weaken (Triple.strengthen (frameEvents_keeps host now hsilent)
        fun _ => On.read hparsed) fun _ w hw => ⟨since, hw⟩

theorem receiveBytes_triple (now : UInt64) (input : Bytes) (count : Nat) :
    Keeps (On (Between device firmware)) (receiveBytes host now input count) := by
  induction input generalizing count with
  | nil => exact Keeps.pure count
  | cons byte rest ih =>
    refine triple_read fun e he => Triple.ite (fun hreceive => ?_) fun _ => ?_
    · exact Triple.bind (Triple.strengthen (feedByte_triple host byte now)
        fun _ => On.read ⟨he, hreceive⟩) fun _ => ih (count + 1)
    · exact Triple.pure fun _ => On.read he

theorem At.resumed (h : At device firmware false since since e) (hopen : e.closed = false)
    (hne : e.pendingInput ≠ []) (hearly : overdue now since = false) :
    Bears device firmware e.pendingInput e.pendingInputDigest since now since
      { e.record (.resumed now) with pendingInput := [], pendingInputDigest := none } := by
  have hphase : (seen e.history).phase = .waiting := by simpa [hne] using h.phase
  obtain ⟨hholding, hfirst⟩ := h.held hne
  refine ⟨⟨h.toCore.step rfl (h.answered.legal ⟨hphase, since, hfirst, hearly⟩) id
    (notGreets fun _ _ => WireEvent.noConfusion) id ⟨rfl, rfl, rfl, rfl, rfl⟩ id h.queue
    (UInt64.le_refl _) (fun id frame hid => WireEvent.noConfusion hid) h.quiet, phase_snoc,
    fun _ => rfl, fun hne => absurd rfl hne, answered_snoc id, h.since⟩, hopen, hholding.snoc id, ?_⟩
  show (seen (e.history ++ [.resumed now])).first.getD now = since
  rw [seen_snoc]
  show (seen e.history).first.getD now = since
  rw [hfirst]
  rfl

/-- The time of the first deferral is kept. -/
theorem Left.kept (h : Left device firmware since now since e) : Between device firmware
    (if e.pendingInput.isEmpty then e else { e with pendingInputSinceMs := since }) := by
  obtain h | h := h
  · have hempty : e.pendingInput = [] := by
      by_contra hne
      have hzero := ((h 0).held hne).2
      have hone := ((h 1).held hne).2
      rw [hzero] at hone
      exact absurd hone (by decide)
    rw [if_pos (by simp [hempty])]
    exact ⟨since, h since⟩
  · split
    · rename_i hempty
      exact ⟨now, h.free (by simpa using hempty) now⟩
    · exact ⟨since, h.toCore.same rfl ⟨rfl, rfl, rfl, rfl, rfl⟩ rfl rfl (UInt64.le_refl _) h.quiet,
        h.phase, h.empty, h.held, h.answered, rfl⟩

theorem pollPending_triple (now : UInt64) :
    Triple (On fun e => Between device firmware e ∧ e.closed = false) (pollPending host now)
      fun _ => On (Between device firmware) := by
  refine triple_read fun e he => ?_
  obtain ⟨⟨since, h⟩, hopen⟩ := he
  have hkeep : Triple (On fun e' => e' = e) (pure () : WireM ω Unit)
      fun _ => On (Between device firmware) := Triple.pure fun _ => On.read ⟨since, h⟩
  refine Triple.ite (fun hne => Triple.ite (fun _ => ?_) fun hearly => Triple.ite (fun _ => ?_)
    fun _ => hkeep) fun _ => hkeep
  · exact triple_at ⟨since, h.closeAfterOutput since⟩
  · refine Triple.bind (keeps_ask _) fun admitted => Triple.ite (fun _ => ?_) fun _ => hkeep
    rw [h.since] at hearly ⊢
    have hresumed := h.resumed hopen (by simpa using hne) (by simpa using hearly)
    exact Triple.bind (triple_at hresumed) fun _ => Triple.bind (payload_triple host _) fun _ =>
      triple_update fun e' he' => Left.kept he'

theorem pollTimeout_keeps (now : UInt64) :
    Keeps (On (Between device firmware)) (pollTimeout host now) := by
  refine triple_read fun e he => Triple.ite (fun _ => ?_) fun _ => Triple.pure fun _ => On.read he
  obtain ⟨since, h⟩ := he
  obtain ⟨hquiet, hsilent⟩ := FrameParser.checkTimeout_quiet h.quiet now
  exact Triple.bind (triple_at (h.parsed hquiet)) fun _ =>
    Triple.weaken (frameEvents_keeps host now hsilent) fun _ w hw => ⟨since, hw⟩

theorem poll_triple (now : UInt64) : Triple (On (At device firmware false since since))
    (poll host now) fun _ => On (Between device firmware) := by
  refine Triple.bind (keeps_serve _) fun _ =>
    Triple.bind (observe_keeps host at_tolerates now false) fun _ => ?_
  refine triple_read fun e he => ?_
  have hkeep : ∀ w : Wire ω, On (fun e' => e' = e) w → On (Between device firmware) w :=
    fun _ => On.read ⟨since, he⟩
  refine Triple.ite (fun _ => Triple.pure hkeep) fun hopen => Triple.ite (fun _ => ?_) fun _ => ?_
  · exact triple_at ⟨since, he.disconnect⟩
  · refine Triple.bind (Triple.strengthen (pollPending_triple host now) fun w hw => ?_)
      fun _ => pollTimeout_keeps host now
    refine ⟨hkeep w hw, ?_⟩
    rw [show w.endpoint = e from hw]
    simpa using hopen

theorem consumeOutput_between (h : Between device firmware e) (count : Nat) (now : UInt64) :
    Between device firmware (e.consumeOutput count now) := by
  obtain ⟨since, h⟩ := h
  refine ⟨since, ?_⟩
  unfold consumeOutput
  split
  · exact h.disconnect
  · split
    · exact h
    · have hread : ∀ offset : Nat, At device firmware false since since
          { e with offset, lastTxProgressMs := now } := fun offset =>
        h.same (h.toCore.same rfl ⟨rfl, rfl, rfl, rfl, rfl⟩ rfl rfl (UInt64.le_refl _) h.quiet) rfl
          ⟨rfl, rfl, rfl⟩
      dsimp only
      split
      · exact hread _
      · rename_i frame rest houtput
        split
        · have hlegal : Legal device firmware e.history .sent := h.answered.legal trivial
          refine h.step rfl (h.toCore.step rfl hlegal id
            (notGreets fun _ _ => WireEvent.noConfusion) id ⟨rfl, rfl, rfl, rfl, rfl⟩ ?_ ?_
            (UInt64.le_refl _) (fun id frame hid => WireEvent.noConfusion hid) h.quiet) rfl rfl id
              id
            ⟨rfl, rfl, rfl⟩
          · intro hopen
            cases hcond : rest.isEmpty && e.closing <;> simp_all
          · show (seen e.history).queue.tail = rest
            rw [h.queue, houtput]
            rfl
        · exact hread _

/-! ## Runs -/

/-- A connection begins, without a session. -/
theorem At.connected (h : At device firmware false since since e) (principal : Bytes) :
    At device firmware false since since
      { e.disconnect.record (.connected principal) with
        principal, parser := {}, closed := false } := by
  have hd := h.disconnect
  have hlegal : Legal device firmware e.disconnect.history (.connected principal) :=
    hd.answered.legal trivial
  refine ⟨⟨hd.legal.snoc hlegal, hd.names, queue_snoc.trans hd.queue, fun _ => ?_, ?_, quiet_fresh⟩,
    phase_snoc.trans hd.phase, fun _ => rfl, fun hne => absurd rfl hne, answered_snoc id, h.since⟩
  · exact ⟨[], Since.here, fun _ _ hmem => absurd hmem List.not_mem_nil,
      fun hne => absurd rfl hne⟩
  · obtain ⟨mid, hsince, hids⟩ := hd.boot
    exact ⟨_, hsince.snoc id, fun id frame hmem => hids id frame (by simpa using hmem)⟩

theorem connect_triple (principal : Bytes) : Triple (On (At device firmware false since since))
    (connect host principal) fun _ => On (Between device firmware) := by
  refine Triple.bind (triple_update (Q := fun e => ∃ e', At device firmware false since since e' ∧
    e = e'.disconnect) fun e he => ⟨e, he, rfl⟩) fun _ => ?_
  refine Triple.bind (triple_update (Q := At device firmware false since since) fun e he => ?_)
    fun _ => Triple.bind (keeps_serve _) fun s => ?_
  · obtain ⟨e', he', rfl⟩ := he
    exact he'.connected principal
  · refine Triple.bind (triple_update fun e he => he.observed s) fun _ => triple_read fun e he => ?_
    exact Triple.ite (fun _ => triple_at ⟨since, he.observeBoot s.bootId⟩) fun _ =>
      Triple.pure fun _ => On.read ⟨since, he⟩

end Endpoint

end WsprryPico.Wtp
