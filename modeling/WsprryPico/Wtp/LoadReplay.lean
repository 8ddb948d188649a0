import WsprryPico.Lib.Json
import WsprryPico.Wtp.Encode
import WsprryPico.Wtp.Refused

/-!
# The shortcut of a repeated LOAD

A payload whose job id is the one the endpoint was told is decoded to the digest of its job
alone. The digest is the one of the job the full decode gives, and LOAD answers both alike when
the job is held or retained.
-/

namespace WsprryPico.Wtp.Codec

open Lib Json

variable {allocate : Nat → Bool} {v : Value}

/-! ## Texts in ASCII -/

theorem utf8_ascii {bytes : Bytes} (h : ∀ b ∈ bytes, b.toNat < 128) : Utf8 bytes := by
  refine ⟨bytes.map fun b => Char.ofNat b.toNat, ?_⟩
  induction bytes with
  | nil => rfl
  | cons b bytes ih =>
    rw [List.forall_mem_cons] at h
    have hvalid : (Char.ofNat b.toNat).val.toNat = b.toNat := by
      have hb : b.toNat.isValidChar := Or.inl (by omega)
      rw [Char.ofNat, dif_pos hb]
      rfl
    have hone : String.utf8EncodeChar (Char.ofNat b.toNat) = [b] := by
      rw [String.utf8EncodeChar, hvalid]
      simp [show b.toNat ≤ 127 by omega]
    rw [List.map_cons, List.flatMap_cons, hone, ← ih h.2]
    rfl

theorem textOf_utf8 {bytes : Bytes} (h : Utf8 bytes) :
    (textOf bytes).toUTF8.data.toList = bytes := by
  obtain ⟨chars, hchars⟩ := h
  have hvalid : bytes.toByteArray.IsValidUTF8 := .intro chars (by rw [hchars]; rfl)
  have htext : textOf bytes = String.fromUTF8 bytes.toByteArray hvalid := by
    rw [textOf, String.fromUTF8?, dif_pos hvalid, Option.getD_some]
  rw [htext]
  exact List.toList_data_toByteArray

theorem digestText_textOf {bytes : Bytes} (h : Utf8 bytes) (b : JobDigestBuilder) :
    b.text (textOf bytes) = digestText b bytes := by
  rw [JobDigestBuilder.text, textOf_utf8 h]
  rfl

/-! ## The events of a job -/

/-- The events an array spells, when each of its elements is one. -/
def typedEvents (events : Value) : Nat → Nat → Option (List RfEvent)
  | 0, _ => some []
  | fuel + 1, cursor =>
    match events.nextElement cursor with
    | none => some []
    | some (e, cursor) => do
      let event ← decodeEvent e
      let rest ← typedEvents events fuel cursor
      return event :: rest

theorem typedEvents_count {fuel cursor count n : Nat} {es : List RfEvent}
    (hcount : countEvents v fuel cursor count = some n) (h : typedEvents v fuel cursor = some es) :
    n = count + es.length := by
  induction fuel generalizing cursor count es with
  | zero =>
    cases hcount
    cases h
    rfl
  | succ fuel ih =>
    unfold countEvents at hcount
    unfold typedEvents at h
    rcases hnext : v.nextElement cursor with - | ⟨e, cursor'⟩
    · rw [hnext] at hcount h
      cases hcount
      cases h
      rfl
    · rw [hnext] at hcount h
      simp only [Option.ite_none_left_eq_some] at hcount
      simp only [Option.bind_eq_bind, Option.bind_eq_some_iff] at h
      obtain ⟨event, -, rest, hrest, heq⟩ := h
      cases heq
      have hlength := ih hcount.2 hrest
      rw [List.length_cons]
      omega

/-- For a replay the second pass hashes the events. -/
theorem decodeEvents_replay {fuel cursor : Nat} {digest : JobDigestBuilder} {l : EventList} :
    decodeEvents allocate true v fuel cursor digest l =
      (typedEvents v fuel cursor).map fun es => (es.foldl JobDigestBuilder.append digest, l) := by
  induction fuel generalizing cursor digest with
  | zero => rfl
  | succ fuel ih =>
    unfold decodeEvents typedEvents
    rcases v.nextElement cursor with - | ⟨e, cursor'⟩
    · rfl
    · dsimp only
      rcases decodeEvent e with - | event
      · rfl
      · dsimp only
        rw [if_pos rfl, ih]
        cases typedEvents v fuel cursor' <;> simp

theorem pushBack_spec (allocate : Nat → Bool) (l : EventList) (event : RfEvent) :
    pushBack allocate l event = ({ l with events := l.events ++ [event] }, true) ∨
      ((pushBack allocate l event).2 = false ∧ (pushBack allocate l event).1.valid = false) := by
  unfold pushBack reserve EventList.valid
  grind

/-- Otherwise it stores them, as long as no page is missing. -/
theorem decodeEvents_full {fuel cursor : Nat} {digest : JobDigestBuilder} {l : EventList}
    (h : ∀ p, decodeEvents allocate false v fuel cursor digest l = some p → p.2.valid = true) :
    decodeEvents allocate false v fuel cursor digest l =
      (typedEvents v fuel cursor).map fun es => (digest, { l with events := l.events ++ es }) := by
  induction fuel generalizing cursor l with
  | zero => simp [decodeEvents, typedEvents]
  | succ fuel ih =>
    unfold decodeEvents at h ⊢
    unfold typedEvents
    rcases hnext : v.nextElement cursor with - | ⟨e, cursor'⟩
    · simp
    · rcases hevent : decodeEvent e with - | event
      · simp [hevent]
      · simp only [hnext, hevent, Bool.false_eq_true, if_false] at h ⊢
        obtain hpushed | ⟨hrefused, hinvalid⟩ := pushBack_spec allocate l event
        · simp only [hpushed, if_true] at h ⊢
          rw [ih h]
          cases typedEvents v fuel cursor' <;> simp
        · rw [hrefused] at h
          exact absurd (h _ rfl) (by simp [hinvalid])

/-! ## The digest of a job -/

/-- The texts of a job in front of its events are ASCII. -/
structure Spelled (job : Job) : Prop where
  jobId : Utf8 job.jobId
  profile : Utf8 job.profile
  mode : Utf8 job.mode
  events : job.events = {}

theorem identifier_utf8 (h : identifier v = true) : Utf8 v.string := by
  unfold identifier at h
  split at h
  · cases h
  · simp only [Bool.and_eq_true, decide_eq_true_eq, List.all_eq_true, Bool.or_eq_true] at h
    refine utf8_ascii fun b hb => ?_
    obtain hdigit | hletter := h.2 b hb
    · have := (isDigit_iff.mp hdigit).2
      omega
    · have := UInt8.le_iff_toNat_le.mp hletter.2
      have hf : (102 : UInt8).toNat = 102 := rfl
      omega

theorem modes_utf8 : ∀ mode ∈ modes, Utf8 mode := by
  intro mode hmode
  have hall : modes.all (fun mode => mode.all fun b => b < 0x80) = true := by decide
  exact utf8_ascii (forall_mem_of_all (List.all_eq_true.mp hall mode hmode))

theorem loadHeader_spelled {job : Job} (h : loadHeader v = some job) : Spelled job := by
  unfold loadHeader at h
  split at h
  · cases h
  · rename_i hfields
    simp only [not_or, not_not] at hfields
    have hprofile : Utf8 (ascii "rf-events/1") := utf8_ascii (forall_mem_of_all (by decide))
    have hid := identifier_utf8 hfields.2.1
    split at h
    · cases h
    · dsimp only at h
      split at h
      · cases h
      · rename_i hmode
        simp only [not_or, not_not] at hmode
        have hutf8 := modes_utf8 _ hmode.2
        split at h
        · cases h
          exact ⟨hid, hprofile, hutf8, rfl⟩
        · split at h
          · cases h
          · cases h
            exact ⟨hid, hprofile, hutf8, rfl⟩

theorem digestHeader_toService {job : Job} (h : Spelled job) (l : EventList) (count : Nat) :
    JobDigestBuilder.header { job with events := l }.toService count = digestHeader job count := by
  simp only [JobDigestBuilder.header, digestHeader, Job.toService, digestText_textOf h.jobId,
    digestText_textOf h.profile, digestText_textOf h.mode]

theorem jobDigest_decoded {job : Job} (h : Spelled job) (es : List RfEvent) :
    jobDigest
        { job with events := { job.events with events := job.events.events ++ es } }.toService =
      (es.foldl JobDigestBuilder.append (digestHeader job es.length)).digest.finish := by
  have hheader := digestHeader_toService h { job.events with events := job.events.events ++ es }
    es.length
  rw [jobDigest]
  simp only [Job.toService, h.events, List.nil_append] at hheader ⊢
  rw [EventList.size, hheader]

/-! ## Two decodes of one payload -/

def Shortened (full replayed : Body × Bool) : Prop :=
  replayed = full ∨ ∃ job, full = (.job job, true) ∧
    replayed = (.loadReplay job.jobId (jobDigest job.toService), true)

/-- Every page of the events was there: a decoded job has all of them. -/
def Whole (b : Body) : Prop := ∀ job, b = .job job → job.events.valid = true

theorem reserve_refused {l : EventList} {count : Nat} (h : (reserve allocate l count).2 = false) :
    (reserve allocate l count).1.valid = false := by
  unfold reserve EventList.valid at *
  grind

theorem secondPass_shortened {job : Job} (h : Spelled job) {fuel count : Nat}
    (hcount : countEvents v fuel 0 0 = some count)
    (hwhole : ∀ p, decodeEvents allocate false v fuel 0 (digestHeader job count) job.events =
      some p → p.2.valid = true) :
    Shortened
      (match decodeEvents allocate false v fuel 0 (digestHeader job count) job.events with
      | none => (.monostate, false)
      | some (_, l) => (.job { job with events := l }, true))
      (match decodeEvents allocate true v fuel 0 (digestHeader job count) job.events with
      | none => (.monostate, false)
      | some (digest, _) => (.loadReplay job.jobId digest.digest.finish, true)) := by
  rw [decodeEvents_full hwhole, decodeEvents_replay]
  rcases htyped : typedEvents v fuel 0 with - | es
  · exact .inl rfl
  · have hlength := typedEvents_count hcount htyped
    rw [Nat.zero_add] at hlength
    subst hlength
    refine .inr ⟨_, rfl, ?_⟩
    rw [jobDigest_decoded h]
    rfl

theorem loadBody_shortened (hint : Bytes) (hwhole : Whole (loadBody allocate [] v).1) :
    Shortened (loadBody allocate [] v) (loadBody allocate hint v) := by
  unfold loadBody at hwhole ⊢
  rcases hheader : loadHeader v with - | job
  · exact .inl rfl
  rw [hheader] at hwhole
  dsimp only at hwhole ⊢
  rcases hcount : countEvents (get v "events") ((get v "events").raw.length + 1) 0 0 with - | count
  · exact .inl rfl
  rw [hcount] at hwhole
  rcases count with - | count
  · exact .inl rfl
  simp only [List.isEmpty_nil, Bool.not_true, Bool.false_and, Bool.false_eq_true, not_false_eq_true,
    true_and, if_false, Bool.not_eq_true] at hwhole ⊢
  by_cases hreplay : (!hint.isEmpty && decide (job.jobId = hint)) = true
  · by_cases hreserved : (reserve allocate job.events (count + 1)).2 = false
    · rw [if_pos hreserved] at hwhole
      exact absurd (hwhole _ rfl) (by simp [reserve_refused hreserved])
    · rw [if_neg hreserved] at hwhole ⊢
      simp only [hreplay, if_true]
      refine secondPass_shortened (loadHeader_spelled hheader) hcount fun p hp => ?_
      rw [hp] at hwhole
      exact hwhole _ rfl
  · simp only [hreplay, Bool.false_eq_true, true_and, if_false]
    exact .inl rfl

/-- What the request of a body that was not decoded for a replay becomes when it is. -/
inductive Request.Shortened (full : Request) : Request → Prop where
  | same : Shortened full full
  | replay (job : Job) : full.operation = ascii "LOAD" → full.body = .job job →
      full.bodyValid = true →
      Shortened full { full with body := .loadReplay job.jobId (jobDigest job.toService) }

theorem body_shortened (hint op : Bytes) (hwhole : Whole (body allocate [] op v).1) :
    body allocate hint op v = body allocate [] op v ∨
      op = ascii "LOAD" ∧ Shortened (body allocate [] op v) (body allocate hint op v) := by
  by_cases hload : op = ascii "LOAD"
  · subst hload
    have hbody : ∀ id, body allocate id (ascii "LOAD") v = loadBody allocate id v := fun _ => rfl
    rw [hbody] at hwhole
    exact .inr ⟨rfl, loadBody_shortened hint hwhole⟩
  · left
    unfold body
    simp only [if_neg hload]

theorem decodeRequest_shortened (allocate : Nat → Bool) (root : Value)
    (principal payload hint : Bytes) (digest : Option PayloadDigest) :
    (decodeRequest allocate root principal payload [] digest = none →
      decodeRequest allocate root principal payload hint digest = none) ∧
    ∀ full, decodeRequest allocate root principal payload [] digest = some full →
      Whole full.body → ∃ replayed, full.Shortened replayed ∧
        decodeRequest allocate root principal payload hint digest = some replayed := by
  unfold decodeRequest
  split
  · exact ⟨fun _ => rfl, fun _ h => by cases h⟩
  · refine ⟨fun h => (by cases h), fun full hfull hwhole => ?_⟩
    cases hfull
    obtain heq | ⟨hop, heq | ⟨job, hjob, heq⟩⟩ := body_shortened hint _ hwhole
    · exact ⟨_, .same, by dsimp only; rw [heq]⟩
    · exact ⟨_, .same, by dsimp only; rw [heq]⟩
    · refine ⟨_, .replay job hop (congrArg Prod.fst hjob) (congrArg Prod.snd hjob), ?_⟩
      simp only [heq, hjob]

end WsprryPico.Wtp.Codec

namespace WsprryPico.Wtp

open Lib Json AuthM SysM

variable {ω α β : Type} {env : Env ω} {a : Authority}

/-! ## The two branches of LOAD -/

/-- The job id is that of the current or of a retained job. -/
def Authority.Names (a : Authority) (jobId : String) : Prop :=
  (a.findRetained jobId).isSome = true ∨ a.job.map (·.jobId) = some jobId

/-- From an authority `a` both do the same. -/
def Twin (a : Authority) (m m' : AuthM ω β) : Prop := ∀ s, s.auth = a → m s = m' s

namespace Twin

variable {m m' : AuthM ω β}

theorem refl : Twin a m m := fun _ _ => rfl

theorem symm (h : Twin a m m') : Twin a m' m := fun s hs => (h s hs).symm

theorem auth {k : Authority → AuthM ω β} (h : Twin a (k a) m) : Twin a (AuthM.auth >>= k) m := by
  rintro s rfl
  exact h s rfl

theorem query {f : ω → α × ω} {k k' : α → AuthM ω β} (h : ∀ x, Twin a (k x) (k' x)) :
    Twin a (AuthM.query f >>= k) (AuthM.query f >>= k') := fun _ hs => h _ _ hs

theorem snapshot {k k' : ClockSnapshot → AuthM ω β} (h : ∀ x, Twin a (k x) (k' x)) :
    Twin a (AuthM.snapshot env >>= k) (AuthM.snapshot env >>= k') := fun _ hs => h _ _ hs

end Twin

theorem dispatchLoad_twin {job : Job} (h : a.Names job.jobId) :
    Twin a (dispatchLoadReplay env job.jobId (jobDigest job)) (dispatchLoadJob env job) := by
  refine Twin.query fun active => Twin.auth ?_
  cases active with
  | true => exact Twin.refl
  | false =>
    rw [if_neg Bool.false_ne_true, Bool.false_or]
    by_cases hfailed : a.state = .failed
    · rw [if_pos (decide_eq_true hfailed)]
      refine Twin.symm (Twin.auth ?_)
      rw [if_pos hfailed]
      exact Twin.refl
    rw [if_neg (by simpa using hfailed)]
    refine Twin.auth (Twin.symm (Twin.auth ?_))
    rw [if_neg hfailed]
    rcases hretained : a.findRetained job.jobId with - | retained
    · have hjob : a.job.map (·.jobId) = some job.jobId := h.resolve_left (by simp [hretained])
      simp only [hjob, ne_eq, not_true_eq_false, if_false, if_true]
      by_cases hdigest : a.jobDigest = jobDigest job
      · rw [if_pos hdigest, if_neg (not_not_intro hdigest)]
        exact Twin.refl
      · rw [if_neg hdigest, if_pos hdigest]
        exact Twin.refl
    · exact Twin.refl

/-- The request of a LOAD with the digest of its job in place of the job. -/
def Request.replaying (request : Request) (job : Job) : Request :=
  { request with body := .loadReplay job.jobId (jobDigest job) }

theorem dispatch_twin {request : Request} {job : Job} (hop : request.operation = .load)
    (hbody : request.body = .job job) (h : a.Names job.jobId) :
    Twin a (dispatch env (request.replaying job)) (dispatch env request) := by
  refine Twin.snapshot fun now => ?_
  have hops : Operation.load ∉ [Operation.hello, .caps, .status, .getClock, .ping] := by decide
  have hop' : (request.replaying job).operation = .load := hop
  have hbody' : (request.replaying job).body = .loadReplay job.jobId (jobDigest job) := rfl
  have hvalid' : (request.replaying job).bodyValid = request.bodyValid := rfl
  have howns' : ∀ a : Authority, a.owns (request.replaying job) = a.owns request := fun _ => rfl
  simp only [hop, hop', hbody, hbody', hvalid', howns', reduceCtorEq, if_false, if_neg hops,
    ownerBody, Bool.not_true, Bool.false_eq_true]
  by_cases hvalid : (!request.bodyValid) = true
  · rw [if_pos hvalid, if_pos hvalid]
    exact Twin.refl
  rw [if_neg hvalid, if_neg hvalid]
  refine Twin.auth (Twin.symm (Twin.auth ?_))
  rcases a.owner with - | owner
  · exact Twin.refl
  by_cases howns : (!a.owns request) = true
  · rw [if_pos howns, if_pos howns]
    exact Twin.refl
  · rw [if_neg howns, if_neg howns, dispatchLoad, dispatchLoad, hbody, hbody']
    exact Twin.symm (dispatchLoad_twin h)

/-! ## The whole entry -/

/-- The same response, authority, transport and world. -/
structure Agree (x y : Response × Sys ω) : Prop where
  response : x.1 = y.1
  auth : x.2.auth = y.2.auth
  transport : x.2.transport = y.2.transport
  world : x.2.world = y.2.world

theorem Agree.refl (x : Response × Sys ω) : Agree x x := ⟨rfl, rfl, rfl, rfl⟩

/-- From an authority `a` they agree. -/
def Agrees (a : Authority) (m m' : SysM ω Response) : Prop :=
  ∀ s : Sys ω, s.auth = a → Agree (m s) (m' s)

namespace Agrees

variable {m m' n n' : SysM ω Response}

theorem refl : Agrees a m m := fun _ _ => .refl _

theorem bind {b : SysM ω α} {k k' : α → SysM ω Response}
    (hb : Keeps (fun s : Sys ω => s.auth = a) b) (hk : ∀ x, Agrees a (k x) (k' x)) :
    Agrees a (b >>= k) (b >>= k') := fun s hs => hk _ _ (hb s hs)

theorem ite {c : Prop} [Decidable c] (h : Agrees a n n') :
    Agrees a (if c then m else n) (if c then m else n') := by
  split
  · exact refl
  · exact h

end Agrees

theorem blocked_stands : Triple (Stands (ω := ω) a) (blocked env) fun _ => Stands a := by
  refine Stands.auth (Triple.ite (fun _ => Triple.pure fun _ h => h) fun _ => Stands.auth ?_)
  refine Triple.ite (fun _ => Triple.pure fun _ h => h) fun _ => ?_
  refine Triple.ite (fun _ => Triple.pure fun _ h => h) fun _ => ?_
  exact Stands.snapshot fun _ => Triple.pure fun _ h => h

/-- What is retained of a request says nothing of its body. -/
theorem dispatched_agrees {request : Request} {job : Job} (hop : request.operation = .load)
    (hbody : request.body = .job job) (h : a.Names job.jobId) (retainResponse : Bool)
    (nowNs : UInt64) :
    Agrees (ω := ω) a
      (do
        let response ← onAuthority (dispatch env (request.replaying job))
        retain retainResponse (request.replaying job) response nowNs
        return response)
      (do
        let response ← onAuthority (dispatch env request)
        retain retainResponse request response nowNs
        return response) := by
  intro s hs
  have hsame : onAuthority (dispatch env (request.replaying job)) s =
      onAuthority (dispatch env request) s := by
    simp only [onAuthority, dispatch_twin hop hbody h s.toAuthSys hs]
  simp only [bind, StateT.bind, hsame]
  unfold retain
  cases retainResponse with
  | false => exact Agree.refl _
  | true => exact ⟨rfl, rfl, rfl, rfl⟩

theorem replay_replaying (request : Request) (job : Job) (t : Transport) :
    Transport.replay (request.replaying job) t = Transport.replay request t := by
  have htouch : ∀ (lru : UInt64) (cache : List ReplayEntry),
      Transport.replay.touch (request.replaying job) lru cache =
        Transport.replay.touch request lru cache := by
    intro lru cache
    induction cache with
    | nil => rfl
    | cons entry rest ih =>
      unfold Transport.replay.touch
      rw [ih]
      rfl
  unfold Transport.replay
  simp only [htouch]
  rfl

theorem respond_agrees {request : Request} {job : Job} (hop : request.operation = .load)
    (hbody : request.body = .job job) (h : a.Names job.jobId) (retainResponse : Bool)
    (now : ClockSnapshot) :
    Agrees a (respond env (request.replaying job) retainResponse now)
      (respond env request retainResponse now) := by
  have henvelope : envelopeError (request.replaying job) = envelopeError request := rfl
  have hop' : (request.replaying job).operation = .load := hop
  have hadmit : ∀ nowNs t, admitSession (request.replaying job) nowNs t =
      admitSession request nowNs t := by
    intro nowNs t
    simp only [admitSession, hop, hop', reduceCtorEq, if_false]
    rfl
  unfold respond
  simp only [henvelope, hop, hop', hadmit, replay_replaying]
  refine Agrees.bind (fun _ hs => hs) fun read => Agrees.ite ?_
  rcases envelopeError request with - | ⟨code, close⟩
  case some => exact Agrees.refl
  refine Agrees.bind (onAuthority_triple blocked_stands) fun held => Agrees.ite ?_
  refine Agrees.bind (fun _ hs => hs) fun transport => ?_
  rcases admitSession request now.monotonicNowNs transport with ⟨code, close⟩ | t
  · exact Agrees.refl
  refine Agrees.bind (fun _ hs => hs) fun _ => Agrees.bind (fun _ hs => hs) fun _ => ?_
  rcases (Transport.replay request t).1 with - | - | response
  · exact dispatched_agrees hop hbody h retainResponse _
  · exact Agrees.refl
  · exact Agrees.refl

/-- The job a request loads is held or retained. -/
def Authority.NamesJob (a : Authority) (request : Codec.Request) : Prop :=
  ∀ job, request.body = .job job → a.Names (textOf job.jobId)

theorem operationOf_load : operationOf (ascii "LOAD") = .load := by decide

theorem shortened_dispatch {full replayed : Codec.Request} (h : full.Shortened replayed)
    {s : AuthSys ω} (hnames : s.auth.NamesJob full) :
    dispatch env replayed.toService s = dispatch env full.toService s := by
  cases h with
  | same => rfl
  | replay job hop hbody _ =>
    have hload : full.toService.operation = .load :=
      (congrArg operationOf hop).trans operationOf_load
    have hjob : full.toService.body = .job job.toService := congrArg Codec.Body.toService hbody
    exact dispatch_twin hload hjob (hnames job hbody) s rfl

theorem shortened_handleOwned {full replayed : Codec.Request} (h : full.Shortened replayed)
    (retainResponse : Bool) {s : Sys ω} (hnames : (enter env s).2.auth.NamesJob full) :
    Agree (handleOwned env replayed.toService retainResponse s)
      (handleOwned env full.toService retainResponse s) := by
  cases h with
  | same => exact Agree.refl _
  | replay job hop hbody _ =>
    have hload : full.toService.operation = .load :=
      (congrArg operationOf hop).trans operationOf_load
    have hjob : full.toService.body = .job job.toService := congrArg Codec.Body.toService hbody
    exact respond_agrees hload hjob (hnames job hbody) retainResponse _ _ rfl

/-- A payload decoded with the id of a job that is held or retained is answered as one decoded
into a job, when that job got all of its events: both decodes fail or give requests on which
`dispatch` does the same, and `handle_owned` too but for the note of what it retained. -/
theorem load_replay_agrees (env : Env ω) (allocate : Nat → Bool) (root : Value)
    (principal payload hint : Bytes) (digest : Option PayloadDigest) :
    (Codec.decodeRequest allocate root principal payload [] digest = none →
      Codec.decodeRequest allocate root principal payload hint digest = none) ∧
    ∀ full, Codec.decodeRequest allocate root principal payload [] digest = some full →
      (∀ job, full.body = .job job → job.events.valid = true) →
      ∃ replayed, Codec.decodeRequest allocate root principal payload hint digest = some replayed ∧
        (∀ s : AuthSys ω, s.auth.NamesJob full →
          dispatch env replayed.toService s = dispatch env full.toService s) ∧
        ∀ (retainResponse : Bool) (s : Sys ω), (enter env s).2.auth.NamesJob full →
          Agree (handleOwned env replayed.toService retainResponse s)
            (handleOwned env full.toService retainResponse s) := by
  obtain ⟨hnone, hsome⟩ := Codec.decodeRequest_shortened allocate root principal payload
    hint digest
  refine ⟨hnone, fun full hfull hwhole => ?_⟩
  obtain ⟨replayed, hshort, hreplayed⟩ := hsome full hfull hwhole
  exact ⟨replayed, hreplayed, fun s hs => shortened_dispatch hshort hs,
    fun retainResponse s hs => shortened_handleOwned hshort retainResponse hs⟩

/-! ## Short of memory -/

/-- A LOAD of the bench job, as it arrives. -/
def benchLoad : Value :=
  ⟨ascii "\x7b\"type\":\"request\",\"protocol\":\"WTP/1\"," ++
    ascii "\"session_id\":\"22222222222222222222222222222222\"," ++
    ascii "\"request_id\":\"30000000000000000000000000000004\",\"op\":\"LOAD\"," ++
    ascii "\"body\":\x7b\"job_id\":\"11111111111111111111111111111111\"," ++
    ascii "\"profile\":\"rf-events/1\",\"mode\":\"tone\"," ++
    ascii "\"total_duration_ns\":\"1000000000\",\"events\":[\x7b\"offset_ns\":\"0\"," ++
    ascii "\"duration_ns\":\"1000000000\",\"rf_on\":true," ++
    ascii "\"frequency_nhz\":\"14000000000000000\"\x7d]\x7d\x7d"⟩

def benchLoaded : Sys ClockSnapshot :=
  run bench (benchArm.take 3) (construct bench {} (benchClock 1000000000))

/-- Decoded in a memory with the pages `allocate` gives. -/
def benchDecoded (allocate : Nat → Bool) (hint : Bytes) : Option Codec.Request :=
  Codec.decodeRequest allocate benchLoad (ascii "controller") [] hint (some benchDigest)

/-- Whether the job of a request is held or retained on the bench. -/
def benchNames (request : Codec.Request) : Bool :=
  match request.body with
  | .job job =>
    (benchLoaded.auth.findRetained (textOf job.jobId)).isSome ||
      benchLoaded.auth.job.map (·.jobId) = some (textOf job.jobId)
  | _ => true

theorem benchNames_names {request : Codec.Request} (h : benchNames request = true) :
    benchLoaded.auth.NamesJob request := by
  intro job hjob
  unfold benchNames at h
  rw [hjob] at h
  simpa [Authority.Names] using h

theorem benchDecoded_isSome : (benchDecoded (fun _ => true) []).isSome = true ∧
    (benchDecoded (fun _ => false) []).isSome = true ∧
    (benchDecoded (fun _ => false) (bytesOf benchJob.jobId)).isSome = true := by decide +kernel

/-- The bench request, decoded into a job that has all of its events. -/
def benchFull : Codec.Request := (benchDecoded (fun _ => true) []).get benchDecoded_isSome.1

/-- The same with no page for the events. -/
def benchShort : Codec.Request := (benchDecoded (fun _ => false) []).get benchDecoded_isSome.2.1

def benchReplayed : Codec.Request :=
  (benchDecoded (fun _ => false) (bytesOf benchJob.jobId)).get benchDecoded_isSome.2.2

/-- With no page for its events the decoded job is short of them, and is refused where the
shortcut is accepted. -/
theorem pages_missing : benchDecoded (fun _ => false) [] = some benchShort ∧
    benchDecoded (fun _ => false) (bytesOf benchJob.jobId) = some benchReplayed ∧
    benchLoaded.auth.NamesJob benchShort ∧
    (dispatch bench benchReplayed.toService benchLoaded.toAuthSys).1.ok = true ∧
    (dispatch bench benchShort.toService benchLoaded.toAuthSys).1.ok = false :=
  ⟨(Option.some_get _).symm, (Option.some_get _).symm, benchNames_names (by decide +kernel),
    by decide +kernel, by decide +kernel⟩

theorem benchFull_valid : ∀ job, benchFull.body = .job job → job.events.valid = true := by
  have hvalid : (match benchFull.body with
      | .job job => job.events.valid
      | _ => true) = true := by decide +kernel
  intro job hjob
  rw [hjob] at hvalid
  exact hvalid

theorem load_replay_agrees_bench :
    ∃ replayed, benchDecoded (fun _ => true) (bytesOf benchJob.jobId) = some replayed ∧
      dispatch bench replayed.toService benchLoaded.toAuthSys =
        dispatch bench benchFull.toService benchLoaded.toAuthSys := by
  obtain ⟨replayed, hreplayed, hdispatch, -⟩ := (load_replay_agrees bench (fun _ => true)
    benchLoad (ascii "controller") [] (bytesOf benchJob.jobId) (some benchDigest)).2 benchFull
    (Option.some_get benchDecoded_isSome.1).symm benchFull_valid
  exact ⟨replayed, hreplayed,
    hdispatch benchLoaded.toAuthSys (benchNames_names (by decide +kernel))⟩

end WsprryPico.Wtp
