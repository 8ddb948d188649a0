import WsprryPico.Wtp.Lifecycle
import WsprryPico.Wtp.Stop

/-!
# The replay cache

`Cache` is the invariant of the reply cache: one entry for each session and
request id, at most the configured number for a session, and each entry's
session still in the table under the principal whose request was answered. The
last part needs the clock: an entry completes at the time its request entered,
its session was seen then or later, so the session outlives the entry.

`decided` says what `handle_owned` answers before `dispatch`, as a function of
the request, the interlocks and the transport state.
-/

namespace WsprryPico.Wtp

open Lib Relation

variable {ω : Type} {env : Env ω} {p : Permit ω} {a : Authority} {t : List Event} {w : ω}
  {tr : Transport}

/-! ## Entries -/

namespace Transport

def entryKey (e : ReplayEntry) : String × String := (e.sessionId, e.requestId)

/-- An entry without its stamp, which is all a cache hit changes. -/
def unstamped (e : ReplayEntry) : ReplayEntry := { e with lru := 0 }

theorem replay_cache (request : Request) (tr : Transport) :
    (replay request tr).2.replayCache.map unstamped = tr.replayCache.map unstamped := by
  have htouch : ∀ (lru : UInt64) (cache : List ReplayEntry),
      (replay.touch request lru cache).map unstamped = cache.map unstamped := by
    intro lru cache
    induction cache with
    | nil => rfl
    | cons e rest ih =>
      unfold replay.touch
      split
      · rfl
      · rw [List.map_cons, List.map_cons, ih]
  unfold replay
  split
  · rfl
  · split
    · rfl
    · exact htouch _ _

theorem mem_unstamped {l m : List ReplayEntry} (h : l.map unstamped = m.map unstamped)
    {e : ReplayEntry} (he : e ∈ l) : ∃ e' ∈ m, ∃ lru, e = { e' with lru := lru } := by
  have hmem : unstamped e ∈ m.map unstamped := h ▸ List.mem_map_of_mem he
  obtain ⟨e', he', heq⟩ := List.mem_map.1 hmem
  refine ⟨e', he', e.lru, ?_⟩
  calc e = { unstamped e with lru := e.lru } := rfl
    _ = { unstamped e' with lru := e.lru } := by rw [heq]

/-- `b` is of session `sessionId` and not used later than `e`, if `e` is of that session. -/
def Before (sessionId : String) (b e : ReplayEntry) : Prop :=
  e.sessionId = sessionId → b.sessionId = sessionId ∧ b.lru ≤ e.lru

theorem Before.trans {sessionId : String} {b c e : ReplayEntry} (h : Before sessionId b c)
    (h' : Before sessionId c e) : Before sessionId b e := by
  intro he
  obtain ⟨hc, hle⟩ := h' he
  obtain ⟨hb, hle'⟩ := h hc
  exact ⟨hb, UInt64.le_trans hle' hle⟩

theorem victimFrom_spec (sessionId : String) (best : ReplayEntry) (rest : List ReplayEntry) :
    victimFrom sessionId best rest ∈ best :: rest ∧
      ∀ e ∈ best :: rest, Before sessionId (victimFrom sessionId best rest) e := by
  induction rest generalizing best with
  | nil =>
    refine ⟨List.mem_cons_self, fun e he => ?_⟩
    obtain rfl := List.mem_singleton.1 he
    exact fun h => ⟨h, UInt64.le_refl _⟩
  | cons entry rest ih =>
    let best' := if evictsBefore sessionId entry best then entry else best
    have hpick : best' = best ∨ best' = entry := by
      by_cases h : evictsBefore sessionId entry best = true
      · exact .inr (if_pos h)
      · exact .inl (if_neg h)
    -- the comparison keeps the better of the two candidates
    have hbest : Before sessionId best' best ∧ Before sessionId best' entry := by
      simp only [best', evictsBefore]
      by_cases hentry : entry.sessionId = sessionId
      · by_cases hold : best.sessionId = sessionId
        · simp only [hentry, hold, ne_eq, not_true_eq_false, if_false, decide_eq_true_eq]
          split
          next h => exact ⟨fun _ => ⟨hentry, UInt64.le_of_lt h⟩, fun _ => ⟨hentry, UInt64.le_refl _⟩⟩
          next h => exact ⟨fun _ => ⟨hold, UInt64.le_refl _⟩, fun _ => ⟨hold, UInt64.not_lt.1 h⟩⟩
        · simp only [hentry, hold, ne_eq, not_true_eq_false, not_false_eq_true, if_false, if_true]
          exact ⟨fun h => absurd h hold, fun _ => ⟨hentry, UInt64.le_refl _⟩⟩
      · simp only [hentry, ne_eq, not_false_eq_true, if_true, Bool.false_eq_true, if_false]
        exact ⟨fun h => ⟨h, UInt64.le_refl _⟩, fun h => absurd h hentry⟩
    obtain ⟨hmem, hbefore⟩ := ih best'
    refine ⟨?_, fun e he => ?_⟩
    · show victimFrom sessionId best' rest ∈ best :: entry :: rest
      rcases List.mem_cons.1 hmem with h | h
      · rw [h]
        rcases hpick with h' | h' <;> simp [h']
      · simp [h]
    · show Before sessionId (victimFrom sessionId best' rest) e
      have hhead := hbefore best' List.mem_cons_self
      rcases List.mem_cons.1 he with rfl | he
      · exact hhead.trans hbest.1
      · rcases List.mem_cons.1 he with rfl | he
        · exact hhead.trans hbest.2
        · exact hbefore e (List.mem_cons_of_mem _ he)

/-- A remembered answer joins the cache; the entry that leaves for it, if any,
is the least recently used one of the requesting session. -/
theorem remember_cases {config : ServiceConfig} (hquota : 0 < config.responseCacheEntries)
    (request : Request) (response : Response) (nowNs : UInt64) (tr : Transport) :
    ∃ kept, (remember config request response nowNs tr).replayCache = kept ++
        [⟨request.sessionId, request.requestId, request.payloadDigest, response, nowNs,
          tr.lruSequence + 1⟩] ∧
      (kept = tr.replayCache ∧
          tr.replayCache.countP (·.sessionId == request.sessionId) < config.responseCacheEntries ∨
        ∃ victim ∈ tr.replayCache, victim.sessionId = request.sessionId ∧
          (∀ e ∈ tr.replayCache, e.sessionId = request.sessionId → victim.lru ≤ e.lru) ∧
          kept = tr.replayCache.erase victim) := by
  by_cases hfull : tr.replayCache.countP (·.sessionId == request.sessionId) ≥
      config.responseCacheEntries
  · refine ⟨_, rfl, .inr ?_⟩
    rw [if_pos hfull]
    obtain ⟨e₀, he₀, hsession⟩ : ∃ e ∈ tr.replayCache, (e.sessionId == request.sessionId) = true :=
      List.countP_pos_iff.1 (by omega)
    cases hcache : tr.replayCache with
    | nil => simp [hcache] at he₀
    | cons entry rest =>
      rw [hcache] at he₀
      obtain ⟨hmem, hbefore⟩ := victimFrom_spec request.sessionId entry rest
      refine ⟨_, hmem, (hbefore e₀ he₀ (by simpa using hsession)).1,
        fun e he hs => (hbefore e he hs).2, rfl⟩
  · refine ⟨_, rfl, .inl ⟨?_, by omega⟩⟩
    rw [if_neg hfull]

end Transport

open Transport

/-! ## Steady clocks -/

/-- The monotonic readings do not decrease. -/
def Steady (t : List Event) : Prop := (clocks t).Pairwise (· ≥ ·)

theorem Steady.suffix {t' : List Event} (h : Steady t') (ht : t <:+ t') : Steady t := by
  obtain ⟨new, rfl⟩ := ht
  unfold Steady at h
  rw [clocks_append] at h
  exact (List.pairwise_append.1 h).2.1

/-- The last reading is the latest. -/
theorem Steady.le_last (h : Steady t) {now : ClockSnapshot} (hnow : lastClock t = some now)
    {n : UInt64} (hn : n ∈ clocks t) : n ≤ now.monotonicNowNs := by
  induction t with
  | nil => exact nomatch hnow
  | cons e t ih =>
    cases e with
    | clock now' =>
      obtain rfl : now' = now := Option.some.inj hnow
      rcases List.mem_cons.1 hn with rfl | hn
      · exact UInt64.le_refl _
      · exact (List.pairwise_cons.1 h).1 n hn
    | _ => exact ih h hnow hn

theorem age_le {now x y : UInt64} (hxy : x ≤ y) (hy : y ≤ now) : now - y ≤ now - x := by
  have hx := UInt64.le_trans hxy hy
  rw [UInt64.le_iff_toNat_le] at hxy
  rw [UInt64.le_iff_toNat_le, UInt64.toNat_sub_of_le _ _ hy, UInt64.toNat_sub_of_le _ _ hx]
  omega

/-! ## The invariant -/

/-- `e` is the retained answer to `q`. -/
structure Backs (t : List Event) (q : Request) (e : ReplayEntry) : Prop where
  retained : .retained q e.response ∈ t
  session : q.sessionId = e.sessionId
  request : q.requestId = e.requestId
  digest : q.payloadDigest = e.payloadDigest

/-- A retained request passed the checks before the session table. -/
def WellFormed (q : Request) : Prop :=
  envelopeError q = none ∧ (q.operation = .hello → helloError q.body = none)

structure Cache (a : Authority) (t : List Event) (tr : Transport) : Prop where
  unique : (tr.replayCache.map entryKey).Nodup
  quota : ∀ sessionId,
    tr.replayCache.countP (·.sessionId == sessionId) ≤ a.config.responseCacheEntries
  sessions : tr.sessions.length ≤ 16
  expired : ∀ n, lastExpired t = some n → n ∈ clocks t
  dated : ∀ e ∈ tr.replayCache, e.completedMonotonicNs ∈ clocks t ∧
    ∀ n, lastExpired t = some n → e.completedMonotonicNs ≤ n
  known : ∀ e ∈ tr.replayCache, ∃ q, Backs t q e ∧ ∃ session ∈ tr.sessions,
    session.sessionId = e.sessionId ∧ session.principal = q.principal ∧
      e.completedMonotonicNs ≤ session.lastSeenMonotonicNs
  formed : ∀ q response, .retained q response ∈ t → WellFormed q
  ready : tr.replayCache ≠ [] → a.ready = true
  config : a.ready = true → 0 < a.config.responseCacheEntries

/-- The cache is as it was, the trace grew by events of the authority. -/
theorem Cache.authority {a' : Authority} {t' : List Event} (h : Cache a t tr)
    (hf : Frame a t a' t') (hretained : ∀ q response, .retained q response ∈ t' →
      .retained q response ∈ t) : Cache a' t' tr where
  unique := h.unique
  quota := by rw [hf.config]; exact h.quota
  sessions := h.sessions
  expired n hn := mem_clocks_suffix hf.trace (h.expired n (hf.expired ▸ hn))
  dated e he := ⟨mem_clocks_suffix hf.trace (h.dated e he).1,
    fun n hn => (h.dated e he).2 n (hf.expired ▸ hn)⟩
  known e he := by
    obtain ⟨q, hq, session, hsession⟩ := h.known e he
    exact ⟨q, ⟨hf.trace.mem hq.retained, hq.session, hq.request, hq.digest⟩, session, hsession⟩
  formed q response hmem := h.formed q response (hretained q response hmem)
  ready hne := hf.ready.trans (h.ready hne)
  config hready := by rw [hf.config]; exact h.config (hf.ready ▸ hready)

/-- The expiries at the last reading of a steady clock. An entry whose session is
dropped by age is dropped before it. -/
theorem Cache.expire {now : ClockSnapshot} (h : Cache a t tr) (hsteady : Steady t)
    (hnow : lastClock t = some now) :
    Cache a (.expired now.monotonicNowNs :: t) (pruneSessions a.config a.owner now.monotonicNowNs
      (pruneReplay a.config now.monotonicNowNs tr)) where
  unique := (List.filter_sublist.map entryKey).nodup h.unique
  quota sessionId := Nat.le_trans (List.filter_sublist.countP_le) (h.quota sessionId)
  sessions := Nat.le_trans (List.length_filter_le _ _) h.sessions
  expired n hn := by
    cases hn
    exact mem_clocks_of_last (t := t) hnow
  dated e he := by
    have hdated := (h.dated e (List.mem_filter.1 he).1).1
    refine ⟨hdated, fun n hn => ?_⟩
    cases hn
    exact hsteady.le_last hnow hdated
  known e he := by
    obtain ⟨hmem, hkept⟩ := List.mem_filter.1 he
    obtain ⟨q, hq, session, hsession, hid, hprincipal, hseen⟩ := h.known e hmem
    refine ⟨q, ⟨List.mem_cons_of_mem _ hq.retained, hq.session, hq.request, hq.digest⟩, session,
      List.mem_filter.2 ⟨hsession, ?_⟩, hid, hprincipal, hseen⟩
    have hlive : entryExpired a.config.responseCacheTtlNs now.monotonicNowNs
        session.lastSeenMonotonicNs = false := by
      simp only [entryExpired, Bool.not_eq_true', decide_eq_false_iff_not] at hkept ⊢
      rintro ⟨hge, hage⟩
      exact hkept ⟨UInt64.le_trans hseen hge, UInt64.le_trans hage (age_le hseen hge)⟩
    simp [hlive]
  formed q response hmem := h.formed q response (by simpa using hmem)
  ready hne := h.ready fun hnil => hne (by simp [pruneSessions, pruneReplay, hnil])
  config := h.config

/-- Every session of a refreshed table was seen no earlier than before. -/
theorem seen_later {nowNs : UInt64} {sessionId : String} {sessions : List Session}
    {session : Session} (h : session ∈ sessions) {completed : UInt64}
    (hseen : completed ≤ session.lastSeenMonotonicNs) (hnow : completed ≤ nowNs) :
    ∃ session' ∈ Transport.seen nowNs sessionId sessions, session'.sessionId = session.sessionId ∧
      session'.principal = session.principal ∧ completed ≤ session'.lastSeenMonotonicNs := by
  induction sessions with
  | nil => exact nomatch h
  | cons first rest ih =>
    unfold Transport.seen
    rcases List.mem_cons.1 h with rfl | h
    · split
      · exact ⟨_, List.mem_cons_self, rfl, rfl, hnow⟩
      · exact ⟨_, List.mem_cons_self, rfl, rfl, hseen⟩
    · split
      · exact ⟨session, List.mem_cons_of_mem _ h, rfl, rfl, hseen⟩
      · obtain ⟨session', hmem, hrest⟩ := ih h
        exact ⟨session', List.mem_cons_of_mem _ hmem, hrest⟩

theorem Cache.admission {tr' : Transport} {request : Request} {nowNs : UInt64} (h : Cache a t tr)
    (hnow : lastExpired t = some nowNs) (hadmitted : admitSession request nowNs tr = .ok tr') :
    Cache a t tr' := by
  obtain ⟨hcache, hlength, hknown⟩ : tr'.replayCache = tr.replayCache ∧ tr'.sessions.length ≤ 16 ∧
      ∀ session ∈ tr.sessions, ∀ completed, completed ≤ session.lastSeenMonotonicNs →
        completed ≤ nowNs → ∃ session' ∈ tr'.sessions, session'.sessionId = session.sessionId ∧
          session'.principal = session.principal ∧ completed ≤ session'.lastSeenMonotonicNs := by
    refine ⟨admitSession_cache hadmitted, ?_⟩
    obtain ⟨_, -, -, rfl⟩ | ⟨-, hroom, rfl⟩ := admitSession_cases hadmitted
    · have hlength := congrArg List.length (map_seen nowNs request.sessionId tr.sessions)
      rw [List.length_map, List.length_map] at hlength
      exact ⟨hlength ▸ h.sessions, fun session hmem completed hseen hle =>
        seen_later hmem hseen hle⟩
    · refine ⟨?_, fun session hmem completed hseen _ =>
        ⟨session, List.mem_append_left _ hmem, rfl, rfl, hseen⟩⟩
      rw [List.length_append, List.length_singleton]
      exact hroom
  refine ⟨hcache ▸ h.unique, hcache ▸ h.quota, hlength, h.expired, hcache ▸ h.dated, ?_, h.formed,
    hcache ▸ h.ready, h.config⟩
  rw [hcache]
  intro e he
  obtain ⟨q, hq, session, hmem, hid, hprincipal, hseen⟩ := h.known e he
  obtain ⟨session', hmem', hid', hprincipal', hseen'⟩ :=
    hknown session hmem _ hseen ((h.dated e he).2 nowNs hnow)
  exact ⟨q, hq, session', hmem', hid'.trans hid, hprincipal'.trans hprincipal, hseen'⟩

/-- A hit stamps an entry, which no clause looks at. -/
theorem Cache.replayed (h : Cache a t tr) (request : Request) :
    Cache a t (replay request tr).2 := by
  have hcache := replay_cache request tr
  have hsessions := replay_sessions request tr
  refine ⟨?_, fun sessionId => ?_, hsessions ▸ h.sessions, h.expired, fun e he => ?_, fun e he => ?_,
    h.formed, fun hne => h.ready fun hnil => hne ?_, h.config⟩
  · have hkeys := congrArg (List.map entryKey) hcache
    rw [List.map_map, List.map_map] at hkeys
    exact hkeys ▸ h.unique
  · have hcount := congrArg (List.countP (·.sessionId == sessionId)) hcache
    rw [List.countP_map, List.countP_map] at hcount
    exact hcount ▸ h.quota sessionId
  · obtain ⟨e', he', lru, rfl⟩ := mem_unstamped hcache he
    exact h.dated e' he'
  · obtain ⟨e', he', lru, rfl⟩ := mem_unstamped hcache he
    obtain ⟨q, hq, session, hmem, hrest⟩ := h.known e' he'
    exact ⟨q, ⟨hq.retained, hq.session, hq.request, hq.digest⟩, session, hsessions ▸ hmem, hrest⟩
  · have hlength := congrArg List.length hcache
    rw [List.length_map, List.length_map, hnil] at hlength
    exact List.length_eq_zero_iff.1 hlength

theorem Cache.remember {request : Request} {response : Response} {nowNs : UInt64}
    (h : Cache a t tr) (hready : a.ready = true) (hnow : lastExpired t = some nowNs)
    (hretains : Retains tr request nowNs) :
    Cache a (.retained request response :: t) (remember a.config request response nowNs tr) := by
  obtain ⟨kept, hcache, hkept⟩ := remember_cases (h.config hready) request response nowNs tr
  have hsublist : kept.Sublist tr.replayCache := by
    obtain ⟨rfl, -⟩ | ⟨victim, -, -, -, rfl⟩ := hkept
    · exact List.Sublist.refl _
    · exact List.erase_sublist
  have hcount : kept.countP (·.sessionId == request.sessionId) < a.config.responseCacheEntries := by
    obtain ⟨rfl, hlt⟩ | ⟨victim, hmem, hsession, -, rfl⟩ := hkept
    · exact hlt
    · have hle := h.quota request.sessionId
      rw [(List.perm_cons_erase hmem).countP_eq, List.countP_cons_of_pos (by simp [hsession])] at hle
      omega
  refine ⟨?_, fun sessionId => ?_, h.sessions, h.expired, fun e he => ?_, fun e he => ?_,
    fun q r hmem => ?_, fun _ => hready, h.config⟩
  · rw [hcache, List.map_append, List.nodup_append]
    refine ⟨(hsublist.map entryKey).nodup h.unique, by simp, fun k hk k' hk' heq => ?_⟩
    obtain ⟨e, he, rfl⟩ := List.mem_map.1 hk
    obtain rfl := List.mem_singleton.1 hk'
    have habsent := hretains.absent e (hsublist.mem he)
    simp only [entryKey, Prod.mk.injEq] at heq
    simp [isEntry, heq] at habsent
  · rw [hcache, List.countP_append]
    by_cases hs : request.sessionId = sessionId
    · subst hs
      simp only [List.countP_singleton, beq_self_eq_true, if_true]
      omega
    · have hle := hsublist.countP_le (p := fun e : ReplayEntry => e.sessionId == sessionId)
      have hquota := h.quota sessionId
      simp only [List.countP_singleton, beq_iff_eq, hs, if_false]
      omega
  · rw [hcache, List.mem_append, List.mem_singleton] at he
    rcases he with he | rfl
    · exact h.dated e (hsublist.mem he)
    · refine ⟨h.expired nowNs hnow, fun n hn => ?_⟩
      obtain rfl : nowNs = n := Option.some.inj (hnow.symm.trans hn)
      exact UInt64.le_refl _
  · rw [hcache, List.mem_append, List.mem_singleton] at he
    rcases he with he | rfl
    · obtain ⟨q, hq, hsession⟩ := h.known e (hsublist.mem he)
      exact ⟨q, ⟨List.mem_cons_of_mem _ hq.retained, hq.session, hq.request, hq.digest⟩, hsession⟩
    · obtain ⟨session, hmem, hid, hprincipal, hseen⟩ := hretains.known
      exact ⟨request, ⟨List.mem_cons_self, rfl, rfl, rfl⟩, session, hmem, hid, hprincipal,
        UInt64.le_of_eq hseen.symm⟩
  · rcases List.mem_cons.1 hmem with heq | hmem
    · cases heq
      exact ⟨hretains.envelope, hretains.hello⟩
    · exact h.formed q r hmem

theorem step_retained {s s' : AuthSys ω} (hstep : Step env p s s') {q : Request} {r : Response}
    (h : .retained q r ∈ s'.trace) : .retained q r ∈ s.trace := by
  cases hstep with
  | clock | quiet | abortAccepted | terminal | fault | refused | load | armLocally | launch =>
    simpa using h
  | _ => exact h

theorem sysStep_cache {s s' : Sys ω} (hp : ¬ p.reset) (hstep : SysStep env p s s')
    (h : Steady s.trace → Cache s.auth s.trace s.transport) (hsteady : Steady s'.trace) :
    Cache s'.auth s'.trace s'.transport := by
  have hcache := h (hsteady.suffix (sysStep_trace hstep))
  cases hstep with
  | authority _ _ hstep =>
    exact hcache.authority (step_frame hstep) fun q r => step_retained hstep
  | expire hnow => exact hcache.expire (hsteady.suffix (List.suffix_cons _ _)) hnow
  | admission request hnow hadmitted => exact hcache.admission hnow hadmitted
  | replayed request => exact hcache.replayed request
  | remember response hready hnow hretains => exact hcache.remember hready hnow hretains
  | reset deadline bootId ready hreset => exact absurd hreset hp

theorem cache_construct (config : ServiceConfig) (w : ω) :
    Cache (construct env config w).auth (construct env config w).trace
      (construct env config w).transport := by
  obtain ⟨config', bootId, ready, now, x, deadline, w', h, hready, -⟩ :=
    construct_cases env config w
  rw [h]
  refine ⟨List.nodup_nil, fun _ => Nat.zero_le _, Nat.zero_le _, fun n hn => (nomatch hn),
    fun e he => (nomatch he), fun e he => (nomatch he), fun q r hmem => ?_,
    fun hne => absurd rfl hne, fun hr => ?_⟩
  · simp at hmem
  · have hvalid := hready hr
    simp only [configurationValid, Bool.and_eq_true, decide_eq_true_eq] at hvalid
    show 0 < config'.responseCacheEntries
    omega

theorem run_cache (ops : List (Op ω)) (hreset : .reset ∉ ops) (config : ServiceConfig) (w : ω)
    (hsteady : Steady (run env ops (construct env config w)).trace) :
    Cache (run env ops (construct env config w)).auth (run env ops (construct env config w)).trace
      (run env ops (construct env config w)).transport :=
  run_unreset (I := fun s => Steady s.trace → Cache s.auth s.trace s.transport) (fun _ _ h => h)
    (fun _ _ hs _ h => sysStep_cache id hs h) ops hreset (sound_construct config w)
    (fun _ => cache_construct config w) hsteady

/-! ## Answers before dispatch -/

/-- `r` is the response to `answer`. -/
def Answers (answer : Except (ErrorCode × Bool) Response) (r : Response) : Prop :=
  match answer with
  | .ok response => r = response
  | .error (code, close) => r.ok = false ∧ r.error = code ∧ r.closeConnection = close

/-- The authority is as it was, and at most a clock reading was added to the trace. -/
def Untouched (s s' : Sys ω) : Prop := s'.auth = s.auth ∧ Reads s.trace s'.trace

theorem respond_decided {request : Request} (retainResponse : Bool) {now : ClockSnapshot}
    (hready : a.ready = true) {answer : Except (ErrorCode × Bool) Response} {tr' : Transport}
    (h : decided request (blocked env ⟨⟨a, t⟩, w⟩).1 now.monotonicNowNs tr = some (answer, tr'))
    (hnow : lastExpired t = some now.monotonicNowNs) :
    Moves env p a t w tr (respond env request retainResponse now) fun r a' t' tr'' =>
      a' = a ∧ Reads t t' ∧ tr'' = tr' ∧ Answers answer r := by
  unfold decided at h
  unfold respond
  refine .auth (.ite (fun hnot => by simp [hready] at hnot) fun _ => ?_)
  cases henvelope : envelopeError request with
  | some error =>
    simp only [henvelope, Option.some.injEq, Prod.mk.injEq] at h
    obtain ⟨rfl, rfl⟩ := h
    refine (rejectWith_moves error.1 error.2).weaken ?_
    rintro r a' t' tr' ⟨rfl, rfl, rfl, hr⟩
    exact ⟨rfl, .inl rfl, rfl, hr⟩
  | none =>
    simp only [henvelope] at h ⊢
    refine .authority .none none_caller blocked_goes.result.framed ?_
    rintro held a t₂ w₂ ⟨⟨⟨rfl, hreads, -⟩, rfl⟩, hframe⟩
    refine .ite (fun hgate => ?_) fun hgate => .transport ?_
    · rw [if_pos hgate, Option.some.injEq, Prod.mk.injEq] at h
      obtain ⟨rfl, rfl⟩ := h
      refine (rejectWith_moves .busy false).weaken ?_
      rintro r a' t' tr' ⟨rfl, rfl, rfl, hr⟩
      exact ⟨rfl, hreads, rfl, hr⟩
    rw [if_neg hgate] at h
    cases hadmitted : admitSession request now.monotonicNowNs tr with
    | error error =>
      simp only [hadmitted, Option.some.injEq, Prod.mk.injEq] at h
      obtain ⟨rfl, rfl⟩ := h
      refine (rejectWith_moves error.1 error.2).weaken ?_
      rintro r a' t' tr' ⟨rfl, rfl, rfl, hr⟩
      exact ⟨rfl, hreads, rfl, hr⟩
    | ok tr₁ =>
      simp only [hadmitted] at h ⊢
      refine .modifyTransport (.admission request (hframe.expired.trans hnow) hadmitted) ?_
      have hstep : SysStep env p ⟨⟨⟨a, t₂⟩, w₂⟩, tr₁⟩
        ⟨⟨⟨a, t₂⟩, w₂⟩, (Transport.replay request tr₁).2⟩ := .replayed request
      rcases hreplay : Transport.replay request tr₁ with ⟨found, tr₂⟩
      rw [hreplay] at h hstep
      refine .modifyTransport hstep ?_
      cases found with
      | absent => exact nomatch h
      | cached response =>
        cases h
        exact .pure ⟨rfl, hreads, rfl, rfl⟩
      | conflict =>
        cases h
        refine (rejectWith_moves .requestIdReuse true).weaken ?_
        rintro r a' t' tr' ⟨rfl, rfl, rfl, hr⟩
        exact ⟨rfl, hreads, rfl, hr⟩

/-- The session table with the session of `request` seen now. -/
def Transport.refresh (request : Request) (nowNs : UInt64) (tr : Transport) : Transport :=
  { tr with sessions := seen nowNs request.sessionId tr.sessions }

theorem admitSession_of_known {request : Request} {nowNs : UInt64} {session : Session}
    (hhello : request.operation = .hello → helloError request.body = none)
    (hfind : tr.findSession request.sessionId = some session)
    (hprincipal : session.principal = request.principal) :
    admitSession request nowNs tr = .ok (tr.refresh request nowNs) := by
  have hnone : (if request.operation = .hello then helloError request.body else none) = none := by
    split
    · exact hhello ‹_›
    · rfl
  unfold admitSession
  simp only [hnone, hfind, hprincipal, ne_eq, not_true_eq_false, if_false]
  rfl

/-- The entry under the key of `request` is the one `replay` finds. -/
theorem find_entry {request : Request} {e : ReplayEntry} {cache : List ReplayEntry}
    (hunique : (cache.map entryKey).Nodup) (he : e ∈ cache)
    (hkey : isEntry request e = true) : cache.find? (isEntry request) = some e := by
  cases hfind : cache.find? (isEntry request) with
  | none => exact absurd hkey (List.find?_eq_none.1 hfind e he)
  | some e' =>
    have hinj := List.inj_on_of_nodup_map hunique
    have hkey' : isEntry request e' = true := List.find?_some hfind
    simp only [isEntry, Bool.and_eq_true, beq_iff_eq] at hkey hkey'
    exact congrArg some (hinj (List.mem_of_find?_eq_some hfind) he
      (by simp [entryKey, hkey, hkey']))

/-- The verdict on a request under the key of the cached entry `e`. -/
def verdict (request : Request) (e : ReplayEntry) (held : Bool) (nowNs : UInt64) (tr : Transport) :
    Except (ErrorCode × Bool) Response × Transport :=
  if held && request.operation.gated then (.error (.busy, false), tr)
  else if request.payloadDigest = e.payloadDigest then
    (.ok e.response, (Transport.replay request (tr.refresh request nowNs)).2)
  else (.error (.requestIdReuse, true), tr.refresh request nowNs)

theorem decided_known {request : Request} {session : Session} {e : ReplayEntry} (held : Bool)
    (nowNs : UInt64) (henvelope : envelopeError request = none)
    (hhello : request.operation = .hello → helloError request.body = none)
    (hfind : tr.findSession request.sessionId = some session)
    (hprincipal : session.principal = request.principal)
    (hunique : (tr.replayCache.map entryKey).Nodup) (he : e ∈ tr.replayCache)
    (hkey : isEntry request e = true) :
    decided request held nowNs tr = some (verdict request e held nowNs tr) := by
  have hentry : (tr.refresh request nowNs).replayCache.find? (isEntry request) = some e :=
    find_entry hunique he hkey
  unfold decided verdict
  simp only [henvelope, admitSession_of_known hhello hfind hprincipal]
  split
  · rfl
  · by_cases hdigest : request.payloadDigest = e.payloadDigest
    · simp [Transport.replay, hentry, hdigest]
    · simp [Transport.replay, hentry, hdigest, Ne.symm hdigest]

theorem decided_foreign (request : Request) {session : Session} (held : Bool) (nowNs : UInt64)
    (hfind : tr.findSession request.sessionId = some session)
    (hprincipal : session.principal ≠ request.principal) :
    ∃ error, decided request held nowNs tr = some (.error error, tr) := by
  unfold decided
  cases envelopeError request with
  | some error => exact ⟨error, rfl⟩
  | none =>
    simp only
    split
    · exact ⟨_, rfl⟩
    · unfold admitSession
      cases if request.operation = .hello then helloError request.body else none with
      | some error => exact ⟨error, rfl⟩
      | none =>
        simp only [hfind, ne_eq, hprincipal, not_false_eq_true, if_true]
        exact ⟨_, rfl⟩

/-- `r` passes the checks before the session table, and is sent as `q` was: by the same principal,
in the same session, under the same request id. -/
structure Repeats (r q : Request) : Prop where
  formed : WellFormed r
  session : r.sessionId = q.sessionId
  request : r.requestId = q.requestId
  principal : r.principal = q.principal

variable (env) in
/-- The state the expiries of the next call leave keeps the invariants. -/
theorem enter_keeps {s : Sys ω} (htable : Table s)
    (hcache : Steady s.trace → Cache s.auth s.trace s.transport) :
    Table (enter env s).2 ∧ (Steady (enter env s).2.trace →
      Cache (enter env s).2.auth (enter env s).2.trace (enter env s).2.transport) := by
  obtain ⟨⟨⟨a, t⟩, w⟩, tr⟩ := s
  have hpath := (enter_moves env .running a t w tr).1
  exact ⟨invariant_star (I := Table) (fun _ _ hs h => sysStep_table hs h) hpath htable,
    invariant_star (I := fun s : Sys ω => Steady s.trace → Cache s.auth s.trace s.transport)
      (fun _ _ hs h => sysStep_cache id hs h) hpath hcache⟩

/-- A decided answer is given without `dispatch`. -/
theorem handleOwned_decided {request : Request} (retainResponse : Bool) (s : Sys ω)
    (hready : (enter env s).2.auth.ready = true)
    {answer : Except (ErrorCode × Bool) Response} {tr' : Transport}
    (h : decided request (blocked env (enter env s).2.toAuthSys).1 (enter env s).1.monotonicNowNs
      (enter env s).2.transport = some (answer, tr')) :
    let reply := handleOwned env request retainResponse s
    Untouched (enter env s).2 reply.2 ∧ reply.2.transport = tr' ∧ Answers answer reply.1 := by
  obtain ⟨⟨⟨a, t⟩, w⟩, tr⟩ := s
  have hnow := (enter_moves env .running a t w tr).2
  obtain ⟨ha, ht, htr, hr⟩ :=
    (respond_decided (p := .running) retainResponse hready h hnow.2.2.2).2
  exact ⟨⟨ha, ht⟩, htr, hr⟩

/-! ## Exactly once -/

/-- What the next request under the key of a retained entry gets, `q` being the
request the entry answers. A repetition gets the response again, unless the
operation is held back; another digest is refused; and no other principal is
answered from the session. None of them changes the authority. A request refused for its envelope
or its versions is none of these. -/
def Replays (env : Env ω) (s : Sys ω) : Prop :=
  let entered := (enter env s).2
  let nowNs := (enter env s).1.monotonicNowNs
  let held := (blocked env entered.toAuthSys).1
  ∀ e ∈ entered.transport.replayCache, ∃ q, Backs entered.trace q e ∧ WellFormed q ∧
    (∃ session, entered.transport.findSession e.sessionId = some session ∧
      session.principal = q.principal) ∧
    ∀ r retainResponse,
      let reply := handleOwned env r retainResponse s
      (Repeats r q →
        Untouched entered reply.2 ∧
        if held && r.operation.gated then
          reply.1.ok = false ∧ reply.1.error = .busy ∧ reply.2.transport = entered.transport
        else if r.payloadDigest = e.payloadDigest then
          reply.1 = e.response ∧
            reply.2.transport = (Transport.replay r (entered.transport.refresh r nowNs)).2
        else
          reply.1.ok = false ∧ reply.1.error = .requestIdReuse ∧ reply.1.closeConnection = true ∧
            reply.2.transport = entered.transport.refresh r nowNs) ∧
      (r.sessionId = e.sessionId → r.principal ≠ q.principal →
        Untouched entered reply.2 ∧ reply.1.ok = false ∧ reply.2.transport = entered.transport)

theorem Cache.findSession {s : Sys ω} (hcache : Cache s.auth s.trace s.transport)
    (htable : Table s) {e : ReplayEntry} (he : e ∈ s.transport.replayCache) :
    ∃ q, Backs s.trace q e ∧ ∃ session, s.transport.findSession e.sessionId = some session ∧
      session.principal = q.principal := by
  obtain ⟨q, hq, session, hmem, hid, hprincipal, -⟩ := hcache.known e he
  obtain ⟨found, hfind, hfound⟩ := htable.findKnown ⟨session, hmem, hid, rfl⟩
  exact ⟨q, hq, found, hfind, hfound.trans hprincipal⟩

theorem replays_of_cache {s : Sys ω} (htable : Table (enter env s).2)
    (hcache : Cache (enter env s).2.auth (enter env s).2.trace (enter env s).2.transport) :
    Replays env s := by
  intro e he
  have hready : (enter env s).2.auth.ready = true := hcache.ready (List.ne_nil_of_mem he)
  obtain ⟨q, hq, session, hfind, hprincipal⟩ := hcache.findSession htable he
  refine ⟨q, hq, hcache.formed q e.response hq.retained, ⟨session, hfind, hprincipal⟩,
    fun r retainResponse => ⟨fun hr => ?_, fun hsession hother => ?_⟩⟩
  · obtain ⟨henvelope, hhello⟩ := hr.formed
    have hid : r.sessionId = e.sessionId := hr.session.trans hq.session
    have hkey : isEntry r e = true := by
      simp [isEntry, hid, hr.request, hq.request]
    have hdecided := decided_known (blocked env (enter env s).2.toAuthSys).1
      (enter env s).1.monotonicNowNs henvelope hhello (hid ▸ hfind)
      (hprincipal.trans hr.principal.symm) hcache.unique he hkey
    rcases hverdict : verdict r e (blocked env (enter env s).2.toAuthSys).1
      (enter env s).1.monotonicNowNs (enter env s).2.transport with ⟨answer, tr'⟩
    rw [hverdict] at hdecided
    obtain ⟨huntouched, htransport, hanswers⟩ :=
      handleOwned_decided retainResponse s hready hdecided
    refine ⟨huntouched, ?_⟩
    unfold verdict at hverdict
    split
    · rename_i hgate
      rw [if_pos hgate] at hverdict
      cases hverdict
      exact ⟨hanswers.1, hanswers.2.1, htransport⟩
    · rename_i hgate
      rw [if_neg hgate] at hverdict
      split
      · rename_i hsame
        rw [if_pos hsame] at hverdict
        cases hverdict
        exact ⟨hanswers, htransport⟩
      · rename_i hsame
        rw [if_neg hsame] at hverdict
        cases hverdict
        exact ⟨hanswers.1, hanswers.2.1, hanswers.2.2, htransport⟩
  · obtain ⟨error, hdecided⟩ := decided_foreign r (blocked env (enter env s).2.toAuthSys).1
      (enter env s).1.monotonicNowNs (hsession ▸ hfind)
      fun h => hother (h.symm.trans hprincipal)
    obtain ⟨huntouched, htransport, hanswers⟩ :=
      handleOwned_decided retainResponse s hready hdecided
    exact ⟨huntouched, hanswers.1, htransport⟩

/-- The bench after an ARM, with four retained answers. -/
def benchArmed : Sys ClockSnapshot := run bench benchArm (construct bench {} (benchClock 1000000000))

theorem benchArmed_steady : Steady benchArmed.trace ∧ Steady (enter bench benchArmed).2.trace := by
  unfold Steady
  decide +kernel

/-- A HELLO without versions, under the request id of the first answer and with another digest. -/
def unversionedHello : Request :=
  { benchRequest .hello "30000000000000000000000000000000" (.hello []) with
    payloadDigest := ⟨List.replicate 32 2, by decide⟩ }

end WsprryPico.Wtp
