import WsprryPico.Time.ControllerTime
import Mathlib.Data.List.Induction

/-!
# Challenges of controller time

A submitted time reaches the clock only under the one pending challenge. The
invariant of a run says where the pending challenge was issued and that nothing
was applied since; a submission that is looked at consumes it.
-/

namespace WsprryPico.Time

namespace ControllerTimeArbiter

/-- The table of challenges is as it was. -/
structure SameTable (a a' : ControllerTimeArbiter) : Prop where
  pending : a'.pending = a.pending
  deviceId : a'.deviceId = a.deviceId

variable {a b c : ControllerTimeArbiter} {r : Readings} {o : Observation}

theorem SameTable.refl (a : ControllerTimeArbiter) : SameTable a a := ⟨rfl, rfl⟩

theorem SameTable.of_eq (h : b = a) : SameTable a b := ⟨h ▸ rfl, h ▸ rfl⟩

/-! ## Turns -/

/-- Network and receiver observations come without a principal. -/
def Observation.Anonymous (o : Observation) : Prop :=
  o.source = .sntp ∨ o.source = .gps → o.principal = []

/-- A disagreement: there is no epoch, and no current observation. -/
structure Disputed (a : ControllerTimeArbiter) : Prop where
  source : a.source = .disagreement
  clock : a.clock.valid = false
  current : a.current.valid = false
  imported : a.importedNtp = false
  anonymous : Observation.Anonymous a.recovery

/-- What a call does to the source: nothing, none, one that the current observation names,
or a disagreement, which starts without a recovery. -/
def Turns (a a' : ControllerTimeArbiter) : Prop :=
  (a'.source = a.source ∧ a'.current = a.current) ∨ a'.source = .none ∨
    a'.source = label a'.current.source ∨
    (a'.source = .disagreement ∧
      (a.source ≠ .disagreement → Disputed a' ∧ a'.recovery.valid = false))

/-- An arbitration leaves the table of challenges as it is. -/
structure Turned (a a' : ControllerTimeArbiter) : Prop where
  table : SameTable a a'
  turns : Turns a a'

theorem Turned.refl (a : ControllerTimeArbiter) : Turned a a := ⟨.refl a, .inl ⟨rfl, rfl⟩⟩

theorem Turned.disagree (a : ControllerTimeArbiter) : Turned a a.disagree :=
  ⟨⟨rfl, rfl⟩, .inr (.inr (.inr ⟨rfl, fun _ => ⟨⟨rfl, rfl, rfl, rfl, fun _ => rfl⟩, rfl⟩⟩))⟩

theorem turned_accept (r : Readings) (o : Observation) (a : ControllerTimeArbiter) :
    Turned a (a.accept r o).2 := by
  unfold accept
  split
  · exact ⟨⟨rfl, rfl⟩, .inl ⟨rfl, rfl⟩⟩
  · exact ⟨⟨rfl, rfl⟩, .inr (.inr (.inl rfl))⟩

theorem turned_adopt (r : Readings) (kind : ObservationSource) (source : RateObservation)
    (model : Wtp.ClockSnapshot) (error : UInt32) (a : ControllerTimeArbiter) :
    Turned a (a.adopt r kind source model error).2 := by
  unfold adopt
  split
  · exact ⟨⟨rfl, rfl⟩, .inl ⟨rfl, rfl⟩⟩
  · exact ⟨⟨rfl, rfl⟩, .inr (.inr (.inl rfl))⟩

theorem Turned.cleared {a' : ControllerTimeArbiter} (h : Turned a.cleared a') : Turned a a' := by
  refine ⟨⟨h.table.pending, h.table.deviceId⟩, ?_⟩
  rcases h.turns with ⟨hsource, -⟩ | hnone | hnamed | ⟨hdisagree, hstarts⟩
  · exact .inr (.inl hsource)
  · exact .inr (.inl hnone)
  · exact .inr (.inr (.inl hnamed))
  · exact .inr (.inr (.inr ⟨hdisagree, fun _ => hstarts nofun⟩))

theorem turned_arbitrate (r : Readings) (now : UInt64) (o : Observation)
    (a : ControllerTimeArbiter) : Turned a (a.arbitrate r now o).2 := by
  have haccept := turned_accept r o a
  have hcleared := (turned_accept r o a.cleared).cleared
  unfold arbitrate
  repeat' split
  all_goals first
    | exact haccept
    | exact hcleared
    | exact ⟨⟨rfl, rfl⟩, .inl ⟨rfl, rfl⟩⟩
    | exact .disagree a

theorem browserTurn_eq (r : Readings) (now : UInt64) (o : Observation)
    (a : ControllerTimeArbiter) :
    (a.browserTurn r now o).2 = a ∨ (a.browserTurn r now o).2 = a.cleared := by
  unfold browserTurn
  dsimp only
  repeat' split
  all_goals first
    | exact .inl rfl
    | exact .inr rfl

theorem turned_observeModel (r : Readings) (o : Observation) (leap : Wtp.LeapState)
    (transition : Option UInt64) (a : ControllerTimeArbiter) :
    Turned a (a.observeModel r o leap transition).2 := by
  unfold observeModel
  split
  · exact .refl a
  · dsimp only
    split
    · exact .refl a
    · split
      · have hturn := browserTurn_eq r (r .observed) o a
        split
        · rename_i hrun
          rw [hrun] at hturn
          rcases hturn with rfl | rfl
          · exact .refl _
          · exact ⟨⟨rfl, rfl⟩, .inr (.inl rfl)⟩
        · rename_i hrun
          rw [hrun] at hturn
          rcases hturn with rfl | rfl
          · exact turned_arbitrate r _ o _
          · exact (turned_arbitrate r _ o _).cleared
      · exact turned_arbitrate r _ o a

theorem turned_importModel (r : Readings) (kind : ObservationSource) (source : RateObservation)
    (model : Wtp.ClockSnapshot) (error : UInt32) (a : ControllerTimeArbiter) :
    Turned a (a.importModel r kind source model error).2 := by
  have hadopt := turned_adopt r kind source model error a
  unfold importModel
  dsimp only
  repeat' split
  all_goals first
    | exact ⟨⟨rfl, rfl⟩, .inl ⟨rfl, rfl⟩⟩
    | exact hadopt
    | exact .disagree a

/-! ## Challenges -/

theorem sameTable_observeFrequencyReference (r : Readings) (reference : LocalFrequencyReference)
    (now : UInt64) (a : ControllerTimeArbiter) :
    SameTable a (a.observeFrequencyReference r reference now).2 := by
  unfold observeFrequencyReference
  dsimp only
  repeat' split
  all_goals exact ⟨rfl, rfl⟩

/-- A challenge is refused, or issued over the table. -/
theorem challenge_cases (r : Readings) (principal session device nonce : List UInt8)
    (a : ControllerTimeArbiter) :
    (a.challenge r principal session device nonce).2 = a ∨
    ((a.challenge r principal session device nonce).1 = ⟨.ok, nonce, r .issued⟩ ∧
      device = a.deviceId ∧
      (a.challenge r principal session device nonce).2.deviceId = a.deviceId ∧
      (a.challenge r principal session device nonce).2.pending.principal = principal ∧
      (a.challenge r principal session device nonce).2.pending.session = session ∧
      (a.challenge r principal session device nonce).2.pending.nonce = nonce ∧
      (a.challenge r principal session device nonce).2.pending.startedNs = r .issued) := by
  unfold challenge
  split
  · exact .inl rfl
  split
  · exact .inl rfl
  rename_i hdevice
  split
  · exact .inl rfl
  dsimp only
  split
  · exact .inl rfl
  · exact .inr ⟨rfl, not_not.mp hdevice, rfl, rfl, rfl, rfl, rfl⟩

/-- The pending challenge is measured from a new boundary. -/
structure MovedTo (boundary : UInt64) (a a' : ControllerTimeArbiter) : Prop where
  deviceId : a'.deviceId = a.deviceId
  principal : a'.pending.principal = a.pending.principal
  session : a'.pending.session = a.pending.session
  nonce : a'.pending.nonce = a.pending.nonce
  started : a'.pending.startedNs = boundary

theorem responseStarted_cases (r : Readings) (principal session device nonce : List UInt8)
    (a : ControllerTimeArbiter) :
    (a.challengeResponseStarted r principal session device nonce).2 = a ∨
    (a.pending.live = true ∧ a.bound principal session device nonce = true ∧
      MovedTo (r .started) a (a.challengeResponseStarted r principal session device nonce).2) := by
  unfold challengeResponseStarted
  split
  · exact .inl rfl
  · rename_i hguard
    obtain ⟨hlive, -, hbound, -⟩ := by simpa only [not_or, not_not] using hguard
    exact .inr ⟨hlive, hbound, rfl, rfl, rfl, rfl, rfl⟩

theorem responseDelivered_cases (r : Readings) (principal session device nonce : List UInt8)
    (a : ControllerTimeArbiter) :
    (a.challengeResponseDelivered r principal session device nonce).2 = a ∨
    (a.pending.live = true ∧ a.bound principal session device nonce = true ∧
      MovedTo (r .delivered) a
        (a.challengeResponseDelivered r principal session device nonce).2) := by
  unfold challengeResponseDelivered
  split
  · exact .inl rfl
  · rename_i hguard
    obtain ⟨hlive, -, hbound, -⟩ := by simpa only [not_or, not_not] using hguard
    dsimp only
    split
    · exact .inl rfl
    · exact .inr ⟨hlive, hbound, rfl, rfl, rfl, rfl, rfl⟩

/-- How long a challenge may be answered. -/
def answerNs (browser : Bool) : UInt64 :=
  if browser then browserChallengeMaxAgeNs else controllerChallengeLifetimeNs

/-- A submission applies an observation, or moves the clock in any other way. -/
def Applies (r : Readings) (call : ArbiterCall) (a : ControllerTimeArbiter) : Prop :=
  match call with
  | .submit principal session device nonce utc browser =>
    (a.submit r principal session device nonce utc browser).1 = .ok ∨
      (a.submit r principal session device nonce utc browser).2.clock ≠ a.clock
  | _ => False

theorem submit_conflict (h : a.frequencyConflict = true) (r : Readings)
    (principal session device nonce : List UInt8) (utc : UInt64) (browser : Bool) :
    a.submit r principal session device nonce utc browser = (.disagreement, a) := if_pos h

theorem submit_idle (h : a.frequencyConflict = true ∨ a.pending.live = false) (r : Readings)
    (principal session device nonce : List UInt8) (utc : UInt64) (browser : Bool) :
    (a.submit r principal session device nonce utc browser).2 = a ∧
      (a.submit r principal session device nonce utc browser).1 ≠ .ok := by
  by_cases hconflict : a.frequencyConflict = true
  · rw [submit_conflict hconflict]
    exact ⟨rfl, nofun⟩
  · have hidle : ¬ a.pending.live = true := by
      rcases h with h | h
      · exact absurd h hconflict
      · rw [h]
        exact Bool.false_ne_true
    unfold submit
    rw [if_neg hconflict, if_pos hidle]
    exact ⟨rfl, nofun⟩

/-- A submission that is looked at consumes the challenge, and applies its
observation only under the binding and within the time to answer. -/
theorem submit_consumes (r : Readings) (principal session device nonce : List UInt8)
    (utc : UInt64) (browser : Bool) (hconflict : ¬ a.frequencyConflict = true)
    (hlive : a.pending.live = true) :
    (a.submit r principal session device nonce utc browser).2.pending = {} ∧
    (a.submit r principal session device nonce utc browser).2.deviceId = a.deviceId ∧
    (Applies r (.submit principal session device nonce utc browser) a →
      a.bound principal session device nonce = true ∧ a.pending.startedNs ≤ r .submitted ∧
      r .submitted - a.pending.startedNs ≤ answerNs browser) := by
  unfold Applies
  dsimp only
  unfold submit
  rw [if_neg hconflict, if_neg (not_not.mpr hlive)]
  dsimp only
  by_cases hbound : a.bound principal session device nonce = true
  · rw [if_neg (not_not.mpr hbound)]
    by_cases hlate : r .submitted < a.pending.startedNs ∨
        r .submitted - a.pending.startedNs >
          (if browser then browserChallengeMaxAgeNs else controllerChallengeLifetimeNs)
    · rw [if_pos hlate]
      exact ⟨rfl, rfl, fun h => h.elim nofun fun h => absurd rfl h⟩
    · rw [if_neg hlate]
      have htime : a.pending.startedNs ≤ r .submitted ∧
          r .submitted - a.pending.startedNs ≤ answerNs browser :=
        ⟨UInt64.not_lt.mp (not_or.mp hlate).1, UInt64.not_lt.mp (not_or.mp hlate).2⟩
      refine ⟨?_, ?_, fun _ => ⟨hbound, htime⟩⟩
      all_goals
        split
        · rfl
        · rename_i uncertainty _
          split
          · rfl
          · have hsame := (turned_observeModel r
              { source := if browser then .browser else .controller, utcNs := utc,
                monotonicNs := r .submitted, uncertaintyNs := uncertainty, principal,
                valid := true } .normal none { a with pending := {} }).table
            split
            all_goals
              rename_i hrun
              unfold observe at hrun
              rw [hrun] at hsame
              first
                | exact hsame.pending
                | exact hsame.deviceId
  · rw [if_pos hbound]
    exact ⟨rfl, rfl, fun h => h.elim (fun h => by split at h <;> exact nomatch h)
      fun h => absurd rfl h⟩

/-- A call moved the boundary a challenge is measured from: its response was on
the way, or had arrived, at that reading. -/
def Moves (principal session device nonce : List UInt8) (boundary : UInt64)
    (step : Readings × ArbiterCall) : Prop :=
  (step.2 = .challengeResponseStarted principal session device nonce ∧
    boundary = step.1 .started) ∨
  (step.2 = .challengeResponseDelivered principal session device nonce ∧
    boundary = step.1 .delivered)

/-- A call ends the pending challenge: it consumes it, or cancels it. -/
def Ends (r : Readings) (call : ArbiterCall) (a : ControllerTimeArbiter) : Prop :=
  a.pending.live = true ∧ (a.after r call).pending.live = false

/-- In the run `calls` the challenge was issued, has not ended and led to nothing
since, and is measured from `boundary`. -/
def Issued (start : ControllerTimeArbiter) (calls : List (Readings × ArbiterCall))
    (principal session device nonce : List UInt8) (boundary : UInt64) : Prop :=
  ∃ before r rest, calls = before ++ (r, .challenge principal session device nonce) :: rest ∧
    ((start.run before).challenge r principal session device nonce).1 = ⟨.ok, nonce, r .issued⟩ ∧
    (∀ x step y, rest = x ++ step :: y →
      let a := start.run (before ++ (r, .challenge principal session device nonce) :: x)
      ¬ Applies step.1 step.2 a ∧ ¬ Ends step.1 step.2 a) ∧
    (boundary = r .issued ∨ ∃ step ∈ rest, Moves principal session device nonce boundary step)

variable {start : ControllerTimeArbiter} {calls : List (Readings × ArbiterCall)}

theorem run_append (start : ControllerTimeArbiter) (calls rest : List (Readings × ArbiterCall)) :
    start.run (calls ++ rest) = (start.run calls).run rest := List.foldl_append

theorem run_snoc (start : ControllerTimeArbiter) (calls : List (Readings × ArbiterCall))
    (r : Readings) (call : ArbiterCall) :
    start.run (calls ++ [(r, call)]) = (start.run calls).after r call := by
  rw [run_append]
  rfl

theorem snoc_split {α : Type} {l x y : List α} {e m : α} (h : l ++ [e] = x ++ m :: y) :
    (∃ z, l = x ++ m :: z) ∨ (x = l ∧ m = e) := by
  rcases List.eq_nil_or_concat y with rfl | ⟨z, last, rfl⟩
  · obtain ⟨rfl, hm⟩ := List.append_inj' h rfl
    exact .inr ⟨rfl, (List.cons.inj hm).1.symm⟩
  · rw [List.concat_eq_append, ← List.cons_append, ← List.append_assoc] at h
    exact .inl ⟨z, (List.append_inj' h rfl).1⟩

/-- A challenge stays issued under a call that applies nothing. -/
theorem Issued.snoc {principal session device nonce : List UInt8} {boundary : UInt64}
    (h : Issued start calls principal session device nonce boundary) {r : Readings}
    {call : ArbiterCall} (happlies : ¬ Applies r call (start.run calls))
    (hlive : ((start.run calls).after r call).pending.live = true) {boundary' : UInt64}
    (hboundary : boundary' = boundary ∨
      Moves principal session device nonce boundary' (r, call)) :
    Issued start (calls ++ [(r, call)]) principal session device nonce boundary' := by
  obtain ⟨before, r₀, rest, rfl, hissued, hquiet, hmoved⟩ := h
  refine ⟨before, r₀, rest ++ [(r, call)], by simp, hissued, ?_, ?_⟩
  · intro x step y hsplit
    rcases snoc_split hsplit with ⟨z, hz⟩ | ⟨rfl, rfl⟩
    · exact hquiet x step z hz
    · exact ⟨happlies, fun hends => nomatch hends.2.symm.trans hlive⟩
  · rcases hboundary with rfl | hmoves
    · exact hmoved.imp_right fun ⟨step, hmem, hstep⟩ => ⟨step, List.mem_append_left _ hmem, hstep⟩
    · exact .inr ⟨_, List.mem_append_right _ (List.mem_singleton_self _), hmoves⟩

/-- The pending challenge was issued in the run. -/
def Tabled (start : ControllerTimeArbiter) (calls : List (Readings × ArbiterCall)) : Prop :=
  (start.run calls).deviceId = start.deviceId ∧
  ((start.run calls).pending.live = true →
    Issued start calls (start.run calls).pending.principal (start.run calls).pending.session
      start.deviceId (start.run calls).pending.nonce (start.run calls).pending.startedNs)

/-- A call that leaves the table keeps what was issued. -/
theorem Tabled.same (h : Tabled start calls) {r : Readings} {call : ArbiterCall}
    (hsame : SameTable (start.run calls) ((start.run calls).after r call))
    (happlies : (start.run calls).pending.live = true → ¬ Applies r call (start.run calls)) :
    Tabled start (calls ++ [(r, call)]) := by
  unfold Tabled
  rw [run_snoc, hsame.pending, hsame.deviceId]
  refine ⟨h.1, fun hlive => (h.2 hlive).snoc (happlies hlive) ?_ (.inl rfl)⟩
  rw [hsame.pending]
  exact hlive

/-- A call that moves the boundary of the challenge of its binding. -/
theorem Tabled.moved (h : Tabled start calls) {r : Readings} {call : ArbiterCall}
    {principal session device nonce : List UInt8} {boundary : UInt64}
    (hlive : (start.run calls).pending.live = true)
    (hbound : (start.run calls).bound principal session device nonce = true)
    (hmoved : MovedTo boundary (start.run calls) ((start.run calls).after r call))
    (hmoves : Moves principal session device nonce boundary (r, call))
    (happlies : ¬ Applies r call (start.run calls)) : Tabled start (calls ++ [(r, call)]) := by
  obtain ⟨rfl, rfl, hdevice, rfl⟩ := of_decide_eq_true hbound
  unfold Tabled
  rw [run_snoc]
  refine ⟨hmoved.deviceId.trans h.1, fun hlive' => ?_⟩
  rw [hmoved.principal, hmoved.session, hmoved.nonce, hmoved.started]
  refine (h.2 hlive).snoc happlies hlive' (.inr ?_)
  rwa [← h.1, ← hdevice]

theorem tabled_snoc (h : Tabled start calls) (r : Readings) (call : ArbiterCall) :
    Tabled start (calls ++ [(r, call)]) := by
  cases call with
  | challenge principal session device nonce =>
    rcases challenge_cases r principal session device nonce (start.run calls) with hno |
        ⟨hissued, hdevice, hid, hprincipal, hsession, hnonce, hstarted⟩
    · exact h.same (.of_eq hno) fun _ => id
    · unfold Tabled
      rw [run_snoc]
      refine ⟨hid.trans h.1, fun _ => ?_⟩
      show Issued _ _ ((start.run calls).challenge r principal session device nonce).2.pending.1
        ((start.run calls).challenge r principal session device nonce).2.pending.2 _
        ((start.run calls).challenge r principal session device nonce).2.pending.3
        ((start.run calls).challenge r principal session device nonce).2.pending.4
      rw [hprincipal, hsession, hnonce, hstarted, ← h.1, ← hdevice]
      exact ⟨calls, r, [], rfl, hissued, fun x step y hx => (by simp at hx), .inl rfl⟩
  | challengeResponseStarted principal session device nonce =>
    rcases responseStarted_cases r principal session device nonce (start.run calls) with hno |
        ⟨hlive, hbound, hmoved⟩
    · exact h.same (.of_eq hno) fun _ => id
    · exact h.moved hlive hbound hmoved (.inl ⟨rfl, rfl⟩) id
  | challengeResponseDelivered principal session device nonce =>
    rcases responseDelivered_cases r principal session device nonce (start.run calls) with hno |
        ⟨hlive, hbound, hmoved⟩
    · exact h.same (.of_eq hno) fun _ => id
    · exact h.moved hlive hbound hmoved (.inr ⟨rfl, rfl⟩) id
  | cancelChallenge principal session =>
    by_cases hforeign : ¬ (start.run calls).pending.live ∨
        principal ≠ (start.run calls).pending.principal ∨
        session ≠ (start.run calls).pending.session
    · exact h.same (.of_eq (if_pos hforeign)) fun _ => id
    · unfold Tabled
      rw [run_snoc, after, cancelChallenge, if_neg hforeign]
      exact ⟨h.1, nofun⟩
  | submit principal session device nonce utc browser =>
    by_cases hidle : (start.run calls).frequencyConflict = true ∨
        (start.run calls).pending.live = false
    · obtain ⟨hsame, hcode⟩ := submit_idle hidle r principal session device nonce utc browser
      exact h.same (.of_eq hsame) fun _ happlies =>
        happlies.elim hcode fun hclock => hclock (congrArg _ hsame)
    · obtain ⟨hconflict, hlive⟩ := not_or.mp hidle
      obtain ⟨hpending, hdevice, -⟩ := submit_consumes r principal session device nonce utc browser
        hconflict (by simpa using hlive)
      unfold Tabled
      rw [run_snoc]
      unfold after
      dsimp only
      rw [hpending, hdevice]
      exact ⟨h.1, nofun⟩
  | observe source utc sampled uncertainty leap transition principal =>
    exact h.same (turned_observeModel _ _ _ _ _).table fun _ => id
  | observeRate utc raw uncertainty rate rateUncertainty generation =>
    exact h.same (turned_observeModel _ _ _ _ _).table fun _ => id
  | observeNtpModel source model error =>
    exact h.same (turned_importModel _ _ _ _ _ _).table fun _ => id
  | observeReferenceModel source model error =>
    exact h.same (turned_importModel _ _ _ _ _ _).table fun _ => id
  | observeFrequencyReference reference now =>
    exact h.same (sameTable_observeFrequencyReference _ _ _ _) fun _ => id
  | retireFrequencyReference now removed =>
    refine h.same ?_ fun _ => id
    unfold after retireFrequencyReference
    dsimp only
    split <;> exact ⟨rfl, rfl⟩
  | invalidate source =>
    refine h.same ?_ fun _ => id
    unfold after invalidate
    dsimp only
    split <;> exact ⟨rfl, rfl⟩
  | frequencyReferenceConflict conflict => exact h.same ⟨rfl, rfl⟩ fun _ => id

theorem tabled_run (hidle : start.pending.live = false) (calls : List (Readings × ArbiterCall)) :
    Tabled start calls := by
  induction calls using List.reverseRec with
  | nil => exact ⟨rfl, fun hlive => nomatch hidle.symm.trans hlive⟩
  | append_singleton calls step ih => exact tabled_snoc ih step.1 step.2

end ControllerTimeArbiter

open ControllerTimeArbiter

/-- In every run, a submission that applies an observation answers a challenge of
its own binding, in time, that was issued before and has led to nothing since;
under a frequency conflict a submission does nothing. -/
theorem challenge_single_use (timer : Bool) (deviceId : List UInt8) (clock : UtcDiscipline)
    (calls : List (Readings × ArbiterCall)) (r : Readings)
    (principal session device nonce : List UInt8) (utc : UInt64) (browser : Bool) :
    let start : ControllerTimeArbiter := { timer, deviceId, clock }
    ((start.run calls).frequencyConflict = true →
      (start.run calls).submit r principal session device nonce utc browser =
        (.disagreement, start.run calls)) ∧
    (Applies r (.submit principal session device nonce utc browser) (start.run calls) →
      ∃ boundary, Issued start calls principal session device nonce boundary ∧
        boundary ≤ r .submitted ∧ r .submitted - boundary ≤ answerNs browser) := by
  intro start
  refine ⟨fun hconflict => submit_conflict hconflict r _ _ _ _ utc browser, fun happlies => ?_⟩
  have htabled : Tabled start calls := tabled_run rfl calls
  by_cases hidle : (start.run calls).frequencyConflict = true ∨
      (start.run calls).pending.live = false
  · obtain ⟨hsame, hcode⟩ := submit_idle hidle r principal session device nonce utc browser
    exact happlies.elim (fun hok => absurd hok hcode) fun hclock =>
      absurd (congrArg _ hsame) hclock
  · obtain ⟨hconflict, hlive⟩ := not_or.mp hidle
    have hlive : (start.run calls).pending.live = true := by simpa using hlive
    obtain ⟨-, -, hguard⟩ := submit_consumes r principal session device nonce utc browser
      hconflict hlive
    obtain ⟨hbound, hle, htime⟩ := hguard happlies
    obtain ⟨rfl, rfl, hdevice, rfl⟩ := of_decide_eq_true hbound
    have hissued := htabled.2 hlive
    rw [hdevice, htabled.1]
    exact ⟨_, hissued, hle, htime⟩

def answeringRun : List (Readings × ArbiterCall) :=
  [(fun _ => 1000000000, .challenge [112] [115] [100] [110]),
   (fun _ => 2000000000, .challengeResponseStarted [112] [115] [100] [110])]

theorem challenge_single_use_answered :
    ∃ boundary, Issued { deviceId := [100], clock := {} } answeringRun [112] [115] [100] [110]
        boundary ∧
      boundary ≤ 2100000000 ∧ 2100000000 - boundary ≤ answerNs false :=
  (challenge_single_use true [100] {} answeringRun (fun _ => 2100000000) [112] [115] [100] [110]
    1735689600000000000 false).2 (.inl (by decide))

end WsprryPico.Time
