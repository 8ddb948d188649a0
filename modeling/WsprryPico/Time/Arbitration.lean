import WsprryPico.Time.Challenge

/-!
# Arbitration between the sources of UTC

A disagreement takes the clock's epoch away, and only a second observation that
confirms the one received before, or an invalidation, ends it. Between the
sources that agree, a controller yields to a network or a receiver, and a
browser yields to every clock that has time.
-/

namespace WsprryPico.Time

open Wtp

namespace ControllerTimeArbiter

variable {a : ControllerTimeArbiter} {r : Readings} {o : Observation} {now : UInt64}

/-- The observation a call presents for arbitration. -/
def presents (r : Readings) (call : ArbiterCall) (a : ControllerTimeArbiter) :
    Option Observation :=
  match call with
  | .observe source utcNs sampled uncertaintyNs _ _ principal =>
    some { source, utcNs, monotonicNs := sampled, uncertaintyNs, principal, valid := true }
  | .observeRate utcNs raw uncertaintyNs ratePpb rateUncertaintyPpb generation =>
    some { source := .sntp, utcNs, monotonicNs := raw, uncertaintyNs, valid := true, ratePpb,
           rateUncertaintyPpb, generation }
  | .observeNtpModel source _ _ => some (importedObservation .sntp source)
  | .observeReferenceModel source _ _ => some (importedObservation .gps source)
  | .submit principal _ _ _ utcNs browser =>
    (submittedUncertainty (r .submitted - a.pending.startedNs)).map fun uncertaintyNs =>
      { source := if browser then .browser else .controller, utcNs,
        monotonicNs := r .submitted, uncertaintyNs, principal, valid := true }
  | _ => none

/-- The observation confirms the one received before, of the same source and
principal, with a later sample and an interval that meets its own. -/
structure Confirmed (now : UInt64) (earlier o : Observation) : Prop where
  valid : earlier.valid = true
  source : earlier.source = o.source
  principal : earlier.principal = o.principal
  later : earlier.monotonicNs < o.monotonicNs
  meets : intervalsMeet (earlier.interval now) (o.interval now) = true


/-- A submission is without effect on the arbitration, or presents its observation. -/
theorem submit_cases (r : Readings) (principal session device nonce : List UInt8) (utc : UInt64)
    (browser : Bool) (a : ControllerTimeArbiter) :
    (∃ pending, (a.submit r principal session device nonce utc browser).2 = { a with pending }) ∨
    ∃ o, presents r (.submit principal session device nonce utc browser) a = some o ∧
      (a.submit r principal session device nonce utc browser).2 =
        ({ a with pending := {} }.observeModel r o .normal none).2 := by
  unfold submit
  split
  · exact .inl ⟨a.pending, rfl⟩
  split
  · exact .inl ⟨a.pending, rfl⟩
  dsimp only
  split
  · exact .inl ⟨{}, rfl⟩
  by_cases hlate : r .submitted < a.pending.startedNs ∨
      r .submitted - a.pending.startedNs >
        (if browser then browserChallengeMaxAgeNs else controllerChallengeLifetimeNs)
  · rw [if_pos hlate]
    exact .inl ⟨{}, rfl⟩
  rw [if_neg hlate]
  cases hsum : submittedUncertainty (r .submitted - a.pending.startedNs) with
  | none => exact .inl ⟨{}, rfl⟩
  | some uncertainty =>
    dsimp only
    by_cases hrange : uncertainty > standaloneMaxUncertaintyNs ∨ utc < sntpMinUtcNs ∨
        utc ≥ sntpMaxUtcNs
    · rw [if_pos hrange]
      exact .inl ⟨{}, rfl⟩
    rw [if_neg hrange]
    refine .inr ⟨{
      source := if browser then .browser else .controller, utcNs := utc,
      monotonicNs := r .submitted, uncertaintyNs := uncertainty, principal := principal,
      valid := true }, congrArg (Option.map _) hsum, ?_⟩
    unfold observe
    split
    all_goals
      rename_i hrun
      rw [hrun]

/-- The arbitration is as it was, and the clock did not gain an epoch. -/
structure Kept (a a' : ControllerTimeArbiter) : Prop where
  source : a'.source = a.source
  current : a'.current = a.current
  recovery : a'.recovery = a.recovery
  imported : a'.importedNtp = a.importedNtp
  clock : a.clock.valid = false → a'.clock.valid = false

/-- The calls that present or invalidate an observation. -/
def arbitrates : ArbiterCall → Bool
  | .submit .. | .observe .. | .observeRate .. | .observeNtpModel .. | .observeReferenceModel ..
  | .invalidate .. => true
  | _ => false

theorem adjustBrowserRate_valid (reading : UInt64) (rate : Int) (uncertainty : UInt32)
    (d : UtcDiscipline) : (d.adjustBrowserRate reading rate uncertainty).2.valid = d.valid := by
  unfold UtcDiscipline.adjustBrowserRate
  dsimp only
  repeat' split
  all_goals rfl

theorem kept_after {call : ArbiterCall} (h : arbitrates call = false) (r : Readings)
    (a : ControllerTimeArbiter) : Kept a (a.after r call) := by
  cases call with
  | challenge =>
    unfold after challenge
    dsimp only
    repeat' split
    all_goals exact ⟨rfl, rfl, rfl, rfl, id⟩
  | challengeResponseStarted =>
    unfold after challengeResponseStarted
    dsimp only
    repeat' split
    all_goals exact ⟨rfl, rfl, rfl, rfl, id⟩
  | challengeResponseDelivered =>
    unfold after challengeResponseDelivered
    dsimp only
    repeat' split
    all_goals exact ⟨rfl, rfl, rfl, rfl, id⟩
  | cancelChallenge =>
    unfold after cancelChallenge
    dsimp only
    split
    all_goals exact ⟨rfl, rfl, rfl, rfl, id⟩
  | observeFrequencyReference =>
    unfold after observeFrequencyReference
    dsimp only
    repeat' split
    all_goals exact ⟨rfl, rfl, rfl, rfl, fun h => by
      first
        | exact h
        | exact (adjustBrowserRate_valid _ _ _ _).trans h⟩
  | retireFrequencyReference =>
    unfold after retireFrequencyReference
    dsimp only
    split
    · exact ⟨rfl, rfl, rfl, rfl, id⟩
    · exact ⟨rfl, rfl, rfl, rfl, fun h => (adjustBrowserRate_valid _ _ _ _).trans h⟩
  | frequencyReferenceConflict =>
    unfold after frequencyReferenceConflict
    refine ⟨rfl, rfl, rfl, rfl, fun h => ?_⟩
    dsimp only
    split
    · rfl
    · exact h
  | _ =>
    cases h

theorem Kept.turns {a a' : ControllerTimeArbiter} (h : Kept a a') : Turns a a' :=
  .inl ⟨h.source, h.current⟩

theorem turns_after (r : Readings) (call : ArbiterCall) (a : ControllerTimeArbiter) :
    Turns a (a.after r call) := by
  cases call with
  | submit principal session device nonce utc browser =>
    show Turns a (a.submit r principal session device nonce utc browser).2
    rcases submit_cases r principal session device nonce utc browser a with ⟨pending, heq⟩ |
        ⟨o, -, heq⟩
    · rw [heq]
      exact .inl ⟨rfl, rfl⟩
    · rw [heq]
      exact (turned_observeModel r o .normal none { a with pending := {} }).turns
  | observe | observeRate => exact (turned_observeModel _ _ _ _ a).turns
  | observeNtpModel | observeReferenceModel => exact (turned_importModel _ _ _ _ _ a).turns
  | invalidate source =>
    unfold after invalidate
    dsimp only
    split
    · exact .inr (.inl rfl)
    · exact .inl ⟨rfl, rfl⟩
  | _ => exact (kept_after (by rfl) r a).turns

theorem label_ne (source : ObservationSource) : label source ≠ .disagreement := by
  cases source <;> exact nofun

/-- Outside of a disagreement an arbitration stays outside, or starts one. -/
theorem Turns.settles {a a' : ControllerTimeArbiter} (h : Turns a a')
    (hbefore : a.source ≠ .disagreement) :
    a'.source ≠ .disagreement ∨ (Disputed a' ∧ a'.recovery.valid = false) := by
  rcases h with ⟨hsource, -⟩ | hnone | hnamed | ⟨-, hstarts⟩
  · exact .inl (hsource ▸ hbefore)
  · exact .inl (hnone ▸ nofun)
  · exact .inl (hnamed ▸ label_ne _)
  · exact .inr (hstarts hbefore)

/-- A call that ends a disagreement: an invalidation, or the confirmation of the
observation received before. -/
def Resolves (r : Readings) (call : ArbiterCall) (a : ControllerTimeArbiter) : Prop :=
  (∃ source, call = .invalidate source) ∨
  ∃ o, presents r call a = some o ∧ Confirmed (r .observed) a.recovery o

/-- A disagreement stays; it may receive the observation. -/
def Receives (o : Observation) (a a' : ControllerTimeArbiter) : Prop :=
  Disputed a' ∧ (a'.recovery = a.recovery ∨ a'.recovery = o)

theorem disputed_arbitrate (h : Disputed a) (hanonymous : Observation.Anonymous o)
    (r : Readings) (now : UInt64) :
    Receives o a (a.arbitrate r now o).2 ∨ Confirmed now a.recovery o := by
  unfold arbitrate
  rw [if_pos h.source]
  by_cases hconfirms : a.confirms now o = true
  · rw [if_neg (not_not.mpr hconfirms)]
    by_cases hlater : o.monotonicNs ≤ a.recovery.monotonicNs
    · rw [if_pos hlater]
      exact .inl ⟨h, .inl rfl⟩
    · simp only [confirms, Bool.and_eq_true, decide_eq_true_eq] at hconfirms
      obtain ⟨⟨⟨hvalid, hsource⟩, hprincipal⟩, hmeets⟩ := hconfirms
      exact .inr ⟨hvalid, hsource, hprincipal, UInt64.not_le.mp hlater, hmeets⟩
  · rw [if_pos hconfirms]
    exact .inl ⟨⟨h.source, h.clock, h.current, h.imported, hanonymous⟩, .inr rfl⟩

theorem disputed_browserTurn (h : Disputed a) (r : Readings) (now : UInt64) (o : Observation) :
    (a.browserTurn r now o).2 = a := by
  have hforeign : ∀ available : Prop, ¬ ((a.source ≠ .disagreement ∧ a.current.source ≠ .browser) ∧
      available) := fun _ hforeign => hforeign.1.1 h.source
  unfold browserTurn
  dsimp only
  rw [if_neg (hforeign _), if_neg (hforeign _)]
  split <;> rfl

theorem anonymous_admitted {leap : LeapState} {transition : Option UInt64}
    (h : ¬ a.refuses o leap transition = true) : Observation.Anonymous o := by
  rintro (hsource | hsource)
  · by_contra hprincipal
    exact h (by simp [refuses, hsource, hprincipal])
  · exact absurd (by simp [refuses, hsource]) h

theorem disputed_observeModel (h : Disputed a) (r : Readings) (o : Observation)
    (leap : LeapState) (transition : Option UInt64) :
    Receives o a (a.observeModel r o leap transition).2 ∨
      Confirmed (r .observed) a.recovery o := by
  have hsame : Receives o a a := ⟨h, .inl rfl⟩
  unfold observeModel
  split
  · exact .inl hsame
  · rename_i hadmitted
    have harbitrate := disputed_arbitrate h (anonymous_admitted hadmitted) r (r .observed)
    dsimp only
    split
    · exact .inl hsame
    · split
      · have hturn := disputed_browserTurn h r (r .observed) o
        split
        all_goals
          rename_i hrun
          rw [hrun] at hturn
          obtain rfl := hturn
        · exact .inl hsame
        · exact harbitrate
      · exact harbitrate

theorem disputed_importModel (h : Disputed a) (r : Readings) {kind : ObservationSource}
    (hkind : kind = .sntp ∨ kind = .gps) (source : RateObservation) (model : ClockSnapshot)
    (error : UInt32) :
    Receives (importedObservation kind source) a (a.importModel r kind source model error).2 ∨
      Confirmed (r .observed) a.recovery (importedObservation kind source) := by
  have hsame : Receives (importedObservation kind source) a a := ⟨h, .inl rfl⟩
  unfold importModel
  split
  · exact .inl hsame
  · dsimp only
    split
    · exact .inl hsame
    · rw [if_pos h.source]
      split
      · exact .inl ⟨⟨h.source, h.clock, h.current, h.imported, fun _ => rfl⟩, .inr rfl⟩
      · rename_i hmatches
        obtain ⟨hvalid, hsource, hmeets⟩ := not_not.mp hmatches
        split
        · exact .inl hsame
        · rename_i hlater
          refine .inr ⟨hvalid, hsource, h.anonymous ?_, UInt64.not_le.mp (not_or.mp hlater).1,
            hmeets⟩
          rwa [hsource]

theorem Disputed.kept {a' : ControllerTimeArbiter} (h : Disputed a) (hkept : Kept a a') :
    Disputed a' ∧ a'.recovery = a.recovery := by
  refine ⟨⟨hkept.source.trans h.source, hkept.clock h.clock, ?_, hkept.imported.trans h.imported,
    ?_⟩, hkept.recovery⟩
  · rw [hkept.current]
    exact h.current
  · rw [hkept.recovery]
    exact h.anonymous

/-- What a call does to a disagreement. -/
theorem disputed_after (h : Disputed a) (r : Readings) (call : ArbiterCall) :
    (Disputed (a.after r call) ∧ ((a.after r call).recovery = a.recovery ∨
      presents r call a = some (a.after r call).recovery)) ∨ Resolves r call a := by
  have hpresents : ∀ {o a'}, presents r call a = some o →
      Receives o a a' ∨ Confirmed (r .observed) a.recovery o →
      (Disputed a' ∧ (a'.recovery = a.recovery ∨ presents r call a = some a'.recovery)) ∨
        Resolves r call a := by
    rintro o a' ho (⟨hdisputed, hrecovery⟩ | hconfirmed)
    · exact .inl ⟨hdisputed, hrecovery.imp_right fun hsame => ho.trans (congrArg some hsame.symm)⟩
    · exact .inr (.inr ⟨o, ho, hconfirmed⟩)
  cases call with
  | submit principal session device nonce utc browser =>
    rcases submit_cases r principal session device nonce utc browser a with ⟨pending, heq⟩ |
        ⟨o, ho, heq⟩
    · refine .inl ?_
      show Disputed (a.submit r principal session device nonce utc browser).2 ∧ _
      unfold after
      dsimp only
      rw [heq]
      exact ⟨⟨h.source, h.clock, h.current, h.imported, h.anonymous⟩, .inl rfl⟩
    · unfold after
      dsimp only
      rw [heq]
      have hcleared : Disputed { a with pending := {} } :=
        ⟨h.source, h.clock, h.current, h.imported, h.anonymous⟩
      exact hpresents ho (disputed_observeModel hcleared r o .normal none)
  | observe | observeRate => exact hpresents rfl (disputed_observeModel h _ _ _ _)
  | observeNtpModel => exact hpresents rfl (disputed_importModel h _ (.inl rfl) _ _ _)
  | observeReferenceModel => exact hpresents rfl (disputed_importModel h _ (.inr rfl) _ _ _)
  | invalidate source => exact .inr (.inl ⟨source, rfl⟩)
  | _ =>
    exact .inl ((h.kept (kept_after (by rfl) r a)).imp_right .inl)

/-- The observation was presented in the run. -/
def Received (start : ControllerTimeArbiter) (calls : List (Readings × ArbiterCall))
    (o : Observation) : Prop :=
  ∃ before step rest, calls = before ++ step :: rest ∧
    presents step.1 step.2 (start.run before) = some o

/-- The run has an invalidation, or two observations of which the second confirms
the first. -/
def Resolved (start : ControllerTimeArbiter) (calls : List (Readings × ArbiterCall)) : Prop :=
  (∃ step ∈ calls, ∃ source, step.2 = .invalidate source) ∨
  ∃ before step rest earlier o, calls = before ++ step :: rest ∧
    Received start before earlier ∧ presents step.1 step.2 (start.run before) = some o ∧
    Confirmed (step.1 .observed) earlier o

variable {start : ControllerTimeArbiter} {calls : List (Readings × ArbiterCall)}

theorem Received.snoc (h : Received start calls o) (step : Readings × ArbiterCall) :
    Received start (calls ++ [step]) o := by
  obtain ⟨before, s, rest, rfl, ho⟩ := h
  exact ⟨before, s, rest ++ [step], by simp, ho⟩

theorem Resolved.snoc (h : Resolved start calls) (step : Readings × ArbiterCall) :
    Resolved start (calls ++ [step]) := by
  rcases h with ⟨s, hmem, hinvalidate⟩ | ⟨before, s, rest, earlier, o, rfl, hreceived, ho, hconfirmed⟩
  · exact .inl ⟨s, List.mem_append_left _ hmem, hinvalidate⟩
  · exact .inr ⟨before, s, rest ++ [step], earlier, o, by simp, hreceived, ho, hconfirmed⟩

/-- A disagreement that nothing has resolved holds what the run presented last. -/
def Standing (start : ControllerTimeArbiter) (calls : List (Readings × ArbiterCall)) : Prop :=
  Disputed (start.run calls) ∧
    ((start.run calls).recovery.valid = true → Received start calls (start.run calls).recovery)

theorem standing_snoc (h : Standing start calls) (r : Readings) (call : ArbiterCall) :
    Standing start (calls ++ [(r, call)]) ∨ Resolved start (calls ++ [(r, call)]) := by
  obtain ⟨hdisputed, hreceived⟩ := h
  rcases disputed_after hdisputed r call with ⟨hstays, hrecovery⟩ | hresolves
  · refine .inl ?_
    unfold Standing
    rw [run_snoc]
    refine ⟨hstays, fun hvalid => ?_⟩
    rcases hrecovery with hsame | hpresented
    · rw [hsame] at hvalid ⊢
      exact (hreceived hvalid).snoc _
    · exact ⟨calls, (r, call), [], rfl, hpresented⟩
  · refine .inr ?_
    rcases hresolves with hinvalidate | ⟨o, ho, hconfirmed⟩
    · exact .inl ⟨(r, call), List.mem_append_right _ (List.mem_singleton_self _), hinvalidate⟩
    · exact .inr ⟨calls, (r, call), [], _, o, rfl, hreceived hconfirmed.valid, ho, hconfirmed⟩

theorem standing_run (h : Disputed start) (hnone : start.recovery.valid = false)
    (calls : List (Readings × ArbiterCall)) : Standing start calls ∨ Resolved start calls := by
  induction calls using List.reverseRec with
  | nil => exact .inl ⟨h, fun hvalid => nomatch hnone.symm.trans hvalid⟩
  | append_singleton calls step ih =>
    rcases ih with hstanding | hresolved
    · exact standing_snoc hstanding step.1 step.2
    · exact .inr (hresolved.snoc step)

/-- The active source is that of the current observation. -/
def Named (a : ControllerTimeArbiter) : Prop :=
  a.source = .none ∨ a.source = .disagreement ∨ a.source = label a.current.source

theorem Named.turns {a' : ControllerTimeArbiter} (h : Named a) (hturns : Turns a a') : Named a' := by
  rcases hturns with ⟨hsource, hcurrent⟩ | hnone | hnamed | ⟨hdisagree, -⟩
  · unfold Named
    rw [hsource, hcurrent]
    exact h
  · exact .inl hnone
  · exact .inr (.inr hnamed)
  · exact .inr (.inl hdisagree)

theorem named_run (h : Named start) (calls : List (Readings × ArbiterCall)) :
    Named (start.run calls) := by
  induction calls using List.reverseRec with
  | nil => exact h
  | append_singleton calls step ih =>
    rw [run_snoc]
    exact ih.turns (turns_after step.1 step.2 _)

theorem Named.current (h : Named a) (source : ObservationSource)
    (hsource : a.source = label source) : a.current.source = source := by
  rcases h with hnone | hdisagreement | hnamed
  · cases source <;> exact nomatch hnone.symm.trans hsource
  · exact absurd (hsource.symm.trans hdisagreement) (label_ne source)
  · rw [hnamed] at hsource
    revert hsource
    cases source <;> cases a.current.source <;> decide

/-- The call replaced nothing: the clock, its source and the observation stay. -/
structure Unreplaced (a a' : ControllerTimeArbiter) : Prop where
  clock : a'.clock = a.clock
  current : a'.current = a.current
  source : a'.source = a.source

/-- What is presented, where the observation is not a model's, goes through `observe_model`. -/
theorem presented {call : ArbiterCall} (h : presents r call a = some o)
    (hsource : o.source = .controller ∨ o.source = .browser)
    (hobserved : ∀ pending leap transition,
      Unreplaced a ({ a with pending }.observeModel r o leap transition).2) :
    Unreplaced a (a.after r call) := by
  cases call with
  | submit principal session device nonce utc browser =>
    show Unreplaced a (a.submit r principal session device nonce utc browser).2
    rcases submit_cases r principal session device nonce utc browser a with ⟨pending, heq⟩ |
        ⟨o', ho', heq⟩
    · rw [heq]
      exact ⟨rfl, rfl, rfl⟩
    · obtain rfl : o' = o := Option.some.inj (ho'.symm.trans h)
      rw [heq]
      exact hobserved {} .normal none
  | observe source utc sampled uncertainty leap transition principal =>
    cases h
    exact hobserved a.pending leap transition
  | observeRate =>
    cases h
    rcases hsource with hsource | hsource <;> exact nomatch hsource
  | observeNtpModel =>
    cases h
    rcases hsource with hsource | hsource <;> exact nomatch hsource
  | observeReferenceModel =>
    cases h
    rcases hsource with hsource | hsource <;> exact nomatch hsource
  | _ =>
    cases h

/-- A controller yields to a network or a receiver whose observation is current. -/
theorem controller_yields (hsource : a.source ≠ .disagreement)
    (hcurrent : a.current.source = .sntp ∨ a.current.source = .gps)
    (hvalid : a.currentValid (r .observed) (r .valid) = true) (ho : o.source = .controller)
    (leap : LeapState) (transition : Option UInt64) :
    (a.observeModel r o leap transition).2 = a := by
  have hforeign : a.current.source ≠ .browser := by
    rcases hcurrent with h | h <;> rw [h] <;> decide
  have harbitrate : a.arbitrate r (r .observed) o = (false, a) := by
    unfold arbitrate
    rw [if_neg hsource, if_neg (not_not.mpr hvalid), if_neg (fun h => hforeign h.1),
      if_neg (fun h => nomatch h.1.symm.trans ho), if_pos ⟨hcurrent, ho⟩]
  unfold observeModel
  split
  · rfl
  · dsimp only
    split
    · rfl
    · rw [if_neg (fun h => nomatch h.symm.trans ho), harbitrate]

/-- A browser yields to any other source while the clock has time. -/
theorem browser_yields (hsource : a.source ≠ .disagreement)
    (hcurrent : a.current.source ≠ .browser)
    (htime : (a.clock.snapshot (r .available)).state ≠ .unsynchronized) (ho : o.source = .browser)
    (leap : LeapState) (transition : Option UInt64) :
    (a.observeModel r o leap transition).2 = a := by
  have hturn : a.browserTurn r (r .observed) o = (false, a) := by
    exact if_pos ⟨⟨hsource, hcurrent⟩, fun h => htime (of_decide_eq_true h)⟩
  unfold observeModel
  split
  · rfl
  · dsimp only
    split
    · rfl
    · rw [hturn]

end ControllerTimeArbiter

open ControllerTimeArbiter

theorem UtcDiscipline.snapshot_without_epoch {d : UtcDiscipline} (h : d.valid = false)
    (reading : UInt64) : (d.snapshot reading).state = .unsynchronized := by
  unfold snapshot
  split
  · rfl
  · rw [if_pos (.inl (by rw [h]; decide))]
    rfl

/-- In every run: from a disagreement on the clock is unsynchronized until it is
resolved; a controller does not replace a network or a receiver that is current,
and a browser no other source while the clock has time. -/
theorem sources_arbitrated (timer : Bool) (deviceId : List UInt8) (clock : UtcDiscipline)
    (calls : List (Readings × ArbiterCall)) (r : Readings) (call : ArbiterCall) :
    let start : ControllerTimeArbiter := { timer, deviceId, clock }
    let a := start.run calls
    (a.source ≠ .disagreement → (a.after r call).source = .disagreement →
      ∀ later, Resolved (a.after r call) later ∨
        ∀ reading, (((a.after r call).run later).clock.snapshot reading).state =
          .unsynchronized) ∧
    (∀ o, presents r call a = some o → o.source = .controller →
      a.source = .sntp ∨ a.source = .gps → a.currentValid (r .observed) (r .valid) = true →
      Unreplaced a (a.after r call)) ∧
    ∀ o, presents r call a = some o → o.source = .browser →
      a.source = .sntp ∨ a.source = .gps ∨ a.source = .controller →
      (a.clock.snapshot (r .available)).state ≠ .unsynchronized →
      Unreplaced a (a.after r call) := by
  intro start a
  have hnamed : Named a := named_run (.inl rfl) calls
  refine ⟨fun hbefore hafter later => ?_, fun o ho hcontroller hsource hvalid => ?_,
    fun o ho hbrowser hsource htime => ?_⟩
  · rcases (turns_after r call a).settles hbefore with hno | ⟨hdisputed, hnone⟩
    · exact absurd hafter hno
    · rcases standing_run hdisputed hnone later with hstanding | hresolved
      · exact .inr fun reading => UtcDiscipline.snapshot_without_epoch hstanding.1.clock reading
      · exact .inl hresolved
  · have hcurrent := hsource.imp (hnamed.current .sntp) (hnamed.current .gps)
    refine presented ho (.inl hcontroller) fun pending leap transition => ?_
    rw [controller_yields (a := { a with pending }) ?_ hcurrent hvalid hcontroller]
    · exact ⟨rfl, rfl, rfl⟩
    · rcases hsource with h | h <;> exact fun hno => nomatch h.symm.trans hno
  · refine presented ho (.inr hbrowser) fun pending leap transition => ?_
    rw [browser_yields (a := { a with pending }) ?_ ?_ htime hbrowser]
    · exact ⟨rfl, rfl, rfl⟩
    · rcases hsource with h | h | h <;> exact fun hno => nomatch h.symm.trans hno
    · rcases hsource with h | h | h
      · exact fun hno => nomatch (hnamed.current .sntp h).symm.trans hno
      · exact fun hno => nomatch (hnamed.current .gps h).symm.trans hno
      · exact fun hno => nomatch (hnamed.current .controller h).symm.trans hno

/-- `clock_profile` of the stand-alone service. -/
def clockProfile (ntpTimeoutS : UInt64) : DisciplineConfig :=
  let holdoverForNs := (if ntpTimeoutS ≠ 0 then ntpTimeoutS else 3600) * 1000000000
  { unlimitedNtpHoldover := ntpTimeoutS = 0
    holdoverForNs := holdoverForNs
    synchronizedForNs := min 90000000000 holdoverForNs
    maxRateObservationAgeNs := min 90000000000 holdoverForNs
    nonNtpHoldoverForNs := 90000000000 }

def serverTime : Readings × ArbiterCall :=
  (fun _ => 1000000000, .observeRate 1735689600000000000 1000000000 1000000 0 1000 1)

def controllerTime : ArbiterCall :=
  .observe .controller 1735689700000000000 2000000000 300000000 .normal none [112]

def browserTime (sampled : UInt64) : ArbiterCall :=
  .observe .browser 1735689700000000000 sampled 250000000 .normal none [112]

theorem sources_arbitrated_observed :
    let start : ControllerTimeArbiter :=
      { deviceId := [100], clock := { config := clockProfile 60 } }
    let a := start.run [serverTime]
    let c := start.run [(fun _ => 2000000000, controllerTime)]
    let r : Readings := fun _ => 3000000000
    Unreplaced a (a.after r controllerTime) ∧ Unreplaced a (a.after r (browserTime 3000000000)) ∧
    ∀ reading, ((c.after r serverTime.2).clock.snapshot reading).state = .unsynchronized := by
  have hserver := sources_arbitrated true [100] { config := clockProfile 60 } [serverTime]
    (fun _ => 3000000000)
  have hcontroller := sources_arbitrated true [100] { config := clockProfile 60 }
    [(fun _ => 2000000000, controllerTime)] (fun _ => 3000000000)
  refine ⟨(hserver controllerTime).2.1 _ rfl rfl (.inl (by decide)) (by decide),
    (hserver (browserTime 3000000000)).2.2 _ rfl rfl (.inl (by decide)) (by decide), ?_⟩
  refine ((hcontroller serverTime.2).1 (by decide) (by decide) []).resolve_left ?_
  rintro (⟨step, hmem, -⟩ | ⟨before, step, rest, -, -, hcalls, -⟩)
  · cases hmem
  · exact List.append_ne_nil_of_right_ne_nil before (List.cons_ne_nil step rest) hcalls.symm

/-- The clock of a server that was configured with a shorter timeout ends before
the lifetime of its observation: a browser takes over an observation that is current. -/
theorem browser_replaces_current :
    let start : ControllerTimeArbiter :=
      { deviceId := [100], clock := { config := clockProfile 60 } }
    let a := start.run [serverTime]
    let r : Readings := fun _ => 71000000000
    a.source = .sntp ∧ a.currentValid (r .observed) (r .valid) = true ∧
      (a.after r (browserTime 71000000000)).source = .browser ∧
      (a.after r (browserTime 71000000000)).clock.utcNs = 1735689700000000000 := by
  decide

end WsprryPico.Time
