import WsprryPico.Microchrony.Clock
import WsprryPico.Microchrony.Majority

/-!
# Latches and watermarks

A disagreement with the network holds until a call reconciles the reference clock, one of the
frequency reference until a call restores it. What was observed is never observed again, and no
evidence of frequency has authority over UTC.
-/

namespace WsprryPico.Microchrony

open Engine

variable {K : Type} [Scalar K]
  {e e' e₀ : Engine K} {now t : Nat} {b : Bool} {slot i : Slot} {call : Call} {config : Config K}
  {r : FrequencyReference} {combined : List Slot}

/-! ## What a selection leaves of the evidence -/

def Engine.evidence (e : Engine K) : FrequencyReference × Nat × Bool :=
  (e.frequencyReference, e.referenceSequence, e.referenceEnabled)

theorem select_evidence : (e.select now b).evidence = e.evidence := by
  have hpass := congrArg Engine.evidence (e.pass_passed now b).clock
  obtain ⟨-, h⟩ | ⟨slot, combined, -, h⟩ := e.select_cases now b
  · rw [h]
    exact hpass
  · have hstill := congrArg Engine.evidence ((e.pass now b).1.discipline_still now slot combined)
    rw [h]
    exact Eq.trans hstill hpass

/-- The state of the reference clock that a pass finds as the call does. -/
def Engine.guarded (e : Engine K) : Bool × Nat × Bool :=
  (e.referenceDisagreement, e.referenceSequence, e.referenceEnabled)

/-- The call is about the reference clock. -/
def Call.Refers : Call → Prop
  | .referenceClock _ _ | .observeReference _ _ => True
  | _ => False

theorem answeredPass_guarded {packet : List UInt8}
    (h : e.answeredPass slot packet now = some (e₀, t, b)) : e₀.guarded = e.guarded := by
  unfold answeredPass measurePass at h
  dsimp only at h
  split_ifs at h
  · cases h
    rfl
  · cases h
    rfl
  · split at h
    · cases h
    · cases h
      rfl

theorem passes_guarded (hrefers : ¬ call.Refers) (h : call.passes e = some (e₀, t, b)) :
    e₀.guarded = e.guarded := by
  cases Call.passing h with
  | referenceClock | observeReference => exact absurd trivial hrefers
  | receive _ h => exact answeredPass_guarded h
  | _ => rfl

/-! ## The disagreement of the reference clock -/

/-- The call reconciles the reference clock: a toggle, or an observation accepted that gives the
reference an estimate, which agrees with every network source it can be compared with, of which
there is one. -/
def Call.Reconciles (e : Engine K) : Call → Prop
  | .referenceClock enabled now =>
    (e.referenceClock enabled now).1 = true ∧ e.referenceEnabled ≠ enabled
  | .observeReference o now =>
    (e.observeReference o now).1 = true ∧
      ((e.appendEpoch o).sources referenceSlot).status.estimate.valid = true ∧
      (∃ peer, (e.appendEpoch o).comparable now peer = true) ∧
      ∀ peer, (e.appendEpoch o).comparable now peer = true →
        ((e.appendEpoch o).sources peer).apart e.config now
          ((e.appendEpoch o).sources referenceSlot) = false
  | _ => False

theorem examined_latched (h : e.referenceDisagreement = true) :
    (e.examined now).referenceDisagreement = true := by
  simp [examined, h]

theorem select_latched (h : e.referenceDisagreement = true) :
    (e.select now b).referenceDisagreement = true := by
  rw [select_disagreement, examined_latched h]

theorem select_latched_none (h : (e.select now b).referenceDisagreement = true) :
    (e.select now b).selected = none := by
  rw [select_disagreement] at h
  have hpass := pass_eq e now b
  rw [if_pos h] at hpass
  rw [select, hpass]
  rfl

theorem appendEpoch_disagreement (o : ReferenceObservation) :
    (e.appendEpoch o).referenceDisagreement = e.referenceDisagreement ∧
      (e.appendEpoch o).config = e.config := by
  unfold appendEpoch
  dsimp only
  split_ifs <;> exact ⟨rfl, rfl⟩

theorem compareEpoch_released (h : e.referenceDisagreement = true)
    (hreleased : (e.compareEpoch now).referenceDisagreement = false) :
    (e.sources referenceSlot).status.estimate.valid = true ∧
    (∃ peer, e.comparable now peer = true) ∧ ∀ peer, e.comparable now peer = true →
      (e.sources peer).apart e.config now (e.sources referenceSlot) = false := by
  unfold compareEpoch at hreleased
  dsimp only at hreleased
  split_ifs at hreleased with hcompare
  · obtain ⟨peer, hpeer⟩ := List.exists_mem_of_ne_nil _ hcompare.2
    refine ⟨hcompare.1, ⟨peer, (List.mem_filter.mp hpeer).2⟩, fun peer hpeer => ?_⟩
    have hnone := List.any_eq_false.mp hreleased peer
      (List.mem_filter.mpr ⟨List.mem_finRange peer, hpeer⟩)
    simpa using hnone
  · rw [h] at hreleased
    cases hreleased

/-- A disagreement holds at the pass of a call that does not reconcile. -/
theorem passes_latched (h : e.referenceDisagreement = true) (hcall : ¬ call.Reconciles e)
    (hpass : call.passes e = some (e₀, t, b)) (hreleased : (e₀.select t b).referenceDisagreement =
      false) : False := by
  have hreleased₀ : e₀.referenceDisagreement = false := by
    by_contra hlatched
    rw [Bool.not_eq_false] at hlatched
    rw [select_latched hlatched] at hreleased
    cases hreleased
  by_cases hrefers : call.Refers
  · cases call with
    | referenceClock enabled now =>
      simp only [Call.passes] at hpass
      split_ifs at hpass with htoggle
      exact hcall htoggle
    | observeReference o now =>
      simp only [Call.passes] at hpass
      split_ifs at hpass with hadmits
      cases hpass
      obtain ⟨hdisagreement, hconfig⟩ := appendEpoch_disagreement (e := e) o
      obtain ⟨hvalid, hpeer, hagrees⟩ := compareEpoch_released (hdisagreement.trans h) hreleased₀
      rw [hconfig] at hagrees
      exact hcall ⟨by simp [observeReference, hadmits], hvalid, hpeer, hagrees⟩
    | _ => exact hrefers
  · have hguarded := congrArg Prod.fst (passes_guarded hrefers hpass)
    dsimp only [guarded] at hguarded
    rw [hreleased₀, h] at hguarded
    cases hguarded

theorem exec_latched (h : e.referenceDisagreement = true) (hcall : ¬ call.Reconciles e) :
    (call.exec e).referenceDisagreement = true := by
  have hpass := exec_pass call e
  split at hpass
  · have houtcome := congrArg (·.2.2.2.1) hpass.2.outcome
    exact Eq.trans houtcome h
  · rename_i e₀ t b hsome
    have hshell := congrArg Engine.referenceDisagreement hpass.2.shell
    by_contra hreleased
    refine passes_latched h hcall hsome ?_
    rw [Bool.not_eq_true] at hreleased
    exact hshell.symm.trans hreleased

theorem run_latched {calls : List Call} (h : e.referenceDisagreement = true)
    (hcalls : ∀ p ∈ trace calls e, ¬ p.2.Reconciles p.1) :
    (run calls e).referenceDisagreement = true := by
  induction calls generalizing e with
  | nil => exact h
  | cons call calls ih =>
    rw [trace, List.forall_mem_cons] at hcalls
    exact ih (exec_latched h hcalls.1) hcalls.2

theorem run_unselected (config : Config K) (calls : List Call)
    (h : (run calls (construct config)).referenceDisagreement = true) :
    (run calls (construct config)).selected = none := by
  refine run_induction (P := fun _ e => e.referenceDisagreement = true → e.selected = none) ?_ ?_
    calls h
  · intro _
    rfl
  · intro calls call ih h
    have hpass := exec_pass call (run calls (construct config))
    split at hpass
    · have hdisagreement := congrArg (·.2.2.2.1) hpass.2.outcome
      have hselected := congrArg (·.2.1) hpass.2.outcome
      exact Eq.trans hselected (ih (hdisagreement.symm.trans h))
    · have hdisagreement := congrArg Engine.referenceDisagreement hpass.2.shell
      have hselected := congrArg Engine.selected hpass.2.shell
      exact Eq.trans hselected (select_latched_none (hdisagreement.symm.trans h))

/-! ## The disagreement of the frequency reference -/

/-- The call restores the frequency reference: an observation that agrees with the network, or the
end of the references. -/
def Call.Restores (e : Engine K) : Call → Prop
  | .observeFrequencyReference r now =>
    (e.observeFrequencyReference r now).1 = true ∧ ¬ e.Contradicts r
  | .clearFrequencyReference now => e.early now = false
  | _ => False

theorem rated_apart (estimate : CombinedEstimate K)
    (h : e.frequencyReferenceState = .disagreement) :
    (e.rated estimate now).frequencyReferenceState = .disagreement := by
  have hblend : ((e.blend estimate now).withNetwork estimate).frequencyReferenceState =
      .disagreement := by
    unfold blend withNetwork
    dsimp only
    split_ifs <;> exact h
  unfold rated compareReference
  rw [if_neg (fun hlive => hlive.2.2 hblend)]
  exact hblend

theorem settled_apart (h : e.frequencyReferenceState = .disagreement) :
    (e.settled slot combined now).frequencyReferenceState = .disagreement := by
  unfold settled settle advance
  split_ifs <;> exact h

theorem discipline_apart (h : e.frequencyReferenceState = .disagreement) :
    (e.discipline slot combined now).frequencyReferenceState = .disagreement := by
  rcases hchanged : e.changed slot with - | -
  · rw [discipline_kept combined hchanged]
    exact h
  · rw [discipline_eq combined hchanged]
    exact rated_apart _ (settled_apart h)

theorem select_apart (h : e.frequencyReferenceState = .disagreement) :
    (e.select now b).frequencyReferenceState = .disagreement := by
  have hpass := (of_view (e.pass_passed now b).clock Engine.frequencyReferenceState
    fun _ => rfl).trans h
  obtain ⟨-, hselect⟩ | ⟨slot, combined, -, hselect⟩ := e.select_cases now b
  · rw [hselect]
    exact hpass
  · rw [hselect]
    exact discipline_apart hpass

theorem seed_apart {frequencyPpb : Int} {skewPpb : Nat}
    (h : e.frequencyReferenceState = .disagreement) :
    (e.seed frequencyPpb skewPpb).frequencyReferenceState = .disagreement := by
  have hrefused : e.frequencyReferenceState ≠ .none := by
    rw [h]
    decide
  unfold seed
  rw [if_pos hrefused]
  exact h

theorem observe_apart (h : e.frequencyReferenceState = .disagreement)
    (hcall : ¬ (Call.observeFrequencyReference r now).Restores e) :
    (e.observeFrequencyReference r now).2.frequencyReferenceState = .disagreement := by
  rcases e.observe_cases r now with ⟨-, hobserve⟩ | ⟨-, ⟨-, hobserve⟩ | ⟨hagrees, hobserve⟩⟩
  · rw [hobserve]
    exact h
  · rw [hobserve]
  · refine absurd ⟨?_, hagrees⟩ hcall
    rcases hobserve with hobserve | hobserve <;> rw [hobserve]

theorem clear_apart (h : e.frequencyReferenceState = .disagreement)
    (hcall : ¬ (Call.clearFrequencyReference now).Restores e) :
    (e.clearFrequencyReference now).frequencyReferenceState = .disagreement := by
  rcases e.clear_cases now with ⟨-, hclear⟩ | ⟨hearly, -⟩
  · rw [hclear]
    exact h
  · exact absurd hearly hcall

theorem retire_apart (h : e.frequencyReferenceState = .disagreement) :
    (e.retireFrequencyReference now).frequencyReferenceState = .disagreement := by
  rcases e.retire_cases now with hretire | ⟨-, hretire⟩
  · rw [hretire]
    exact h
  · rw [hretire]
    exact advance_state.trans h

theorem exec_apart (h : e.frequencyReferenceState = .disagreement) (hcall : ¬ call.Restores e) :
    (call.exec e).frequencyReferenceState = .disagreement := by
  by_cases hrates : call.Rates
  · cases call with
    | seed frequencyPpb skewPpb => exact seed_apart h
    | observeFrequencyReference r now => exact observe_apart h hcall
    | clearFrequencyReference now => exact clear_apart h hcall
    | retireFrequencyReference now => exact retire_apart h
    | _ => exact absurd hrates id
  · have halike := exec_alike call e hrates
    split at halike
    · exact (of_view halike.2.shell Engine.frequencyReferenceState fun _ => rfl).trans h
    · rename_i e₀ t b hsome
      have hsteady := of_view (passes_steady hsome) Engine.frequencyReferenceState fun _ => rfl
      exact (of_view halike.2.shell Engine.frequencyReferenceState fun _ => rfl).trans
        (select_apart (hsteady.trans h))

theorem run_apart {calls : List Call} (h : e.frequencyReferenceState = .disagreement)
    (hcalls : ∀ p ∈ trace calls e, ¬ p.2.Restores p.1) :
    (run calls e).frequencyReferenceState = .disagreement := by
  induction calls generalizing e with
  | nil => exact h
  | cons call calls ih =>
    rw [trace, List.forall_mem_cons] at hcalls
    exact ih (exec_apart h hcalls.1) hcalls.2

/-! ## Watermarks -/

def consumedFrequency (p : Engine K × Call) : Option FrequencyReference :=
  match p.2 with
  | .observeFrequencyReference r now => if p.1.admits r now then some r else none
  | _ => none

def consumedEpoch (p : Engine K × Call) : Option ReferenceObservation :=
  match p.2 with
  | .observeReference o now => if p.1.admitsEpoch o now then some o else none
  | _ => none

/-- A reference is not older than another, and was sampled after it. -/
def FrequencyReference.Precedes (r r' : FrequencyReference) : Prop :=
  r.generation ≤ r'.generation ∧ r.sampledRawNs < r'.sampledRawNs

/-- A reference is not newer than the watermark of the engine. -/
def Engine.Knows (e : Engine K) (r : FrequencyReference) : Prop :=
  r.generation ≠ 0 ∧ r.generation ≤ e.frequencyReference.generation ∧
    r.sampledRawNs ≤ e.frequencyReference.sampledRawNs

theorem admits_spec (h : e.admits r now = true) :
    r.generation ≠ 0 ∧ (e.frequencyReference.generation = 0 ∨
      e.frequencyReference.generation ≤ r.generation ∧
        e.frequencyReference.sampledRawNs < r.sampledRawNs) := by
  simp only [admits, Bool.and_eq_true, Bool.or_eq_true, decide_eq_true_eq] at h
  obtain ⟨⟨⟨⟨⟨⟨⟨⟨⟨⟨-, hgeneration⟩, -⟩, -⟩, -⟩, -⟩, -⟩, -⟩, -⟩, hnewer⟩, -⟩ := h
  exact ⟨hgeneration, hnewer⟩

theorem Engine.Knows.precedes {r' : FrequencyReference} (h : e.Knows r')
    (hadmits : e.admits r now = true) : r'.Precedes r := by
  obtain ⟨hne, hgeneration, hsampled⟩ := h
  obtain ⟨-, hzero | ⟨hgeneration', hsampled'⟩⟩ := admits_spec hadmits
  · omega
  · exact ⟨hgeneration.trans hgeneration', hsampled.trans_lt hsampled'⟩

theorem exec_frequencyReference (call : Call) (e : Engine K) :
    ((∃ r now, call = .observeFrequencyReference r now ∧ e.admits r now = true ∧
      (call.exec e).frequencyReference = r)) ∨
    (consumedFrequency (e, call) = none ∧
      (call.exec e).frequencyReference.generation = e.frequencyReference.generation ∧
      (call.exec e).frequencyReference.sampledRawNs = e.frequencyReference.sampledRawNs) := by
  by_cases hrates : call.Rates
  · cases call with
    | seed frequencyPpb skewPpb =>
      have hseed : (e.seed frequencyPpb skewPpb).frequencyReference = e.frequencyReference := by
        unfold seed
        split_ifs <;> rfl
      refine .inr ⟨rfl, ?_⟩
      exact ⟨congrArg _ hseed, congrArg _ hseed⟩
    | observeFrequencyReference r now =>
      rcases e.observe_cases r now with ⟨hrefused, hobserve⟩ | ⟨hadmits, hobserve⟩
      · refine .inr ⟨by simp [consumedFrequency, hrefused], ?_⟩
        unfold Call.exec Call.perform
        dsimp only
        rw [hobserve]
        exact ⟨rfl, rfl⟩
      · refine .inl ⟨r, now, rfl, hadmits, ?_⟩
        unfold Call.exec Call.perform
        dsimp only
        rcases hobserve with ⟨-, hobserve⟩ | ⟨-, hobserve | hobserve⟩ <;> rw [hobserve] <;> rfl
    | clearFrequencyReference now =>
      refine .inr ⟨rfl, ?_⟩
      unfold Call.exec Call.perform
      dsimp only
      have hadvance : (e.advance now).frequencyReference = e.frequencyReference :=
        of_view advance_unclocked Engine.frequencyReference fun _ => rfl
      rcases e.clear_cases now with ⟨-, hclear⟩ | ⟨-, hclear⟩
      · rw [hclear]
        exact ⟨rfl, rfl⟩
      · rw [hclear]
        exact ⟨congrArg (·.generation) hadvance, congrArg (·.sampledRawNs) hadvance⟩
    | retireFrequencyReference now =>
      refine .inr ⟨rfl, ?_⟩
      unfold Call.exec Call.perform
      dsimp only
      have hadvance : (e.advance now).frequencyReference = e.frequencyReference :=
        of_view advance_unclocked Engine.frequencyReference fun _ => rfl
      rcases e.retire_cases now with hretire | ⟨-, hretire⟩
      · rw [hretire]
        exact ⟨rfl, rfl⟩
      · rw [hretire]
        exact ⟨congrArg (·.generation) hadvance, congrArg (·.sampledRawNs) hadvance⟩
    | _ => exact absurd hrates id
  · have hnone : consumedFrequency (e, call) = none := by
      cases call with
      | observeFrequencyReference r now => exact absurd trivial hrates
      | _ => rfl
    have halike := exec_alike call e hrates
    have hsame : (call.exec e).frequencyReference = e.frequencyReference := by
      split at halike
      · exact of_view halike.2.shell Engine.frequencyReference fun _ => rfl
      · rename_i e₀ t b hsome
        have hshell := of_view halike.2.shell Engine.frequencyReference fun _ => rfl
        have hselect : (e₀.select t b).frequencyReference = e₀.frequencyReference :=
          congrArg Prod.fst select_evidence
        have hsteady := of_view (passes_steady hsome) Engine.frequencyReference fun _ => rfl
        exact hshell.trans (hselect.trans hsteady)
    exact .inr ⟨hnone, by rw [hsame], by rw [hsame]⟩

/-- The references a run consumed precede each other, and the engine knows them. -/
theorem run_frequencies (config : Config K) (calls : List Call) :
    ((trace calls (construct config)).filterMap consumedFrequency).Pairwise
        FrequencyReference.Precedes ∧
      ∀ r ∈ (trace calls (construct config)).filterMap consumedFrequency,
        (run calls (construct config)).Knows r := by
  refine run_induction (P := fun calls e =>
    ((trace calls (construct config)).filterMap consumedFrequency).Pairwise
        FrequencyReference.Precedes ∧
      ∀ r ∈ (trace calls (construct config)).filterMap consumedFrequency, e.Knows r) ?_ ?_ calls
  · exact ⟨List.Pairwise.nil, fun r hr => by cases hr⟩
  · intro calls call ⟨hprecede, hknown⟩
    rw [trace_snoc, List.filterMap_append]
    generalize run calls (construct config) = e at hknown ⊢
    rcases exec_frequencyReference call e with
      ⟨r, now, rfl, hadmits, hreference⟩ | ⟨hnone, hgeneration, hsampled⟩
    · have hconsumed : consumedFrequency (e, .observeFrequencyReference r now) = some r := by
        simp [consumedFrequency, hadmits]
      have hnew : ((Call.observeFrequencyReference r now).exec e).Knows r := by
        unfold Knows
        rw [hreference]
        exact ⟨(admits_spec hadmits).1, le_refl _, le_refl _⟩
      rw [List.filterMap_cons_some hconsumed, List.filterMap_nil, List.pairwise_append]
      refine ⟨⟨hprecede, List.pairwise_singleton _ _, ?_⟩, ?_⟩
      · intro r' hr' r'' hr''
        obtain rfl := List.mem_singleton.mp hr''
        exact (hknown r' hr').precedes hadmits
      · intro r' hr'
        rcases List.mem_append.mp hr' with hr' | hr'
        · obtain ⟨hgeneration, hsampled⟩ := (hknown r' hr').precedes hadmits
          exact ⟨(hknown r' hr').1, hgeneration.trans hnew.2.1, hsampled.le.trans hnew.2.2⟩
        · rw [List.mem_singleton.mp hr']
          exact hnew
    · rw [List.filterMap_cons_none hnone, List.filterMap_nil, List.append_nil]
      refine ⟨hprecede, fun r hr => ?_⟩
      unfold Knows
      rw [hgeneration, hsampled]
      exact hknown r hr

theorem exec_sequence (call : Call) (e : Engine K) :
    (∃ o now, call = .observeReference o now ∧ e.admitsEpoch o now = true ∧
      (call.exec e).referenceSequence = o.sequence) ∨
    (consumedEpoch (e, call) = none ∧ (call.exec e).referenceSequence = e.referenceSequence) := by
  have hpass := exec_pass call e
  split at hpass
  · rename_i hnone
    refine .inr ⟨?_, congrArg (fun x => x.2.2.2.2.2.2.2) hpass.2.outcome⟩
    cases call with
    | observeReference o now =>
      simp only [Call.passes] at hnone
      split_ifs at hnone with hadmits
      simp [consumedEpoch, hadmits]
    | _ => rfl
  · rename_i e₀ t b hsome
    have hsequence : (call.exec e).referenceSequence = e₀.referenceSequence :=
      (of_view hpass.2.shell Engine.referenceSequence fun _ => rfl).trans
        (congrArg (fun x => x.2.1) select_evidence)
    by_cases hrefers : call.Refers
    · cases call with
      | referenceClock enabled now =>
        simp only [Call.passes] at hsome
        split_ifs at hsome
        cases hsome
        exact .inr ⟨rfl, hsequence⟩
      | observeReference o now =>
        simp only [Call.passes] at hsome
        split_ifs at hsome with hadmits
        cases hsome
        refine .inl ⟨o, t, rfl, hadmits, hsequence.trans ?_⟩
        unfold compareEpoch appendEpoch
        dsimp only
        split_ifs <;> rfl
      | _ => exact absurd hrefers id
    · have hguarded := congrArg (fun x => x.2.1) (passes_guarded hrefers hsome)
      refine .inr ⟨?_, hsequence.trans hguarded⟩
      cases call with
      | observeReference o now => exact absurd trivial hrefers
      | _ => rfl

/-- The observations of the reference clock a run consumed have ascending sequences. -/
theorem run_sequences (config : Config K) (calls : List Call) :
    ((trace calls (construct config)).filterMap consumedEpoch).Pairwise
        (fun o o' => o.sequence < o'.sequence) ∧
      ∀ o ∈ (trace calls (construct config)).filterMap consumedEpoch,
        o.sequence ≤ (run calls (construct config)).referenceSequence := by
  refine run_induction (P := fun calls (e : Engine K) =>
    ((trace calls (construct config)).filterMap consumedEpoch).Pairwise
        (fun o o' => o.sequence < o'.sequence) ∧
      ∀ o ∈ (trace calls (construct config)).filterMap consumedEpoch,
        o.sequence ≤ e.referenceSequence) ?_ ?_ calls
  · exact ⟨List.Pairwise.nil, fun o ho => by cases ho⟩
  · intro calls call ⟨hascend, hknown⟩
    rw [trace_snoc, List.filterMap_append]
    generalize run calls (construct config) = e at hknown ⊢
    rcases exec_sequence call e with ⟨o, now, rfl, hadmits, hsequence⟩ | ⟨hnone, hsequence⟩
    · have hconsumed : consumedEpoch (e, .observeReference o now) = some o := by
        simp [consumedEpoch, hadmits]
      have hnewer : e.referenceSequence < o.sequence := by
        simp only [admitsEpoch, Bool.and_eq_true, decide_eq_true_eq] at hadmits
        exact hadmits.1.1.1.1.1.1.1.2
      rw [List.filterMap_cons_some hconsumed, List.filterMap_nil, List.pairwise_append, hsequence]
      refine ⟨⟨hascend, List.pairwise_singleton _ _, ?_⟩, ?_⟩
      · intro o' ho' o'' ho''
        obtain rfl := List.mem_singleton.mp ho''
        exact (hknown o' ho').trans_lt hnewer
      · intro o' ho'
        rcases List.mem_append.mp ho' with ho' | ho'
        · exact (hknown o' ho').trans hnewer.le
        · rw [List.mem_singleton.mp ho']
    · rw [List.filterMap_cons_none hnone, List.filterMap_nil, List.append_nil, hsequence]
      exact ⟨hascend, hknown⟩

/-! ## Evidence of frequency -/

/-- No call with evidence of frequency changes what the clock says at its own time. -/
theorem frequency_authority [IsStrictOrderedRing K] (e : Engine K) (now : Nat) :
    (∀ r, ((e.observeFrequencyReference r now).2.tracking now).authority =
      (e.tracking now).authority) ∧
    ((e.retireFrequencyReference now).tracking now).authority = (e.tracking now).authority ∧
    ((e.clearFrequencyReference now).tracking now).authority = (e.tracking now).authority := by
  refine ⟨fun r => ?_, ?_, ?_⟩
  · rcases e.observe_cases r now with ⟨-, h⟩ | ⟨hadmits, h⟩
    · rw [h]
    · refine settled_authority (admits_early hadmits) ?_
      rcases h with ⟨-, h⟩ | ⟨-, h | h⟩ <;> rw [h] <;> rfl
  · rcases e.retire_cases now with h | ⟨hearly, h⟩
    · rw [h]
    · rw [h]
      exact settled_authority hearly rfl
  · rcases e.clear_cases now with ⟨-, h⟩ | ⟨hearly, h⟩
    · rw [h]
    · rw [h]
      exact settled_authority hearly rfl

/-! ## Every run -/

/-- In every run: once the reference clock disagrees with the network nothing is selected and the
clock is not synchronized until a call reconciles them, and once the frequency reference does, it
does until a call restores it; consumed frequencies precede each other, and consumed observations
have ascending sequences; and evidence of frequency has no authority over UTC. -/
theorem disagreements_latch [IsStrictOrderedRing K] (config : Config K) (calls : List Call) :
    let first := construct config
    let e := run calls first
    (∀ after, e.referenceDisagreement = true → (∀ p ∈ trace after e, ¬ p.2.Reconciles p.1) →
      (run after e).referenceDisagreement = true ∧ (run after e).selected = none ∧
        ∀ t, ((run after e).tracking t).synchronized = false) ∧
    (∀ after, e.frequencyReferenceState = .disagreement →
      (∀ p ∈ trace after e, ¬ p.2.Restores p.1) →
      (run after e).frequencyReferenceState = .disagreement ∧
        ∀ t, (run after e).frequencyReferenceStateAt t = .disagreement) ∧
    ((trace calls first).filterMap consumedFrequency).Pairwise FrequencyReference.Precedes ∧
    ((trace calls first).filterMap consumedEpoch).Pairwise (fun o o' => o.sequence < o'.sequence) ∧
    ∀ now, (∀ r, ((e.observeFrequencyReference r now).2.tracking now).authority =
        (e.tracking now).authority) ∧
      ((e.retireFrequencyReference now).tracking now).authority = (e.tracking now).authority ∧
      ((e.clearFrequencyReference now).tracking now).authority = (e.tracking now).authority := by
  refine ⟨fun after h hcalls => ?_, fun after h hcalls => ?_, (run_frequencies config calls).1,
    (run_sequences config calls).1, fun now => frequency_authority _ now⟩
  · have hlatched := run_latched h hcalls
    have hrun : run after (run calls (construct config)) =
        run (calls ++ after) (construct config) := by
      rw [run, run, run, List.foldl_append]
    have hnone : (run after (run calls (construct config))).selected = none := by
      rw [hrun] at hlatched ⊢
      exact run_unselected config _ hlatched
    exact ⟨hlatched, hnone, unsynchronized_of_none hnone⟩
  · have hlatched := run_apart h hcalls
    refine ⟨hlatched, fun t => ?_⟩
    unfold frequencyReferenceStateAt
    rw [hlatched]

/-- Four observations of a reference clock a second ahead of the network. -/
def lateReference : List Call :=
  .referenceClock true (193 * second) :: (List.range 4).map fun k =>
    .observeReference
      { rawNs := (194 + k) * second
        utcNs := fastServer ((194 + k) * second) + second
        uncertaintyNs := 1000
        sequence := k + 1
        leap := .normal }
      ((194 + k) * second + 1000000)

/-- The late reference takes the clock from the network, and the next answer does not give it
back. -/
theorem disagreements_latch_late :
    let e := run (threeMeasurements.map Prod.snd ++ lateReference) (construct stock)
    let after := run ((exchangeAt (256 * second)).map Prod.snd) e
    after.referenceDisagreement = true ∧ after.selected = none ∧
      ∀ t, (after.tracking t).synchronized = false := by
  refine (disagreements_latch stock _).1 _ (by decide +kernel) ?_
  simp [exchangeAt, trace, Call.Reconciles]

end WsprryPico.Microchrony
