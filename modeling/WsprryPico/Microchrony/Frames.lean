import WsprryPico.Microchrony.Calls

/-!
# What a selection leaves

A pass over the sources writes their flags and what is selected, and a discipline writes the
clock. Each leaves what the other reads.
-/

namespace WsprryPico.Microchrony

variable {K : Type} [Scalar K] {e e' e'' : Engine K} {now : Nat} {slot i : Slot}

theorem of_view {α : Type} {view : Engine K → Engine K} (h : view e' = view e) (f : Engine K → α)
    (hf : ∀ e, f (view e) = f e) : f e' = f e := by
  rw [← hf e', h, hf]

/-- A source without what a pass writes of it. -/
def Source.core (s : Source K) : Source K :=
  { s with status := { s.status with
    selectable := false, selected := false, combined := false, replace := false
    reason := .none, selectionScore := 1 } }

namespace Engine

/-- An engine without what a pass writes of it. -/
def clock (e : Engine K) : Engine K :=
  { e with
    sources := fun _ => {}
    referenceDisagreement := false
    selected := none
    combinedCount := 0
    leap := .normal }

/-- A pass may lead from the one to the other. -/
structure Passed (e e' : Engine K) : Prop where
  clock : e'.clock = e.clock
  core : ∀ i, (e'.sources i).core = (e.sources i).core

namespace Passed

theorem refl : Passed e e := ⟨rfl, fun _ => rfl⟩

theorem trans (h : Passed e e') (h' : Passed e' e'') : Passed e e'' :=
  ⟨h'.clock.trans h.clock, fun i => (h'.core i).trans (h.core i)⟩

theorem config (h : Passed e e') : e'.config = e.config := by
  have hconfig := congrArg Engine.config h.clock
  exact hconfig

theorem samples (h : Passed e e') (i : Slot) : (e'.sources i).samples = (e.sources i).samples := by
  have hcore := congrArg Source.samples (h.core i)
  exact hcore

theorem estimate (h : Passed e e') (i : Slot) :
    (e'.sources i).status.estimate = (e.sources i).status.estimate := by
  have hcore := congrArg (fun s : Source K => s.status.estimate) (h.core i)
  exact hcore

end Passed

theorem gate_core (config : Config K) (s : Source K) :
    (s.gate config now slot).1.core = s.core := by
  unfold Source.gate
  dsimp only
  split_ifs <;> rfl

theorem gated_passed : Passed e (e.gated now) := ⟨rfl, fun _ => gate_core _ _⟩

theorem deselect_passed : Passed e e.deselect := ⟨rfl, fun _ => rfl⟩

theorem mark_passed (candidates members : List Slot) : Passed e (e.mark candidates members) := by
  refine ⟨rfl, fun i => ?_⟩
  simp only [mark]
  split_ifs <;> rfl

theorem rescore_passed (rank : Slot → WithTop K) (candidates : List Slot) (current : Slot) :
    Passed e (e.rescore rank candidates current) := by
  refine ⟨rfl, fun i => ?_⟩
  simp only [rescore]
  split_ifs <;> rfl

theorem scored_passed (rank : Slot → WithTop K) (scoreUpdate : Bool) (candidates : List Slot)
    (current : Slot) : Passed e (e.scored rank scoreUpdate candidates current) := by
  unfold scored
  split_ifs
  · exact rescore_passed _ _ _
  · exact Passed.refl

theorem resetScores_passed : Passed e e.resetScores := ⟨rfl, fun _ => rfl⟩

theorem markCombined_passed (combined : List Slot) (best : Slot) :
    Passed e (e.markCombined combined best) := ⟨rfl, fun _ => rfl⟩

theorem adopt_passed (candidates : List Slot) (best : Slot) :
    Passed e (e.adopt now candidates best).1 := by
  unfold adopt
  split_ifs
  · exact resetScores_passed.trans (markCombined_passed _ _)
  · exact markCombined_passed _ _

theorem choose_passed (scoreUpdate : Bool) (candidates members : List Slot) :
    Passed e (e.choose now scoreUpdate candidates members).1 := by
  unfold choose
  dsimp only
  split
  · exact mark_passed _ _
  · split
    · exact (mark_passed _ _).trans (adopt_passed _ _)
    · exact ((mark_passed _ _).trans (scored_passed _ _ _ _)).trans (adopt_passed _ _)

theorem disagreement_passed (b : Bool) : Passed e { e with referenceDisagreement := b } :=
  ⟨rfl, fun _ => rfl⟩

theorem pass_passed (e : Engine K) (now : Nat) (scoreUpdate : Bool) :
    Passed e (e.pass now scoreUpdate).1 := by
  unfold pass
  dsimp only
  split_ifs
  · exact (gated_passed.trans (disagreement_passed _)).trans deselect_passed
  · exact (gated_passed.trans (disagreement_passed _)).trans deselect_passed
  · exact (gated_passed.trans (disagreement_passed _)).trans deselect_passed
  · exact (gated_passed.trans (disagreement_passed _)).trans (choose_passed _ _ _)

/-! ## The discipline -/

/-- An engine without what a discipline writes of it. -/
def still (e : Engine K) : Engine K :=
  { e with
    clockValid := false
    usedGeneration := fun _ => 0
    clockRawNs := 0
    clockUtcNs := 0
    lastUpdateNs := 0
    lastSourceRawNs := 0
    generation := 0
    frequency := 0
    skew := 0
    slew := 0
    pendingPhase := 0
    frequencySkew := 0
    rootDelay := 0
    rootDispersion := 0
    dispersionRawNs := 0
    selected := none
    combinedCount := 0
    leap := .normal
    networkFrequencyPpb := 0
    networkFrequencyUncertaintyPpb := 0
    frequencyReferenceState := .none
    updates := [] }

/-- An engine without what an advance writes of it. -/
def unclocked (e : Engine K) : Engine K :=
  { e with
    clockRawNs := 0
    clockUtcNs := 0
    slew := 0
    pendingPhase := 0
    rootDispersion := 0
    dispersionRawNs := 0 }

theorem advance_unclocked : (e.advance now).unclocked = e.unclocked := by
  unfold advance
  split_ifs <;> rfl

theorem advance_still : (e.advance now).still = e.still := by
  unfold advance
  split_ifs <;> rfl

theorem settle_still (reference : Nat) : (e.settle reference now).still = e.still := by
  unfold settle
  split_ifs
  · rfl
  · exact advance_still

theorem blend_still (estimate : CombinedEstimate K) : (e.blend estimate now).still = e.still := by
  unfold blend
  dsimp only
  split_ifs <;> rfl

theorem compareReference_still : (e.compareReference now).still = e.still := by
  unfold compareReference
  split_ifs <;> rfl

theorem discipline_still (e : Engine K) (now : Nat) (slot : Slot) (combined : List Slot) :
    (e.discipline slot combined now).still = e.still := by
  unfold discipline
  split_ifs
  · rfl
  · calc _ = (((((e.markUsed combined).settle (e.referenceUtc slot combined now) now).blend
          (combineSources (e.estimates slot combined now)) now).withNetwork
            (combineSources (e.estimates slot combined now))).compareReference now).still := rfl
      _ = ((((e.markUsed combined).settle (e.referenceUtc slot combined now) now).blend
          (combineSources (e.estimates slot combined now)) now).withNetwork
            (combineSources (e.estimates slot combined now))).still := compareReference_still
      _ = (((e.markUsed combined).settle (e.referenceUtc slot combined now) now).blend
          (combineSources (e.estimates slot combined now)) now).still := rfl
      _ = ((e.markUsed combined).settle (e.referenceUtc slot combined now) now).still :=
          blend_still _
      _ = (e.markUsed combined).still := settle_still _
      _ = e.still := rfl

/-! ### Its steps -/

/-- An engine without its frequency. -/
def unrated (e : Engine K) : Engine K :=
  { e with
    frequency := 0
    skew := 0
    frequencySkew := 0
    networkFrequencyPpb := 0
    networkFrequencyUncertaintyPpb := 0
    frequencyReferenceState := .none }

/-- The frequency a discipline gives the clock. -/
def rated (e : Engine K) (estimate : CombinedEstimate K) (now : Nat) : Engine K :=
  ((e.blend estimate now).withNetwork estimate).compareReference now

theorem blend_unrated (estimate : CombinedEstimate K) :
    (e.blend estimate now).unrated = e.unrated := by
  unfold blend
  dsimp only
  split_ifs <;> rfl

theorem compareReference_unrated : (e.compareReference now).unrated = e.unrated := by
  unfold compareReference
  split_ifs <;> rfl

theorem rated_unrated (estimate : CombinedEstimate K) :
    (e.rated estimate now).unrated = e.unrated := by
  have hblend : (e.blend estimate now).unrated = e.unrated := blend_unrated estimate
  exact compareReference_unrated.trans hblend

/-- The clock settled before the frequency of a discipline. -/
def settled (e : Engine K) (slot : Slot) (combined : List Slot) (now : Nat) : Engine K :=
  (e.markUsed combined).settle (e.referenceUtc slot combined now) now

theorem discipline_kept (combined : List Slot) (h : e.changed slot = false) :
    e.discipline slot combined now = e := by
  unfold discipline
  rw [h]
  rfl

theorem discipline_eq (combined : List Slot) (h : e.changed slot = true) :
    e.discipline slot combined now =
      (((e.settled slot combined now).rated (combineSources (e.estimates slot combined now))
        now).steer (combineSources (e.estimates slot combined now)).offsetSd
          (e.referenceUtc slot combined now) now).publish slot combined
            (e.referenceDistance slot combined now) now := by
  unfold discipline
  rw [h]
  rfl

theorem discipline_sources (combined : List Slot) :
    (e.discipline slot combined now).sources = e.sources := by
  have h := congrArg Engine.sources (e.discipline_still now slot combined)
  exact h

/-! ## The whole selection -/

theorem select_cases (e : Engine K) (now : Nat) (scoreUpdate : Bool) :
    ((e.pass now scoreUpdate).2 = none ∧ e.select now scoreUpdate = (e.pass now scoreUpdate).1) ∨
    ∃ slot combined, (e.pass now scoreUpdate).2 = some (slot, combined) ∧
      e.select now scoreUpdate = (e.pass now scoreUpdate).1.discipline slot combined now := by
  unfold select
  rcases e.pass now scoreUpdate with ⟨e', - | ⟨slot, combined⟩⟩
  · exact .inl ⟨rfl, rfl⟩
  · exact .inr ⟨slot, combined, rfl, rfl⟩

theorem select_core (e : Engine K) (now : Nat) (scoreUpdate : Bool) (i : Slot) :
    ((e.select now scoreUpdate).sources i).core = (e.sources i).core := by
  have hpass := (e.pass_passed now scoreUpdate).core i
  obtain ⟨-, h⟩ | ⟨slot, combined, -, h⟩ := e.select_cases now scoreUpdate
  · rw [h, hpass]
  · rw [h, discipline_sources, hpass]

end Engine

/-! ## Views of the sources -/

/-- What `v` shows of each source is the same. -/
def Same {α : Type} (v : Source K → α) (e e' : Engine K) : Prop :=
  ∀ i, v (e'.sources i) = v (e.sources i)

namespace Same

variable {α : Type} {v : Source K → α}

theorem refl : Same v e e := fun _ => rfl

theorem trans (h : Same v e e') (h' : Same v e' e'') : Same v e e'' :=
  fun i => (h' i).trans (h i)

theorem modify {f : Source K → Source K} (h : v (f (e.sources slot)) = v (e.sources slot)) :
    Same v e (e.modify slot f) := by
  intro i
  by_cases hi : i = slot
  · subst hi
    simpa [Engine.modify] using h
  · simp [Engine.modify, hi]

theorem select (hv : ∀ s, v s.core = v s) (scoreUpdate : Bool) :
    Same v e (e.select now scoreUpdate) := by
  intro i
  rw [← hv, e.select_core now scoreUpdate i, hv]

end Same

theorem modify_same (e : Engine K) (slot : Slot) (f : Source K → Source K) :
    (e.modify slot f).sources slot = f (e.sources slot) := by
  simp [Engine.modify]

theorem modify_other (e : Engine K) (f : Source K → Source K) (h : i ≠ slot) :
    (e.modify slot f).sources i = e.sources i := by
  simp [Engine.modify, h]

theorem networkSlot_ne {n : Nat} (h : networkSlot n = some slot) : slot ≠ referenceSlot := by
  unfold networkSlot at h
  split at h
  · cases h
    intro heq
    have hval := congrArg Fin.val heq
    simp only [referenceSlot] at hval
    omega
  · cases h

/-! ## Samples and fits -/

namespace Source

variable {config : Config K} {s : Source K} {noise : NoiseScale K} {m : Measurement K}

/-- A source without its fit. -/
def unfitted (s : Source K) : Source K :=
  { s with
    fitStart := 0
    asymmetry := 0
    asymmetryEvidence := 0
    status := { s.status with estimate := {} } }

theorem learn_unfitted : (s.learn config).unfitted = s.unfitted := by
  unfold learn
  dsimp only
  split_ifs <;> rfl

theorem fitFrom_unfitted {fuel : Nat} :
    (s.fitFrom config noise fuel).unfitted = s.unfitted := by
  induction fuel generalizing s with
  | zero => rfl
  | succ fuel ih =>
    unfold fitFrom
    dsimp only
    split_ifs
    · rfl
    · rw [ih]
      rfl
    · rfl

theorem fit_unfitted : (s.fit config).unfitted = s.unfitted := by
  unfold fit
  split_ifs
  · rfl
  · rw [fitFrom_unfitted, learn_unfitted]

end Source

/-! ## Runs -/

def trace : List Call → Engine K → List (Engine K × Call)
  | [], _ => []
  | call :: calls, e => (e, call) :: trace calls (call.exec e)

theorem run_snoc (calls : List Call) (call : Call) (e : Engine K) :
    run (calls ++ [call]) e = call.exec (run calls e) := by
  simp [run]

theorem trace_snoc (calls : List Call) (call : Call) (e : Engine K) :
    trace (calls ++ [call]) e = trace calls e ++ [(run calls e, call)] := by
  induction calls generalizing e with
  | nil => rfl
  | cons first calls ih =>
    rw [List.cons_append, trace, ih, trace, List.cons_append]
    rfl

theorem run_induction {P : List Call → Engine K → Prop} {e : Engine K} (hfirst : P [] e)
    (hcall : ∀ calls call, P calls (run calls e) → P (calls ++ [call]) (call.exec (run calls e)))
    (calls : List Call) : P calls (run calls e) := by
  induction calls using List.reverseRecOn with
  | nil => exact hfirst
  | append_singleton calls call ih =>
    rw [run_snoc]
    exact hcall calls call ih

/-! ## Calls that leave the sources -/

open Engine

theorem advance_sources : (e.advance now).sources = e.sources := by
  have hstill : (e.advance now).still = e.still := advance_still
  exact of_view hstill Engine.sources fun _ => rfl

theorem seed_sources (frequencyPpb : Int) (skewPpb : Nat) :
    (e.seed frequencyPpb skewPpb).sources = e.sources := by
  unfold seed
  split_ifs <;> rfl

theorem observeFrequencyReference_sources (r : FrequencyReference) :
    (e.observeFrequencyReference r now).2.sources = e.sources := by
  unfold observeFrequencyReference
  dsimp only
  split_ifs
  · rfl
  · exact advance_sources
  · exact advance_sources
  · exact advance_sources

theorem clearFrequencyReference_sources :
    (e.clearFrequencyReference now).sources = e.sources := by
  unfold clearFrequencyReference
  split_ifs
  · rfl
  · exact advance_sources

theorem retireFrequencyReference_sources :
    (e.retireFrequencyReference now).sources = e.sources := by
  unfold retireFrequencyReference
  split_ifs
  · rfl
  · exact advance_sources

end WsprryPico.Microchrony
