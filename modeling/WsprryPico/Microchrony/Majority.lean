import WsprryPico.Microchrony.Selection

/-!
# Agreeing majorities

Every pass of a run selects in an agreeing majority of the largest size, and the scores that move
the selection grow only with what a call accepts.
-/

namespace WsprryPico.Microchrony

open Engine

variable {K : Type} [Scalar K]
  {e e' e₀ : Engine K} {now t : Nat} {b : Bool} {slot i best current : Slot} {call : Call}
  {candidates members : List Slot} {rank : Slot → WithTop K} {config : Config K}

/-! ## Scores -/

def Engine.score (e : Engine K) (i : Slot) : K := (e.sources i).status.selectionScore

/-- A score stays, or begins again, or is one of a pass that scores. -/
def Rescored (b : Bool) (old new : K) : Prop := new = old ∨ new = 1 ∨ b = true ∧ 1 ≤ new

namespace Rescored

variable {x y z : K}

theorem refl : Rescored b x x := .inl rfl

theorem trans (h : Rescored b x y) (h' : Rescored b y z) : Rescored b x z := by
  rcases h' with rfl | rfl | h'
  · exact h
  · exact .inr (.inl rfl)
  · exact .inr (.inr h')

theorem one_le (h : Rescored b x y) (hx : 1 ≤ x) : 1 ≤ y := by
  rcases h with rfl | rfl | ⟨-, h⟩
  · exact hx
  · exact le_refl _
  · exact h

theorem of_lt (h : Rescored b x y) (hx : 1 ≤ x) (hlt : x < y) : b = true := by
  rcases h with rfl | rfl | ⟨hb, -⟩
  · exact absurd hlt (lt_irrefl _)
  · exact absurd hlt (not_lt.mpr hx)
  · exact hb

end Rescored

theorem mark_score : Rescored b (e.score i) ((e.mark candidates members).score i) := by
  unfold score mark
  dsimp only
  split_ifs
  · exact .inl rfl
  · exact .inr (.inl rfl)
  · exact .inl rfl

theorem scored_score :
    Rescored b (e.score i) ((e.scored rank b candidates current).score i) := by
  unfold scored score
  split_ifs with hb
  · unfold rescore
    dsimp only
    split_ifs
    · exact .inr (.inr ⟨hb, le_max_left _ _⟩)
    · exact .inl rfl
  · exact .inl rfl

theorem adopt_score : Rescored b (e.score i) ((e.adopt now candidates best).1.score i) := by
  unfold adopt score
  split_ifs
  · exact .inr (.inl rfl)
  · exact .inl rfl

theorem choose_score : Rescored b (e.score i) ((e.choose now b candidates members).1.score i) := by
  unfold choose
  dsimp only
  split
  · exact mark_score
  · split
    · exact mark_score.trans adopt_score
    · exact (mark_score.trans scored_score).trans adopt_score

theorem gated_score : (e.gated now).score i = e.score i := by
  unfold gated score Source.gate
  dsimp only
  split_ifs <;> rfl

theorem pass_score : Rescored b (e.score i) ((e.pass now b).1.score i) := by
  have hexamined : (e.examined now).score i = e.score i := gated_score
  rw [pass_eq]
  split_ifs
  · exact .inl hexamined
  · exact .inl hexamined
  · exact .inl hexamined
  · rw [← hexamined]
    exact choose_score

theorem select_score : Rescored b (e.score i) ((e.select now b).score i) := by
  obtain ⟨-, h⟩ | ⟨slot, combined, -, h⟩ := e.select_cases now b
  · rw [h]
    exact pass_score
  · have hscore : (e.select now b).score i = (e.pass now b).1.score i := by
      rw [h, score, discipline_sources, score]
    rw [hscore]
    exact pass_score

theorem modify_score {f : Source K → Source K}
    (h : Rescored b (e.score slot) (f (e.sources slot)).status.selectionScore) :
    Rescored b (e.score i) ((e.modify slot f).score i) := by
  unfold score
  by_cases hi : i = slot
  · subst hi
    rw [modify_same]
    exact h
  · rw [modify_other _ _ hi]
    exact .refl

theorem withdrawn_score : Rescored b (e.score i) ((e.withdrawn slot).score i) := by
  by_cases hi : i = slot
  · subst hi
    refine .inr (.inl ?_)
    unfold score withdrawn
    simp only [modify_same, withUsed, clear]
  · unfold score
    rw [withdrawn_other hi]
    exact .refl

theorem toggled_score (enabled : Bool) : Rescored b (e.score i) ((e.toggled enabled).score i) := by
  unfold score toggled
  by_cases hi : i = referenceSlot
  · subst hi
    refine .inr (.inl ?_)
    simp only [modify_same, withUsed, clear]
  · simp only [modify_other _ _ hi, withUsed, clear]
    exact .refl

theorem append_score (s : Source K) (config : Config K) (room : Nat) (m : Measurement K)
    (now : Nat) : (s.append config room m now).status.selectionScore = s.status.selectionScore := by
  have h : (s.append config room m now).exchange = s.exchange := Source.append_exchange room
  exact congrArg (fun x => x.2.2) h

theorem adaptPoll_score (s : Source K) :
    (adaptPoll config s).status.selectionScore = s.status.selectionScore := by
  unfold adaptPoll
  dsimp only
  split_ifs <;> rfl

theorem shiftReach_score (s : Source K) :
    (shiftReach s).status.selectionScore = s.status.selectionScore := by
  unfold shiftReach
  split_ifs <;> rfl

theorem measurePass_score {packet : List UInt8}
    (h : e.measurePass slot packet now = some (e₀, t, b)) :
    Rescored b (e.score i) (e₀.score i) := by
  unfold measurePass accepted at h
  dsimp only at h
  split_ifs at h
  split at h
  · cases h
  · cases h
    refine (modify_score (.inl rfl)).trans ((modify_score (.inl ?_)).trans (modify_score (.inl ?_)))
    · exact append_score _ _ _ _ _
    · exact adaptPoll_score _

theorem answeredPass_score {packet : List UInt8}
    (h : e.answeredPass slot packet now = some (e₀, t, b)) :
    Rescored b (e.score i) (e₀.score i) := by
  unfold answeredPass refused unserved at h
  split_ifs at h
  · cases h
    exact (modify_score (.inl rfl)).trans (modify_score (.inl rfl))
  · cases h
    exact (modify_score (.inl rfl)).trans (modify_score (.inl rfl))
  · exact Rescored.trans (modify_score (.inl rfl)) (measurePass_score h)

theorem appendEpoch_score (o : ReferenceObservation) :
    Rescored b (e.score i) ((e.appendEpoch o).score i) := by
  unfold score
  by_cases hi : i = referenceSlot
  · subst hi
    unfold appendEpoch
    rw [modify_same, append_score, modify_same]
    split_ifs
    · rw [modify_same, clear, modify_same]
      exact .inr (.inl rfl)
    · exact .refl
  · rw [appendEpoch_other o hi]
    exact .refl

theorem passes_score (h : call.passes e = some (e₀, t, b)) : Rescored b (e.score i) (e₀.score i) := by
  cases Call.passing h with
  | configure | remove => exact withdrawn_score
  | reset =>
    unfold restarted score
    dsimp only
    split_ifs
    · exact .refl
    · exact .inr (.inl rfl)
  | online =>
    unfold switched score
    dsimp only
    split_ifs <;> exact .refl
  | referenceClock => exact toggled_score _
  | @observeReference o =>
    have hsources : ((e.appendEpoch o).compareEpoch t).score i = (e.appendEpoch o).score i := by
      rw [score, compareEpoch_sources, score]
    rw [hsources]
    exact appendEpoch_score o
  | poll => exact .refl
  | request => exact Rescored.trans (modify_score (.inl (shiftReach_score _))) (modify_score (.inl rfl))
  | receive _ h => exact answeredPass_score h

theorem exec_score (call : Call) (e : Engine K) (i : Slot) :
    Rescored (call.accepted e) (e.score i) ((call.exec e).score i) := by
  have hpass := exec_pass call e
  split at hpass
  · have hscore : (call.exec e).score i = e.score i :=
      congrArg (fun shown => shown.2.2.2.2) (hpass.2.shown i)
    rw [hscore]
    exact .refl
  · rename_i e₀ t b hsome
    have hscore : (call.exec e).score i = (e₀.select t b).score i :=
      congrArg (fun shown => shown.2.2.2.2) (hpass.2.shown i)
    rw [hscore, hpass.1]
    exact (passes_score hsome).trans select_score

theorem run_score [IsStrictOrderedRing K] (config : Config K) (calls : List Call) (i : Slot) :
    1 ≤ (run calls (construct config)).score i := by
  refine run_induction (P := fun _ e => 1 ≤ e.score i) (le_refl 1) ?_ calls
  intro calls call ih
  exact (exec_score call _ i).one_le ih

/-! ## Every pass of a run -/

theorem passes_fitted (config : Config K) (calls : List Call)
    (h : call.passes (run calls (construct config)) = some (e₀, t, b)) (i : Slot) :
    (e₀.sources i).Fitted := by
  have hrecorded := run_recorded config calls
  exact (passes_renewed hrecorded.observed h i).fitted (hrecorded.fitted i)

/-- What a pass at `now` leaves, when it selects `best` from `e`. -/
structure Elected (e : Engine K) (now : Nat) (best : Slot) (e' : Engine K)
    (sources : Finset Slot) : Prop where
  selectable : ∀ i, i ∈ sources ↔ (e'.sources i).status.selectable = true
  majority : e.Majority now sources
  largest : ∀ others ⊆ e.passing now, e.CommonPoint now others → others.card ≤ sources.card
  selected : ∀ i, (e'.sources i).status.selected = true ↔ i = best
  mem : best ∈ sources
  combined : ∀ i, (e'.sources i).status.combined = true → i ∈ sources
  falseticker : ∀ i ∈ e.passing now, i ∉ sources → (e'.sources i).status.reason = .falseticker

theorem Engine.Marked.elected [IsStrictOrderedRing K] {combined : List Slot}
    (h : Marked (e.agreeing now) (e.candidates now) best combined e')
    (hmajority : e.Majority now (e.agreeing now).toFinset) :
    Elected e now best e' (e.agreeing now).toFinset where
  selectable := fun i => by rw [h.selectable, List.mem_toFinset, decide_eq_true_eq]
  majority := hmajority
  largest := fun others hothers hcommon => by
    rw [agreeing_card]
    exact (e.agreeing_spec now).2.2 others hothers hcommon
  selected := fun i => by rw [h.selected, decide_eq_true_eq]
  mem := List.mem_toFinset.mpr h.best_mem
  combined := fun i hi => by
    rw [h.combined, decide_eq_true_eq] at hi
    exact List.mem_toFinset.mpr (h.combined_mem i hi)
  falseticker := fun i hi hmem =>
    h.falseticker i (List.mem_toFinset.mp hi) fun hi' => hmem (List.mem_toFinset.mpr hi')

/-- The score a source has in a pass against the current one. -/
def Engine.scoreAgainst (e : Engine K) (now : Nat) (scoreUpdate : Bool) (current i : Slot) : K :=
  ((e.examined now).contested now scoreUpdate (e.candidates now) (e.agreeing now) current).score i

/-- The rule of a pass of `e` at `now`. -/
structure Rule (e : Engine K) (now : Nat) (scoreUpdate : Bool) (e' : Engine K) : Prop where
  gates : ∀ i, i ∈ e.passing now ↔ e.Gated now i
  elected : ∀ best, e'.selected = some best → ∃ sources, Elected e now best e' sources
  selects : e'.referenceDisagreement = false → (∃ sources, e.Majority now sources) →
    e'.selected ≠ none
  otherwise : (e'.referenceDisagreement = true ∨ ¬ ∃ sources, e.Majority now sources) →
    e'.selected = none ∧ ∀ t, (e'.tracking t).synchronized = false
  stays : ∀ current best, e.selected = some current → (e'.sources current).status.selectable = true →
    e'.selected = some best → best ≠ current → 10 ≤ e.scoreAgainst now scoreUpdate current best

theorem select_rule [IsStrictOrderedRing K] (hfitted : ∀ i, (e.sources i).Fitted) :
    Rule e now b (e.select now b) := by
  obtain ⟨hdisagreement, ⟨hagrees, hmajority, best, combined, hselected, hmarked, hscore⟩ |
    ⟨hnot, hnone⟩⟩ := select_spec now b hfitted
  · refine ⟨fun i => mem_passing, ?_, ?_, ?_, ?_⟩
    · intro best' hbest'
      obtain rfl : best = best' := Option.some.inj (hselected.symm.trans hbest')
      exact ⟨_, hmarked.elected hmajority⟩
    · intro _ _
      rw [hselected]
      exact Option.some_ne_none best
    · intro hor
      rw [hdisagreement, hagrees] at hor
      exact absurd ⟨_, hmajority⟩ (hor.resolve_left Bool.false_ne_true)
    · intro current best' hcurrent hselectable hbest' hne
      obtain rfl : best = best' := Option.some.inj (hselected.symm.trans hbest')
      rw [hmarked.selectable, decide_eq_true_eq] at hselectable
      exact hscore current hcurrent hselectable hne
  · refine ⟨fun i => mem_passing, ?_, ?_, ?_, ?_⟩
    · intro best hbest
      rw [hnone] at hbest
      cases hbest
    · rintro hfalse ⟨sources, hmajority⟩
      rw [hdisagreement] at hfalse
      rw [hfalse] at hnot
      exact absurd hmajority.agreeing (hnot.resolve_left Bool.false_ne_true)
    · exact fun _ => ⟨hnone, unsynchronized_of_none hnone⟩
    · intro current best _ _ hbest
      rw [hnone] at hbest
      cases hbest

/-- Every pass of a run keeps the rule and shows in the call that makes it, and only an accepted
measurement or observation raises a score. -/
theorem selections_agree [IsStrictOrderedRing K] (config : Config K) (calls : List Call)
    (call : Call) :
    (∀ e now scoreUpdate, call.passes (run calls (construct config)) = some (e, now, scoreUpdate) →
      Rule e now scoreUpdate (e.select now scoreUpdate) ∧
      Alike (e.select now scoreUpdate) (call.exec (run calls (construct config))) ∧
      call.accepted (run calls (construct config)) = scoreUpdate) ∧
    (call.passes (run calls (construct config)) = none →
      Stays (run calls (construct config)) (call.exec (run calls (construct config)))) ∧
    ∀ i, (run calls (construct config)).score i <
        (call.exec (run calls (construct config))).score i →
      call.accepted (run calls (construct config)) = true := by
  have hpass := exec_pass call (run calls (construct config))
  refine ⟨fun e now scoreUpdate h => ?_, fun h => ?_, fun i hlt => ?_⟩
  · rw [h] at hpass
    exact ⟨select_rule (passes_fitted config calls h), hpass.2, hpass.1⟩
  · rw [h] at hpass
    exact hpass.2
  · exact (exec_score call _ i).of_lt (run_score config calls i) hlt

/-- The configuration of the source, over the rationals. -/
def stock : Config ℚ := {}

/-- An NTP timestamp of a UTC. -/
def stampOf (utcNs : Nat) : List UInt8 :=
  let seconds := utcNs / second + 2208988800
  let fraction := utcNs % second * 2 ^ 32 / second
  ([24, 16, 8, 0].map fun shift => byte (seconds >>> shift)) ++
    [24, 16, 8, 0].map fun shift => byte (fraction >>> shift)

/-- The answer of a server to the request with `token`. -/
def answer (token serverNs : Nat) : List UInt8 :=
  ([0x24, 1, 0, 0xe6] : List UInt8) ++ List.replicate 12 (0 : UInt8) ++
    stampOf (serverNs - second) ++
    ([56, 48, 40, 32, 24, 16, 8, 0].map fun shift => byte (token >>> shift)) ++
    stampOf serverNs ++ stampOf serverNs

/-- A server whose clock is fast by ten parts in a million. -/
def fastServer (rawNs : Nat) : Nat := 1800000000 * second + rawNs + rawNs / 100000

/-- A request and its answer around `rawNs`. -/
def exchangeAt (rawNs : Nat) : List (Nat × Call) :=
  [(rawNs - 1000000, .request 0 (rawNs - 1000000) rawNs true),
    (rawNs + 1000000, .receive 0 (answer rawNs (fastServer rawNs)) (rawNs + 1000000))]

/-- Three measurements, 64 s apart. -/
def threeMeasurements : List (Nat × Call) :=
  (0, .configure 0 1 0) :: exchangeAt (64 * second) ++ exchangeAt (128 * second) ++
    exchangeAt (192 * second)

/-- The reply of the third measurement brings its source to a majority. -/
theorem selections_agree_third :
    let e := run (threeMeasurements.dropLast.map Prod.snd) (construct stock)
    let reply : Call := .receive 0 (answer (192 * second) (fastServer (192 * second)))
      (192 * second + 1000000)
    ∃ e' now, reply.passes e = some (e', now, true) ∧ Rule e' now true (e'.select now true) ∧
      (e'.select now true).selected.isSome = true := by
  intro e reply
  have hpasses : ((reply.passes e).any fun (e', now, scoreUpdate) =>
      scoreUpdate && (e'.select now true).selected.isSome) = true := by decide +kernel
  rcases h : reply.passes e with - | ⟨e', now, scoreUpdate⟩
  · rw [h] at hpasses
    cases hpasses
  · rw [h, Option.any_some, Bool.and_eq_true] at hpasses
    obtain ⟨rfl, hselected⟩ := hpasses
    exact ⟨e', now, rfl, ((selections_agree stock _ reply).1 _ _ _ h).1, hselected⟩

end WsprryPico.Microchrony
