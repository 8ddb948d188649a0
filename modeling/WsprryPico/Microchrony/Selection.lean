import WsprryPico.Lib.Agreement
import WsprryPico.Microchrony.Histories

/-!
# The selection of a source

A pass selects among the sources within the gates the first largest set whose intervals have a
common point, when it is more than half of them, and a source of that set.
-/

namespace WsprryPico.Microchrony

open Lib Engine

variable {K : Type} [Scalar K]
  {e e' e₀ : Engine K} {now t : Nat} {b : Bool} {slot i best current : Slot} {call : Call}
  {candidates members combined : List Slot} {rank : Slot → WithTop K}

/-! ## What a selection is to find -/

namespace Engine

/-- A source is within the gates: it is reached and fitted, the reference clock is fresh, and its
distance and jitter are small enough. -/
structure Gated (e : Engine K) (now : Nat) (i : Slot) : Prop where
  usable : (e.sources i).usable = true
  fresh : i = referenceSlot → (e.sources i).fresh now = true
  distance : (e.sources i).distance e.config now ≤ (e.config.maxDistance : WithTop K)
  jitter : (e.sources i).status.estimate.jitter ≤ e.config.maxJitter

/-- The sources within the gates. -/
def passing (e : Engine K) (now : Nat) : Finset Slot := (e.candidates now).toFinset

/-- The times, in seconds, that lie within the distance of a source from its UTC. -/
def around (e : Engine K) (now : Nat) (i : Slot) : Set K :=
  let center : K := ((e.sources i).utc now : K) / billion
  let radius := ((e.sources i).distance e.config now).untopD 0
  Set.Icc (center - radius) (center + radius)

/-- The intervals of a set of sources have a common point. -/
def CommonPoint (e : Engine K) (now : Nat) (sources : Finset Slot) : Prop :=
  ∃ x, ∀ i ∈ sources, x ∈ e.around now i

/-- An agreeing majority of the sources within the gates. -/
structure Majority (e : Engine K) (now : Nat) (sources : Finset Slot) : Prop where
  subset : sources ⊆ e.passing now
  common : e.CommonPoint now sources
  half : (e.passing now).card < 2 * sources.card
  enough : e.config.minSources ≤ sources.card

theorem gate_iff : ((e.sources i).gate e.config now i).2 = true ↔ e.Gated now i := by
  unfold Source.gate
  dsimp only
  constructor
  · intro h
    split_ifs at h with husable hfresh hdistance hjitter
    rw [Bool.not_eq_true', Bool.not_eq_false] at husable
    refine ⟨husable, fun hi => ?_, not_lt.mp hdistance, not_lt.mp hjitter⟩
    by_contra hold
    refine hfresh ⟨hi, ?_⟩
    rw [Bool.not_eq_true', ← Bool.not_eq_true]
    exact hold
  · intro h
    have husable : (e.sources i).clearFlags.usable = true := h.usable
    have hfresh : ¬ (i = referenceSlot ∧ (!(e.sources i).clearFlags.fresh now) = true) := by
      rintro ⟨hi, hold⟩
      have hnew : (e.sources i).clearFlags.fresh now = true := h.fresh hi
      simp [hnew] at hold
    have hdistance : ¬ ((e.config.maxDistance : WithTop K) <
        (e.sources i).clearFlags.distance e.config now) := not_lt.mpr h.distance
    have hjitter : ¬ e.config.maxJitter < (e.sources i).clearFlags.status.estimate.jitter :=
      not_lt.mpr h.jitter
    rw [husable, if_neg (by simp), if_neg hfresh, if_neg hdistance, if_neg hjitter]

theorem mem_candidates : i ∈ e.candidates now ↔ e.Gated now i := by
  unfold candidates
  rw [List.mem_filter, gate_iff]
  simp

theorem mem_passing : i ∈ e.passing now ↔ e.Gated now i := by
  rw [passing, List.mem_toFinset, mem_candidates]

theorem candidates_nodup : (e.candidates now).Nodup := (List.nodup_finRange 5).filter _

theorem passing_card : (e.passing now).card = (e.candidates now).length :=
  List.toFinset_card_of_nodup candidates_nodup

/-! ## The largest set -/

theorem chosen_eq_picked (candidates : List Slot) (mask : Nat) :
    chosen candidates mask = picked candidates mask := rfl

theorem chosen_sublist (candidates : List Slot) (mask : Nat) :
    (chosen candidates mask).Sublist candidates := picked_sublist candidates mask

theorem difference_eq [IsStrictOrderedRing K] (a b : Nat) :
    (difference a b : K) = ((a : K) - b) / billion := by
  unfold difference
  split_ifs with h
  · rw [Nat.cast_sub h]
  · rw [Nat.cast_sub (by omega)]
    ring

theorem interval_iff [IsStrictOrderedRing K] (origin : Nat) (x : K) :
    let interval := (e.sources i).interval e.config now origin
    (interval.1 ≤ x ∧ x ≤ interval.2) ↔ x + (origin : K) / billion ∈ e.around now i := by
  dsimp only [Source.interval, around]
  rw [difference_eq, Set.mem_Icc, sub_div]
  constructor
  · rintro ⟨hlow, hhigh⟩
    exact ⟨by linarith, by linarith⟩
  · rintro ⟨hlow, hhigh⟩
    exact ⟨by linarith, by linarith⟩

theorem foldl_meet (intervals : List (K × K)) :
    intervals.foldl meet none = intervals.foldl meetStep none := by
  have hmeet : (meet : Option (K × K) → K × K → Option (K × K)) = meetStep := by
    funext common interval
    rcases common with - | ⟨low, high⟩ <;> rfl
  rw [hmeet]

theorem agrees_iff [IsStrictOrderedRing K] {mask : Nat} (hne : chosen candidates mask ≠ []) :
    e.agrees now candidates mask = true ↔ e.CommonPoint now (chosen candidates mask).toFinset := by
  have hcode : e.agrees now candidates mask = true ↔ ∀ part,
      ((chosen candidates mask).map fun i => (e.sources i).interval e.config now
        ((e.sources (candidates.headD 0)).utc now)).foldl meetStep none = some part →
      part.1 ≤ part.2 := by
    rw [← foldl_meet, List.foldl_map]
    unfold agrees
    dsimp only
    rcases List.foldl _ none (chosen candidates mask) with - | ⟨low, high⟩ <;> simp
  rw [hcode, ← common_point_iff (by simpa using hne)]
  simp only [List.forall_mem_map, interval_iff, CommonPoint, List.mem_toFinset]
  constructor
  · rintro ⟨x, hx⟩
    exact ⟨_, hx⟩
  · rintro ⟨x, hx⟩
    refine ⟨x - ((e.sources (candidates.headD 0)).utc now : K) / billion, fun i hi => ?_⟩
    rw [sub_add_cancel]
    exact hx i hi

/-- The largest set is one of the candidates with a common point, if it is one at all, and no such
set is larger. -/
theorem largest_spec [IsStrictOrderedRing K] (e : Engine K) (now : Nat) (candidates : List Slot)
    (hnodup : candidates.Nodup) :
    (e.largest now candidates).Sublist candidates ∧
    (e.largest now candidates ≠ [] → e.CommonPoint now (e.largest now candidates).toFinset) ∧
    ∀ sources : Finset Slot, sources ⊆ candidates.toFinset → e.CommonPoint now sources →
      sources.card ≤ (e.largest now candidates).length := by
  have hlargest : e.largest now candidates =
      (List.range' 1 (2 ^ candidates.length - 1)).foldl
        (largerStep (fun mask => e.agrees now candidates mask = true) (chosen candidates)) [] := rfl
  have hmem : e.largest now candidates = [] ∨
      ∃ mask ∈ List.range' 1 (2 ^ candidates.length - 1),
        e.agrees now candidates mask = true ∧ e.largest now candidates = chosen candidates mask :=
    foldl_mem _ _
  refine ⟨?_, ?_, ?_⟩
  · obtain h | ⟨mask, -, -, h⟩ := hmem
    · rw [h]
      exact List.nil_sublist _
    · rw [h]
      exact chosen_sublist _ _
  · intro hne
    obtain h | ⟨mask, -, hok, h⟩ := hmem
    · exact absurd h hne
    · rw [h] at hne ⊢
      exact (agrees_iff hne).mp hok
  · intro sources hsub hcommon
    rcases sources.eq_empty_or_nonempty with rfl | ⟨i, hi⟩
    · simp
    obtain ⟨mask, hlt, hmask⟩ := exists_mask candidates fun i => decide (i ∈ sources)
    have hset : (chosen candidates mask).toFinset = sources := by
      rw [chosen_eq_picked, hmask]
      ext j
      simp only [List.mem_toFinset, List.mem_filter, decide_eq_true_eq, and_iff_right_iff_imp]
      exact fun hj => List.mem_toFinset.mp (hsub hj)
    have hne : chosen candidates mask ≠ [] := by
      intro hnil
      rw [hnil, List.toFinset_nil] at hset
      rw [← hset] at hi
      exact absurd hi (Finset.notMem_empty i)
    have hpos : 0 < mask := by
      rcases Nat.eq_zero_or_pos mask with rfl | hpos
      · exact absurd (by simp [chosen]) hne
      · exact hpos
    have hok : e.agrees now candidates mask = true := by
      rw [agrees_iff hne, hset]
      exact hcommon
    rw [hlargest, ← hset,
      List.toFinset_card_of_nodup ((chosen_sublist candidates mask).nodup hnodup)]
    exact foldl_largest (by rw [List.mem_range'_1]; omega) hok

/-! ## The choice of a pass -/

theorem nearest_mem_or (best : Option Slot × WithTop K)
    (hbest : ∀ i, best.1 = some i → i ∈ members) :
    ∀ {l : List Slot}, l ⊆ members → ∀ i, (l.foldl (fun (best : Option Slot × WithTop K) i =>
      if rank i < best.2 then (some i, rank i) else best) best).1 = some i → i ∈ members := by
  intro l
  induction l generalizing best with
  | nil => exact fun _ => hbest
  | cons j l ih =>
    intro hl
    rw [List.foldl_cons]
    refine ih _ ?_ (fun k hk => hl (List.mem_cons_of_mem _ hk))
    intro i hi
    split_ifs at hi
    · cases hi
      exact hl (List.mem_cons_self)
    · exact hbest i hi

theorem nearest_mem (h : nearest rank members = some best) : best ∈ members :=
  nearest_mem_or (none, ⊤) (fun i hi => by cases hi) (fun _ hi => hi) best h

/-- A member at a finite distance is enough for a nearest one. -/
theorem nearest_isSome (h : ∃ i ∈ members, rank i < ⊤) : nearest rank members ≠ none := by
  have hsome : ∀ (l : List Slot) (best : Option Slot × WithTop K), best.1.isSome = true →
      (l.foldl (fun (best : Option Slot × WithTop K) i =>
        if rank i < best.2 then (some i, rank i) else best) best).1.isSome = true := by
    intro l
    induction l with
    | nil => exact fun _ h => h
    | cons j l ih =>
      intro best hbest
      rw [List.foldl_cons]
      refine ih _ ?_
      split_ifs
      · rfl
      · exact hbest
  have hfind : ∀ (l : List Slot), (∃ i ∈ l, rank i < ⊤) →
      (l.foldl (fun (best : Option Slot × WithTop K) i =>
        if rank i < best.2 then (some i, rank i) else best) (none, ⊤)).1.isSome = true := by
    intro l
    induction l with
    | nil => rintro ⟨i, hi, -⟩; cases hi
    | cons j l ih =>
      rintro ⟨i, hi, hlt⟩
      rw [List.foldl_cons]
      by_cases hj : rank j < ⊤
      · rw [if_pos hj]
        exact hsome _ _ rfl
      · rw [if_neg hj]
        rcases List.mem_cons.mp hi with rfl | hi
        · exact absurd hlt hj
        · exact ih ⟨i, hi, hlt⟩
  exact Option.isSome_iff_ne_none.mp (hfind members h)

/-- The marks of a source: selectable, selected, combined, and why it is not selected. -/
def marks (s : Source K) : Bool × Bool × Bool × Rejection :=
  (s.status.selectable, s.status.selected, s.status.combined, s.status.reason)

theorem rescore_marks (current : Slot) :
    Same marks e (e.rescore rank candidates current) := by
  intro i
  unfold rescore
  dsimp only
  split_ifs <;> rfl

theorem scored_marks (e : Engine K) (rank : Slot → WithTop K) (b : Bool) (candidates : List Slot)
    (current : Slot) : Same marks e (e.scored rank b candidates current) := by
  unfold scored
  split_ifs
  · exact rescore_marks _
  · exact Same.refl

theorem gated_marks : (marks ((e.gated now).sources i)).1 = false ∧
    (marks ((e.gated now).sources i)).2.1 = false ∧
    (marks ((e.gated now).sources i)).2.2.1 = false := by
  unfold gated Source.gate
  dsimp only
  split_ifs <;> exact ⟨rfl, rfl, rfl⟩

/-- What a pass that selects leaves of the marks. -/
structure Marked (members : List Slot) (candidates : List Slot) (best : Slot)
    (combined : List Slot) (e' : Engine K) : Prop where
  best_mem : best ∈ members
  combined_mem : ∀ i ∈ combined, i ∈ members
  selectable : ∀ i, (e'.sources i).status.selectable = decide (i ∈ members)
  selected : ∀ i, (e'.sources i).status.selected = decide (i = best)
  combined : ∀ i, (e'.sources i).status.combined = decide (i ∈ combined)
  falseticker : ∀ i ∈ candidates, i ∉ members → (e'.sources i).status.reason = .falseticker

/-- No source has a mark yet. -/
def Unmarked (e : Engine K) : Prop :=
  ∀ i, (e.sources i).status.selectable = false ∧ (e.sources i).status.selected = false ∧
    (e.sources i).status.combined = false

/-- The marks before a source is chosen of the members. -/
structure Ready (members candidates : List Slot) (e : Engine K) : Prop where
  selectable : ∀ i, (e.sources i).status.selectable = decide (i ∈ members)
  selected : ∀ i, (e.sources i).status.selected = false
  combined : ∀ i, (e.sources i).status.combined = false
  falseticker : ∀ i ∈ candidates, i ∉ members → (e.sources i).status.reason = .falseticker

theorem Ready.same (h : Ready members candidates e) (hsame : Same marks e e') :
    Ready members candidates e' where
  selectable := fun i => (congrArg (·.1) (hsame i)).trans (h.selectable i)
  selected := fun i => (congrArg (·.2.1) (hsame i)).trans (h.selected i)
  combined := fun i => (congrArg (·.2.2.1) (hsame i)).trans (h.combined i)
  falseticker := fun i hi hmem => (congrArg (·.2.2.2) (hsame i)).trans (h.falseticker i hi hmem)

theorem mark_ready (h : e.Unmarked) (candidates members : List Slot) :
    Ready members candidates (e.mark candidates members) where
  selectable := fun i => by
    unfold mark
    dsimp only
    split_ifs with hmem hcand
    · simp [hmem]
    · simp [hmem, (h i).1]
    · simp [hmem, (h i).1]
  selected := fun i => by
    unfold mark
    dsimp only
    split_ifs <;> exact (h i).2.1
  combined := fun i => by
    unfold mark
    dsimp only
    split_ifs <;> exact (h i).2.2
  falseticker := fun i hi hmem => by
    unfold mark
    dsimp only
    rw [if_neg hmem, if_pos hi]

theorem adopt_marked (now : Nat) (h : Ready members candidates e) (hbest : best ∈ members) :
    ∃ combined, (e.adopt now candidates best).2 = some (best, combined) ∧
      Marked members candidates best combined (e.adopt now candidates best).1 := by
  have hready : Ready members candidates (if e.selected ≠ some best then e.resetScores else e) := by
    refine h.same fun i => ?_
    split_ifs <;> rfl
  unfold adopt
  generalize (if e.selected ≠ some best then e.resetScores else e) = e at hready
  refine ⟨e.combinable now candidates best, rfl, hbest, ?_, hready.selectable, ?_, ?_,
    hready.falseticker⟩
  · intro i hi
    unfold combinable at hi
    rw [List.mem_filter, Bool.and_eq_true, hready.selectable] at hi
    exact of_decide_eq_true hi.2.1
  · intro i
    simp [markCombined, hready.selected i]
  · intro i
    simp [markCombined, hready.combined i]

theorem challenger_spec (e : Engine K) (candidates : List Slot) (current : Slot) :
    e.challenger candidates current = current ∨
      (e.challenger candidates current ∈ candidates ∧
        (e.sources (e.challenger candidates current)).status.selectable = true ∧
        10 ≤ (e.sources (e.challenger candidates current)).status.selectionScore) := by
  let step (best : Slot × K) (i : Slot) : Slot × K :=
    if (e.sources i).status.selectable ∧ i ≠ current ∧ best.2 ≤ (e.sources i).status.selectionScore
    then (i, (e.sources i).status.selectionScore) else best
  -- The score kept is that of the source kept, or ten.
  have hfold : ∀ (l : List Slot) (best : Slot × K), l ⊆ candidates → 10 ≤ best.2 →
      (best.1 = current ∨ best.1 ∈ candidates ∧ (e.sources best.1).status.selectable = true ∧
        best.2 = (e.sources best.1).status.selectionScore) →
      10 ≤ (l.foldl step best).2 ∧ ((l.foldl step best).1 = current ∨
        (l.foldl step best).1 ∈ candidates ∧
          (e.sources (l.foldl step best).1).status.selectable = true ∧
          (l.foldl step best).2 = (e.sources (l.foldl step best).1).status.selectionScore) := by
    intro l
    induction l with
    | nil => exact fun best _ hten hbest => ⟨hten, hbest⟩
    | cons i l ih =>
      intro best hl hten hbest
      refine ih (step best i) (fun j hj => hl (List.mem_cons_of_mem _ hj)) ?_ ?_
      · by_cases h : (e.sources i).status.selectable ∧ i ≠ current ∧
          best.2 ≤ (e.sources i).status.selectionScore
        · simpa only [step, if_pos h] using hten.trans h.2.2
        · simpa only [step, if_neg h] using hten
      · by_cases h : (e.sources i).status.selectable ∧ i ≠ current ∧
          best.2 ≤ (e.sources i).status.selectionScore
        · simpa only [step, if_pos h, and_true] using .inr ⟨hl List.mem_cons_self, h.1⟩
        · simpa only [step, if_neg h] using hbest
  obtain ⟨hten, hbest⟩ := hfold candidates (current, 10) (fun _ hi => hi) (le_refl _) (.inl rfl)
  refine hbest.imp id fun h => ⟨h.1, h.2.1, ?_⟩
  exact hten.trans (le_of_eq h.2.2)

/-- The engine with the scores of a pass against the current source. -/
def contested (e : Engine K) (now : Nat) (scoreUpdate : Bool) (candidates members : List Slot)
    (current : Slot) : Engine K :=
  let e := e.mark candidates members
  e.scored (e.rankDistance now (e.minimumStratum members)) scoreUpdate candidates current

theorem selectionDistance_core (h : ∀ i, (e'.sources i).core = (e.sources i).core) :
    (e'.sources i).selectionDistance now = (e.sources i).selectionDistance now := by
  have hcore : (e'.sources i).core.selectionDistance now =
      (e.sources i).core.selectionDistance now := by rw [h i]
  exact hcore

/-- Without a usable current source the nearest is chosen, and a usable one is left only for a
challenger with a score from ten on. -/
theorem choose_spec (b : Bool) (candidates : List Slot) (hunmarked : e.Unmarked)
    (hpath : ∃ i ∈ members, (e.sources i).selectionDistance now < ⊤) :
    ∃ best combined, (e.choose now b candidates members).2 = some (best, combined) ∧
      Marked members candidates best combined (e.choose now b candidates members).1 ∧
      ∀ current, e.selected = some current → current ∈ members → best ≠ current →
        10 ≤ ((e.contested now b candidates members current).sources best).status.selectionScore := by
  have hready := mark_ready hunmarked candidates members
  have hrank : ∃ i ∈ members, (e.mark candidates members).rankDistance now
      ((e.mark candidates members).minimumStratum members) i < ⊤ := by
    obtain ⟨i, hi, hlt⟩ := hpath
    refine ⟨i, hi, ?_⟩
    unfold rankDistance
    rw [selectionDistance_core (mark_passed candidates members).core]
    exact WithTop.add_lt_top.mpr ⟨hlt, WithTop.coe_lt_top _⟩
  unfold choose contested
  dsimp only
  rcases hnearest : nearest ((e.mark candidates members).rankDistance now
      ((e.mark candidates members).minimumStratum members)) members with - | best
  · exact absurd hnearest (nearest_isSome hrank)
  rcases hcurrent : (e.mark candidates members).currentUsable with - | current
  · obtain ⟨combined, hchoice, hmarked⟩ := adopt_marked now hready (nearest_mem hnearest)
    refine ⟨best, combined, hchoice, hmarked, fun current hselected hmem => ?_⟩
    -- A current source among the members is usable.
    have husable : (e.mark candidates members).currentUsable = some current := by
      have hselected' : (e.mark candidates members).selected = some current := hselected
      unfold currentUsable
      rw [hselected']
      simp [hready.selectable, hmem]
    rw [hcurrent] at husable
    cases husable
  · unfold currentUsable at hcurrent
    obtain ⟨hselected, hmem⟩ := Option.filter_eq_some_iff.mp hcurrent
    rw [hready.selectable, decide_eq_true_eq] at hmem
    dsimp only
    generalize hrank : (e.mark candidates members).rankDistance now
      ((e.mark candidates members).minimumStratum members) = rank
    have hscored := hready.same (scored_marks _ rank b candidates current)
    have hspec := challenger_spec ((e.mark candidates members).scored rank b candidates current)
      candidates current
    generalize ((e.mark candidates members).scored rank b candidates current).challenger candidates
      current = chosen at hspec
    have hchosen : chosen ∈ members := by
      rcases hspec with rfl | ⟨-, hselectable, -⟩
      · exact hmem
      · rwa [hscored.selectable, decide_eq_true_eq] at hselectable
    obtain ⟨combined, hchoice, hmarked⟩ := adopt_marked now hscored hchosen
    refine ⟨chosen, combined, hchoice, hmarked, ?_⟩
    intro current' hselected' _ hne
    have heq : current' = current := Option.some.inj (hselected'.symm.trans hselected)
    subst heq
    exact (hspec.resolve_left hne).2.2

/-! ## The whole pass -/

theorem around_passed (h : Passed e e') : e'.around now i = e.around now i := by
  unfold around Source.utc Source.distance
  rw [h.config, h.estimate i]

theorem commonPoint_passed (h : Passed e e') (sources : Finset Slot) :
    e'.CommonPoint now sources ↔ e.CommonPoint now sources := by
  unfold CommonPoint
  simp only [around_passed h]

theorem selectionDistance_lt_top {s : Source K} (h : s.fitStart < s.samples.length) :
    s.selectionDistance now < ⊤ := by
  have hkeeps : ∀ (l : List (Measurement K)) (path : WithTop K), path < ⊤ →
      l.foldl (fun path sample =>
        let age := max 0 (difference now sample.rawNs)
        min path ↑(sample.rootDelay / 2 + sample.rootDispersion +
          age * s.status.estimate.controlSkew)) path < ⊤ := by
    intro l
    induction l with
    | nil => exact fun _ h => h
    | cons x l ih => exact fun path h => ih _ (min_lt_of_left_lt h)
  unfold Source.selectionDistance
  obtain ⟨x, l, hl⟩ := List.exists_cons_of_ne_nil (l := s.samples.drop s.fitStart)
    (by simpa using h)
  rw [hl, List.foldl_cons]
  exact hkeeps l _ (min_lt_of_right_lt (WithTop.coe_lt_top _))

theorem discipline_selected (combined : List Slot) :
    (e.discipline slot combined now).selected = some slot := by
  unfold discipline
  split_ifs with hchanged
  · rw [Bool.not_eq_true', changed, Bool.or_eq_false_iff] at hchanged
    simpa using hchanged.1
  · rfl

theorem unsynchronized_of_none (h : e.selected = none) (at_ : Nat) :
    (e.tracking at_).synchronized = false := by
  unfold tracking
  split_ifs
  · rfl
  · simp [track, h]

/-- The engine a pass chooses from. -/
def examined (e : Engine K) (now : Nat) : Engine K :=
  { e.gated now with
    referenceDisagreement :=
      e.referenceDisagreement || (e.gated now).disagrees now (e.candidates now) }

/-- The set a pass finds. -/
def agreeing (e : Engine K) (now : Nat) : List Slot :=
  (e.examined now).largest now (e.candidates now)

theorem examined_passed : Passed e (e.examined now) :=
  gated_passed.trans (disagreement_passed _)

theorem examined_unmarked : (e.examined now).Unmarked := fun _ => gated_marks

theorem pass_eq (e : Engine K) (now : Nat) (b : Bool) :
    e.pass now b =
      if (e.examined now).referenceDisagreement then ((e.examined now).deselect, none)
      else if (e.candidates now).length < e.config.minSources then
        ((e.examined now).deselect, none)
      else if (e.agreeing now).length * 2 ≤ (e.candidates now).length ∨
          (e.agreeing now).length < e.config.minSources then ((e.examined now).deselect, none)
      else (e.examined now).choose now b (e.candidates now) (e.agreeing now) := rfl

theorem agreeing_spec [IsStrictOrderedRing K] (e : Engine K) (now : Nat) :
    (e.agreeing now).Sublist (e.candidates now) ∧
    (e.agreeing now ≠ [] → e.CommonPoint now (e.agreeing now).toFinset) ∧
    ∀ sources : Finset Slot, sources ⊆ e.passing now → e.CommonPoint now sources →
      sources.card ≤ (e.agreeing now).length := by
  obtain ⟨hsub, hcommon, hlargest⟩ := largest_spec (e.examined now) now
    (e.candidates now) candidates_nodup
  refine ⟨hsub, fun hne => (commonPoint_passed examined_passed _).mp (hcommon hne), ?_⟩
  exact fun sources hpassing hpoint =>
    hlargest sources hpassing ((commonPoint_passed examined_passed _).mpr hpoint)

theorem agreeing_card [IsStrictOrderedRing K] :
    (e.agreeing now).toFinset.card = (e.agreeing now).length :=
  List.toFinset_card_of_nodup ((e.agreeing_spec now).1.nodup candidates_nodup)

/-- The set found is a majority when it is large enough. -/
theorem agreeing_majority [IsStrictOrderedRing K] :
    e.Majority now (e.agreeing now).toFinset ↔
      ¬ ((e.agreeing now).length * 2 ≤ (e.candidates now).length ∨
        (e.agreeing now).length < e.config.minSources) := by
  obtain ⟨hsub, hcommon, -⟩ := e.agreeing_spec now
  constructor
  · intro h
    have hhalf := h.half
    have henough := h.enough
    rw [passing_card, agreeing_card] at hhalf
    rw [agreeing_card] at henough
    omega
  · intro h
    rw [not_or, not_le, not_lt] at h
    have hne : e.agreeing now ≠ [] := by
      intro hnil
      rw [hnil] at h
      simp at h
    refine ⟨?_, hcommon hne, ?_, ?_⟩
    · exact fun i hi => List.mem_toFinset.mpr (hsub.mem (List.mem_toFinset.mp hi))
    · rw [passing_card, agreeing_card]
      omega
    · rw [agreeing_card]
      exact h.2

theorem Majority.agreeing [IsStrictOrderedRing K] {sources : Finset Slot}
    (h : e.Majority now sources) : e.Majority now (e.agreeing now).toFinset := by
  have hle := (e.agreeing_spec now).2.2 sources h.subset h.common
  have hhalf := h.half
  have henough := h.enough
  rw [passing_card] at hhalf
  rw [agreeing_majority]
  omega

theorem examined_path [IsStrictOrderedRing K] (hfitted : ∀ i, (e.sources i).Fitted)
    (h : e.Majority now (e.agreeing now).toFinset) :
    ∃ i ∈ e.agreeing now, ((e.examined now).sources i).selectionDistance now < ⊤ := by
  have hhalf := h.half
  obtain ⟨i, hi⟩ := Finset.card_pos.mp (show 0 < (e.agreeing now).toFinset.card by omega)
  have husable := (mem_passing.mp (h.subset hi)).usable
  simp only [Source.usable, Bool.and_eq_true] at husable
  refine ⟨i, List.mem_toFinset.mp hi, ?_⟩
  rw [selectionDistance_core examined_passed.core]
  exact selectionDistance_lt_top (hfitted i husable.2)

theorem adopt_shell : (e.adopt now candidates best).1.shell = e.shell := by
  unfold adopt
  split_ifs <;> rfl

theorem scored_shell (current : Slot) :
    (e.scored rank b candidates current).shell = e.shell := by
  unfold scored
  split_ifs <;> rfl

/-- A choice changes nothing but the sources. -/
theorem choose_shell (e : Engine K) (now : Nat) (b : Bool) (candidates members : List Slot) :
    (e.choose now b candidates members).1.shell = e.shell := by
  unfold choose
  dsimp only
  split
  · rfl
  · split
    · exact adopt_shell
    · exact adopt_shell.trans (scored_shell _)

theorem Marked.congr (h : Marked members candidates best combined e)
    (hsources : e'.sources = e.sources) : Marked members candidates best combined e' where
  best_mem := h.best_mem
  combined_mem := h.combined_mem
  selectable := by rw [hsources]; exact h.selectable
  selected := by rw [hsources]; exact h.selected
  combined := by rw [hsources]; exact h.combined
  falseticker := by rw [hsources]; exact h.falseticker

theorem pass_disagreement :
    (e.pass now b).1.referenceDisagreement = (e.examined now).referenceDisagreement := by
  rw [pass_eq]
  split_ifs
  · rfl
  · rfl
  · rfl
  · exact of_view ((e.examined now).choose_shell now b (e.candidates now) (e.agreeing now))
      Engine.referenceDisagreement fun _ => rfl

theorem select_disagreement :
    (e.select now b).referenceDisagreement = (e.examined now).referenceDisagreement := by
  rw [← pass_disagreement (b := b)]
  obtain ⟨-, h⟩ | ⟨slot, combined, -, h⟩ := e.select_cases now b
  · rw [h]
  · rw [h]
    have hstill := congrArg Engine.referenceDisagreement
      ((e.pass now b).1.discipline_still now slot combined)
    exact hstill

/-- A pass selects in a majority of the largest size, and selects nothing when it finds none or the
reference clock disagrees. -/
theorem select_spec [IsStrictOrderedRing K] (now : Nat) (b : Bool)
    (hfitted : ∀ i, (e.sources i).Fitted) :
    (e.select now b).referenceDisagreement = (e.examined now).referenceDisagreement ∧
    (((e.examined now).referenceDisagreement = false ∧ e.Majority now (e.agreeing now).toFinset ∧
      ∃ best combined, (e.select now b).selected = some best ∧
        Marked (e.agreeing now) (e.candidates now) best combined (e.select now b) ∧
        ∀ current, e.selected = some current → current ∈ e.agreeing now → best ≠ current →
          10 ≤ (((e.examined now).contested now b (e.candidates now) (e.agreeing now)
            current).sources best).status.selectionScore) ∨
    (((e.examined now).referenceDisagreement = true ∨ ¬ e.Majority now (e.agreeing now).toFinset) ∧
      (e.select now b).selected = none)) := by
  refine ⟨select_disagreement, ?_⟩
  have hpass := pass_eq e now b
  by_cases hlatched : (e.examined now).referenceDisagreement = true
  · rw [if_pos hlatched] at hpass
    exact .inr ⟨.inl hlatched, by rw [select, hpass]; rfl⟩
  rw [if_neg hlatched] at hpass
  by_cases hmajority : e.Majority now (e.agreeing now).toFinset
  · have henough : ¬ (e.candidates now).length < e.config.minSources := by
      have hcard := Finset.card_le_card hmajority.subset
      have hmin := hmajority.enough
      rw [passing_card] at hcard
      omega
    rw [if_neg henough, if_neg (agreeing_majority.mp hmajority)] at hpass
    obtain ⟨best, combined, hchoice, hmarked, hscore⟩ := choose_spec b (e.candidates now)
      examined_unmarked (examined_path hfitted hmajority)
    have hchoice' : (e.examined now).choose now b (e.candidates now) (e.agreeing now) =
        (((e.examined now).choose now b (e.candidates now) (e.agreeing now)).1,
          some (best, combined)) := by
      rw [← hchoice]
    refine .inl ⟨by simpa using hlatched, hmajority, best, combined, ?_, ?_, hscore⟩
    · rw [select, hpass, hchoice']
      exact discipline_selected _
    · rw [select, hpass, hchoice']
      exact hmarked.congr (discipline_sources _)
  · refine .inr ⟨.inr hmajority, ?_⟩
    rw [agreeing_majority, not_not] at hmajority
    rw [if_pos hmajority, ite_self] at hpass
    rw [select, hpass]
    rfl

end Engine

end WsprryPico.Microchrony
