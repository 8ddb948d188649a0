import WsprryPico.Rf.Si5351.Synthesis

/-!
# The shape of a plan

What holds of a plan whatever its arithmetic: each tone is what its own request gave, all of one PLL
or all of one band, and the rest of the plan is that of its arguments.
-/

namespace WsprryPico.Rf.Si5351

open LongDouble

variable {F : Type}

/-! ## The storage of the tones -/

/-- Two plans differ in their tones only. -/
structure RatedPlan.Alike (p q : RatedPlan F) : Prop where
  configuration : p.configuration = q.configuration
  transmitPll : p.transmitPll = q.transmitPll
  loopbackPll : p.loopbackPll = q.loopbackPll
  loopback : p.loopback = q.loopback
  correctionPpb : p.correctionPpb = q.correctionPpb
  transmitPllHz : p.transmitPllHz = q.transmitPllHz
  maximumErrorHz : p.maximumErrorHz = q.maximumErrorHz

theorem RatedPlan.Alike.refl (p : RatedPlan F) : p.Alike p := ⟨rfl, rfl, rfl, rfl, rfl, rfl, rfl⟩

theorem RatedPlan.Alike.trans {p q r : RatedPlan F} (h : p.Alike q) (h' : q.Alike r) : p.Alike r :=
  ⟨h.configuration.trans h'.configuration, h.transmitPll.trans h'.transmitPll,
    h.loopbackPll.trans h'.loopbackPll, h.loopback.trans h'.loopback,
    h.correctionPpb.trans h'.correctionPpb, h.transmitPllHz.trans h'.transmitPllHz,
    h.maximumErrorHz.trans h'.maximumErrorHz⟩

theorem push_alike (p : RatedPlan F) (t : RatedTone F) : (p.push t).Alike p :=
  ⟨rfl, rfl, rfl, rfl, rfl, rfl, rfl⟩

theorem push_tones {p : RatedPlan F} (h : p.toneCount < maximumTones) (t : RatedTone F) :
    (p.push t).tones = p.tones ++ [t] := by
  unfold RatedPlan.tones RatedPlan.push
  dsimp only
  rw [if_pos (Nat.succ_le_of_lt h), if_pos (Nat.le_of_lt h), Vector.toList_setIfInBounds]
  have hlength : p.toneCount < p.toneStorage.toList.length := by
    rw [Vector.length_toList]
    exact h
  rw [List.take_add_one, List.getElem?_set_self hlength, List.take_set_of_le (Nat.le_refl _)]
  rfl

theorem tones_zero {p : RatedPlan F} (h : p.toneCount = 0) : p.tones = [] := by
  unfold RatedPlan.tones
  rw [h]
  rfl

variable [Add F] [Sub F] [Mul F] [Div F] [NatCast F] [LE F] [LT F] [DecidableLE F]
  [DecidableLT F] [LongDouble F]

/-! ## The tones of a request -/

theorem tone_requested [IntCast F] [DecidableEq F] {requested : UInt64}
    {target pllHz maximumError : F} {drive : UInt32} {pllB : Bool} {t : RatedTone F}
    (h : tone requested target pllHz drive pllB maximumError = some t) :
    t.requestedNhz = requested := by
  unfold tone at h
  split at h
  · cases h
  · dsimp only at h
    split at h
    · cases h
    · split at h
      · cases h
      · split at h
        · cases h
        · cases h
          rfl

theorem pllCandidate_requested {search : PllSearch F} {requested : UInt64} {target : F} {c : Nat}
    {t : RatedTone F} (h : pllCandidate search requested target c = some t) :
    t.requestedNhz = requested := by
  unfold pllCandidate at h
  dsimp only at h
  split at h
  · cases h
  · split at h
    · cases h
    · split at h
      · cases h
        rfl
      · cases h

theorem searchDenominator_count (search : PllSearch F) (requested : UInt64) (target : F) (low : Nat)
    (remaining evaluated c : Nat) :
    (searchDenominator search requested target low remaining evaluated c).2.evaluated +
        (searchDenominator search requested target low remaining evaluated c).2.remaining =
      evaluated + remaining := by
  induction remaining generalizing evaluated c with
  | zero => rfl
  | succ remaining ih =>
    unfold searchDenominator
    split
    · split
      · dsimp only
        omega
      · rw [ih]
        omega
    · rfl

theorem searchDenominator_spec {search : PllSearch F} {requested : UInt64} {target : F} {low : Nat}
    {t : RatedTone F} (remaining evaluated c : Nat)
    (h : (searchDenominator search requested target low remaining evaluated c).1 = some t) :
    ∃ c', low ≤ c' ∧ c' ≤ c ∧ pllCandidate search requested target c' = some t := by
  induction remaining generalizing evaluated c with
  | zero => exact nomatch h
  | succ remaining ih =>
    unfold searchDenominator at h
    split at h
    · rename_i hlow
      split at h
      · rename_i tone htone
        cases h
        exact ⟨c, hlow, Nat.le_refl c, htone⟩
      · obtain ⟨c', hlow', hle, hc'⟩ := ih _ _ h
        exact ⟨c', hlow', by omega, hc'⟩
    · cases h

theorem pllTone_count (search : PllSearch F) (low high : Nat) (requested : UInt64) (target : F)
    (evaluations : Evaluations) :
    (pllTone search low high requested target evaluations).2.evaluated +
        (pllTone search low high requested target evaluations).2.remaining =
      evaluations.evaluated + evaluations.remaining := by
  unfold pllTone
  split
  · exact searchDenominator_count _ _ _ _ _ _ _
  · rfl

theorem pllTone_requested {search : PllSearch F} {low high : Nat} {requested : UInt64} {target : F}
    {evaluations : Evaluations} {t : RatedTone F}
    (h : (pllTone search low high requested target evaluations).1 = some t) :
    t.requestedNhz = requested := by
  unfold pllTone at h
  split at h
  · obtain ⟨c, -, -, hcandidate⟩ := searchDenominator_spec _ _ _ h
    exact pllCandidate_requested hcandidate
  · cases h

/-! ## A band -/

variable [IntCast F]

/-- A tone that the search in a band gave for its own request. -/
def RetunedFor (search : PllSearch F) (correction : Int) (low high : Nat) (t : RatedTone F) : Prop :=
  ∃ evaluations, (pllTone search low high t.requestedNhz (targetHz correction t.requestedNhz)
    evaluations).1 = some t

theorem fillBand_count (search : PllSearch F) (correction : Int) (low high : Nat)
    (frequencies : List UInt64) (p : RatedPlan F) (evaluations : Evaluations) :
    (fillBand search correction low high frequencies p evaluations).2.evaluated +
        (fillBand search correction low high frequencies p evaluations).2.remaining =
      evaluations.evaluated + evaluations.remaining := by
  induction frequencies generalizing p evaluations with
  | nil => rfl
  | cons requested rest ih =>
    have hcount := pllTone_count search low high requested (targetHz correction requested) evaluations
    unfold fillBand
    split
    · rename_i heq
      rw [heq] at hcount
      rw [ih, ← hcount]
    · rename_i heq
      rw [heq] at hcount
      exact hcount

theorem fillBand_alike (search : PllSearch F) (correction : Int) (low high : Nat)
    (frequencies : List UInt64) (p : RatedPlan F) (evaluations : Evaluations) :
    (fillBand search correction low high frequencies p evaluations).1.Alike p := by
  induction frequencies generalizing p evaluations with
  | nil => exact .refl p
  | cons requested rest ih =>
    unfold fillBand
    split
    · exact (ih _ _).trans (push_alike p _)
    · exact .refl p

theorem fillBand_spec {search : PllSearch F} {correction : Int} {low high : Nat}
    (frequencies : List UInt64) (p : RatedPlan F)
    (evaluations : Evaluations) (hroom : p.toneCount + frequencies.length ≤ maximumTones) :
    ∃ filled, (fillBand search correction low high frequencies p evaluations).1.tones =
        p.tones ++ filled ∧
      (fillBand search correction low high frequencies p evaluations).1.toneCount =
        p.toneCount + filled.length ∧
      filled.map (·.requestedNhz) = frequencies.take filled.length ∧
      ∀ t ∈ filled, RetunedFor search correction low high t := by
  induction frequencies generalizing p evaluations with
  | nil => exact ⟨[], by simp [fillBand], rfl, rfl, by simp⟩
  | cons requested rest ih =>
    unfold fillBand
    split
    · rename_i t evaluations' heq
      have ht := congrArg Prod.fst heq
      have hrequested := pllTone_requested ht
      rw [List.length_cons] at hroom
      obtain ⟨filled, htones, hcount, hrequests, hgood⟩ :=
        ih (p.push t) evaluations' (by simp only [RatedPlan.push]; omega)
      refine ⟨t :: filled, ?_, ?_, ?_, ?_⟩
      · rw [htones, push_tones (by omega), List.append_assoc, List.singleton_append]
      · rw [hcount, List.length_cons]
        simp only [RatedPlan.push]
        omega
      · rw [List.map_cons, hrequests, hrequested, List.length_cons, List.take_succ_cons]
      · intro t' ht'
        obtain rfl | ht' := List.mem_cons.mp ht'
        · unfold RetunedFor
          rw [hrequested]
          exact ⟨evaluations, ht⟩
        · exact hgood t' ht'
    · exact ⟨[], by simp, rfl, rfl, by simp⟩

theorem searchBands_count (search : PllSearch F) (correction : Int) (frequencies : List UInt64)
    (high : Nat) (p : RatedPlan F) (evaluations : Evaluations) :
    (searchBands search correction frequencies high p evaluations).2.evaluated +
        (searchBands search correction frequencies high p evaluations).2.remaining =
      evaluations.evaluated + evaluations.remaining := by
  fun_induction searchBands search correction frequencies high p evaluations with
  | case1 high p evaluations h low filled hdone => exact fillBand_count _ _ _ _ _ _ _
  | case2 high p evaluations h low filled hdone hlast => exact fillBand_count _ _ _ _ _ _ _
  | case3 high p evaluations h low filled hdone hlast ih =>
    rw [ih]
    exact fillBand_count _ _ _ _ _ _ _
  | case4 high p evaluations h => rfl

theorem searchBands_alike (search : PllSearch F) (correction : Int) (frequencies : List UInt64)
    (high : Nat) (p : RatedPlan F) (evaluations : Evaluations) :
    (searchBands search correction frequencies high p evaluations).1.Alike p := by
  fun_induction searchBands search correction frequencies high p evaluations with
  | case1 high p evaluations h low filled hdone =>
    exact (fillBand_alike _ _ _ _ _ _ _).trans ⟨rfl, rfl, rfl, rfl, rfl, rfl, rfl⟩
  | case2 high p evaluations h low filled hdone hlast =>
    exact (fillBand_alike _ _ _ _ _ _ _).trans ⟨rfl, rfl, rfl, rfl, rfl, rfl, rfl⟩
  | case3 high p evaluations h low filled hdone hlast ih =>
    exact ih.trans ((fillBand_alike _ _ _ _ _ _ _).trans ⟨rfl, rfl, rfl, rfl, rfl, rfl, rfl⟩)
  | case4 high p evaluations h => exact .refl p

/-- One band of denominators holds a tone for every frequency. -/
def OneBand (search : PllSearch F) (correction : Int) (frequencies : List UInt64) (p : RatedPlan F) :
    Prop :=
  ∃ low high, vhfDenominatorMinimum ≤ low ∧ high ≤ vhfDenominatorMaximum ∧
    high ≤ low + vhfDenominatorSpanMaximum ∧ p.tones.map (·.requestedNhz) = frequencies ∧
    ∀ t ∈ p.tones, RetunedFor search correction low high t

theorem fillBand_oneBand {search : PllSearch F} {correction : Int} {frequencies : List UInt64}
    (hsize : frequencies.length ≤ maximumTones) {low high : Nat} (hlow : vhfDenominatorMinimum ≤ low)
    (hhigh : high ≤ vhfDenominatorMaximum) (hspan : high ≤ low + vhfDenominatorSpanMaximum)
    (p : RatedPlan F) (evaluations : Evaluations)
    (hdone : (fillBand search correction low high frequencies { p with toneCount := 0 }
      evaluations).1.toneCount = frequencies.length) :
    OneBand search correction frequencies
      (fillBand search correction low high frequencies { p with toneCount := 0 } evaluations).1 := by
  have hroom : ({ p with toneCount := 0 } : RatedPlan F).toneCount + frequencies.length ≤
      maximumTones := by
    dsimp only
    omega
  obtain ⟨filled, htones, hcount, hrequests, hgood⟩ :=
    fillBand_spec frequencies { p with toneCount := 0 } evaluations hroom
  have hempty : ({ p with toneCount := 0 } : RatedPlan F).tones = [] := tones_zero rfl
  rw [hempty, List.nil_append] at htones
  have hlength : filled.length = frequencies.length := by
    rw [hdone] at hcount
    dsimp only at hcount
    omega
  refine ⟨low, high, hlow, hhigh, hspan, ?_, ?_⟩
  · rw [htones, hrequests, hlength, List.take_length]
  · rw [htones]
    exact hgood

theorem searchBands_spec (search : PllSearch F) (correction : Int) {frequencies : List UInt64}
    (hsize : frequencies.length ≤ maximumTones) (high : Nat) (p : RatedPlan F)
    (evaluations : Evaluations) : high ≤ vhfDenominatorMaximum →
    p.toneCount ≠ frequencies.length →
    (searchBands search correction frequencies high p evaluations).1.toneCount =
      frequencies.length →
    OneBand search correction frequencies
      (searchBands search correction frequencies high p evaluations).1 := by
  fun_induction searchBands search correction frequencies high p evaluations with
  | case1 high p evaluations h low filled hdone =>
    intro hhigh _ _
    exact fillBand_oneBand hsize (Nat.le_max_left _ _) hhigh (by omega) p evaluations hdone
  | case2 high p evaluations h low filled hdone hlast =>
    intro _ _ hfound
    exact absurd hfound hdone
  | case3 high p evaluations h low filled hdone hlast ih =>
    intro hhigh _ hfound
    exact ih (by omega) hdone hfound
  | case4 high p evaluations h =>
    intro _ hp hfound
    exact absurd hfound hp

/-! ## A plan -/

variable [DecidableEq F]

/-- A tone of the one PLL for its own request. -/
def FixedFor (config : Configuration) (pllHz maximumError : F) (correction : Int) (t : RatedTone F) :
    Prop :=
  tone t.requestedNhz (targetHz correction t.requestedNhz) pllHz config.driveMa false maximumError =
    some t

theorem planFixed_spec {config : Configuration} {correction : Int} {maximumError : F}
    (frequencies : List UInt64) {p q : RatedPlan F}
    (hroom : p.toneCount + frequencies.length ≤ maximumTones)
    (h : planFixed config correction maximumError frequencies p = .ok q) :
    q.Alike p ∧ q.toneCount = p.toneCount + frequencies.length ∧ ∃ filled, q.tones = p.tones ++ filled ∧
      filled.map (·.requestedNhz) = frequencies ∧
      ∀ t ∈ filled, FixedFor config p.transmitPllHz maximumError correction t := by
  induction frequencies generalizing p with
  | nil =>
    obtain rfl := Except.ok.inj h
    exact ⟨.refl p, rfl, [], by simp, rfl, by simp⟩
  | cons requested rest ih =>
    unfold planFixed at h
    split at h
    · cases h
    · rename_i t heq
      have hrequested := tone_requested heq
      rw [List.length_cons] at hroom
      obtain ⟨halike, hcount, filled, htones, hrequests, hgood⟩ :=
        ih (p := p.push t) (by simp only [RatedPlan.push]; omega) h
      refine ⟨halike.trans (push_alike p t), ?_, t :: filled, ?_, ?_, ?_⟩
      · rw [hcount, List.length_cons]
        simp only [RatedPlan.push]
        omega
      · rw [htones, push_tones (by omega), List.append_assoc, List.singleton_append]
      · rw [List.map_cons, hrequests, hrequested]
      · intro t' ht'
        obtain rfl | ht' := List.mem_cons.mp ht'
        · unfold FixedFor
          rw [hrequested]
          exact heq
        · exact hgood t' ht'

theorem planFixed_tones {config : Configuration} {correction : Int} {maximumError : F}
    {frequencies : List UInt64} {p q : RatedPlan F} (hp : p.toneCount = 0)
    (hsize : frequencies.length ≤ maximumTones)
    (h : planFixed config correction maximumError frequencies p = .ok q) :
    q.Alike p ∧ q.toneCount = frequencies.length ∧ q.tones.map (·.requestedNhz) = frequencies ∧
      ∀ t ∈ q.tones, FixedFor config p.transmitPllHz maximumError correction t := by
  obtain ⟨halike, hcount, filled, htones, hrequests, hgood⟩ :=
    planFixed_spec frequencies (by omega) h
  rw [tones_zero hp, List.nil_append] at htones
  rw [htones]
  exact ⟨halike, by omega, hrequests, hgood⟩

/-- The loopback of a plan: none, or what its own PLL gives. -/
theorem planLoopback_spec {config : Configuration} {pll : Divider} {maximumError : F}
    {p q : RatedPlan F} (h : planLoopback config pll maximumError p = .ok q) :
    q.configuration = p.configuration ∧ q.transmitPll = p.transmitPll ∧
      q.correctionPpb = p.correctionPpb ∧ q.maximumErrorHz = p.maximumErrorHz ∧
      q.toneCount = p.toneCount ∧ q.tones = p.tones ∧
      (config.loopback = none ∧ q = p ∨ ∃ t, config.loopback.isSome = true ∧
        tone 1000000000000000 ((1000000 : Nat) : F) (pll.ratio * (config.referenceHz.toNat : F)) 2 true
          maximumError = some t ∧ q.loopbackPll = some pll ∧ q.loopback = some t) := by
  unfold planLoopback at h
  split at h
  · rename_i hnone
    cases h
    exact ⟨rfl, rfl, rfl, rfl, rfl, rfl, .inl ⟨hnone, rfl⟩⟩
  · rename_i output hsome
    dsimp only at h
    split at h
    · cases h
    · rename_i t ht
      cases h
      exact ⟨rfl, rfl, rfl, rfl, rfl, rfl, .inr ⟨t, by rw [hsome]; rfl, ht, rfl, rfl⟩⟩

/-- The tones of a plan: of one PLL, or of one band behind one MultiSynth and one P1. -/
inductive Toned (config : Configuration) (frequencies : List UInt64) (correction : Int)
    (maximumError : F) (pll : Divider) (p : RatedPlan F) : Prop
  | fixed (hpll : p.transmitPll = pll)
      (htones : ∀ t ∈ p.tones,
        FixedFor config (pll.ratio * (config.referenceHz.toNat : F)) maximumError correction t)
  | retuned (search : PllSearch F) (hreference : search.reference = config.referenceHz.toNat)
      (herror : search.maximumError = maximumError)
      (hband : OneBand search correction frequencies p)

/-- What `plan` returns, for one choice of the PLL. -/
structure Planned (config : Configuration) (frequencies : List UInt64) (correction : Int)
    (maximumError : F) (pll : Divider) (p : RatedPlan F) : Prop where
  size : frequencies ≠ [] ∧ frequencies.length ≤ maximumTones
  configuration : p.configuration = config
  correctionPpb : p.correctionPpb = correction
  maximumErrorHz : p.maximumErrorHz = maximumError
  count : p.toneCount = frequencies.length
  requests : p.tones.map (·.requestedNhz) = frequencies
  toned : Toned config frequencies correction maximumError pll p
  loopback : config.loopback = none ∧ p.loopbackPll = none ∧ p.loopback = none ∨
    ∃ t, config.loopback.isSome = true ∧
      tone 1000000000000000 ((1000000 : Nat) : F) (pll.ratio * (config.referenceHz.toNat : F)) 2 true
        maximumError = some t ∧ p.loopbackPll = some pll ∧ p.loopback = some t

omit [Add F] [Sub F] [Mul F] [Div F] [IntCast F] [LE F] [DecidableLE F] [DecidableEq F] in
theorem planError_size {config : Configuration} {frequencies : List UInt64} {correction : Int}
    {maximumError : F} (h : planError config frequencies correction maximumError = none) :
    frequencies ≠ [] ∧ frequencies.length ≤ maximumTones := by
  unfold planError at h
  split at h
  · cases h
  · split at h
    · cases h
    · rename_i hsize
      simp only [List.isEmpty_iff, not_or, Nat.not_lt] at hsize
      exact hsize

omit [DecidableEq F] in
theorem planRetuned_spec {config : Configuration} {frequencies : List UInt64} {correction : Int}
    {maximumError : F} {integerMs : Nat} {p q : RatedPlan F} (hsize : frequencies.length ≤ maximumTones)
    (hp : p.toneCount ≠ frequencies.length)
    (h : planRetuned config frequencies correction maximumError integerMs p = .ok q) :
    q.configuration = p.configuration ∧ q.correctionPpb = p.correctionPpb ∧
      q.maximumErrorHz = p.maximumErrorHz ∧ q.loopbackPll = p.loopbackPll ∧ q.loopback = p.loopback ∧
      q.toneCount = frequencies.length ∧ ∃ search : PllSearch F,
        search.reference = config.referenceHz.toNat ∧ search.maximumError = maximumError ∧
        OneBand search correction frequencies q := by
  unfold planRetuned at h
  dsimp only at h
  generalize feedbackP1 (F := F) config correction integerMs (frequencies.headD 0) = commonP1 at h
  split at h
  · cases h
  · have halike := searchBands_alike
      ⟨config.referenceHz.toNat, config.driveMa, integerMs, maximumError, commonP1⟩ correction
      frequencies vhfDenominatorMaximum p ⟨vhfCandidateEvaluationsMaximum, 0⟩
    have hband := searchBands_spec
      ⟨config.referenceHz.toNat, config.driveMa, integerMs, maximumError, commonP1⟩ correction hsize
      vhfDenominatorMaximum p ⟨vhfCandidateEvaluationsMaximum, 0⟩ (Nat.le_refl _) hp
    unfold vhfSearch at h
    generalize (searchBands
      ⟨config.referenceHz.toNat, config.driveMa, integerMs, maximumError, commonP1⟩ correction
      frequencies vhfDenominatorMaximum p ⟨vhfCandidateEvaluationsMaximum, 0⟩).1 = found at *
    split at h
    · cases h
    · rename_i hcount
      rw [ne_eq, not_not] at hcount
      split at h
      · cases h
      · cases h
        exact ⟨halike.configuration, halike.correctionPpb, halike.maximumErrorHz, halike.loopbackPll,
          halike.loopback, hcount, _, rfl, rfl, hband hcount⟩

theorem plan_planned {config : Configuration} {frequencies : List UInt64} {correction : Int}
    {maximumError : F} {p : RatedPlan F}
    (h : plan config frequencies correction maximumError = .ok p) :
    ∃ pll, planPll (F := F) config = some pll ∧
      Planned config frequencies correction maximumError pll p := by
  unfold plan at h
  split at h
  · cases h
  rename_i herror
  have hsize := planError_size herror
  split at h
  · cases h
  rename_i pll hpll
  refine ⟨pll, hpll, ?_⟩
  dsimp only at h
  split at h
  · cases h
  split at h
  · cases h
  rename_i integerMs _
  split at h
  · cases h
  rename_i toned htoned
  obtain ⟨hconfiguration, htransmit, hcorrection, hmaximum, hcount, htones, hloopback⟩ :=
    planLoopback_spec h
  have hlength : (0 : Nat) ≠ frequencies.length := fun hno =>
    hsize.1 (List.eq_nil_of_length_eq_zero hno.symm)
  split at htoned
  · obtain ⟨hconfiguration', hcorrection', hmaximum', hpll', hloopback', hcount', search, hreference,
      herror', hband⟩ := planRetuned_spec hsize.2 (by exact hlength) htoned
    have hrequests : toned.tones.map (·.requestedNhz) = frequencies := by
      obtain ⟨low, high, -, -, -, hrequests, -⟩ := hband
      exact hrequests
    refine ⟨hsize, hconfiguration.trans hconfiguration',
      hcorrection.trans hcorrection', hmaximum.trans hmaximum', hcount.trans hcount',
      by rw [htones]; exact hrequests, .retuned search hreference herror' ?_, ?_⟩
    · unfold OneBand
      rw [htones]
      exact hband
    · obtain ⟨hnone, rfl⟩ | hsome := hloopback
      · exact .inl ⟨hnone, hpll', hloopback'⟩
      · exact .inr hsome
  · obtain ⟨halike, hcount', hrequests, hgood⟩ := planFixed_tones (by rfl) hsize.2 htoned
    refine ⟨hsize, hconfiguration.trans halike.configuration,
      hcorrection.trans halike.correctionPpb, hmaximum.trans halike.maximumErrorHz,
      hcount.trans hcount', by rw [htones]; exact hrequests,
      .fixed (htransmit.trans halike.transmitPll) ?_, ?_⟩
    · rw [htones]
      exact hgood
    · obtain ⟨hnone, rfl⟩ | hsome := hloopback
      · exact .inl ⟨hnone, halike.loopbackPll, halike.loopback⟩
      · exact .inr hsome

end WsprryPico.Rf.Si5351
