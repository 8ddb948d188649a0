import WsprryPico.Rf.Si5351.Dividers
import WsprryPico.Rf.Si5351.PlanShape

/-!
# Accepted plans are safe at symbol transitions

The synthesis read as exact rationals. The output of a tone is computed back from its register
bytes alone. All tones of a plan share one PLL, or one MultiSynth, one P1 and one band of
denominators.
-/

namespace WsprryPico.Rf.Si5351

open Lib LongDouble

/-! ## Back from the registers -/

def feedbackRatio (r : Vector UInt8 8) : ℚ :=
  (registerP1 r + 512 + registerP2 r / registerP3 r) / 128

def multisynthRatio (r : Vector UInt8 8) : ℚ :=
  if registerDivideBy4 r then 4 else feedbackRatio r

def outputHz (reference : ℕ) (pll multisynth : Vector UInt8 8) : ℚ :=
  feedbackRatio pll * reference / multisynthRatio multisynth / 2 ^ registerR multisynth

theorem Encoded.feedback {d : Divider} {a b c rCode : ℕ} (h : Encoded d a b c rCode) :
    feedbackRatio d.registers = d.ratio := by
  unfold feedbackRatio Divider.ratio
  rw [h.registers_p1, h.registers_p2, h.registers_p3, h.integer, h.numerator, h.denominator]
  exact h.ratio

/-- A divider that was accepted: its bytes say its ratio. -/
structure Decoded (d : Divider) (rCode : ℕ) : Prop where
  feedback : feedbackRatio d.registers = d.ratio
  multisynth : multisynthRatio d.registers = d.ratio
  r : registerR d.registers = rCode
  low : 8 ≤ (d.ratio : ℚ)
  high : (d.ratio : ℚ) ≤ 2048

theorem divider_decoded {ratio : ℚ} {rCode : ℕ} {d : Divider} (h : divider ratio rCode = some d) :
    Decoded d rCode := by
  have hrange : 8 ≤ ratio ∧ ratio ≤ 2048 ∧ rCode ≤ 7 := by
    unfold divider at h
    split at h
    · cases h
    · rename_i hrange
      simpa [isFinite, and_assoc] using hrange
  obtain ⟨hlow, hhigh, hcode⟩ := hrange
  obtain ⟨a, b, c, heq, ha, ha', hbc, hc, -, hbest⟩ := divider_spec hlow hhigh hcode
  cases heq.symm.trans h
  obtain ⟨hencoded, -⟩ := encodeDivider_encoded (by omega) ha' hbc hc hcode
  have hratio : ((encodeDivider a b c rCode).ratio : ℚ) = a + b / c := by
    unfold Divider.ratio
    rw [hencoded.integer, hencoded.numerator, hencoded.denominator]
  refine ⟨hencoded.feedback, ?_, hencoded.registers_r, ?_, ?_⟩
  · rw [multisynthRatio, hencoded.registers_by4]
    exact hencoded.feedback
  · rw [hratio]
    have ha_q : (8 : ℚ) ≤ a := by exact_mod_cast ha
    have hfraction : (0 : ℚ) ≤ b / c := by positivity
    linarith
  · rw [hratio]
    have htop := hbest 2048 1 one_pos (by decide)
    rw [abs_of_nonneg (show 0 ≤ ((2048 : ℤ) : ℚ) / ((1 : ℤ) : ℚ) - ratio by push_cast; linarith)] at htop
    have hle := (le_abs_self _).trans htop
    push_cast at hle
    linarith

/-! ## A tone -/

/-- A tone of the transmit PLL. -/
structure FixedTone (pllHz maximumError target : ℚ) (requested : UInt64) (t : RatedTone ℚ) : Prop where
  requested : t.requestedNhz = requested
  programmed : t.programmedHz = target
  pll : t.pll = none
  low : 8 ≤ multisynthRatio t.multisynth.registers
  high : multisynthRatio t.multisynth.registers ≤ 2048
  error : |pllHz / multisynthRatio t.multisynth.registers / 2 ^ registerR t.multisynth.registers -
    target| ≤ maximumError

theorem tone_spec {requested : UInt64} {target pllHz maximumError : ℚ} {drive : UInt32} {pllB : Bool}
    {t : RatedTone ℚ} (h : tone requested target pllHz drive pllB maximumError = some t) :
    FixedTone pllHz maximumError target requested t := by
  unfold tone at h
  split at h
  · cases h
  · dsimp only at h
    generalize findRCode target pllHz 7 0 = rCode at h
    split at h
    · cases h
    · split at h
      · cases h
      · rename_i ms hms
        have hdecoded := divider_decoded hms
        split at h
        · cases h
        · rename_i herror
          cases h
          refine ⟨rfl, rfl, rfl, ?_, ?_, ?_⟩
          · rw [hdecoded.multisynth]
            exact hdecoded.low
          · rw [hdecoded.multisynth]
            exact hdecoded.high
          · rw [hdecoded.multisynth, hdecoded.r]
            rw [Nat.one_shiftLeft] at herror
            push_cast at herror
            exact not_lt.mp herror

/-- The budget decides whether there is a tone, not which. -/
theorem tone_unique {requested : UInt64} {target pllHz maximumError maximumError' : ℚ}
    {drive : UInt32} {pllB : Bool} {t t' : RatedTone ℚ}
    (h : tone requested target pllHz drive pllB maximumError = some t)
    (h' : tone requested target pllHz drive pllB maximumError' = some t') : t = t' := by
  unfold tone at h h'
  split at h
  · cases h
  · rename_i hrequested
    rw [if_neg hrequested] at h'
    dsimp only at h h'
    generalize findRCode target pllHz 7 0 = rCode at h h'
    split at h
    · cases h
    · rename_i hlow
      rw [if_neg hlow] at h'
      split at h
      · cases h
      · rename_i ms hms
        rw [hms] at h'
        dsimp only at h'
        split at h
        · cases h
        · split at h'
          · cases h'
          · exact (Option.some.inj h).symm.trans (Option.some.inj h')

/-! ## A tone with its own PLL -/

/-- A tone whose PLL is retuned, its denominator between `low` and `high`. -/
structure RetunedTone (search : PllSearch ℚ) (low high : ℕ) (target : ℚ) (requested : UInt64)
    (t : RatedTone ℚ) : Prop where
  requested : t.requestedNhz = requested
  programmed : t.programmedHz = target
  integer : search.integerMs = 4 ∨ search.integerMs = 6
  multisynth : multisynthRatio t.multisynth.registers = search.integerMs
  r : registerR t.multisynth.registers = 0
  pll : ∃ pll, t.pll = some pll ∧ registerP1 pll.registers = search.commonP1.toNat ∧
    low ≤ registerP3 pll.registers ∧ registerP3 pll.registers ≤ high ∧
    |feedbackRatio pll.registers * search.reference / search.integerMs - target| ≤
      search.maximumError

theorem integerMultisynth_registers {integerMs : ℕ} (h : integerMs = 4 ∨ integerMs = 6) :
    multisynthRatio (integerMultisynth integerMs).registers = integerMs ∧
      registerR (integerMultisynth integerMs).registers = 0 := by
  obtain rfl | rfl := h
  · have hfour : registerDivideBy4 (integerMultisynth 4).registers = true := by decide
    refine ⟨?_, by decide⟩
    rw [multisynthRatio, hfour]
    rfl
  · have hby4 : registerDivideBy4 (integerMultisynth 6).registers = false := by decide
    have hp1 : registerP1 (integerMultisynth 6).registers = 256 := by decide
    have hp2 : registerP2 (integerMultisynth 6).registers = 0 := by decide
    refine ⟨?_, by decide⟩
    rw [multisynthRatio, hby4, if_neg Bool.false_ne_true, feedbackRatio, hp1, hp2]
    norm_num

theorem roundAway_le {x : ℚ} {c : ℕ} (hx : 0 ≤ x) (hlt : x < c) : (roundAway x).toNat ≤ c := by
  unfold roundAway
  rw [if_pos hx]
  have hfloor : ⌊x + 1 / 2⌋ < (c : ℤ) + 1 := by
    rw [Int.floor_lt]
    push_cast
    linarith
  omega

theorem pllFeasible_spec {search : PllSearch ℚ} {target : ℚ} (h : pllFeasible search target = true) :
    (search.integerMs = 4 ∨ search.integerMs = 6) ∧
      15 ≤ target * search.integerMs / search.reference ∧
      target * search.integerMs / search.reference ≤ 90 := by
  simp only [pllFeasible, Bool.and_eq_true, Bool.or_eq_true, decide_eq_true_eq, Bool.not_eq_true',
    decide_eq_false_iff_not, not_lt, not_le] at h
  exact ⟨h.1.1.1.1.1.1, by exact_mod_cast h.1.2, by exact_mod_cast h.2⟩

theorem pllCandidate_spec {search : PllSearch ℚ} {requested : UInt64} {target : ℚ} {c : ℕ}
    {t : RatedTone ℚ} (hfeasible : pllFeasible search target = true) (hc : 0 < c)
    (hlegal : c ≤ maximumDenominator) (h : pllCandidate search requested target c = some t) :
    RetunedTone search c c target requested t := by
  obtain ⟨hinteger, hlow, hhigh⟩ := pllFeasible_spec hfeasible
  unfold pllCandidate at h
  dsimp only [LongDouble.floor, LongDouble.round, LongDouble.fabs] at h
  generalize target * (search.integerMs : ℚ) / (search.reference : ℚ) = ratio at hlow hhigh h
  have hfloor : ((⌊ratio⌋.toNat : ℕ) : ℚ) = (⌊ratio⌋ : ℚ) := by
    rw [Int.floor_toNat, natCast_floor_eq_intCast_floor (by linarith)]
  have hfloor_low : 15 ≤ ⌊ratio⌋ := Int.le_floor.mpr (by exact_mod_cast hlow)
  have hfloor_high : ⌊ratio⌋ ≤ 90 := by
    have hle : (⌊ratio⌋ : ℚ) ≤ 90 := (Int.floor_le ratio).trans hhigh
    exact_mod_cast hle
  have hcq : (0 : ℚ) < c := by exact_mod_cast hc
  have hfraction : 0 ≤ ratio - (⌊ratio⌋.toNat : ℕ) := by
    rw [hfloor]
    exact Int.fract_nonneg ratio
  have hless : ratio - (⌊ratio⌋.toNat : ℕ) < 1 := by
    rw [hfloor]
    exact Int.fract_lt_one ratio
  have hround : (roundAway ((ratio - (⌊ratio⌋.toNat : ℕ)) * c)).toNat ≤ c := by
    refine roundAway_le (by positivity) ?_
    nlinarith
  generalize (roundAway ((ratio - (⌊ratio⌋.toNat : ℕ)) * c)).toNat = b at hround h
  split at h
  · cases h
  · have habc : ∃ a b', pllFraction ⌊ratio⌋.toNat b c = (a, b') ∧ 4 ≤ a ∧ a ≤ 2048 ∧ b' < c := by
      obtain heq | hne := eq_or_ne b c
      · exact ⟨_, _, if_pos heq, by omega, by omega, hc⟩
      · exact ⟨_, _, if_neg hne, by omega, by omega, by omega⟩
    obtain ⟨a, b', habc, ha, ha', hb'⟩ := habc
    rw [habc] at h
    obtain ⟨hencoded, -⟩ := encodeDivider_encoded ha ha' hb' hlegal (Nat.zero_le 7)
    have hp3 : (encodeDivider a b' c 0).p3.toNat = c := hencoded.denominator
    split at h
    · cases h
    · rename_i hp1
      split at h
      · rename_i herror
        cases h
        obtain ⟨hmultisynth, hr⟩ := integerMultisynth_registers hinteger
        refine ⟨rfl, rfl, hinteger, hmultisynth, hr, _, rfl, ?_, ?_, ?_, ?_⟩
        · rw [hencoded.registers_p1, not_not.mp hp1]
        · rw [hencoded.registers_p3, hp3]
        · rw [hencoded.registers_p3, hp3]
        · rw [hencoded.feedback]
          exact herror
      · cases h

theorem RetunedTone.widen {search : PllSearch ℚ} {c low high : ℕ} {target : ℚ} {requested : UInt64}
    {t : RatedTone ℚ} (h : RetunedTone search c c target requested t) (hlow : low ≤ c)
    (hhigh : c ≤ high) : RetunedTone search low high target requested t := by
  obtain ⟨pll, hpll, hp1, hlow', hhigh', herror⟩ := h.pll
  exact ⟨h.requested, h.programmed, h.integer, h.multisynth, h.r, pll, hpll, hp1,
    hlow.trans hlow', hhigh'.trans hhigh, herror⟩

theorem pllTone_spec {search : PllSearch ℚ} {low high : ℕ} {requested : UInt64} {target : ℚ}
    {evaluations : Evaluations} {t : RatedTone ℚ} (hlow : 0 < low) (hhigh : high ≤ maximumDenominator)
    (h : (pllTone search low high requested target evaluations).1 = some t) :
    RetunedTone search low high target requested t := by
  unfold pllTone at h
  split at h
  · rename_i hfeasible
    obtain ⟨c, hc, hc', hcandidate⟩ := searchDenominator_spec _ _ _ h
    exact (pllCandidate_spec hfeasible (by omega) (by omega) hcandidate).widen hc hc'
  · cases h

theorem retunedFor_spec {search : PllSearch ℚ} {correction : ℤ} {low high : ℕ} {t : RatedTone ℚ}
    (hlow : vhfDenominatorMinimum ≤ low) (hhigh : high ≤ vhfDenominatorMaximum)
    (h : RetunedFor search correction low high t) :
    RetunedTone search low high (targetHz correction t.requestedNhz) t.requestedNhz t := by
  have hmin : 0 < vhfDenominatorMinimum := by decide
  have hmax : vhfDenominatorMaximum ≤ maximumDenominator := le_refl _
  obtain ⟨evaluations, ht⟩ := h
  exact pllTone_spec (hmin.trans_le hlow) (hhigh.trans hmax) ht

theorem planPll_decoded {config : Configuration} {pll : Divider}
    (h : planPll (F := ℚ) config = some pll) : Decoded pll 0 := by
  unfold planPll at h
  split at h
  · cases h
  · rename_i pll' hpll
    split at h
    · cases h
    · cases h
      exact divider_decoded hpll

/-! ## Safe plans -/

/-- What holds of every plan that is accepted. -/
structure Safe (config : Configuration) (frequencies : List UInt64) (correction : ℤ)
    (maximumError : ℚ) (p : RatedPlan ℚ) : Prop where
  /-- Tone `i` belongs to frequency `i`. -/
  requests : p.tones.map (·.requestedNhz) = frequencies
  /-- Its output, back from the bytes, is as close to the corrected target as the budget says. -/
  budget : ∀ t ∈ p.tones,
    |outputHz config.referenceHz.toNat (t.pll.getD p.transmitPll).registers t.multisynth.registers -
      targetHz correction t.requestedNhz| ≤ maximumError
  /-- All tones use the one PLL, or one MultiSynth and feedbacks of one P1 and one band. -/
  transition :
    (∀ t ∈ p.tones, t.pll = none ∧ 8 ≤ multisynthRatio t.multisynth.registers ∧
      multisynthRatio t.multisynth.registers ≤ 2048) ∨
    ∃ integerMs p1 low : ℕ, (integerMs = 4 ∨ integerMs = 6) ∧ ∀ t ∈ p.tones, ∃ pll, t.pll = some pll ∧
      multisynthRatio t.multisynth.registers = integerMs ∧ registerP1 pll.registers = p1 ∧
      vhfDenominatorMinimum ≤ registerP3 pll.registers ∧
      registerP3 pll.registers ≤ vhfDenominatorMaximum ∧ low ≤ registerP3 pll.registers ∧
      registerP3 pll.registers ≤ low + vhfDenominatorSpanMaximum

theorem Planned.safe {config : Configuration} {frequencies : List UInt64} {correction : ℤ}
    {maximumError : ℚ} {pll : Divider} {p : RatedPlan ℚ} (hdecoded : Decoded pll 0)
    (h : Planned config frequencies correction maximumError pll p) :
    Safe config frequencies correction maximumError p := by
  refine ⟨h.requests, ?_, ?_⟩
  · intro t ht
    unfold outputHz
    cases h.toned with
    | fixed hpll htones =>
      have htone := tone_spec (htones t ht)
      rw [htone.pll, Option.getD_none, hpll, hdecoded.feedback]
      exact htone.error
    | retuned search hreference herror hband =>
      obtain ⟨low, high, hlow, hhigh, -, -, hgood⟩ := hband
      have htone := retunedFor_spec hlow hhigh (hgood t ht)
      obtain ⟨pll', hpll', -, -, -, hclose⟩ := htone.pll
      rw [hpll', Option.getD_some, htone.multisynth, htone.r, pow_zero, div_one]
      rw [hreference, herror] at hclose
      exact hclose
  · cases h.toned with
    | fixed hpll htones =>
      refine .inl fun t ht => ?_
      have htone := tone_spec (htones t ht)
      exact ⟨htone.pll, htone.low, htone.high⟩
    | retuned search hreference herror hband =>
      obtain ⟨low, high, hlow, hhigh, hspan, -, hgood⟩ := hband
      obtain ⟨t₀, ht₀⟩ : ∃ t, t ∈ p.tones := by
        cases htones : p.tones with
        | nil => exact absurd (h.requests.symm.trans (by rw [htones]; rfl)) h.size.1
        | cons t rest => exact ⟨t, List.mem_cons_self⟩
      refine .inr ⟨search.integerMs, search.commonP1.toNat, low,
        (retunedFor_spec hlow hhigh (hgood t₀ ht₀)).integer, fun t ht => ?_⟩
      have htone := retunedFor_spec hlow hhigh (hgood t ht)
      obtain ⟨pll', hpll', hp1, hlow', hhigh', -⟩ := htone.pll
      exact ⟨pll', hpll', htone.multisynth, hp1, hlow.trans hlow', hhigh'.trans hhigh, hlow',
        hhigh'.trans hspan⟩

theorem Planned.same_loopback {config : Configuration} {frequencies frequencies' : List UInt64}
    {correction correction' : ℤ} {maximumError maximumError' : ℚ} {pll : Divider}
    {p p' : RatedPlan ℚ} (h : Planned config frequencies correction maximumError pll p)
    (h' : Planned config frequencies' correction' maximumError' pll p') :
    p.loopbackPll = p'.loopbackPll ∧ p.loopback = p'.loopback := by
  obtain ⟨hnone, hpll, hloopback⟩ | ⟨t, hsome, ht, hpll, hloopback⟩ := h.loopback
  · obtain ⟨-, hpll', hloopback'⟩ | ⟨t', hsome', -⟩ := h'.loopback
    · exact ⟨hpll.trans hpll'.symm, hloopback.trans hloopback'.symm⟩
    · rw [hnone] at hsome'
      cases hsome'
  · obtain ⟨hnone', -⟩ | ⟨t', -, ht', hpll', hloopback'⟩ := h'.loopback
    · rw [hnone'] at hsome
      cases hsome
    · have heq := tone_unique ht ht'
      exact ⟨hpll.trans hpll'.symm, hloopback.trans (heq ▸ hloopback'.symm)⟩

/-- A plan that can be returned is built again from its own data. -/
theorem validPlan_iff (supplied : RatedPlan ℚ) : validPlan supplied = true ↔
    ∃ config frequencies correction maximumError,
      plan config frequencies correction maximumError = .ok supplied := by
  unfold validPlan
  constructor
  · intro h
    split at h
    · cases h
    · split at h
      · cases h
      · rename_i rebuilt hrebuilt
        rw [decide_eq_true_eq] at h
        exact ⟨_, _, _, _, h ▸ hrebuilt⟩
  · rintro ⟨config, frequencies, correction, maximumError, h⟩
    obtain ⟨pll, -, hplanned⟩ := plan_planned h
    have hcount : ¬ (supplied.toneCount = 0 ∨ maximumTones < supplied.toneCount) := by
      have hlength : frequencies.length ≠ 0 := fun hno =>
        hplanned.size.1 (List.eq_nil_of_length_eq_zero hno)
      have hmaximum := hplanned.size.2
      have hcount := hplanned.count
      omega
    rw [if_neg hcount, hplanned.configuration, hplanned.requests, hplanned.correctionPpb,
      hplanned.maximumErrorHz, h]
    exact decide_eq_true rfl

/-- Every plan that is accepted is safe at its symbol transitions; its search evaluates a bounded
number of candidates; the loopback does not depend on what is transmitted; and the plans that
are valid are those that can be planned. -/
theorem plan_safe :
    (∀ config frequencies correction maximumError (p : RatedPlan ℚ),
      plan config frequencies correction maximumError = .ok p →
      Safe config frequencies correction maximumError p) ∧
    (∀ config frequencies correction (maximumError : ℚ) integerMs commonP1 p,
      (vhfSearch config frequencies correction maximumError integerMs commonP1 p).2.evaluated ≤
        vhfCandidateEvaluationsMaximum) ∧
    (∀ config frequencies frequencies' correction correction' maximumError maximumError'
        (p p' : RatedPlan ℚ), plan config frequencies correction maximumError = .ok p →
      plan config frequencies' correction' maximumError' = .ok p' →
      p.loopbackPll = p'.loopbackPll ∧ p.loopback = p'.loopback) ∧
    ∀ supplied : RatedPlan ℚ, validPlan supplied = true ↔
      ∃ config frequencies correction maximumError,
        plan config frequencies correction maximumError = .ok supplied := by
  refine ⟨?_, ?_, ?_, validPlan_iff⟩
  · intro config frequencies correction maximumError p h
    obtain ⟨pll, hpll, hplanned⟩ := plan_planned h
    exact hplanned.safe (planPll_decoded hpll)
  · intro config frequencies correction maximumError integerMs commonP1 p
    have hcount := searchBands_count
      ⟨config.referenceHz.toNat, config.driveMa, integerMs, maximumError, commonP1⟩ correction
      frequencies vhfDenominatorMaximum p ⟨vhfCandidateEvaluationsMaximum, 0⟩
    dsimp only at hcount
    unfold vhfSearch
    omega
  · intro config frequencies frequencies' correction correction' maximumError maximumError' p p' h h'
    obtain ⟨pll, hpll, hplanned⟩ := plan_planned h
    obtain ⟨pll', hpll', hplanned'⟩ := plan_planned h'
    cases hpll.symm.trans hpll'
    exact hplanned.same_loopback hplanned'

-- a tone of the 30 m band
example : (plan { referenceHz := 25000000, crystalLoadPf := some 8 } [10140200000000000] 0
    (1 / 1000 : ℚ)).isOk = true := by decide +kernel

end WsprryPico.Rf.Si5351
