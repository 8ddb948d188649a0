import WsprryPico.Time.Durations
import WsprryPico.Wtp.Launch

/-!
# The admission of an ARM

What `validate_arm` has checked of a start it accepts: every sum with the start has room, the
uncertainty at the start is within the budget, and whatever the oscillator does within the bounds
of the snapshot, the job ends before the source horizon and keeps clear of a leap transition.
-/

namespace WsprryPico.Wtp

open Time Lib

variable {config : ServiceConfig} {job : Job} {resolution : UInt64} {body : ArmBody}
  {now : ClockSnapshot} {start : UInt64}

/-- The hardware start is rounded up to the timer by this. -/
def startAdjustment (resolution start : UInt64) : UInt64 :=
  (resolution - start % resolution) % resolution

def armBudget (config : ServiceConfig) (body : ArmBody) : UInt64 :=
  min body.maxStartUncertaintyNs config.maximumArmUncertaintyNs

/-- The last nanosecond of the start second asked for. -/
def lastStart (body : ArmBody) : UInt64 := body.startUtcNs + startWindowNs body.startUtcNs - 1

/-- The guards an accepted ARM has passed, in the order of the source from the lead on. -/
structure ArmAdmitted (config : ServiceConfig) (job : Job) (resolution : UInt64) (body : ArmBody)
    (now : ClockSnapshot) (start : UInt64) : Prop where
  uncertainty : now.uncertaintyNs ≤ armBudget config body
  pending : pendingLeap now = now.leapTransitionUtcNs.isSome
  lead : now.utcNowNs ≤ body.startUtcNs
  mapping : inverse now body.startUtcNs = some start
  startRoom : ¬ start > u64Max - startWindowNs body.startUtcNs
  windowRoom : ¬ body.startUtcNs > u64Max - startWindowNs body.startUtcNs
  runRoom : ¬ job.totalDurationNs > u64Max - (start + startWindowNs body.startUtcNs)
  utcRoom : ¬ job.totalDurationNs > u64Max - (body.startUtcNs + startWindowNs body.startUtcNs)
  budget : ∃ rounding grown,
    elapsedUtc (startAdjustment resolution start + if now.ratePpb ≠ 0 then 1 else 0) now.ratePpb
      true = some rounding ∧
    growth (start - now.monotonicNowNs) now.rateUncertaintyPpb.toUInt64 = some grown ∧
    grown ≤ armBudget config body - now.uncertaintyNs ∧
    rounding ≤ armBudget config body - now.uncertaintyNs - grown
  horizon : ∃ duration, durationUtcBound job.totalDurationNs now = some duration ∧
    lastStart body < now.validUntilUtcNs ∧ duration < now.validUntilUtcNs - lastStart body ∧
    ∀ transition, now.leapTransitionUtcNs = some transition →
      duration ≤ u64Max - lastStart body ∧
      (exclusionEnd transition < body.startUtcNs ∨
        lastStart body + duration < exclusionStart transition)

theorem le_armBudget {n : UInt64} (h : n ≤ body.maxStartUncertaintyNs)
    (h' : n ≤ config.maximumArmUncertaintyNs) : n ≤ armBudget config body := by
  unfold armBudget
  rw [show min body.maxStartUncertaintyNs config.maximumArmUncertaintyNs =
    if body.maxStartUncertaintyNs ≤ config.maximumArmUncertaintyNs then body.maxStartUncertaintyNs
    else config.maximumArmUncertaintyNs from rfl]
  split
  · exact h
  · exact h'

theorem passed {ε α : Type} {c : Prop} [Decidable c] {e : ε} {x : Except ε α} {a : α}
    (h : (if c then .error e else x) = .ok a) : ¬ c ∧ x = .ok a := by
  split at h
  · cases h
  · rename_i hc
    exact ⟨hc, h⟩

theorem validateArm_admitted (h : validateArm config job resolution body now = .ok start) :
    ArmAdmitted config job resolution body now start := by
  obtain ⟨-, h⟩ := passed h
  obtain ⟨-, h⟩ := passed h
  obtain ⟨huncertainty, h⟩ := passed h
  obtain ⟨hleap, h⟩ := passed h
  obtain ⟨hlead, h⟩ := passed h
  obtain ⟨-, h⟩ := passed h
  obtain ⟨-, h⟩ := passed h
  obtain ⟨-, h⟩ := passed h
  rcases hmapping : inverse now body.startUtcNs with - | nominal
  · rw [hmapping] at h
    cases h
  rw [hmapping] at h
  obtain ⟨hroom, h⟩ := passed h
  rcases hrounding : elapsedUtc ((resolution - nominal % resolution) % resolution +
    if now.ratePpb ≠ 0 then 1 else 0) now.ratePpb true with - | rounding
  · rw [hrounding] at h
    cases h
  rw [hrounding] at h
  rcases hgrown : growth (nominal - now.monotonicNowNs) now.rateUncertaintyPpb.toUInt64
    with - | grown
  · rw [hgrown] at h
    cases h
  rw [hgrown] at h
  obtain ⟨hbudget, h⟩ := passed h
  obtain ⟨-, h⟩ := passed h
  rcases hduration : durationUtcBound job.totalDurationNs now with - | duration
  · rw [hduration] at h
    cases h
  rw [hduration] at h
  obtain ⟨hhorizon, h⟩ := passed h
  simp only [not_or, gt_iff_lt, ge_iff_le, UInt64.not_lt, UInt64.not_le, ne_eq, not_not]
    at huncertainty hleap hlead hbudget hhorizon
  obtain ⟨hstart, hrest⟩ := not_or.mp hroom
  obtain ⟨hwindow, hrest⟩ := not_or.mp hrest
  obtain ⟨-, hrest⟩ := not_or.mp hrest
  obtain ⟨hrun, hutc⟩ := not_or.mp hrest
  have hends : nominal = start ∧ ∀ transition, now.leapTransitionUtcNs = some transition →
      duration ≤ u64Max - lastStart body ∧
      (exclusionEnd transition < body.startUtcNs ∨
        lastStart body + duration < exclusionStart transition) := by
    rcases htransition : now.leapTransitionUtcNs with - | transition
    · rw [htransition] at h
      exact ⟨Except.ok.inj h, fun t ht => by cases ht⟩
    · rw [htransition] at h
      obtain ⟨hfits, h⟩ := passed h
      obtain ⟨hclear, h⟩ := passed h
      refine ⟨Except.ok.inj h, fun t ht => ?_⟩
      cases ht
      refine ⟨UInt64.not_lt.mp hfits, ?_⟩
      rw [ge_iff_le, not_and_or, UInt64.not_le, UInt64.not_le] at hclear
      exact hclear
  obtain ⟨rfl, hexclusion⟩ := hends
  exact
    { uncertainty := le_armBudget huncertainty.1 huncertainty.2
      pending := hleap.2
      lead := hlead.1
      mapping := hmapping
      startRoom := hstart
      windowRoom := hwindow
      runRoom := hrun
      utcRoom := hutc
      budget := ⟨rounding, grown, hrounding, hgrown, hbudget.1, hbudget.2⟩
      horizon := ⟨duration, hduration, hhorizon.1, hhorizon.2, hexclusion⟩ }

/-! ## Sums -/

theorem room {x y : UInt64} (h : ¬ x > u64Max - y) : x.toNat + y.toNat < 2 ^ 64 := by
  have hsum := toNat_add_of_room h
  have hlt := (y + x).toNat_lt
  omega

theorem ArmAdmitted.lastStart_toNat (h : ArmAdmitted config job resolution body now start) :
    (lastStart body).toNat + 1 =
      body.startUtcNs.toNat + (startWindowNs body.startUtcNs).toNat := by
  have hroom := room h.windowRoom
  have hpos := startWindow_pos body.startUtcNs
  have hsum : (body.startUtcNs + startWindowNs body.startUtcNs).toNat =
      body.startUtcNs.toNat + (startWindowNs body.startUtcNs).toNat := by
    rw [UInt64.toNat_add, Nat.mod_eq_of_lt hroom]
  have hone : (1 : UInt64) ≤ body.startUtcNs + startWindowNs body.startUtcNs := by
    rw [UInt64.le_iff_toNat_le, hsum]
    exact hpos.trans_le (Nat.le_add_left _ _)
  have hlast : (lastStart body).toNat = (body.startUtcNs + startWindowNs body.startUtcNs).toNat - 1 :=
    UInt64.toNat_sub_of_le _ _ hone
  omega

/-- The sums with the start have room for the window and the job behind it. -/
theorem ArmAdmitted.sums (h : ArmAdmitted config job resolution body now start) :
    start.toNat + (startWindowNs body.startUtcNs).toNat + job.totalDurationNs.toNat < 2 ^ 64 ∧
    body.startUtcNs.toNat + (startWindowNs body.startUtcNs).toNat + job.totalDurationNs.toNat <
      2 ^ 64 := by
  have hstart := room h.startRoom
  have hutc := room h.windowRoom
  have hrun := room h.runRoom
  have hend := room h.utcRoom
  rw [UInt64.toNat_add, Nat.mod_eq_of_lt hstart] at hrun
  rw [UInt64.toNat_add, Nat.mod_eq_of_lt hutc] at hend
  omega

/-- The end of the exclusion is past a start only where the sum had room. -/
theorem after_exclusion {transition startUtc : UInt64} (h : exclusionEnd transition < startUtc) :
    transition.toNat + 1000000000 < startUtc.toNat := by
  have hlt := UInt64.lt_iff_toNat_lt.mp h
  have hstart := startUtc.toNat_lt
  unfold exclusionEnd saturatingAdd at hlt
  split at hlt
  · rw [toNat_u64Max] at hlt
    omega
  · rename_i hroom
    rwa [toNat_add_of_room hroom] at hlt

theorem before_exclusion {transition time : UInt64} (h : time < exclusionStart transition) :
    time.toNat + 1000000000 < transition.toNat := by
  have hlt := UInt64.lt_iff_toNat_lt.mp h
  unfold exclusionStart at hlt
  split at hlt
  · rename_i hlate
    have hexclusion : leapExclusionNs.toNat = 1000000000 := rfl
    rw [UInt64.toNat_sub_of_le _ _ (UInt64.le_of_lt hlate), hexclusion] at hlt
    omega
  · exact absurd hlt (Nat.not_lt_zero _)

/-- An accepted start is not before the snapshot. -/
theorem ArmAdmitted.start_ahead (h : ArmAdmitted config job resolution body now start) :
    now.monotonicNowNs ≤ start := by
  have hahead : ∀ s : ClockSnapshot, s.utcNowNs ≤ body.startUtcNs →
      inverseSegment s body.startUtcNs = some start → s.monotonicNowNs ≤ start := by
    intro s hlead hinverse
    obtain ⟨hrate, hstart⟩ := inverseSegment_spec hinverse
    have hlead := UInt64.le_iff_toNat_le.mp hlead
    have hback : 0 ≤ ticksBack (rateTicks s) 1000000000
        ((body.startUtcNs.toNat : Int) - s.utcNowNs.toNat) := by
      by_contra hneg
      have hle : ticksBack (rateTicks s) 1000000000
          ((body.startUtcNs.toNat : Int) - s.utcNowNs.toNat) ≤ -1 := by omega
      rw [ticksBack_le (rateTicks_bounds hrate).1] at hle
      have hpos := (rateTicks_bounds hrate).1
      omega
    unfold segmentRaw at hstart
    rw [UInt64.le_iff_toNat_le]
    omega
  obtain ⟨-, hinverse⟩ | ⟨hboundary, boundary, hb, ⟨-, hinverse⟩ | ⟨hlate, hinverse⟩⟩ :=
    inverse_cases h.mapping
  · exact hahead now h.lead hinverse
  · exact hahead now h.lead hinverse
  · have hafter := hahead (boundaryAt now boundary) (UInt64.le_of_lt hlate) hinverse
    simp only [hasBoundary, Bool.decide_and, Bool.and_eq_true, decide_eq_true_eq] at hboundary
    exact UInt64.le_trans hboundary.2 hafter

/-- The uncertainty at the snapshot, its growth to the start and the rounding of the start are
within the budget. -/
theorem ArmAdmitted.within_budget (h : ArmAdmitted config job resolution body now start) :
    ∃ rounding grown,
      elapsedUtc (startAdjustment resolution start + if now.ratePpb ≠ 0 then 1 else 0) now.ratePpb
        true = some rounding ∧
      growth (start - now.monotonicNowNs) now.rateUncertaintyPpb.toUInt64 = some grown ∧
      now.uncertaintyNs.toNat + grown.toNat + rounding.toNat ≤ (armBudget config body).toNat := by
  obtain ⟨rounding, grown, hrounding, hgrown, hfits, hrest⟩ := h.budget
  refine ⟨rounding, grown, hrounding, hgrown, ?_⟩
  have huncertainty := UInt64.le_iff_toNat_le.mp h.uncertainty
  have hsub := UInt64.toNat_sub_of_le _ _ hfits
  have hsub' := UInt64.toNat_sub_of_le _ _ h.uncertainty
  have hfits := UInt64.le_iff_toNat_le.mp hfits
  have hrest := UInt64.le_iff_toNat_le.mp hrest
  omega

/-! ## The end of the job -/

variable {K : Type} [Field K] [LinearOrder K] [IsStrictOrderedRing K]

/-- A job lasts at most its bound of UTC, however the oscillator divides it between the two rates
and whatever it does within the uncertainty of each. -/
theorem lasts_le {duration : UInt64} (hbound : durationUtcBound job.totalDurationNs now =
      some duration) {first second r s : K} (hfirst : 0 ≤ first) (hsecond : 0 ≤ second)
    (htotal : first + second = job.totalDurationNs.toNat)
    (hr : |r - now.ratePpb| ≤ now.rateUncertaintyPpb.toNat)
    (hs : |s - now.subsequentRatePpb| ≤ now.rateUncertaintyPpb.toNat) :
    first * (1 + r / 1000000000) + second * (1 + s / 1000000000) ≤ duration.toNat := by
  have hspec := durationUtcBound_spec hbound
  have hup : (job.totalDurationNs.toNat : Int) * fastestTicks now ≤ duration.toNat * 1000000000 := by
    rw [← ticksUp_le (by decide : (0 : Int) < 1000000000)]
    exact hspec.ge
  have hup : (job.totalDurationNs.toNat : K) * fastestTicks now ≤ duration.toNat * 1000000000 := by
    exact_mod_cast hup
  have hrate : now.ratePpb + (now.rateUncertaintyPpb.toNat : Int) ≤ fastestTicks now - 1000000000 := by
    unfold fastestTicks
    omega
  have hsubsequent : now.subsequentRatePpb + (now.rateUncertaintyPpb.toNat : Int) ≤
      fastestTicks now - 1000000000 := by
    unfold fastestTicks
    omega
  have hrate : (now.ratePpb : K) + now.rateUncertaintyPpb.toNat ≤ fastestTicks now - 1000000000 := by
    exact_mod_cast hrate
  have hsubsequent : (now.subsequentRatePpb : K) + now.rateUncertaintyPpb.toNat ≤
      fastestTicks now - 1000000000 := by
    exact_mod_cast hsubsequent
  have hr := (abs_le.mp hr).2
  have hs := (abs_le.mp hs).2
  have hfirst' := mul_le_mul_of_nonneg_left (by linarith : 1000000000 + r ≤ fastestTicks now) hfirst
  have hsecond' := mul_le_mul_of_nonneg_left (by linarith : 1000000000 + s ≤ fastestTicks now)
    hsecond
  have hsum : first * fastestTicks now + second * fastestTicks now ≤ duration.toNat * 1000000000 := by
    rw [← add_mul, htotal]
    exact hup
  have hscale : (first * (1 + r / 1000000000) + second * (1 + s / 1000000000)) * 1000000000 =
      first * (1000000000 + r) + second * (1000000000 + s) := by
    field_simp
  rw [← mul_le_mul_iff_left₀ (by norm_num : (0 : K) < 1000000000), hscale]
  linarith

/-- A job launched in its start second ends before the source horizon, and clear of a leap
transition. -/
theorem ArmAdmitted.ends (h : ArmAdmitted config job resolution body now start) {launch last : K}
    (hstart : (body.startUtcNs.toNat : K) ≤ launch)
    (hlaunch : launch < body.startUtcNs.toNat + (startWindowNs body.startUtcNs).toNat)
    (hlast : ∀ duration, durationUtcBound job.totalDurationNs now = some duration →
      last ≤ duration.toNat) :
    launch + last < now.validUntilUtcNs.toNat ∧
    ∀ transition, now.leapTransitionUtcNs = some transition →
      launch + last < transition.toNat - 1000000000 ∨ transition.toNat + 1000000000 < launch := by
  obtain ⟨duration, hduration, hvalid, hhorizon, hexclusion⟩ := h.horizon
  have hlast := hlast duration hduration
  have hlastStart := h.lastStart_toNat
  have hlaunch : launch < (lastStart body).toNat + 1 := by
    have hcast : ((lastStart body).toNat : K) + 1 =
        body.startUtcNs.toNat + (startWindowNs body.startUtcNs).toNat := by
      exact_mod_cast hlastStart
    rwa [hcast]
  have hend : ∀ n : Nat, (lastStart body).toNat + duration.toNat < n → launch + last < n := by
    intro n hn
    have hcast : ((lastStart body).toNat : K) + duration.toNat + 1 ≤ n := by
      exact_mod_cast hn
    linarith
  refine ⟨hend _ ?_, fun transition htransition => ?_⟩
  · have hlt := UInt64.lt_iff_toNat_lt.mp hhorizon
    rw [UInt64.toNat_sub_of_le _ _ (UInt64.le_of_lt hvalid)] at hlt
    omega
  · obtain ⟨hroom, hafter | hbefore⟩ := hexclusion transition htransition
    · refine .inr (lt_of_lt_of_le ?_ hstart)
      exact_mod_cast after_exclusion hafter
    · left
      have hlt := before_exclusion hbefore
      have hsum : (lastStart body + duration).toNat = (lastStart body).toNat + duration.toNat := by
        have hle := UInt64.le_iff_toNat_le.mp hroom
        have hlast := (lastStart body).toNat_lt
        rw [toNat_left] at hle
        rw [UInt64.toNat_add, Nat.mod_eq_of_lt (by omega)]
      rw [hsum] at hlt
      have h := hend (transition.toNat - 1000000000) (by omega)
      rwa [Nat.cast_sub (by omega)] at h

/-- An accepted ARM runs safely. The sums of its start, second and job have room; the uncertainty
now, its growth up to the start and the rounding are within the budget; and launched at any instant
of the start second, at any rate of the oscillator within the bounds of the snapshot, the job ends
before the source horizon and clear of the second on either side of a leap transition. -/
theorem arm_safe (config : ServiceConfig) (job : Job) (resolution : UInt64) (body : ArmBody)
    (now : ClockSnapshot) (start : UInt64)
    (h : validateArm config job resolution body now = .ok start) :
    (body.startUtcNs.toNat + (startWindowNs body.startUtcNs).toNat < 2 ^ 64 ∧
      body.startUtcNs.toNat + job.totalDurationNs.toNat < 2 ^ 64 ∧
      start.toNat + (startWindowNs body.startUtcNs).toNat + job.totalDurationNs.toNat < 2 ^ 64 ∧
      (∃ duration, durationUtcBound job.totalDurationNs now = some duration ∧
        (lastStart body).toNat + duration.toNat < 2 ^ 64) ∧
      ∀ (later : ClockSnapshot) duration, durationUtcBound job.totalDurationNs later =
        some duration → duration ≤ u64Max - lastStart body →
          (lastStart body).toNat + duration.toNat < 2 ^ 64) ∧
    (now.monotonicNowNs ≤ start ∧ ∃ rounding grown,
      elapsedUtc (startAdjustment resolution start + if now.ratePpb ≠ 0 then 1 else 0) now.ratePpb
        true = some rounding ∧
      growth (start - now.monotonicNowNs) now.rateUncertaintyPpb.toUInt64 = some grown ∧
      now.uncertaintyNs.toNat + grown.toNat + rounding.toNat ≤ (armBudget config body).toNat) ∧
    ∀ launch first second r s : K, (body.startUtcNs.toNat : K) ≤ launch →
      launch < body.startUtcNs.toNat + (startWindowNs body.startUtcNs).toNat →
      0 ≤ first → 0 ≤ second → first + second = job.totalDurationNs.toNat →
      |r - now.ratePpb| ≤ now.rateUncertaintyPpb.toNat →
      |s - now.subsequentRatePpb| ≤ now.rateUncertaintyPpb.toNat →
      let last := first * (1 + r / 1000000000) + second * (1 + s / 1000000000)
      launch + last < now.validUntilUtcNs.toNat ∧
      ∀ transition, now.leapTransitionUtcNs = some transition →
        launch + last < transition.toNat - 1000000000 ∨
          transition.toNat + 1000000000 < launch := by
  have hadmitted := validateArm_admitted h
  obtain ⟨hrun, hutc⟩ := hadmitted.sums
  have hroom : ∀ duration : UInt64, duration ≤ u64Max - lastStart body →
      (lastStart body).toNat + duration.toNat < 2 ^ 64 := by
    intro duration hle
    have hsum := room (UInt64.not_lt.mpr hle)
    omega
  refine ⟨⟨by omega, by omega, hrun, ?_, fun later duration _ => hroom duration⟩,
    ⟨hadmitted.start_ahead, hadmitted.within_budget⟩, ?_⟩
  · obtain ⟨duration, hduration, hvalid, hhorizon, -⟩ := hadmitted.horizon
    refine ⟨duration, hduration, ?_⟩
    have hlt := UInt64.lt_iff_toNat_lt.mp hhorizon
    have hmax := now.validUntilUtcNs.toNat_lt
    rw [UInt64.toNat_sub_of_le _ _ (UInt64.le_of_lt hvalid)] at hlt
    omega
  · intro launch first second r s hstart hlaunch hfirst hsecond htotal hr hs
    exact hadmitted.ends hstart hlaunch fun duration hduration =>
      lasts_le hduration hfirst hsecond htotal hr hs

/-- A synchronized snapshot before the insertion of a leap second. -/
def leapingClock : ClockSnapshot :=
  { state := .synchronized
    utcNowNs := 1800000000000000000
    monotonicNowNs := 5000000000
    uncertaintyNs := 1000
    leap := .insertPending
    leapTransitionUtcNs := some 1800003600000000000
    ratePpb := 20000
    rateUncertaintyPpb := 1000
    rateUntilMonotonicNs := 8000000000
    subsequentRatePpb := -5000 }

def minuteTone : Job :=
  { jobId := "0123456789abcdef0123456789abcdef"
    mode := "tone"
    totalDurationNs := 60000000000
    events := { events := [⟨0, 60000000000, true, some 3570100000000000⟩] } }

def nextMinute : ArmBody :=
  { jobId := "0123456789abcdef0123456789abcdef"
    startUtcNs := 1800000060000000000
    maxStartUncertaintyNs := 1000000 }

theorem arm_safe_leaping :
    (1800000060500000000 + (30000000000 * (1 + 21000 / 1000000000) +
      30000000000 * (1 + -5500 / 1000000000)) : ℚ) < 1800003600000000000 - 1000000000 ∨
    (1800003600000000000 : ℚ) + 1000000000 < 1800000060500000000 := by
  have haccepted : validateArm {} minuteTone 1000 nextMinute leapingClock = .ok 65000225002 := by
    decide +kernel
  have hstart : nextMinute.startUtcNs.toNat = 1800000060000000000 := by decide
  have hwindow : (startWindowNs nextMinute.startUtcNs).toNat = 1000000000 := by decide
  have htotal : minuteTone.totalDurationNs.toNat = 60000000000 := by decide
  have hunit : leapingClock.rateUncertaintyPpb.toNat = 1000 := by decide
  have htransition : (1800003600000000000 : UInt64).toNat = 1800003600000000000 := by decide
  have h := ((arm_safe (K := ℚ) {} minuteTone 1000 nextMinute leapingClock 65000225002
    haccepted).2.2 1800000060500000000 30000000000 30000000000 21000 (-5500)
    (by rw [hstart]; norm_num) (by rw [hstart, hwindow]; norm_num) (by norm_num) (by norm_num)
    (by rw [htotal]; norm_num) (by rw [hunit]; norm_num [leapingClock])
    (by rw [hunit]; norm_num [leapingClock])).2 1800003600000000000 rfl
  rw [htransition] at h
  exact_mod_cast h

end WsprryPico.Wtp
