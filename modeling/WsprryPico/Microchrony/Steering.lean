import WsprryPico.Lib.Slew
import WsprryPico.Microchrony.Clock
import WsprryPico.Microchrony.Passes

/-!
# The steering of the clock

The frequency and the slew of the clock stay within a tenth, and the slew goes where the pending
phase does. So the clock shown does not run backward, and settling it does not step it.
-/

namespace WsprryPico.Microchrony

open Lib Engine

variable {K : Type} [Scalar K] {e e' e₀ : Engine K} {now s t : Nat} {b : Bool} {slot : Slot}
  {combined : List Slot} {call : Call} {r : FrequencyReference} {config : Config K}

theorem valid_drift (h : config.valid = true) :
    0 ≤ config.maxDriftPpm ∧ config.maxDriftPpm ≤ 100000 := by
  simp only [Config.valid, Bool.and_eq_true, decide_eq_true_eq] at h
  exact ⟨h.1.1.1.1.1.1.1.2, h.1.1.1.1.1.1.2⟩

namespace Engine

theorem slewed_eq (elapsed : K) : e.slewed elapsed = slewPhase e.slew e.pendingPhase elapsed := rfl

theorem difference_of_le {a b : Nat} (h : b ≤ a) :
    (difference a b : K) = ((a - b : Nat) : K) / billion := by
  rw [difference, if_pos h]

theorem admits_rate (h : e.admits r now = true) :
    |(r.ratePpb : K)| ≤ e.config.maxDriftPpm * 1000 := by
  simp only [admits, Bool.and_eq_true, decide_eq_true_eq] at h
  exact h.1.1.1.1.1.1.2

/-- The seed is taken. -/
def Seeds (e : Engine K) (frequencyPpb : Int) (skewPpb : Nat) : Prop :=
  e.frequencyReferenceState = .none ∧ |(frequencyPpb : K)| ≤ e.config.maxDriftPpm * 1000 ∧
    skewPpb ≤ 1000000000

theorem seed_cases (e : Engine K) (frequencyPpb : Int) (skewPpb : Nat) :
    (¬ e.Seeds frequencyPpb skewPpb ∧ e.seed frequencyPpb skewPpb = e) ∨
    (e.Seeds frequencyPpb skewPpb ∧ ∃ skew, e.seed frequencyPpb skewPpb =
      { e with frequency := (frequencyPpb : K) / billion, skew := skew, frequencySkew := skew }) := by
  unfold seed Seeds
  split_ifs with hstate hbound
  · exact .inl ⟨fun h => hstate h.1, rfl⟩
  · exact .inr ⟨⟨not_not.mp hstate, hbound⟩, _, rfl⟩
  · exact .inl ⟨fun h => hbound h.2, rfl⟩

/-! ## The invariant -/

/-- What steers the clock is within its bounds. -/
structure Steered (e : Engine K) : Prop where
  config : e.config.valid = true
  frequency : |e.frequency| ≤ 1 / 10
  total : |e.frequency + e.slew| ≤ 1 / 10
  sign : 0 ≤ e.slew * e.pendingPhase
  network : |(e.networkFrequencyPpb : K) / billion| ≤ 1 / 10
  reference : |(e.frequencyReference.ratePpb : K) / billion| ≤ 1 / 10

/-- What steers the clock. -/
def helm (e : Engine K) : Config K × K × K × K × Int × Int :=
  (e.config, e.frequency, e.slew, e.pendingPhase, e.networkFrequencyPpb,
    e.frequencyReference.ratePpb)

theorem Steered.of_helm (h : Steered e) (heq : e'.helm = e.helm) : Steered e' := by
  simp only [helm, Prod.mk.injEq] at heq
  obtain ⟨hconfig, hfrequency, hslew, hpending, hnetwork, hreference⟩ := heq
  constructor
  · rw [hconfig]
    exact h.config
  · rw [hfrequency]
    exact h.frequency
  · rw [hfrequency, hslew]
    exact h.total
  · rw [hslew, hpending]
    exact h.sign
  · rw [hnetwork]
    exact h.network
  · rw [hreference]
    exact h.reference

end Engine

variable [IsStrictOrderedRing K]

/-! ## Bounds of a valid configuration -/

theorem ppb_le_tenth {n : Int} (h : config.valid = true)
    (hn : |(n : K)| ≤ config.maxDriftPpm * 1000) : |(n : K) / billion| ≤ 1 / 10 := by
  have hdrift := (valid_drift h).2
  rw [abs_div, abs_of_pos (billion_pos (K := K)), div_le_iff₀ billion_pos]
  unfold billion
  linarith

theorem abs_llround_le {x : K} {n : Nat} (h : |x| ≤ n) : |llround x| ≤ n := by
  rcases le_or_gt 0 x with hx | hx
  · rw [abs_of_nonneg (llround_nonneg hx)]
    exact llround_le hx (le_of_abs_le h)
  · have hneg : llround x = -llround (-x) := by
      unfold llround
      rw [if_neg (not_le.mpr hx), if_pos (by linarith)]
    have hpos : (0 : K) ≤ -x := by linarith
    rw [hneg, abs_neg, abs_of_nonneg (llround_nonneg hpos)]
    exact llround_le hpos ((neg_le_abs x).trans h)

/-! ## The clamp -/

namespace Engine

theorem clampSlew_total :
    |e.clampSlew.frequency + e.clampSlew.slew| ≤ 1 / 10 := by
  have hmax := le_max_left (-1 / 10 - e.frequency) (min e.slew (1 / 10 - e.frequency))
  have hmin := min_le_right e.slew (1 / 10 - e.frequency)
  have hle : max (-1 / 10 - e.frequency) (min e.slew (1 / 10 - e.frequency)) ≤
      1 / 10 - e.frequency := max_le (by linarith) hmin
  rw [abs_le]
  dsimp only [clampSlew]
  constructor <;> linarith

/-- The clamp may end a slew, but does not turn it. -/
theorem clampSlew_sign (h : |e.frequency| ≤ 1 / 10) (hsign : 0 ≤ e.slew * e.pendingPhase) :
    0 ≤ e.clampSlew.slew * e.clampSlew.pendingPhase := by
  obtain ⟨hlow, hhigh⟩ := abs_le.mp h
  dsimp only [clampSlew]
  rcases sign_cases hsign with hzero | ⟨hslew, hpending⟩ | ⟨hslew, hpending⟩
  · rw [hzero, min_eq_left (by linarith), max_eq_right (by linarith), zero_mul]
  · refine mul_nonneg (le_max_of_le_right (le_min hslew.le (by linarith))) hpending
  · refine mul_nonneg_of_nonpos_of_nonpos (max_le (by linarith) ?_) hpending
    exact (min_le_left _ _).trans hslew.le

theorem clampSlew_steered (hconfig : e.config.valid = true) (hfrequency : |e.frequency| ≤ 1 / 10)
    (hsign : 0 ≤ e.slew * e.pendingPhase)
    (hnetwork : |(e.networkFrequencyPpb : K) / billion| ≤ 1 / 10)
    (hreference : |(e.frequencyReference.ratePpb : K) / billion| ≤ 1 / 10) :
    Steered e.clampSlew where
  config := hconfig
  frequency := hfrequency
  total := clampSlew_total
  sign := clampSlew_sign hfrequency hsign
  network := hnetwork
  reference := hreference

theorem difference_nonneg {a b : Nat} (h : b ≤ a) : (0 : K) ≤ difference a b := by
  rw [difference_of_le h]
  exact div_nonneg (Nat.cast_nonneg _) billion_pos.le

theorem Steered.advance (h : Steered e) : Steered (e.advance now) := by
  unfold Engine.advance
  split_ifs with hkept
  · exact h
  · have helapsed : (0 : K) ≤ difference now e.clockRawNs :=
      difference_nonneg (by omega)
    refine ⟨h.config, h.frequency, ?_, ?_, h.network, h.reference⟩
    · dsimp only
      split_ifs
      · rw [add_zero]
        exact h.frequency
      · exact h.total
    · dsimp only
      split_ifs
      · rw [zero_mul]
      · exact slewPhase_rest h.sign helapsed

/-! ## A discipline -/

theorem abs_clamp_le {bound : K} (h : 0 ≤ bound) (x : K) : |max (-bound) (min x bound)| ≤ bound :=
  abs_le.mpr ⟨le_max_left _ _, max_le (by linarith) (min_le_right _ _)⟩

theorem blend_frequency (hconfig : e.config.valid = true) (h : |e.frequency| ≤ 1 / 10)
    (estimate : CombinedEstimate K) (now : Nat) : |(e.blend estimate now).frequency| ≤ 1 / 10 := by
  obtain ⟨hlow, hhigh⟩ := valid_drift hconfig
  have hclamp : ∀ x : K, |max (-(e.config.maxDriftPpm / 1000000))
      (min x (e.config.maxDriftPpm / 1000000))| ≤ 1 / 10 := by
    intro x
    refine (abs_clamp_le (div_nonneg hlow (by norm_num)) x).trans ?_
    rw [div_le_iff₀ (by norm_num)]
    linarith
  unfold blend
  dsimp only
  split_ifs
  · exact hclamp _
  · exact h
  · exact hclamp _
  · exact h

/-- The rate of the network is kept within a tenth. -/
theorem withNetwork_network (estimate : CombinedEstimate K) :
    |((e.withNetwork estimate).networkFrequencyPpb : K) / billion| ≤ 1 / 10 := by
  have hrate : |max (-1 / 10) (min estimate.rate (1 / 10)) * billion| ≤ ((100000000 : Nat) : K) := by
    have hclamp : |max (-(1 / 10)) (min estimate.rate (1 / 10))| ≤ 1 / 10 :=
      abs_clamp_le (by norm_num) _
    rw [neg_div, abs_mul, abs_of_pos (billion_pos (K := K))]
    have hmul := mul_le_mul_of_nonneg_right hclamp (billion_pos (K := K)).le
    refine hmul.trans (le_of_eq ?_)
    unfold billion
    norm_num
  have hround := abs_llround_le hrate
  have hcast : |((llround (max (-1 / 10) (min estimate.rate (1 / 10)) * billion) : Int) : K)| ≤
      100000000 := by
    have h : ((|llround (max (-1 / 10) (min estimate.rate (1 / 10)) * billion)| : Int) : K) ≤
        ((100000000 : Nat) : Int) := by exact_mod_cast hround
    rw [Int.cast_abs] at h
    exact_mod_cast h
  rw [abs_div, abs_of_pos (billion_pos (K := K)), div_le_iff₀ billion_pos]
  refine hcast.trans (le_of_eq ?_)
  unfold billion
  norm_num

theorem rated_frequency (h : Steered e) (estimate : CombinedEstimate K) (now : Nat) :
    |(e.rated estimate now).frequency| ≤ 1 / 10 := by
  have hblend := blend_frequency h.config h.frequency estimate now
  have hreference : ((e.blend estimate now).withNetwork estimate).frequencyReference =
      e.frequencyReference :=
    of_view (blend_unrated estimate) Engine.frequencyReference fun _ => rfl
  unfold rated compareReference
  split_ifs
  · exact hblend
  · rw [hreference]
    exact h.reference
  · exact hblend
  · exact hblend

theorem copysign_sign (magnitude sign : K) : 0 ≤ copysign magnitude sign * sign := by
  unfold copysign
  split_ifs with h
  · exact mul_nonneg_of_nonpos_of_nonpos (neg_nonpos.mpr (abs_nonneg _)) h.le
  · exact mul_nonneg (abs_nonneg _) (not_lt.mp h)

theorem phaseSlew_sign (correction corrRate maximumRate : K) :
    0 ≤ phaseSlew correction corrRate maximumRate * correction := by
  unfold phaseSlew
  split
  · rw [zero_mul]
  · exact copysign_sign _ _

theorem settled_steered (h : Steered e) (slot : Slot) (combined : List Slot) (now : Nat) :
    Steered (e.settled slot combined now) := by
  have hused : Steered (e.markUsed combined) := h.of_helm rfl
  unfold settled settle
  split_ifs
  · exact hused.of_helm rfl
  · exact hused.advance

theorem discipline_steered (h : Steered e) : Steered (e.discipline slot combined now) := by
  rcases hchanged : e.changed slot with - | -
  · rw [discipline_kept combined hchanged]
    exact h
  · rw [discipline_eq combined hchanged]
    generalize combineSources (e.estimates slot combined now) = estimate
    have hsettled := settled_steered h slot combined now
    generalize e.settled slot combined now = e₁ at hsettled
    have hfrequency := rated_frequency hsettled estimate now
    have hview : (e₁.rated estimate now).unrated = e₁.unrated := rated_unrated estimate
    have hconfig : (e₁.rated estimate now).config = e₁.config :=
      of_view hview Engine.config fun _ => rfl
    have hreference : (e₁.rated estimate now).frequencyReference = e₁.frequencyReference :=
      of_view hview Engine.frequencyReference fun _ => rfl
    have hnetwork : |((e₁.rated estimate now).networkFrequencyPpb : K) / billion| ≤ 1 / 10 := by
      have heq : (e₁.rated estimate now).networkFrequencyPpb =
          ((e₁.blend estimate now).withNetwork estimate).networkFrequencyPpb := by
        unfold rated compareReference
        split_ifs <;> rfl
      rw [heq]
      exact withNetwork_network estimate
    refine Steered.of_helm (e := (e₁.rated estimate now).steer estimate.offsetSd
      (e.referenceUtc slot combined now) now) ?_ rfl
    refine clampSlew_steered ?_ hfrequency (phaseSlew_sign _ _ _) hnetwork ?_
    · exact (congrArg Config.valid hconfig).trans hsettled.config
    · rw [hreference]
      exact hsettled.reference

theorem select_steered (h : Steered e) : Steered (e.select now b) := by
  have hpass : Steered (e.pass now b).1 :=
    h.of_helm (of_view (e.pass_passed now b).clock helm fun _ => rfl)
  obtain ⟨-, hselect⟩ | ⟨slot, combined, -, hselect⟩ := e.select_cases now b
  · rw [hselect]
    exact hpass
  · rw [hselect]
    exact discipline_steered hpass

/-! ## The calls about the frequency -/

theorem observe_steered (h : Steered e) (r : FrequencyReference) (now : Nat) :
    Steered (e.observeFrequencyReference r now).2 := by
  rcases e.observe_cases r now with ⟨-, hobserve⟩ | ⟨hadmits, hobserve⟩
  · rw [hobserve]
    exact h
  · have hadvance : Steered (e.advance now) := h.advance
    have hrate := ppb_le_tenth h.config (admits_rate hadmits)
    have hconsumed : Steered (e.consumed r now) :=
      ⟨hadvance.config, hadvance.frequency, hadvance.total, hadvance.sign, hadvance.network, hrate⟩
    rcases hobserve with ⟨-, hobserve⟩ | ⟨-, hobserve | hobserve⟩
    · rw [hobserve]
      exact hconsumed.of_helm rfl
    · rw [hobserve]
      exact hconsumed.of_helm rfl
    · rw [hobserve]
      exact clampSlew_steered hconsumed.config hrate hconsumed.sign hconsumed.network hrate

theorem clear_steered (h : Steered e) (now : Nat) : Steered (e.clearFrequencyReference now) := by
  rcases e.clear_cases now with ⟨-, hclear⟩ | ⟨-, hclear⟩
  · rw [hclear]
    exact h
  · have hexpired : Steered (e.expired now) := h.advance.of_helm rfl
    have hrate : |(e.expired now).networkRate| ≤ 1 / 10 := by
      unfold networkRate
      split_ifs
      · exact hexpired.network
      · rw [abs_zero]
        norm_num
    rw [hclear]
    refine Steered.of_helm (e := (e.expired now).withoutReference) ?_ rfl
    exact clampSlew_steered hexpired.config hrate hexpired.sign hexpired.network hexpired.reference

theorem retire_steered (h : Steered e) (now : Nat) : Steered (e.retireFrequencyReference now) := by
  rcases e.retire_cases now with hretire | ⟨-, hretire⟩
  · rw [hretire]
    exact h
  · rw [hretire]
    exact h.advance.of_helm rfl

theorem seed_steered (h : Steered e) {frequencyPpb : Int} {skewPpb : Nat}
    (htotal : e.Seeds frequencyPpb skewPpb → |(frequencyPpb : K) / billion + e.slew| ≤ 1 / 10) :
    Steered (e.seed frequencyPpb skewPpb) := by
  rcases e.seed_cases frequencyPpb skewPpb with ⟨-, hseed⟩ | ⟨hseeds, skew, hseed⟩
  · rw [hseed]
    exact h
  · rw [hseed]
    exact ⟨h.config, ppb_le_tenth h.config hseeds.2.1, htotal hseeds, h.sign, h.network, h.reference⟩

/-! ## What the clock shows -/

theorem utc_settled (hvalid : e.clockValid = true) (hraw : e.clockRawNs = now) :
    (e.tracking now).utcNs = e.clockUtcNs := by
  rw [tracking_utc hvalid hraw.le, hraw, difference_self, zero_mul, slewed_zero, add_zero,
    addTime_zero]

/-- The time shown is far from the largest one when the raw times are. -/
theorem projection_small (h : Steered e) (hle : e.clockRawNs ≤ t) (ht : t < 2 ^ 61) :
    (difference t e.clockRawNs * (1 + e.frequency) +
      slewPhase e.slew e.pendingPhase (difference t e.clockRawNs)) * billion < (int64Max : K) := by
  obtain ⟨hlow, hhigh⟩ := abs_le.mp h.frequency
  obtain ⟨hslow, hshigh⟩ := abs_le.mp h.total
  have hx : (0 : K) ≤ difference t e.clockRawNs := difference_nonneg hle
  have hraw : difference t e.clockRawNs * billion ≤ (2 ^ 61 : K) := by
    rw [difference_of_le hle, div_mul_cancel₀ _ billion_pos.ne']
    exact_mod_cast (by omega : t - e.clockRawNs ≤ 2 ^ 61)
  have hslew : |e.slew| ≤ 1 / 5 := abs_le.mpr ⟨by linarith, by linarith⟩
  have hphase : slewPhase e.slew e.pendingPhase (difference t e.clockRawNs) ≤
      |e.slew| * difference t e.clockRawNs := (le_abs_self _).trans (abs_slewPhase_le hx)
  have hslewed := mul_le_mul_of_nonneg_right hslew hx
  have hrate := mul_le_mul_of_nonneg_left (by linarith : 1 + e.frequency ≤ 11 / 10) hx
  have htotal : difference t e.clockRawNs * (1 + e.frequency) +
      slewPhase e.slew e.pendingPhase (difference t e.clockRawNs) ≤
        difference t e.clockRawNs * (13 / 10) := by linarith
  have hmul := mul_le_mul_of_nonneg_right htotal (billion_pos (K := K)).le
  have hmax : (int64Max : K) = 2 ^ 63 - 1 := by
    rw [int64Max, Nat.cast_sub (by norm_num)]
    norm_num
  rw [hmax]
  calc _ ≤ difference t e.clockRawNs * (13 / 10) * billion := hmul
    _ = difference t e.clockRawNs * billion * (13 / 10) := by ring
    _ ≤ 2 ^ 61 * (13 / 10) := mul_le_mul_of_nonneg_right hraw (by norm_num)
    _ < 2 ^ 63 - 1 := by norm_num

/-- The clock shown does not run backward, far from the largest times. -/
theorem utc_mono (h : Steered e) (hvalid : e.clockValid = true) (hle : e.clockRawNs ≤ s)
    (hst : s ≤ t) (ht : t < 2 ^ 61) (hutc : e.clockUtcNs < 2 ^ 63) :
    (e.tracking s).utcNs ≤ (e.tracking t).utcNs := by
  obtain ⟨hlow, hhigh⟩ := abs_le.mp h.frequency
  obtain ⟨hslow, hshigh⟩ := abs_le.mp h.total
  have hs : (0 : K) ≤ difference s e.clockRawNs := difference_nonneg hle
  have hdiff : (difference s e.clockRawNs : K) ≤ difference t e.clockRawNs := by
    rw [difference_of_le hle, difference_of_le (hle.trans hst)]
    refine div_le_div_of_nonneg_right ?_ billion_pos.le
    exact_mod_cast Nat.sub_le_sub_right hst _
  rw [tracking_utc hvalid hle, tracking_utc hvalid (hle.trans hst), slewed_eq, slewed_eq]
  have hrate : (0 : K) ≤ 1 + e.frequency := by linarith
  have htotal : (0 : K) ≤ 1 + e.frequency + e.slew := by linarith
  refine addTime_mono ?_ (slewed_mono h.sign hrate htotal hs hdiff) hutc ?_
  · have hzero := slewed_mono h.sign hrate htotal (le_refl 0) hs
    rw [zero_mul, slewPhase_zero, add_zero] at hzero
    exact hzero
  · exact projection_small h (hle.trans hst) ht

end Engine

end WsprryPico.Microchrony
