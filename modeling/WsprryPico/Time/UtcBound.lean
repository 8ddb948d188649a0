import WsprryPico.Time.UtcDiscipline
import Mathlib.Data.Nat.Cast.Order.Field
import Mathlib.Tactic.FieldSimp
import Mathlib.Tactic.Linarith
import Mathlib.Tactic.Positivity
import Mathlib.Tactic.Ring

/-!
# The uncertainty of the UTC discipline

The projection of an observation rounds down and the growth of its uncertainty
rounds up, so a report contains the true time of an oscillator that stays within
the rates its models assume. The rounding of the projection is one nanosecond
more, and the sum with it is the one place that can wrap.
-/

namespace WsprryPico.Time

open Wtp

section Scale

theorem toNat_u64Max : u64Max.toNat = 2 ^ 64 - 1 := rfl

theorem toNat_left (x : UInt64) : (u64Max - x).toNat = 2 ^ 64 - 1 - x.toNat :=
  UInt64.toNat_sub_of_le _ _ (UInt64.le_iff_toNat_le.mpr (Nat.le_pred_of_lt x.toNat_lt))

/-- The fraction `scale` adds to the whole part. -/
def fraction (value numerator denominator : UInt64) (ceil : Bool) : UInt64 :=
  value % denominator * numerator / denominator +
    if ceil = true ∧ value % denominator * numerator % denominator ≠ 0 then 1 else 0

/-- The guards of `scale`, and its result. -/
theorem scale_cases {value numerator denominator result : UInt64} {ceil : Bool}
    (h : scale value numerator denominator ceil = some result) :
    (denominator ≠ 0 ∧ numerator ≤ 2000000000 ∧ denominator ≤ 2000000000) ∧
    ¬ (numerator ≠ 0 ∧ value / denominator > u64Max / numerator) ∧
    ¬ value / denominator * numerator > u64Max - fraction value numerator denominator ceil ∧
    result = value / denominator * numerator + fraction value numerator denominator ceil := by
  unfold scale at h
  dsimp only at h
  by_cases hguard : denominator = 0 ∨ numerator > 2000000000 ∨ denominator > 2000000000
  · rw [if_pos hguard] at h
    cases h
  rw [if_neg hguard] at h
  by_cases hwhole : numerator ≠ 0 ∧ value / denominator > u64Max / numerator
  · rw [if_pos hwhole] at h
    cases h
  rw [if_neg hwhole] at h
  change (if _ > u64Max - fraction value numerator denominator ceil then _ else
    some (_ + fraction value numerator denominator ceil)) = some result at h
  by_cases hsum : value / denominator * numerator > u64Max - fraction value numerator denominator ceil
  · rw [if_pos hsum] at h
    cases h
  rw [if_neg hsum] at h
  refine ⟨?_, hwhole, hsum, (Option.some.inj h).symm⟩
  simpa only [not_or, UInt64.not_lt] using hguard

theorem split_mul (v n d : Nat) : v * n = d * (v / d * n) + v % d * n := by
  calc v * n = (d * (v / d) + v % d) * n := by rw [Nat.div_add_mod]
    _ = d * (v / d * n) + v % d * n := by ring

theorem toNat_fraction {value numerator denominator : UInt64} (ceil : Bool)
    (hd : denominator ≠ 0) (hn : numerator ≤ 2000000000) (hd' : denominator ≤ 2000000000) :
    (fraction value numerator denominator ceil).toNat =
      value.toNat % denominator.toNat * numerator.toNat / denominator.toNat +
        if ceil = true ∧ value.toNat * numerator.toNat % denominator.toNat ≠ 0 then 1 else 0 := by
  have hpos : 0 < denominator.toNat :=
    Nat.pos_of_ne_zero fun h0 => hd (UInt64.toNat_inj.mp h0)
  have hn : numerator.toNat ≤ 2000000000 := UInt64.le_iff_toNat_le.mp hn
  have hd' : denominator.toNat ≤ 2000000000 := UInt64.le_iff_toNat_le.mp hd'
  have hlt : value.toNat % denominator.toNat * numerator.toNat < 2 ^ 62 := by
    have hr : value.toNat % denominator.toNat < denominator.toNat := Nat.mod_lt _ hpos
    calc value.toNat % denominator.toNat * numerator.toNat ≤ 2000000000 * 2000000000 :=
          Nat.mul_le_mul (by omega) hn
      _ < 2 ^ 62 := by decide
  have hproduct : (value % denominator * numerator).toNat =
      value.toNat % denominator.toNat * numerator.toNat := by
    rw [UInt64.toNat_mul, UInt64.toNat_mod]
    exact Nat.mod_eq_of_lt (hlt.trans (by decide))
  have hquotient : value.toNat % denominator.toNat * numerator.toNat / denominator.toNat < 2 ^ 62 :=
    (Nat.div_le_self _ _).trans_lt hlt
  have hup : (value % denominator * numerator % denominator ≠ 0) ↔
      value.toNat * numerator.toNat % denominator.toNat ≠ 0 := by
    rw [split_mul value.toNat numerator.toNat denominator.toNat, Nat.mul_add_mod,
      not_iff_not, ← UInt64.toNat_inj, UInt64.toNat_mod, hproduct]
    rfl
  unfold fraction
  rw [UInt64.toNat_add, UInt64.toNat_div, hproduct]
  by_cases hceil : ceil = true ∧ value.toNat * numerator.toNat % denominator.toNat ≠ 0
  · rw [if_pos hceil, if_pos (hceil.imp_right hup.mpr)]
    exact Nat.mod_eq_of_lt (by simp; omega)
  · rw [if_neg hceil, if_neg fun h => hceil (h.imp_right hup.mp)]
    exact Nat.mod_eq_of_lt (by simp; omega)

/-- The exact quotient, rounded down or up. -/
theorem scale_spec {value numerator denominator result : UInt64} {ceil : Bool}
    (h : scale value numerator denominator ceil = some result) :
    0 < denominator.toNat ∧
    result.toNat = value.toNat * numerator.toNat / denominator.toNat +
      if ceil = true ∧ value.toNat * numerator.toNat % denominator.toNat ≠ 0 then 1 else 0 := by
  obtain ⟨⟨hd, hn, hd'⟩, hwhole, hsum, rfl⟩ := scale_cases h
  have hpos : 0 < denominator.toNat :=
    Nat.pos_of_ne_zero fun h0 => hd (UInt64.toNat_inj.mp h0)
  have hwhole : (value / denominator * numerator).toNat =
      value.toNat / denominator.toNat * numerator.toNat := by
    rw [UInt64.toNat_mul, UInt64.toNat_div]
    refine Nat.mod_eq_of_lt ?_
    by_cases hzero : numerator = 0
    · simp [hzero]
    have hle : value.toNat / denominator.toNat ≤ (2 ^ 64 - 1) / numerator.toNat := by
      have := UInt64.not_lt.mp fun hlt => hwhole ⟨hzero, hlt⟩
      rwa [UInt64.le_iff_toNat_le, UInt64.toNat_div, UInt64.toNat_div] at this
    calc value.toNat / denominator.toNat * numerator.toNat
        ≤ (2 ^ 64 - 1) / numerator.toNat * numerator.toNat := Nat.mul_le_mul_right _ hle
      _ ≤ 2 ^ 64 - 1 := Nat.div_mul_le_self _ _
      _ < 2 ^ 64 := by decide
  have hfits : (value / denominator * numerator).toNat +
      (fraction value numerator denominator ceil).toNat < 2 ^ 64 := by
    have hle := UInt64.le_iff_toNat_le.mp (UInt64.not_lt.mp hsum)
    have hlt := (fraction value numerator denominator ceil).toNat_lt
    rw [toNat_left] at hle
    omega
  refine ⟨hpos, ?_⟩
  rw [UInt64.toNat_add, Nat.mod_eq_of_lt hfits, toNat_fraction ceil hd hn hd', hwhole,
    ← Nat.add_assoc]
  congr 1
  conv_rhs => rw [split_mul value.toNat numerator.toNat denominator.toNat]
  rw [Nat.mul_add_div hpos]

theorem toNat_rateNumerator {ratePpb : Int} (h : rateInRange ratePpb = true) :
    ((rateNumerator ratePpb).toNat : Int) = 1000000000 + ratePpb := by
  have h := of_decide_eq_true h
  unfold utcMaxRatePpb at h
  unfold rateNumerator
  rw [UInt64.toNat_ofNat', Nat.mod_eq_of_lt (by omega)]
  omega

theorem toNat_add_of_room {left right : UInt64} (h : ¬ right > u64Max - left) :
    (left + right).toNat = left.toNat + right.toNat := by
  have hle := UInt64.le_iff_toNat_le.mp (UInt64.not_lt.mp h)
  have hlt := left.toNat_lt
  rw [toNat_left] at hle
  rw [UInt64.toNat_add, Nat.mod_eq_of_lt (by omega)]

theorem add_spec {left right sum : UInt64} (h : add left right = some sum) :
    sum.toNat = left.toNat + right.toNat := by
  unfold add at h
  split at h
  · cases h
  · rename_i hroom
    cases h
    exact toNat_add_of_room hroom

theorem project_spec {anchor : ClockSnapshot} {raw utc : UInt64}
    (hone : anchor.rateUntilMonotonicNs = u64Max) (hle : anchor.monotonicNowNs ≤ raw)
    (h : project anchor raw = some utc) :
    rateInRange anchor.ratePpb = true ∧
    utc.toNat = anchor.utcNowNs.toNat +
      (raw - anchor.monotonicNowNs).toNat * (rateNumerator anchor.ratePpb).toNat / 1000000000 := by
  have hsegment : projectSegment anchor raw = some utc := by
    simpa [project, hasBoundary, hone] using h
  unfold projectSegment at hsegment
  simp only [ge_iff_le, hle, decide_true, if_true, Bool.not_true] at hsegment
  unfold elapsedUtc at hsegment
  by_cases hrange : rateInRange anchor.ratePpb = true
  · rw [if_pos hrange] at hsegment
    obtain ⟨elapsed, hscale, hsum⟩ := Option.bind_eq_some_iff.mp hsegment
    split at hsum
    · cases hsum
    · rename_i hroom
      cases hsum
      have helapsed := (scale_spec hscale).2
      refine ⟨hrange, ?_⟩
      rw [toNat_add_of_room hroom, helapsed]
      simp
  · simp [hrange] at hsegment

theorem growth_spec {age ppb drift : UInt64} (h : growth age ppb = some drift) :
    age.toNat * ppb.toNat ≤ drift.toNat * 1000000000 := by
  have hscale := (scale_spec h).2
  have hlt := Nat.mod_lt (age.toNat * ppb.toNat) (show 0 < 1000000000 by decide)
  rw [hscale]
  show _ ≤ (age.toNat * ppb.toNat / 1000000000 +
    if true = true ∧ age.toNat * ppb.toNat % 1000000000 ≠ 0 then 1 else 0) * 1000000000
  split
  · omega
  · rename_i hexact
    have : age.toNat * ppb.toNat % 1000000000 = 0 := by simpa using hexact
    omega

end Scale

namespace UtcDiscipline

section Truth

variable {K : Type} [Field K] [LinearOrder K] [IsStrictOrderedRing K] (T : UInt64 → K)

/-- The true time at the anchor is within the uncertainty of its UTC. -/
def Anchored (d : UtcDiscipline) : Prop :=
  |T d.monotonicNs - d.utcNs.toNat| ≤ d.uncertaintyNs.toNat

/-- From the anchor to a reading the oscillator has stayed within the assumed drift
and the rate uncertainty of the modelled rate. -/
def Tracks (d : UtcDiscipline) (now : UInt64) : Prop :=
  |T now - T d.monotonicNs -
      ((now - d.monotonicNs).toNat : K) * (1 + (d.ratePpb : K) / 1000000000)| ≤
    ((now - d.monotonicNs).toNat : K) *
      (d.config.oscillatorDriftPpb.toNat + d.rateUncertaintyPpb.toNat) / 1000000000

/-- The growth and the nanosecond of a rounded rate have a sum. -/
def Rounds (now : UInt64) (d : UtcDiscipline) : Prop :=
  d.ratePpb ≠ 0 → growth (now - d.monotonicNs) d.growthPpb ≠ some u64Max

/-- A model of one rate, as observations leave it. -/
structure Plain (d : UtcDiscipline) : Prop where
  imported : d.importedNtp = false
  single : d.rateUntilNs = u64Max

variable {d : UtcDiscipline} {now : UInt64}

/-- A report that is not unsynchronized is a projection. -/
theorem snapshot_cases (h : (d.snapshot now).state ≠ .unsynchronized) :
    d.configValid = true ∧ d.valid = true ∧ d.monotonicNs ≤ now ∧
    ∃ drift utc grown, growth (now - d.monotonicNs) d.growthPpb = some drift ∧
      project d.anchor now = some utc ∧ d.grown drift = some grown ∧
      d.snapshot now = d.report now utc grown := by
  unfold snapshot at h ⊢
  by_cases hconfig : d.configValid = true
  · rw [if_neg (not_not.mpr hconfig)] at h ⊢
    by_cases hstale : ¬ d.valid = true ∨ now < d.monotonicNs
    · rw [if_pos hstale] at h
      exact absurd rfl h
    · rw [if_neg hstale] at h ⊢
      obtain ⟨hvalid, hle⟩ := not_or.mp hstale
      refine ⟨hconfig, not_not.mp hvalid, UInt64.not_lt.mp hle, ?_⟩
      cases hdrift : growth (now - d.monotonicNs) d.growthPpb with
      | none =>
        rw [hdrift] at h
        exact absurd rfl h
      | some drift =>
        rw [hdrift] at h
        dsimp only at h ⊢
        split at h
        · rename_i utc grown hutc hgrown
          exact ⟨drift, utc, grown, rfl, hutc, hgrown, rfl⟩
        · exact absurd rfl h
  · rw [if_pos hconfig] at h
    exact absurd rfl h

theorem toNat_growthPpb (hplain : d.Plain) (hconfig : d.configValid = true) :
    d.growthPpb.toNat = d.config.oscillatorDriftPpb.toNat + d.rateUncertaintyPpb.toNat := by
  have hdrift : d.config.oscillatorDriftPpb ≤ 1000000000 := by
    have hvalid := (Bool.and_eq_true_iff.mp hconfig).2
    have := of_decide_eq_true hvalid
    exact this.2.2.2.2.2.2.2.2.2.2.2
  have hdrift : d.config.oscillatorDriftPpb.toNat ≤ 1000000000 := UInt64.le_iff_toNat_le.mp hdrift
  have hrate := d.rateUncertaintyPpb.toNat_lt
  unfold growthPpb
  rw [hplain.imported, if_neg Bool.false_ne_true, UInt64.toNat_add, UInt32.toNat_toUInt64,
    Nat.mod_eq_of_lt (by omega)]

theorem grown_spec {drift sum : UInt64} (h : d.grown drift = some sum)
    (hrounds : d.ratePpb ≠ 0 → drift ≠ u64Max) :
    sum.toNat = d.uncertaintyNs.toNat + drift.toNat + if d.ratePpb ≠ 0 then 1 else 0 := by
  have hsum := add_spec h
  rw [hsum]
  by_cases hrate : d.ratePpb ≠ 0
  · rw [if_pos hrate, if_pos hrate]
    have hlt : drift.toNat ≠ 2 ^ 64 - 1 := fun heq => hrounds hrate (UInt64.toNat_inj.mp heq)
    have := drift.toNat_lt
    rw [UInt64.toNat_add, Nat.mod_eq_of_lt (by simp; omega)]
    rfl
  · rw [if_neg hrate, if_neg hrate]
    simp

/-- The projected time and the exact one: rounded down, and exact at rate zero. -/
theorem projected_error (elapsed : Nat) {ratePpb : Int} (h : rateInRange ratePpb = true) :
    |(elapsed : K) * (1 + (ratePpb : K) / 1000000000) -
        ((elapsed * (rateNumerator ratePpb).toNat / 1000000000 : Nat) : K)| ≤
      if ratePpb ≠ 0 then 1 else 0 := by
  have hnumerator : ((rateNumerator ratePpb).toNat : K) = 1000000000 + (ratePpb : K) := by
    have := toNat_rateNumerator h
    exact_mod_cast congrArg (Int.cast : Int → K) this
  have hexact : (elapsed : K) * (1 + (ratePpb : K) / 1000000000) =
      ((elapsed * (rateNumerator ratePpb).toNat : Nat) : K) / 1000000000 := by
    rw [Nat.cast_mul, hnumerator]
    field_simp
  have hbelow : ((elapsed * (rateNumerator ratePpb).toNat / 1000000000 : Nat) : K) ≤
      ((elapsed * (rateNumerator ratePpb).toNat : Nat) : K) / 1000000000 := by
    have := Nat.cast_div_le (α := K) (m := elapsed * (rateNumerator ratePpb).toNat)
      (n := 1000000000)
    simpa using this
  rw [hexact, abs_of_nonneg (sub_nonneg.mpr hbelow)]
  by_cases hrate : ratePpb ≠ 0
  · rw [if_pos hrate, sub_le_iff_le_add', div_le_iff₀ (by norm_num)]
    have hnat : elapsed * (rateNumerator ratePpb).toNat ≤
        (elapsed * (rateNumerator ratePpb).toNat / 1000000000 + 1) * 1000000000 := by omega
    calc ((elapsed * (rateNumerator ratePpb).toNat : Nat) : K)
        ≤ (((elapsed * (rateNumerator ratePpb).toNat / 1000000000 + 1) * 1000000000 : Nat) : K) :=
          Nat.cast_le.mpr hnat
      _ = _ := by push_cast; ring
  · obtain rfl := not_not.mp hrate
    have hzero : (rateNumerator 0).toNat = 1000000000 := rfl
    rw [if_neg hrate, hzero, Nat.mul_div_cancel _ (by decide)]
    push_cast
    rw [mul_div_cancel_right₀ _ (by norm_num), sub_self]

variable {T}

/-- A report contains the true time. -/
theorem snapshot_bound (hplain : d.Plain) (hanchored : d.Anchored T) (htracks : d.Tracks T now)
    (hrounds : d.Rounds now) (h : (d.snapshot now).state ≠ .unsynchronized) :
    |T now - (d.snapshot now).utcNowNs.toNat| ≤ ((d.snapshot now).uncertaintyNs.toNat : K) := by
  obtain ⟨hconfig, -, hle, drift, utc, sum, hdrift, hutc, hsum, heq⟩ := snapshot_cases h
  obtain ⟨hrange, hutc⟩ := project_spec hplain.single hle hutc
  have hsum := grown_spec hsum fun hrate heq => hrounds hrate (heq ▸ hdrift)
  have hgrowth := growth_spec hdrift
  rw [toNat_growthPpb hplain hconfig] at hgrowth
  rw [heq]
  show |T now - (utc.toNat : K)| ≤ (sum.toNat : K)
  set elapsed := (now - d.monotonicNs).toNat with helapsed
  have hdrifted : (elapsed : K) *
      (d.config.oscillatorDriftPpb.toNat + d.rateUncertaintyPpb.toNat) / 1000000000 ≤
      (drift.toNat : K) := by
    rw [div_le_iff₀ (by norm_num)]
    exact_mod_cast hgrowth
  have hutc : utc.toNat = d.utcNs.toNat +
      elapsed * (rateNumerator d.ratePpb).toNat / 1000000000 := hutc
  have hrounded := projected_error (K := K) elapsed hrange
  have hanchored : |T d.monotonicNs - (d.utcNs.toNat : K)| ≤ d.uncertaintyNs.toNat := hanchored
  have htracks := le_trans htracks hdrifted
  -- the true time, the true time at the anchor, and the exact projection
  have hsplit : T now - (utc.toNat : K) =
      (T now - T d.monotonicNs - (elapsed : K) * (1 + (d.ratePpb : K) / 1000000000)) +
      ((T d.monotonicNs - (d.utcNs.toNat : K)) +
        ((elapsed : K) * (1 + (d.ratePpb : K) / 1000000000) -
          ((elapsed * (rateNumerator d.ratePpb).toNat / 1000000000 : Nat) : K))) := by
    rw [hutc, Nat.cast_add]
    ring
  have hcast : (sum.toNat : K) = (drift.toNat : K) + ((d.uncertaintyNs.toNat : K) +
      if d.ratePpb ≠ 0 then 1 else 0) := by
    rw [hsum]
    push_cast
    ring
  rw [hsplit, hcast]
  refine (abs_add_le _ _).trans (add_le_add htracks ?_)
  exact (abs_add_le _ _).trans (add_le_add hanchored hrounded)

end Truth

end UtcDiscipline

/-- The calls on a discipline; each comes with its reading of the raw timer. -/
inductive Call where
  | observe (utcNs sampled uncertaintyNs : UInt64) (leap : LeapState) (transition : Option UInt64)
  | observeFrom (source : ObservationSource) (utcNs sampled uncertaintyNs : UInt64)
    (leap : LeapState) (transition : Option UInt64)
  | observeRate (utcNs sampled uncertaintyNs : UInt64) (ratePpb : Int)
    (rateUncertaintyPpb : UInt32)
  | adjustBrowserRate (ratePpb : Int) (uncertaintyPpb : UInt32)
  | snapshot
  deriving DecidableEq

/-- An instant of the raw timer with what was observed there. -/
structure Sample where
  utcNs : UInt64
  sampled : UInt64
  uncertaintyNs : UInt64
  deriving DecidableEq

namespace Call

def exec (now : UInt64) (d : UtcDiscipline) : Call → Bool × UtcDiscipline
  | observe utc sampled uncertainty leap transition =>
    d.observe now utc sampled uncertainty leap transition
  | observeFrom source utc sampled uncertainty leap transition =>
    d.observeFrom source now utc sampled uncertainty leap transition
  | observeRate utc sampled uncertainty rate rateUncertainty =>
    d.observeRate now utc sampled uncertainty rate rateUncertainty
  | adjustBrowserRate rate uncertainty => d.adjustBrowserRate now rate uncertainty
  | snapshot => (true, d)

def sample : Call → Option Sample
  | observe utc sampled uncertainty _ _ => some ⟨utc, sampled, uncertainty⟩
  | observeFrom _ utc sampled uncertainty _ _ => some ⟨utc, sampled, uncertainty⟩
  | observeRate utc sampled uncertainty _ _ => some ⟨utc, sampled, uncertainty⟩
  | _ => none

/-- The sample of an observation the discipline took over. -/
def taken (now : UInt64) (d : UtcDiscipline) (call : Call) : Option Sample :=
  if (call.exec now d).1 then call.sample else none

end Call

def run (d : UtcDiscipline) : List (UInt64 × Call) → UtcDiscipline
  | [] => d
  | (now, call) :: rest => run (call.exec now d).2 rest

/-- The last sample the calls of a run made the discipline take over. -/
def lastTaken (d : UtcDiscipline) (last : Option Sample) : List (UInt64 × Call) → Option Sample
  | [] => last
  | (now, call) :: rest => lastTaken (call.exec now d).2 ((call.taken now d).or last) rest

section Runs

variable {K : Type} [Field K] [LinearOrder K] (T : UInt64 → K)

/-- A run under a true time: the observations taken over contain it, and while a
model is in force the oscillator keeps within its rates. -/
def Honest (d : UtcDiscipline) : List (UInt64 × Call) → Prop
  | [] => True
  | (now, call) :: rest =>
    (∀ s, call.taken now d = some s →
      |T s.sampled - s.utcNs.toNat| ≤ (s.uncertaintyNs.toNat : K)) ∧
    (d.valid = true → d.monotonicNs ≤ now → d.Tracks T now) ∧ Honest (call.exec now d).2 rest

/-- The calls that make a report. -/
def Call.reports : Call → Bool
  | .adjustBrowserRate .. | .snapshot => true
  | _ => false

/-- No report of a run meets the sum that wraps. -/
def RoundsThrough (d : UtcDiscipline) : List (UInt64 × Call) → Prop
  | [] => True
  | (now, call) :: rest =>
    (call.reports = true → d.Rounds now) ∧ RoundsThrough (call.exec now d).2 rest

/-- The model contains the true time at its anchor, and its source is the last
observation taken over. -/
structure Sound (d : UtcDiscipline) (last : Option Sample) : Prop where
  plain : d.Plain
  anchored : d.valid = true → d.Anchored T
  taken : d.valid = true → ∃ s, last = some s ∧ d.sourceNs = s.sampled
  source : d.valid = true → d.sourceNs ≤ d.monotonicNs
  direct : d.browserRateModel = false → d.sourceNs = d.monotonicNs

variable {T} {d : UtcDiscipline} {last : Option Sample} {now : UInt64} {call : Call}

/-- An observation taken over. -/
theorem Sound.took {s : Sample} {d' : UtcDiscipline} (last : Option Sample)
    (htrue : ∀ s, call.taken now d = some s →
      |T s.sampled - s.utcNs.toNat| ≤ (s.uncertaintyNs.toNat : K))
    (hexec : call.exec now d = (true, d')) (hsample : call.sample = some s) (hplain : d'.Plain)
    (hutc : d'.utcNs = s.utcNs) (hmonotonic : d'.monotonicNs = s.sampled)
    (huncertainty : d'.uncertaintyNs = s.uncertaintyNs) (hsource : d'.sourceNs = s.sampled) :
    Sound T (call.exec now d).2 ((call.taken now d).or last) := by
  have htaken : call.taken now d = some s := by
    unfold Call.taken
    rw [hexec]
    exact hsample
  have htrue := htrue s htaken
  rw [htaken, hexec]
  refine ⟨hplain, fun _ => ?_, fun _ => ⟨s, rfl, hsource⟩, fun _ => ?_,
    fun _ => hsource.trans hmonotonic.symm⟩
  · unfold UtcDiscipline.Anchored
    rw [hutc, hmonotonic, huncertainty]
    exact htrue
  · exact hsource.trans hmonotonic.symm ▸ UInt64.le_refl _

theorem accept_cases (now utc sampled uncertainty : UInt64) (leap : LeapState)
    (transition : Option UInt64) (maximumAge : UInt64) (d : UtcDiscipline) :
    d.accept now utc sampled uncertainty leap transition maximumAge = (false, d) ∨
    d.accept now utc sampled uncertainty leap transition maximumAge =
      (true, d.accepted utc sampled uncertainty leap transition) := by
  unfold UtcDiscipline.accept
  split
  · exact .inl rfl
  · exact .inr rfl

theorem Sound.refused (h : Sound T d last) (hexec : call.exec now d = (false, d)) :
    Sound T (call.exec now d).2 ((call.taken now d).or last) := by
  unfold Call.taken
  rw [hexec]
  exact h

variable [IsStrictOrderedRing K]

/-- A re-anchored model contains the true time, by the report it is made of. -/
theorem Sound.reanchored {rate : Int} {uncertainty : UInt32} (h : Sound T d last)
    (hvalid : d.valid = true)
    (htracks : d.valid = true → d.monotonicNs ≤ now → d.Tracks T now) (hrounds : d.Rounds now)
    (hstate : (d.snapshot now).state ≠ .unsynchronized) :
    Sound T (d.reanchored (d.snapshot now) rate uncertainty) last := by
  obtain ⟨-, -, hle, drift, utc, grown, -, -, -, heq⟩ := UtcDiscipline.snapshot_cases hstate
  have hbound := UtcDiscipline.snapshot_bound h.plain (h.anchored hvalid) (htracks hvalid hle)
    hrounds hstate
  have hnow : (d.snapshot now).monotonicNowNs = now := by
    rw [heq]
    rfl
  refine ⟨⟨h.plain.imported, rfl⟩, fun _ => ?_, fun _ => h.taken hvalid, fun _ => ?_,
    nofun⟩
  · show |T (d.snapshot now).monotonicNowNs - _| ≤ _
    rw [hnow]
    exact hbound
  · show d.sourceNs ≤ (d.snapshot now).monotonicNowNs
    rw [hnow]
    exact UInt64.le_trans (h.source hvalid) hle

theorem exec_sound (h : Sound T d last)
    (htrue : ∀ s, call.taken now d = some s →
      |T s.sampled - s.utcNs.toNat| ≤ (s.uncertaintyNs.toNat : K))
    (htracks : d.valid = true → d.monotonicNs ≤ now → d.Tracks T now)
    (hrounds : call.reports = true → d.Rounds now) :
    Sound T (call.exec now d).2 ((call.taken now d).or last) := by
  cases call with
  | observe utc sampled uncertainty leap transition =>
    rcases accept_cases now utc sampled uncertainty leap transition d.config.maxObservationAgeNs d
      with hno | hyes
    · exact h.refused hno
    · exact Sound.took last htrue hyes rfl ⟨rfl, rfl⟩ rfl rfl rfl rfl
  | observeFrom source utc sampled uncertainty leap transition =>
    by_cases hgps : source = .gps
    · exact h.refused (if_pos hgps)
    rcases accept_cases now utc sampled uncertainty leap transition d.config.maxObservationAgeNs d
      with hno | hyes
    · refine h.refused ((if_neg hgps).trans ?_)
      unfold UtcDiscipline.observe
      rw [hno]
    · have hexec : (Call.observeFrom source utc sampled uncertainty leap transition).exec now d =
          (true, { d.accepted utc sampled uncertainty leap transition with
            observationSource := source }) := by
        refine (if_neg hgps).trans ?_
        unfold UtcDiscipline.observe
        rw [hyes]
      exact Sound.took last htrue hexec rfl ⟨rfl, rfl⟩ rfl rfl rfl rfl
  | observeRate utc sampled uncertainty rate rateUncertainty =>
    by_cases hrange : ¬ rateInRange rate ∨ rateUncertainty > utcMaxRateUncertaintyPpb
    · exact h.refused (if_pos hrange)
    rcases accept_cases now utc sampled uncertainty .normal none
      (if d.config.maxRateObservationAgeNs ≠ 0 then d.config.maxRateObservationAgeNs
        else d.config.maxObservationAgeNs) d with hno | hyes
    · refine h.refused ((if_neg hrange).trans ?_)
      rw [hno]
    · have hexec : (Call.observeRate utc sampled uncertainty rate rateUncertainty).exec now d =
          (true, { d.accepted utc sampled uncertainty .normal none with
            ratePpb := rate, rateUncertaintyPpb := rateUncertainty }) := by
        refine (if_neg hrange).trans ?_
        rw [hyes]
      exact Sound.took last htrue hexec rfl ⟨rfl, rfl⟩ rfl rfl rfl rfl
  | adjustBrowserRate rate uncertainty =>
    have htaken : (Call.adjustBrowserRate rate uncertainty).taken now d = none := by
      exact ite_self _
    rw [htaken]
    unfold Call.exec UtcDiscipline.adjustBrowserRate
    dsimp only
    split
    · exact h
    · rename_i hguard
      split
      · exact h
      · rename_i hstate
        split
        · exact h
        · exact h.reanchored (not_not.mp (not_or.mp hguard).1) htracks (hrounds rfl) hstate
  | snapshot => exact h

theorem run_sound {calls : List (UInt64 × Call)} (h : Sound T d last) (hhonest : Honest T d calls)
    (hrounds : RoundsThrough d calls) : Sound T (run d calls) (lastTaken d last calls) := by
  induction calls generalizing d last with
  | nil => exact h
  | cons head rest ih =>
    obtain ⟨htrue, htracks, hrest⟩ := hhonest
    exact ih (exec_sound h htrue htracks hrounds.1) hrest hrounds.2

end Runs

section Runs

variable {K : Type} [Field K] [LinearOrder K] {T : UInt64 → K} {d : UtcDiscipline}

theorem honest_append {pre post : List (UInt64 × Call)} (h : Honest T d (pre ++ post)) :
    Honest T d pre ∧ Honest T (run d pre) post := by
  induction pre generalizing d with
  | nil => exact ⟨trivial, h⟩
  | cons head rest ih =>
    obtain ⟨htrue, htracks, hrest⟩ := h
    exact ⟨⟨htrue, htracks, (ih hrest).1⟩, (ih hrest).2⟩

theorem rounds_append {pre post : List (UInt64 × Call)} (h : RoundsThrough d (pre ++ post)) :
    RoundsThrough d pre ∧ RoundsThrough (run d pre) post := by
  induction pre generalizing d with
  | nil => exact ⟨trivial, h⟩
  | cons head rest ih => exact ⟨⟨h.1, (ih h.2).1⟩, (ih h.2).2⟩

/-- Every report of a run that is not unsynchronized contains the true time, and
its age is that of the last observation taken over, whatever rates followed. -/
theorem utc_contains_truth [IsStrictOrderedRing K] (T : UInt64 → K) (clock : Bool)
    (config : DisciplineConfig) (pre post : List (UInt64 × Call)) (now : UInt64)
    (hhonest : Honest T { clock, config } (pre ++ (now, .snapshot) :: post))
    (hrounds : RoundsThrough { clock, config } (pre ++ (now, .snapshot) :: post))
    (hstate : ((run { clock, config } pre).snapshot now).state ≠ .unsynchronized) :
    |T now - (((run { clock, config } pre).snapshot now).utcNowNs.toNat : K)| ≤
      (((run { clock, config } pre).snapshot now).uncertaintyNs.toNat : K) ∧
    ∃ s, lastTaken { clock, config } none pre = some s ∧ s.sampled ≤ now ∧
      ((run { clock, config } pre).snapshot now).syncAgeNs = now - s.sampled := by
  have hfresh : Sound T { clock, config } none :=
    ⟨⟨rfl, rfl⟩, nofun, nofun, nofun, fun _ => rfl⟩
  obtain ⟨hpre, -, htracks, -⟩ := honest_append hhonest
  obtain ⟨hroundsPre, hround, -⟩ := rounds_append hrounds
  have hsound := run_sound hfresh hpre hroundsPre
  obtain ⟨-, hvalid, hle, drift, utc, grown, -, -, -, heq⟩ := UtcDiscipline.snapshot_cases hstate
  refine ⟨UtcDiscipline.snapshot_bound hsound.plain (hsound.anchored hvalid)
    (htracks hvalid hle) (hround rfl) hstate, ?_⟩
  obtain ⟨s, htaken, hsource⟩ := hsound.taken hvalid
  refine ⟨s, htaken, hsource ▸ UInt64.le_trans (hsound.source hvalid) hle, ?_⟩
  rw [heq]
  show (run { clock, config } pre).ageAt now = now - s.sampled
  unfold UtcDiscipline.ageAt
  rw [hsound.plain.imported, Bool.false_or, ← hsource]
  cases hmodel : (run { clock, config } pre).browserRateModel with
  | true => rfl
  | false => exact congrArg (now - ·) (hsound.direct hmodel).symm

end Runs

/-- A perfect oscillator. -/
def perfect (t : UInt64) : ℚ := 1735689600000000000 + (t.toNat : ℚ)

/-- An observation with a rate, one second after the start. -/
def observed : List (UInt64 × Call) :=
  [(1000000000, .observeRate 1735689601000000000 1000000000 5000 1000 2000)]

theorem perfect_observed : ∀ s, (observed.map (·.2.taken 1000000000 {})) = [some s] →
    |perfect s.sampled - s.utcNs.toNat| ≤ (s.uncertaintyNs.toNat : ℚ) := by
  intro s hs
  obtain rfl : (⟨1735689601000000000, 1000000000, 5000⟩ : Sample) = s := by
    have htaken : observed.map (·.2.taken 1000000000 {}) =
      [some ⟨1735689601000000000, 1000000000, 5000⟩] := by decide
    simpa using htaken.symm.trans hs
  simp [perfect]
  norm_num

theorem utc_contains_truth_observed :
    |perfect 3000000000 - (1735689603000002000 : ℚ)| ≤ 109001 ∧
    ((run {} observed).snapshot 3000000000).syncAgeNs = 2000000000 := by
  have hstate : ((run {} observed).snapshot 3000000000).state = .synchronized := by decide
  have htracks : (run {} observed).Tracks perfect 3000000000 := by
    show |perfect 3000000000 - perfect 1000000000 -
      ((2000000000 : Nat) : ℚ) * (1 + ((1000 : Int) : ℚ) / 1000000000)| ≤
      ((2000000000 : Nat) : ℚ) * ((50000 : Nat) + (2000 : Nat)) / 1000000000
    simp [perfect]
    norm_num [abs_le]
  have hround : (run {} observed).Rounds 3000000000 := fun _ => by decide
  have hbound := utc_contains_truth perfect true {} observed [] 3000000000
    ⟨fun s hs => perfect_observed s (congrArg (fun x => [x]) hs), nofun,
      fun s hs => (nomatch hs), fun _ _ => htracks, trivial⟩
    ⟨nofun, fun _ => hround, trivial⟩ (by rw [hstate]; decide)
  have hutc : ((run {} observed).snapshot 3000000000).utcNowNs = 1735689603000002000 := by decide
  have huncertainty : ((run {} observed).snapshot 3000000000).uncertaintyNs = 109001 := by decide
  obtain ⟨hbound, s, htaken, -, hage⟩ := hbound
  have hsample : lastTaken {} none observed = some ⟨1735689601000000000, 1000000000, 5000⟩ := by
    decide
  cases hsample.symm.trans htaken
  refine ⟨?_, hage⟩
  rw [hutc, huncertainty] at hbound
  exact_mod_cast hbound

/-- A drift of a second in every second, and an NTP epoch that never expires. -/
def wrapping : UtcDiscipline :=
  { config := { oscillatorDriftPpb := 1000000000, unlimitedNtpHoldover := true } }

def wrapped : List (UInt64 × Call) :=
  [(0, .observeRate 1735689600000000000 0 0 (-100000000) 200000000)]

/-- The growth of the uncertainty reaches the largest time, and the nanosecond of
the rate wraps it to nothing. -/
theorem utc_bound_wraps : wrapping.config.valid = true ∧
    Honest perfect wrapping (wrapped ++ [(15372286728091293012, .snapshot)]) ∧
    ((run wrapping wrapped).snapshot 15372286728091293012).state = .holdover ∧
    ((run wrapping wrapped).snapshot 15372286728091293012).uncertaintyNs = 0 ∧
    ¬ |perfect 15372286728091293012 -
        (((run wrapping wrapped).snapshot 15372286728091293012).utcNowNs.toNat : ℚ)| ≤
      (((run wrapping wrapped).snapshot 15372286728091293012).uncertaintyNs.toNat : ℚ) := by
  have huncertainty : ((run wrapping wrapped).snapshot 15372286728091293012).uncertaintyNs = 0 := by
    decide
  have hutc : ((run wrapping wrapped).snapshot 15372286728091293012).utcNowNs =
      15570747655282163710 := by decide
  have htaken : ∀ s, (Call.observeRate 1735689600000000000 0 0 (-100000000) 200000000).taken 0
      wrapping = some s → |perfect s.sampled - s.utcNs.toNat| ≤ (s.uncertaintyNs.toNat : ℚ) := by
    intro s hs
    have heq : (Call.observeRate 1735689600000000000 0 0 (-100000000) 200000000).taken 0 wrapping =
        some ⟨1735689600000000000, 0, 0⟩ := by decide
    cases heq.symm.trans hs
    simp [perfect]
  have htracks : (run wrapping wrapped).Tracks perfect 15372286728091293012 := by
    show |perfect 15372286728091293012 - perfect 0 -
      ((15372286728091293012 : Nat) : ℚ) * (1 + ((-100000000 : Int) : ℚ) / 1000000000)| ≤
      ((15372286728091293012 : Nat) : ℚ) * ((1000000000 : Nat) + (200000000 : Nat)) / 1000000000
    simp [perfect]
    norm_num [abs_le]
  refine ⟨by decide, ⟨htaken, nofun, fun s hs => (nomatch hs), fun _ _ => htracks,
    trivial⟩, by decide, huncertainty, ?_⟩
  rw [huncertainty, hutc]
  simp [perfect]
  norm_num

end WsprryPico.Time
