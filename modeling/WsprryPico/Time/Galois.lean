import WsprryPico.Lib.Rates
import WsprryPico.Time.UtcBound

/-!
# The mapping and its inverse

Over the integers a rate segment is a clock that rounds down, in both directions from its anchor.
`project` is that clock where its reading fits, and `inverse` its other half. The one reading the
inverse finds and `project` has no room for is 2^64, asked for with the largest UTC.
-/

namespace WsprryPico.Time

open Wtp Lib

/-! ## Scaling -/

/-- A quotient with one added for a rest is the quotient rounded up. -/
theorem cast_ceil (a : Nat) {d : Nat} (hd : 0 < d) :
    ((a / d + if a % d ≠ 0 then 1 else 0 : Nat) : Int) = -(-(a : Int) / d) := by
  have hmod := Nat.div_add_mod a d
  have hlt := Nat.mod_lt a hd
  have hmod' : (d : Int) * (a / d : Nat) + (a % d : Nat) = a := by exact_mod_cast hmod
  have hd' : (0 : Int) < d := by exact_mod_cast hd
  split_ifs with hrest
  · have h := (Int.ediv_emod_unique (a := -(a : Int)) (q := -((a / d : Nat) + 1))
      (r := (d : Int) - (a % d : Nat)) hd').mpr ⟨by linarith, by omega, by omega⟩
    rw [h.1, neg_neg]
    push_cast
    rfl
  · have hzero : a % d = 0 := not_not.mp hrest
    have h := (Int.ediv_emod_unique (a := -(a : Int)) (q := -(a / d : Nat)) (r := 0) hd').mpr
      ⟨by rw [hzero] at hmod'; push_cast at hmod' ⊢; linarith, le_refl _, hd'⟩
    rw [h.1]
    ring

theorem scale_down {value numerator denominator result : UInt64}
    (h : scale value numerator denominator = some result) :
    (result.toNat : Int) = ticks numerator.toNat denominator.toNat value.toNat := by
  have hresult := (scale_spec h).2
  rw [if_neg (by simp), add_zero] at hresult
  rw [hresult, ticks]
  rfl

theorem scale_up {value numerator denominator result : UInt64}
    (h : scale value numerator denominator true = some result) :
    (result.toNat : Int) = ticksUp numerator.toNat denominator.toNat value.toNat := by
  obtain ⟨hpos, hresult⟩ := scale_spec h
  simp only [true_and] at hresult
  rw [hresult, cast_ceil _ hpos, ticksUp]
  rfl

/-- A result that fits is found. -/
theorem scale_some {value numerator denominator : UInt64} {ceil : Bool}
    (hd : denominator ≠ 0) (hn : numerator ≤ 2000000000) (hd' : denominator ≤ 2000000000)
    (hfits : value.toNat * numerator.toNat / denominator.toNat +
      (if ceil = true ∧ value.toNat * numerator.toNat % denominator.toNat ≠ 0 then 1 else 0) <
        2 ^ 64) :
    ∃ result, scale value numerator denominator ceil = some result := by
  have hpos : 0 < denominator.toNat :=
    Nat.pos_of_ne_zero fun h0 => hd (UInt64.toNat_inj.mp h0)
  have hfraction : (fraction value numerator denominator ceil).toNat = _ :=
    toNat_fraction ceil hd hn hd'
  have hexact : value.toNat * numerator.toNat / denominator.toNat =
      value.toNat / denominator.toNat * numerator.toNat +
        value.toNat % denominator.toNat * numerator.toNat / denominator.toNat := by
    conv_lhs => rw [split_mul value.toNat numerator.toNat denominator.toNat]
    rw [Nat.mul_add_div hpos]
  rw [hexact, Nat.add_assoc, ← hfraction] at hfits
  have hwhole : (value / denominator * numerator).toNat =
      value.toNat / denominator.toNat * numerator.toNat := by
    rw [UInt64.toNat_mul, UInt64.toNat_div, Nat.mod_eq_of_lt (by omega)]
  have hguard : ¬ (numerator ≠ 0 ∧ value / denominator > u64Max / numerator) := by
    rintro ⟨hzero, hover⟩
    have hnumerator : 0 < numerator.toNat :=
      Nat.pos_of_ne_zero fun h0 => hzero (UInt64.toNat_inj.mp h0)
    rw [gt_iff_lt, UInt64.lt_iff_toNat_lt, UInt64.toNat_div, UInt64.toNat_div, toNat_u64Max,
      Nat.div_lt_iff_lt_mul hnumerator] at hover
    omega
  have hroom : ¬ value / denominator * numerator > u64Max - fraction value numerator denominator ceil := by
    rw [gt_iff_lt, UInt64.not_lt, UInt64.le_iff_toNat_le, toNat_left, hwhole]
    omega
  have hvalid : ¬ (denominator = 0 ∨ numerator > 2000000000 ∨ denominator > 2000000000) := by
    simpa only [not_or, UInt64.not_lt] using ⟨hd, hn, hd'⟩
  refine ⟨value / denominator * numerator + fraction value numerator denominator ceil, ?_⟩
  unfold scale
  dsimp only
  rw [if_neg hvalid, if_neg hguard]
  change (if _ > u64Max - fraction value numerator denominator ceil then _ else
    some (_ + fraction value numerator denominator ceil)) = _
  rw [if_neg hroom]

/-! ## One rate -/

variable {anchor : ClockSnapshot} {raw utc : UInt64}

/-- The nanoseconds of UTC in a raw second. -/
def rateTicks (anchor : ClockSnapshot) : Int := 1000000000 + anchor.ratePpb

/-- `projectSegment` over the integers. -/
def segmentUtc (anchor : ClockSnapshot) (raw : Int) : Int :=
  anchor.utcNowNs.toNat + ticks (rateTicks anchor) 1000000000 (raw - anchor.monotonicNowNs.toNat)

/-- `inverseSegment` over the integers. -/
def segmentRaw (anchor : ClockSnapshot) (utc : Int) : Int :=
  anchor.monotonicNowNs.toNat +
    ticksBack (rateTicks anchor) 1000000000 (utc - anchor.utcNowNs.toNat)

theorem rateTicks_bounds (h : rateInRange anchor.ratePpb = true) :
    0 < rateTicks anchor ∧ rateTicks anchor ≤ 1100000000 := by
  have h := of_decide_eq_true h
  unfold utcMaxRatePpb at h
  unfold rateTicks
  omega

theorem cast_rateNumerator (h : rateInRange anchor.ratePpb = true) :
    ((rateNumerator anchor.ratePpb).toNat : Int) = rateTicks anchor := toNat_rateNumerator h

theorem rateNumerator_le (h : rateInRange anchor.ratePpb = true) :
    rateNumerator anchor.ratePpb ≤ 2000000000 := by
  have hle := (rateTicks_bounds h).2
  rw [← cast_rateNumerator h] at hle
  rw [UInt64.le_iff_toNat_le]
  exact (Int.ofNat_le.mp hle).trans (by decide)

theorem segment_gc (h : rateInRange anchor.ratePpb = true) :
    GaloisConnection (segmentRaw anchor) (segmentUtc anchor) := by
  intro utc raw
  have hgc := ticks_gc (rateTicks_bounds h).1 (by decide : (0 : Int) < 1000000000)
    (utc - anchor.utcNowNs.toNat) (raw - anchor.monotonicNowNs.toNat)
  unfold segmentRaw segmentUtc
  constructor
  · intro hraw
    have := hgc.mp (by omega)
    omega
  · intro hutc
    have := hgc.mpr (by omega)
    omega

theorem segmentUtc_raw_le (h : rateInRange anchor.ratePpb = true) (utc : Int) :
    segmentUtc anchor (segmentRaw anchor utc) ≤ utc + 1 := by
  obtain ⟨hpos, hle⟩ := rateTicks_bounds h
  have hover := ticks_ticksBack_le hpos (by decide : (0 : Int) < 1000000000) (by omega)
    (utc - anchor.utcNowNs.toNat)
  unfold segmentUtc segmentRaw
  rw [add_sub_cancel_left]
  omega

theorem segmentUtc_anchor : segmentUtc anchor anchor.monotonicNowNs.toNat = anchor.utcNowNs.toNat := by
  rw [segmentUtc, sub_self, ticks_zero, add_zero]

theorem cast_le {a b : UInt64} : (a.toNat : Int) ≤ b.toNat ↔ a ≤ b :=
  Int.ofNat_le.trans UInt64.le_iff_toNat_le.symm

theorem toNat_sub_cast {a b : UInt64} (h : b ≤ a) : ((a - b).toNat : Int) = a.toNat - b.toNat := by
  have hle := UInt64.le_iff_toNat_le.mp h
  rw [UInt64.toNat_sub_of_le _ _ h]
  omega

theorem projectSegment_future (h : anchor.monotonicNowNs ≤ raw) : projectSegment anchor raw =
    (elapsedUtc (raw - anchor.monotonicNowNs) anchor.ratePpb).bind fun elapsed =>
      if elapsed > u64Max - anchor.utcNowNs then none else some (anchor.utcNowNs + elapsed) := by
  simp [projectSegment, h]

theorem projectSegment_past (h : raw < anchor.monotonicNowNs) : projectSegment anchor raw =
    (elapsedUtc (anchor.monotonicNowNs - raw) anchor.ratePpb true).bind fun elapsed =>
      if elapsed > anchor.utcNowNs then none else some (anchor.utcNowNs - elapsed) := by
  have h := UInt64.not_le.mpr h
  simp [projectSegment, h]

theorem elapsedUtc_eq (h : rateInRange anchor.ratePpb = true) (ceil : Bool) :
    elapsedUtc raw anchor.ratePpb ceil = scale raw (rateNumerator anchor.ratePpb) 1000000000 ceil :=
  if_pos h

theorem elapsedUtc_rate {ceil : Bool} (h : elapsedUtc raw anchor.ratePpb ceil = some utc) :
    rateInRange anchor.ratePpb = true := by
  unfold elapsedUtc at h
  by_contra hrate
  rw [if_neg hrate] at h
  cases h

theorem segmentUtc_past (h : raw ≤ anchor.monotonicNowNs) : segmentUtc anchor raw.toNat =
    anchor.utcNowNs.toNat -
      ticksUp (rateTicks anchor) 1000000000 (anchor.monotonicNowNs - raw).toNat := by
  rw [segmentUtc, toNat_sub_cast h, ← neg_sub (anchor.monotonicNowNs.toNat : Int) raw.toNat,
    ticks_neg]
  rfl

theorem segmentUtc_future (h : anchor.monotonicNowNs ≤ raw) : segmentUtc anchor raw.toNat =
    anchor.utcNowNs.toNat +
      ticks (rateTicks anchor) 1000000000 (raw - anchor.monotonicNowNs).toNat := by
  rw [segmentUtc, toNat_sub_cast h]

theorem elapsed_down (hrate : rateInRange anchor.ratePpb = true)
    (h : elapsedUtc raw anchor.ratePpb = some utc) :
    (utc.toNat : Int) = ticks (rateTicks anchor) 1000000000 raw.toNat := by
  rw [elapsedUtc_eq hrate] at h
  rw [scale_down h, cast_rateNumerator hrate]
  rfl

theorem elapsed_up (hrate : rateInRange anchor.ratePpb = true)
    (h : elapsedUtc raw anchor.ratePpb true = some utc) :
    (utc.toNat : Int) = ticksUp (rateTicks anchor) 1000000000 raw.toNat := by
  rw [elapsedUtc_eq hrate] at h
  rw [scale_up h, cast_rateNumerator hrate]
  rfl

/-- `projectSegment` is the reading over the integers. -/
theorem projectSegment_spec (h : projectSegment anchor raw = some utc) :
    rateInRange anchor.ratePpb = true ∧ (utc.toNat : Int) = segmentUtc anchor raw.toNat := by
  obtain hfuture | hpast := UInt64.le_or_lt anchor.monotonicNowNs raw
  · rw [projectSegment_future hfuture] at h
    obtain ⟨elapsed, helapsed, h⟩ := Option.bind_eq_some_iff.mp h
    split at h
    · cases h
    · rename_i hroom
      have hrate := elapsedUtc_rate helapsed
      refine ⟨hrate, ?_⟩
      rw [← Option.some.inj h, toNat_add_of_room hroom, segmentUtc_future hfuture,
        ← elapsed_down hrate helapsed]
      rfl
  · rw [projectSegment_past hpast] at h
    obtain ⟨elapsed, helapsed, h⟩ := Option.bind_eq_some_iff.mp h
    split at h
    · cases h
    · rename_i hroom
      have hrate := elapsedUtc_rate helapsed
      refine ⟨hrate, ?_⟩
      rw [← Option.some.inj h, toNat_sub_cast (UInt64.not_lt.mp hroom),
        segmentUtc_past (UInt64.le_of_lt hpast), ← elapsed_up hrate helapsed]

theorem elapsed_down_some (hrate : rateInRange anchor.ratePpb = true)
    (hfits : ticks (rateTicks anchor) 1000000000 raw.toNat < 2 ^ 64) :
    ∃ elapsed, elapsedUtc raw anchor.ratePpb = some elapsed := by
  rw [elapsedUtc_eq hrate]
  refine scale_some (by decide) (rateNumerator_le hrate) (by decide) ?_
  rw [← cast_rateNumerator hrate, ticks] at hfits
  rw [if_neg (by simp), add_zero]
  exact_mod_cast hfits

theorem elapsed_up_some (hrate : rateInRange anchor.ratePpb = true)
    (hfits : ticksUp (rateTicks anchor) 1000000000 raw.toNat < 2 ^ 64) :
    ∃ elapsed, elapsedUtc raw anchor.ratePpb true = some elapsed := by
  have hceil := cast_ceil (raw.toNat * (rateNumerator anchor.ratePpb).toNat)
    (by decide : 0 < 1000000000)
  rw [elapsedUtc_eq hrate]
  refine scale_some (by decide) (rateNumerator_le hrate) (by decide) ?_
  rw [← cast_rateNumerator hrate, ticksUp, ← Nat.cast_mul] at hfits
  simp only [true_and]
  have hlt : ((raw.toNat * (rateNumerator anchor.ratePpb).toNat / 1000000000 +
      if raw.toNat * (rateNumerator anchor.ratePpb).toNat % 1000000000 ≠ 0 then 1 else 0 : Nat) :
        Int) < 2 ^ 64 := hceil.trans_lt hfits
  exact_mod_cast hlt

theorem projectSegment_some (hrate : rateInRange anchor.ratePpb = true)
    (hlow : 0 ≤ segmentUtc anchor raw.toNat) (hhigh : segmentUtc anchor raw.toNat < 2 ^ 64) :
    ∃ utc, projectSegment anchor raw = some utc := by
  have hutc := anchor.utcNowNs.toNat_lt
  obtain hfuture | hpast := UInt64.le_or_lt anchor.monotonicNowNs raw
  · rw [segmentUtc_future hfuture] at hlow hhigh
    obtain ⟨elapsed, helapsed⟩ := elapsed_down_some hrate (by omega :
      ticks (rateTicks anchor) 1000000000 (raw - anchor.monotonicNowNs).toNat < 2 ^ 64)
    rw [← elapsed_down hrate helapsed] at hhigh
    have hroom : ¬ elapsed > u64Max - anchor.utcNowNs := by
      rw [gt_iff_lt, UInt64.not_lt, UInt64.le_iff_toNat_le, toNat_left]
      omega
    rw [projectSegment_future hfuture, helapsed, Option.bind_some, if_neg hroom]
    exact ⟨_, rfl⟩
  · rw [segmentUtc_past (UInt64.le_of_lt hpast)] at hlow hhigh
    obtain ⟨elapsed, helapsed⟩ := elapsed_up_some hrate (by omega :
      ticksUp (rateTicks anchor) 1000000000 (anchor.monotonicNowNs - raw).toNat < 2 ^ 64)
    rw [← elapsed_up hrate helapsed] at hlow
    have hroom : ¬ elapsed > anchor.utcNowNs := by
      rw [gt_iff_lt, UInt64.not_lt, UInt64.le_iff_toNat_le]
      omega
    rw [projectSegment_past hpast, helapsed, Option.bind_some, if_neg hroom]
    exact ⟨_, rfl⟩

theorem inverseSegment_future (hrate : rateInRange anchor.ratePpb = true)
    (h : anchor.utcNowNs ≤ utc) : inverseSegment anchor utc =
      (scale (utc - anchor.utcNowNs) 1000000000 (rateNumerator anchor.ratePpb) true).bind
        fun elapsed =>
          if elapsed > u64Max - anchor.monotonicNowNs then none
          else some (anchor.monotonicNowNs + elapsed) := by
  simp [inverseSegment, hrate, h]

theorem inverseSegment_past (hrate : rateInRange anchor.ratePpb = true)
    (h : utc < anchor.utcNowNs) : inverseSegment anchor utc =
      (scale (anchor.utcNowNs - utc) 1000000000 (rateNumerator anchor.ratePpb)).bind
        fun elapsed =>
          if elapsed > anchor.monotonicNowNs then none
          else some (anchor.monotonicNowNs - elapsed) := by
  have h := UInt64.not_le.mpr h
  simp [inverseSegment, hrate, h]

/-- `inverseSegment` is the inverse over the integers. -/
theorem inverseSegment_spec (h : inverseSegment anchor utc = some raw) :
    rateInRange anchor.ratePpb = true ∧ (raw.toNat : Int) = segmentRaw anchor utc.toNat := by
  have hrate : rateInRange anchor.ratePpb = true := by
    by_contra hrate
    simp [inverseSegment, hrate] at h
  refine ⟨hrate, ?_⟩
  unfold segmentRaw
  obtain hfuture | hpast := UInt64.le_or_lt anchor.utcNowNs utc
  · rw [inverseSegment_future hrate hfuture] at h
    obtain ⟨elapsed, hscale, h⟩ := Option.bind_eq_some_iff.mp h
    split at h
    · cases h
    · rename_i hroom
      have helapsed := scale_up hscale
      rw [cast_rateNumerator hrate, toNat_sub_cast hfuture] at helapsed
      rw [← Option.some.inj h, toNat_add_of_room hroom]
      push_cast
      rw [helapsed]
      rfl
  · rw [inverseSegment_past hrate hpast] at h
    obtain ⟨elapsed, hscale, h⟩ := Option.bind_eq_some_iff.mp h
    split at h
    · cases h
    · rename_i hroom
      have helapsed := scale_down hscale
      rw [cast_rateNumerator hrate, toNat_sub_cast (UInt64.le_of_lt hpast)] at helapsed
      rw [← Option.some.inj h, toNat_sub_cast (UInt64.not_lt.mp hroom), helapsed,
        ← neg_sub (anchor.utcNowNs.toNat : Int) utc.toNat, ticksBack_neg]
      rfl

/-! ## Two rates -/

/-- A projection is of the first segment, or of the second after its end. -/
theorem project_cases (h : project anchor raw = some utc) :
    (¬ (hasBoundary anchor = true ∧ raw > anchor.rateUntilMonotonicNs) ∧
      projectSegment anchor raw = some utc) ∨
    (hasBoundary anchor = true ∧ anchor.rateUntilMonotonicNs < raw ∧
      ∃ boundary, projectSegment anchor anchor.rateUntilMonotonicNs = some boundary ∧
        projectSegment (boundaryAt anchor boundary) raw = some utc) := by
  unfold project at h
  split_ifs at h with hlate
  · obtain ⟨boundary, hboundary, h⟩ := Option.bind_eq_some_iff.mp h
    exact .inr ⟨hlate.1, hlate.2, boundary, hboundary, h⟩
  · exact .inl ⟨hlate, h⟩

theorem boundaryAt_begins (boundary : UInt64) :
    segmentUtc (boundaryAt anchor boundary) anchor.rateUntilMonotonicNs.toNat = boundary.toNat := by
  have h : segmentUtc (boundaryAt anchor boundary)
      (boundaryAt anchor boundary).monotonicNowNs.toNat = _ := segmentUtc_anchor
  exact h

theorem segment_mono (h : rateInRange anchor.ratePpb = true) {x y : Int} (hle : x ≤ y) :
    segmentUtc anchor x ≤ segmentUtc anchor y := (segment_gc h).monotone_u hle

/-- A projection does not run backward, before the anchor and across the end of a segment. -/
theorem project_mono {raw' utc' : UInt64} (hle : raw ≤ raw') (h : project anchor raw = some utc)
    (h' : project anchor raw' = some utc') : utc ≤ utc' := by
  have hcast : (raw.toNat : Int) ≤ raw'.toNat := cast_le.mpr hle
  have hutc : (utc.toNat : Int) ≤ utc'.toNat := by
    obtain ⟨hfirst, h⟩ | ⟨hboundary, hlate, boundary, hb, h⟩ := project_cases h
    · obtain ⟨hrate, hutc⟩ := projectSegment_spec h
      obtain ⟨-, h'⟩ | ⟨hboundary, hlate', boundary, hb, h'⟩ := project_cases h'
      · rw [hutc, (projectSegment_spec h').2]
        exact segment_mono hrate hcast
      · have hearly : raw ≤ anchor.rateUntilMonotonicNs :=
          UInt64.not_lt.mp fun hlt => hfirst ⟨hboundary, hlt⟩
        obtain ⟨hrate', hutc'⟩ := projectSegment_spec h'
        calc (utc.toNat : Int) = segmentUtc anchor raw.toNat := hutc
          _ ≤ segmentUtc anchor anchor.rateUntilMonotonicNs.toNat :=
            segment_mono hrate (cast_le.mpr hearly)
          _ = boundary.toNat := (projectSegment_spec hb).2.symm
          _ = segmentUtc (boundaryAt anchor boundary) anchor.rateUntilMonotonicNs.toNat :=
            (boundaryAt_begins boundary).symm
          _ ≤ segmentUtc (boundaryAt anchor boundary) raw'.toNat := segment_mono hrate'
            (cast_le.mpr (UInt64.le_of_lt hlate'))
          _ = utc'.toNat := hutc'.symm
    · obtain ⟨hfirst, -⟩ | ⟨-, -, boundary', hb', h'⟩ := project_cases h'
      · exact absurd ⟨hboundary, UInt64.lt_of_lt_of_le hlate hle⟩ hfirst
      · rw [hb] at hb'
        cases hb'
        obtain ⟨hrate, hutc⟩ := projectSegment_spec h
        rw [hutc, (projectSegment_spec h').2]
        exact segment_mono hrate hcast
  exact cast_le.mp hutc

/-- An inverse is of the first segment, or of the second for a UTC after its end. -/
theorem inverse_cases (h : inverse anchor utc = some raw) :
    (hasBoundary anchor = false ∧ inverseSegment anchor utc = some raw) ∨
    (hasBoundary anchor = true ∧
      ∃ boundary, projectSegment anchor anchor.rateUntilMonotonicNs = some boundary ∧
        ((utc ≤ boundary ∧ inverseSegment anchor utc = some raw) ∨
          (boundary < utc ∧ inverseSegment (boundaryAt anchor boundary) utc = some raw))) := by
  have hrate : rateInRange anchor.ratePpb = true := by
    by_contra hrate
    simp [inverse, hrate] at h
  rcases hboundary : hasBoundary anchor with - | -
  · refine .inl ⟨rfl, ?_⟩
    simpa [inverse, hrate, hboundary] using h
  · have h : (projectSegment anchor anchor.rateUntilMonotonicNs).bind (fun boundary =>
        if utc > boundary then inverseSegment (boundaryAt anchor boundary) utc
        else inverseSegment anchor utc) = some raw := by
      simpa [inverse, hrate, hboundary] using h
    obtain ⟨boundary, hb, h⟩ := Option.bind_eq_some_iff.mp h
    refine .inr ⟨rfl, boundary, hb, ?_⟩
    split_ifs at h with hlate
    · exact .inr ⟨hlate, h⟩
    · exact .inl ⟨UInt64.not_lt.mp hlate, h⟩

/-- The raw time an inverse finds is before each that is projected at or after its UTC. -/
theorem inverse_least {raw' utc' : UInt64} (h : inverse anchor utc = some raw)
    (h' : project anchor raw' = some utc') (hle : utc ≤ utc') : raw ≤ raw' := by
  have hcast : (utc.toNat : Int) ≤ utc'.toNat := cast_le.mpr hle
  have hraw : (raw.toNat : Int) ≤ raw'.toNat := by
    obtain ⟨hboundary, h⟩ | ⟨hboundary, boundary, hb, ⟨hearly, h⟩ | ⟨hlate, h⟩⟩ := inverse_cases h
    · obtain ⟨hrate, hraw⟩ := inverseSegment_spec h
      obtain ⟨-, h'⟩ | ⟨hboundary', -⟩ := project_cases h'
      · rw [hraw, segment_gc hrate, ← (projectSegment_spec h').2]
        exact hcast
      · rw [hboundary] at hboundary'
        cases hboundary'
    · obtain ⟨hrate, hraw⟩ := inverseSegment_spec h
      obtain ⟨-, h'⟩ | ⟨-, hlate, -⟩ := project_cases h'
      · rw [hraw, segment_gc hrate, ← (projectSegment_spec h').2]
        exact hcast
      · have hend : (raw.toNat : Int) ≤ anchor.rateUntilMonotonicNs.toNat := by
          rw [hraw, segment_gc hrate, ← (projectSegment_spec hb).2]
          exact cast_le.mpr hearly
        exact hend.trans (cast_le.mpr (UInt64.le_of_lt hlate))
    · obtain ⟨hrate, hraw⟩ := inverseSegment_spec h
      obtain ⟨hfirst, h'⟩ | ⟨-, -, boundary', hb', h'⟩ := project_cases h'
      · -- A raw time of the first segment is projected at or before the end of it.
        have hend : raw' ≤ anchor.rateUntilMonotonicNs :=
          UInt64.not_lt.mp fun hlt => hfirst ⟨hboundary, hlt⟩
        obtain ⟨hrate', hutc'⟩ := projectSegment_spec h'
        have hmono : (utc'.toNat : Int) ≤ boundary.toNat := by
          rw [hutc', (projectSegment_spec hb).2]
          exact segment_mono hrate' (cast_le.mpr hend)
        have hlt := UInt64.lt_iff_toNat_lt.mp hlate
        omega
      · rw [hb] at hb'
        cases hb'
        rw [hraw, segment_gc hrate, ← (projectSegment_spec h').2]
        exact hcast
  exact cast_le.mp hraw

/-- The segment an inverse is of, which projects its raw time and those after it. -/
theorem inverse_segment (h : inverse anchor utc = some raw) :
    ∃ s, inverseSegment s utc = some raw ∧ project anchor raw = projectSegment s raw ∧
      (2 ^ 64 ≤ segmentUtc s raw.toNat → ∀ raw' utc', raw ≤ raw' →
        project anchor raw' = some utc' → projectSegment s raw' = some utc') := by
  obtain ⟨hboundary, h⟩ | ⟨hboundary, boundary, hb, ⟨hearly, h⟩ | ⟨hlate, h⟩⟩ := inverse_cases h
  · refine ⟨anchor, h, by simp [project, hboundary], fun _ raw' utc' _ h' => ?_⟩
    simpa [project, hboundary] using h'
  · obtain ⟨hrate, hraw⟩ := inverseSegment_spec h
    have hutc := (projectSegment_spec hb).2
    have hend : (raw.toNat : Int) ≤ anchor.rateUntilMonotonicNs.toNat := by
      rw [hraw, segment_gc hrate, ← hutc]
      exact cast_le.mpr hearly
    have hfirst : ¬ raw > anchor.rateUntilMonotonicNs :=
      UInt64.not_lt.mpr (cast_le.mp hend)
    refine ⟨anchor, h, by simp [project, hfirst], fun hover => ?_⟩
    have hmono := segment_mono hrate hend
    have hlt := boundary.toNat_lt
    omega
  · obtain ⟨hrate, hraw⟩ := inverseSegment_spec h
    have hpast : ∀ raw' : UInt64, raw ≤ raw' → raw' > anchor.rateUntilMonotonicNs := by
      intro raw' hle
      refine UInt64.lt_of_lt_of_le (UInt64.not_le.mp fun hend => ?_) hle
      have hlt := UInt64.lt_iff_toNat_lt.mp hlate
      have hle : (raw.toNat : Int) ≤ anchor.rateUntilMonotonicNs.toNat :=
        cast_le.mpr hend
      rw [hraw, segment_gc hrate, boundaryAt_begins] at hle
      omega
    have hproject : ∀ raw' : UInt64, raw ≤ raw' →
        project anchor raw' = projectSegment (boundaryAt anchor boundary) raw' := by
      intro raw' hle
      simp [project, hboundary, hpast raw' hle, hb]
    refine ⟨boundaryAt anchor boundary, h, hproject raw (UInt64.le_refl raw), ?_⟩
    intro _ raw' utc' hle h'
    rwa [hproject raw' hle] at h'

/-- An inverse is projected at or after its UTC, or one past the largest. -/
theorem inverse_reaches (h : inverse anchor utc = some raw) :
    (∃ utc', project anchor raw = some utc' ∧ utc ≤ utc') ∨
    (utc = u64Max ∧ project anchor raw = none ∧
      ∀ raw' utc', project anchor raw' = some utc' → utc' < utc) := by
  obtain ⟨s, hs, hproject, hafter⟩ := inverse_segment h
  obtain ⟨hrate, hraw⟩ := inverseSegment_spec hs
  have hreached : (utc.toNat : Int) ≤ segmentUtc s raw.toNat := by
    rw [← segment_gc hrate, hraw]
  have hclose : segmentUtc s raw.toNat ≤ utc.toNat + 1 := by
    rw [hraw]
    exact segmentUtc_raw_le hrate utc.toNat
  have hutc := utc.toNat_lt
  by_cases hfits : segmentUtc s raw.toNat < 2 ^ 64
  · obtain ⟨utc', hsegment⟩ := projectSegment_some hrate (by omega) hfits
    refine .inl ⟨utc', hproject.trans hsegment, ?_⟩
    rw [← (projectSegment_spec hsegment).2] at hreached
    exact cast_le.mp hreached
  · have hmax : utc = u64Max := UInt64.toNat_inj.mp (by rw [toNat_u64Max]; omega)
    have hnone : ∀ raw' utc', raw ≤ raw' → project anchor raw' = some utc' → False := by
      intro raw' utc' hle h'
      have hutc' := (projectSegment_spec (hafter (by omega) raw' utc' hle h')).2
      have hmono := segment_mono hrate (cast_le.mpr hle)
      have hlt := utc'.toNat_lt
      omega
    refine .inr ⟨hmax, ?_, fun raw' utc' h' => ?_⟩
    · rw [Option.eq_none_iff_forall_ne_some]
      exact fun utc' h' => hnone raw utc' (UInt64.le_refl raw) h'
    · exact UInt64.not_le.mp fun hle => hnone raw' utc' (inverse_least h h' hle) h'

/-- A projection does not run backward in the raw time. An inverse is the least raw time that is
projected at or after its UTC; of the largest UTC alone it may be the least raw time past it, which
no projection has room for. -/
theorem mapping_galois (anchor : ClockSnapshot) :
    (∀ raw raw' utc utc', raw ≤ raw' → project anchor raw = some utc →
      project anchor raw' = some utc' → utc ≤ utc') ∧
    ∀ utc raw, inverse anchor utc = some raw →
      (∀ raw' utc', project anchor raw' = some utc' → utc ≤ utc' → raw ≤ raw') ∧
      ((∃ utc', project anchor raw = some utc' ∧ utc ≤ utc') ∨
        (utc = u64Max ∧ project anchor raw = none ∧
          ∀ raw' utc', project anchor raw' = some utc' → utc' < utc)) :=
  ⟨fun _ _ _ _ hle h h' => project_mono hle h h', fun _ _ h =>
    ⟨fun _ _ h' hle => inverse_least h h' hle, inverse_reaches h⟩⟩

/-- An alarm is at most a nanosecond of UTC late, and one for a projected UTC comes at that UTC. -/
theorem inverse_overshoot (anchor : ClockSnapshot) :
    (∀ utc raw utc', inverse anchor utc = some raw → project anchor raw = some utc' →
      utc'.toNat ≤ utc.toNat + 1) ∧
    ∀ raw utc raw', project anchor raw = some utc → inverse anchor utc = some raw' →
      raw' ≤ raw ∧ project anchor raw' = some utc := by
  refine ⟨fun utc raw utc' h h' => ?_, fun raw utc raw' h h' => ?_⟩
  · obtain ⟨s, hs, hproject, -⟩ := inverse_segment h
    obtain ⟨hrate, hraw⟩ := inverseSegment_spec hs
    have hutc' := (projectSegment_spec (hproject.symm.trans h')).2
    have hclose := segmentUtc_raw_le hrate utc.toNat
    rw [← hraw] at hclose
    omega
  · have hle := inverse_least h' h (UInt64.le_refl utc)
    refine ⟨hle, ?_⟩
    obtain ⟨utc', h'', hreach⟩ | ⟨-, -, hall⟩ := inverse_reaches h'
    · rw [h'', UInt64.le_antisymm (project_mono hle h'' h) hreach]
    · exact absurd (hall raw utc h) (UInt64.lt_irrefl utc)

/-- Fast by a tenth, ten nanoseconds before the largest UTC. -/
def lastTen : ClockSnapshot := { utcNowNs := u64Max - 10, ratePpb := 100000000 }

theorem mapping_galois_lastTen : ∃ raw utc, inverse lastTen (u64Max - 6) = some raw ∧
    project lastTen raw = some utc ∧ u64Max - 6 ≤ utc ∧
    ∀ raw' utc', project lastTen raw' = some utc' → u64Max - 6 ≤ utc' → raw ≤ raw' := by
  have hinverse : inverse lastTen (u64Max - 6) = some 4 := by decide
  obtain ⟨hleast, ⟨utc, hproject, hreach⟩ | ⟨hmax, -⟩⟩ := (mapping_galois lastTen).2 _ 4 hinverse
  · exact ⟨4, utc, hinverse, hproject, hreach, hleast⟩
  · exact absurd hmax (by decide)

/-- The inverse of the largest UTC is a raw time that is not projected, and none is projected at or
after it. -/
theorem inverse_past_range : inverse lastTen u64Max = some 10 ∧ project lastTen 10 = none ∧
    ∀ raw utc, project lastTen raw = some utc → utc < u64Max := by
  have hinverse : inverse lastTen u64Max = some 10 := by decide
  have hnone : project lastTen 10 = none := by decide
  obtain ⟨utc, h, -⟩ | ⟨-, -, hall⟩ := inverse_reaches hinverse
  · rw [hnone] at h
    cases h
  · exact ⟨hinverse, hnone, hall⟩

end WsprryPico.Time
