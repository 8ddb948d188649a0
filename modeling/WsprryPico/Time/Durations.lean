import WsprryPico.Time.Galois

/-!
# The bound on a duration

`duration_utc_bound` takes the faster of the two rates with the uncertainty of the rate, and rounds
up once. A duration projected from any raw time gains no more UTC, across the end of a segment too.
-/

namespace WsprryPico.Time

open Wtp Lib

variable {clock : ClockSnapshot} {start duration bound utc utc' : UInt64}

/-- The nanoseconds of UTC in a raw second, at the most. -/
def fastestTicks (clock : ClockSnapshot) : Int :=
  1000000000 + max 0 (max clock.ratePpb clock.subsequentRatePpb +
    (clock.rateUncertaintyPpb.toNat : Int))

theorem rateTicks_le_fastest : rateTicks clock ≤ fastestTicks clock := by
  unfold rateTicks fastestTicks
  omega

theorem subsequent_le_fastest (boundary : UInt64) :
    rateTicks (boundaryAt clock boundary) ≤ fastestTicks clock := by
  unfold rateTicks fastestTicks boundaryAt
  dsimp only
  omega

theorem fastestTicks_bounds (h : durationUtcBound duration clock = some bound) :
    1000000000 ≤ fastestTicks clock ∧ fastestTicks clock ≤ 1300000000 := by
  unfold durationUtcBound at h
  split_ifs at h with hrates
  obtain ⟨hrate, hsubsequent, huncertainty⟩ := hrates
  have hrate := of_decide_eq_true hrate
  have hsubsequent := of_decide_eq_true hsubsequent
  have huncertainty : clock.rateUncertaintyPpb.toNat ≤ 200000000 :=
    UInt32.le_iff_toNat_le.mp huncertainty
  unfold utcMaxRatePpb at hrate hsubsequent
  unfold fastestTicks
  omega

/-- The bound is the duration at the fastest rate, rounded up. -/
theorem durationUtcBound_spec (h : durationUtcBound duration clock = some bound) :
    (bound.toNat : Int) = ticksUp (fastestTicks clock) 1000000000 duration.toNat := by
  have hbounds := fastestTicks_bounds h
  unfold durationUtcBound at h
  split_ifs at h
  have hfastest : ((UInt64.ofNat (1000000000 + max 0 (max clock.ratePpb clock.subsequentRatePpb +
      (clock.rateUncertaintyPpb.toNat : Int))).toNat).toNat : Int) = fastestTicks clock := by
    unfold fastestTicks at hbounds ⊢
    rw [UInt64.toNat_ofNat', Nat.mod_eq_of_lt (by omega)]
    omega
  rw [scale_up h, hfastest]
  rfl

theorem segmentUtc_add_le {s : ClockSnapshot} {n x z : Int} (hrate : rateTicks s ≤ n) (hz : 0 ≤ z) :
    segmentUtc s (x + z) ≤ segmentUtc s x + ticksUp n 1000000000 z := by
  have h := ticks_add_le (by decide : (0 : Int) < 1000000000) (mul_le_mul_of_nonneg_left hrate hz)
    (x - s.monotonicNowNs.toNat)
  unfold segmentUtc
  rw [show x + z - s.monotonicNowNs.toNat = x - s.monotonicNowNs.toNat + z by ring]
  omega

theorem segmentUtc_boundaryAt (boundary : UInt64) (x : Int) :
    segmentUtc (boundaryAt clock boundary) x = boundary.toNat +
      ticks (rateTicks (boundaryAt clock boundary)) 1000000000
        (x - clock.rateUntilMonotonicNs.toNat) := rfl

/-- The bound holds across the end of the first segment. -/
theorem across_boundary {boundary : UInt64} {x y : Int}
    (hfirst : (boundary.toNat : Int) = segmentUtc clock clock.rateUntilMonotonicNs.toNat)
    (hx : x ≤ clock.rateUntilMonotonicNs.toNat) (hy : clock.rateUntilMonotonicNs.toNat ≤ y) :
    segmentUtc (boundaryAt clock boundary) y ≤
      segmentUtc clock x + ticksUp (fastestTicks clock) 1000000000 (y - x) := by
  have hend : (boundary.toNat : Int) ≤ segmentUtc clock x +
      ticksUp (rateTicks clock) 1000000000 (clock.rateUntilMonotonicNs.toNat - x) := by
    have h := segmentUtc_add_le (s := clock) (x := x) (le_refl (rateTicks clock)) (sub_nonneg.mpr hx)
    rwa [add_sub_cancel, ← hfirst] at h
  have hrate : rateTicks clock ≤ fastestTicks clock := rateTicks_le_fastest
  have hsubsequent : rateTicks (boundaryAt clock boundary) ≤ fastestTicks clock :=
    subsequent_le_fastest boundary
  have hsum := ticksUp_add_le (by decide : (0 : Int) < 1000000000)
    (mul_le_mul_of_nonneg_left hrate (sub_nonneg.mpr hx))
    (mul_le_mul_of_nonneg_left hsubsequent (sub_nonneg.mpr hy))
  rw [show (clock.rateUntilMonotonicNs.toNat : Int) - x + (y - clock.rateUntilMonotonicNs.toNat) =
    y - x by ring] at hsum
  rw [segmentUtc_boundaryAt]
  omega

/-- A duration gains at most its bound in UTC, from any raw time. -/
theorem duration_bounded (hbound : durationUtcBound duration clock = some bound)
    (hstart : project clock start = some utc)
    (hend : project clock (start + duration) = some utc') :
    utc'.toNat ≤ utc.toNat + bound.toNat := by
  have hmax := durationUtcBound_spec hbound
  by_cases hwrap : start.toNat + duration.toNat < 2 ^ 64
  · have hsum : ((start + duration).toNat : Int) = start.toNat + duration.toNat := by
      rw [UInt64.toNat_add, Nat.mod_eq_of_lt hwrap]
      push_cast
      rfl
    have hspan : (0 : Int) ≤ duration.toNat := Int.natCast_nonneg _
    have hle : (utc'.toNat : Int) ≤ utc.toNat +
        ticksUp (fastestTicks clock) 1000000000 duration.toNat := by
      obtain ⟨hfirst, hstart⟩ | ⟨hboundary, hlate, boundary, hb, hstart⟩ := project_cases hstart
      · obtain ⟨-, hend⟩ | ⟨hboundary, hlate, boundary, hb, hend⟩ := project_cases hend
        · rw [(projectSegment_spec hend).2, (projectSegment_spec hstart).2, hsum]
          exact segmentUtc_add_le rateTicks_le_fastest hspan
        · have hearly : start ≤ clock.rateUntilMonotonicNs :=
            UInt64.not_lt.mp fun hlt => hfirst ⟨hboundary, hlt⟩
          have h := across_boundary (projectSegment_spec hb).2
            (Int.ofNat_le.mpr (UInt64.le_iff_toNat_le.mp hearly))
            (Int.ofNat_le.mpr (UInt64.le_iff_toNat_le.mp (UInt64.le_of_lt hlate)))
          rw [(projectSegment_spec hend).2, (projectSegment_spec hstart).2]
          rwa [show ((start + duration).toNat : Int) - start.toNat = duration.toNat by omega] at h
      · obtain ⟨hfirst, -⟩ | ⟨-, -, boundary', hb', hend⟩ := project_cases hend
        · refine absurd ⟨hboundary, UInt64.lt_of_lt_of_le hlate ?_⟩ hfirst
          exact UInt64.le_iff_toNat_le.mpr (by omega)
        · rw [hb] at hb'
          cases hb'
          rw [(projectSegment_spec hend).2, (projectSegment_spec hstart).2, hsum]
          exact segmentUtc_add_le (subsequent_le_fastest boundary) hspan
    omega
  · have hback : start + duration ≤ start := by
      have hstart := start.toNat_lt
      have hduration := duration.toNat_lt
      rw [UInt64.le_iff_toNat_le, UInt64.toNat_add,
        Nat.mod_eq_sub_mod (by omega), Nat.mod_eq_of_lt (by omega)]
      omega
    have hmono := UInt64.le_iff_toNat_le.mp (project_mono hback hend hstart)
    omega

/-- Slow by a tenth, then fast by a tenth from 500 ns on. -/
def atKnee : ClockSnapshot :=
  { ratePpb := -100000000, rateUntilMonotonicNs := 500, subsequentRatePpb := 100000000 }

/-- 550 ns across the knee. -/
theorem duration_bounded_atKnee : ∃ utc utc' bound, durationUtcBound 550 atKnee = some bound ∧
    project atKnee 450 = some utc ∧ project atKnee (450 + 550) = some utc' ∧
    utc'.toNat ≤ utc.toNat + bound.toNat := by
  have hbound : durationUtcBound 550 atKnee = some 605 := by decide
  have hstart : project atKnee 450 = some 405 := by decide
  have hend : project atKnee (450 + 550) = some 1000 := by decide
  exact ⟨405, 1000, 605, hbound, hstart, hend, duration_bounded hbound hstart hend⟩

end WsprryPico.Time
