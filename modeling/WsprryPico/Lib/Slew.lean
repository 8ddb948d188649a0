import Mathlib.Algebra.Order.Field.Basic
import Mathlib.Algebra.Order.Group.MinMax
import Mathlib.Tactic.Linarith

/-!
# Slewed clocks

A phase that is slewed at a fixed rate until it is used up. A clock of a positive rate that slews
one of the same sign never runs backward.
-/

namespace Lib

variable {K : Type} [Field K] [LinearOrder K] {slew pending rate x y : K}

/-- The part of `pending` slewed after `x` seconds. -/
def slewPhase (slew pending x : K) : K :=
  if |pending| < |slew * x| then pending else slew * x

theorem slewPhase_zero [IsStrictOrderedRing K] : slewPhase slew pending 0 = 0 := by
  unfold slewPhase
  rw [mul_zero, abs_zero, if_neg (not_lt.mpr (abs_nonneg _))]

theorem slewPhase_neg : slewPhase (-slew) (-pending) x = -slewPhase slew pending x := by
  unfold slewPhase
  rw [neg_mul, abs_neg, abs_neg]
  split_ifs <;> rfl

variable [IsStrictOrderedRing K]

theorem slewPhase_eq_min (hslew : 0 ≤ slew) (hpending : 0 ≤ pending) (hx : 0 ≤ x) :
    slewPhase slew pending x = min (slew * x) pending := by
  unfold slewPhase
  rw [abs_of_nonneg hpending, abs_of_nonneg (mul_nonneg hslew hx)]
  split_ifs with h
  · exact (min_eq_right h.le).symm
  · exact (min_eq_left (not_lt.mp h)).symm

theorem slewPhase_eq_max (hslew : slew ≤ 0) (hpending : pending ≤ 0) (hx : 0 ≤ x) :
    slewPhase slew pending x = max (slew * x) pending := by
  have h := slewPhase_eq_min (neg_nonneg.mpr hslew) (neg_nonneg.mpr hpending) hx
  rw [slewPhase_neg] at h
  rw [← neg_neg (slewPhase slew pending x), h, neg_mul, min_neg_neg, neg_neg]

theorem sign_cases (h : 0 ≤ slew * pending) :
    slew = 0 ∨ (0 < slew ∧ 0 ≤ pending) ∨ (slew < 0 ∧ pending ≤ 0) := by
  rcases lt_trichotomy slew 0 with hneg | hzero | hpos
  · exact .inr (.inr ⟨hneg, by by_contra hp; nlinarith [not_le.mp hp]⟩)
  · exact .inl hzero
  · exact .inr (.inl ⟨hpos, by by_contra hp; nlinarith [not_le.mp hp]⟩)

theorem slewPhase_no_slew : slewPhase 0 pending x = 0 := by
  unfold slewPhase
  rw [zero_mul, abs_zero, if_neg (not_lt.mpr (abs_nonneg _))]

theorem abs_slewPhase_le (hx : 0 ≤ x) :
    |slewPhase slew pending x| ≤ |slew| * x := by
  unfold slewPhase
  rw [← abs_of_nonneg hx, ← abs_mul, abs_of_nonneg hx]
  split_ifs with h
  · exact h.le
  · exact le_refl _

theorem slewPhase_rest (hsign : 0 ≤ slew * pending) (hx : 0 ≤ x) :
    0 ≤ slew * (pending - slewPhase slew pending x) := by
  rcases sign_cases hsign with rfl | ⟨hslew, hpending⟩ | ⟨hslew, hpending⟩
  · rw [zero_mul]
  · rw [slewPhase_eq_min hslew.le hpending hx]
    exact mul_nonneg hslew.le (sub_nonneg.mpr (min_le_right _ _))
  · rw [slewPhase_eq_max hslew.le hpending hx]
    exact mul_nonneg_of_nonpos_of_nonpos hslew.le (sub_nonpos.mpr (le_max_right _ _))

/-- A clock whose rate stays positive under its slew does not run backward. -/
theorem slewed_mono (hsign : 0 ≤ slew * pending) (hrate : 0 ≤ rate) (hslewed : 0 ≤ rate + slew)
    (hx : 0 ≤ x) (hxy : x ≤ y) :
    x * rate + slewPhase slew pending x ≤ y * rate + slewPhase slew pending y := by
  have hmul := mul_le_mul_of_nonneg_right hxy hrate
  have hy := hx.trans hxy
  rcases sign_cases hsign with rfl | ⟨hslew, hpending⟩ | ⟨hslew, hpending⟩
  · rw [slewPhase_no_slew, slewPhase_no_slew]
    linarith
  · rw [slewPhase_eq_min hslew.le hpending hx, slewPhase_eq_min hslew.le hpending hy]
    have hmin := min_le_min_right pending (mul_le_mul_of_nonneg_left hxy hslew.le)
    linarith
  · rw [slewPhase_eq_max hslew.le hpending hx, slewPhase_eq_max hslew.le hpending hy]
    -- The slew runs down by no more than the clock runs up.
    have hdown : max (slew * x) pending ≤ max (slew * y) pending + slew * (x - y) := by
      have hstep := mul_nonneg_of_nonpos_of_nonpos hslew.le (sub_nonpos.mpr hxy)
      refine max_le ?_ ?_
      · have hle := le_max_left (slew * y) pending
        linarith
      · have hle := le_max_right (slew * y) pending
        linarith
    have hup := mul_nonneg (sub_nonneg.mpr hxy) hslewed
    linarith

end Lib
