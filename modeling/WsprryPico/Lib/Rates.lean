import Mathlib.Data.Int.ConditionallyCompleteOrder
import Mathlib.Tactic.Linarith

/-!
# Clocks at a rational rate

A clock that gains `n` ticks in `d` ticks of another, read in whole ticks. Its reading rounds down
and the inverse rounds up, before the origin too, so the two are a Galois pair: the inverse of a
reading is the first tick at which the clock has reached it.
-/

namespace Lib

variable {n d : Int} {x y : Int}

/-- The reading after `x` ticks. -/
def ticks (n d x : Int) : Int := x * n / d

/-- The first tick of a reading. -/
def ticksBack (n d y : Int) : Int := -(-(y * d) / n)

/-- The reading of a span, rounded up. -/
def ticksUp (n d x : Int) : Int := -(-(x * n) / d)

theorem le_ticks (hd : 0 < d) : y ≤ ticks n d x ↔ y * d ≤ x * n := Int.le_ediv_iff_mul_le hd

theorem ticksBack_le (hn : 0 < n) : ticksBack n d y ≤ x ↔ y * d ≤ x * n := by
  unfold ticksBack
  rw [neg_le, Int.le_ediv_iff_mul_le hn]
  constructor <;> intro h <;> linarith

theorem ticks_gc (hn : 0 < n) (hd : 0 < d) : GaloisConnection (ticksBack n d) (ticks n d) :=
  fun _ _ => (ticksBack_le hn).trans (le_ticks hd).symm

theorem ticks_zero : ticks n d 0 = 0 := by simp [ticks]

/-- Up to twice as fast, a clock passes a reading by at most one. -/
theorem ticks_ticksBack_le (hn : 0 < n) (hd : 0 < d) (h : n ≤ 2 * d) (y : Int) :
    ticks n d (ticksBack n d y) ≤ y + 1 := by
  have hearlier : ¬ y ≤ ticks n d (ticksBack n d y - 1) := by
    rw [← (ticks_gc hn hd) y]
    omega
  rw [le_ticks hd] at hearlier
  by_contra hle
  have hlate : y + 2 ≤ ticks n d (ticksBack n d y) := by omega
  rw [le_ticks hd] at hlate
  linarith

theorem ticks_neg (x : Int) : ticks n d (-x) = -ticksUp n d x := by
  rw [ticks, ticksUp, neg_neg, neg_mul]

theorem ticksBack_neg (y : Int) : ticksBack n d (-y) = -ticks d n y := by
  rw [ticksBack, ticks, neg_mul, neg_neg]

theorem ticksUp_le (hd : 0 < d) : ticksUp n d x ≤ y ↔ x * n ≤ y * d := by
  unfold ticksUp
  rw [neg_le, Int.le_ediv_iff_mul_le hd]
  constructor <;> intro h <;> linarith

/-- What the clock gains in a span is at most the span at a rate at least its own. -/
theorem ticks_add_le {n' z : Int} (hd : 0 < d) (h : z * n ≤ z * n') (x : Int) :
    ticks n d (x + z) ≤ ticks n d x + ticksUp n' d z := by
  have hup : z * n' ≤ ticksUp n' d z * d := (ticksUp_le hd).mp (le_refl _)
  have hfloor : x * n < (ticks n d x + 1) * d := by
    by_contra hle
    have := (le_ticks hd).mpr (not_lt.mp hle)
    omega
  by_contra hle
  have hlate : ticks n d x + ticksUp n' d z + 1 ≤ ticks n d (x + z) := by omega
  rw [le_ticks hd] at hlate
  linarith

/-- Two spans at rates of at most `n'`, each rounded down or up at their meeting, are at most the
whole at that rate. -/
theorem ticksUp_add_le {n₁ n₂ n' z₁ z₂ : Int} (hd : 0 < d) (h₁ : z₁ * n₁ ≤ z₁ * n')
    (h₂ : z₂ * n₂ ≤ z₂ * n') :
    ticksUp n₁ d z₁ + ticks n₂ d z₂ ≤ ticksUp n' d (z₁ + z₂) := by
  have hup : (z₁ + z₂) * n' ≤ ticksUp n' d (z₁ + z₂) * d := (ticksUp_le hd).mp (le_refl _)
  have hticks : ticks n₂ d z₂ * d ≤ z₂ * n₂ := (le_ticks hd).mp (le_refl _)
  have hle : ticksUp n₁ d z₁ ≤ ticksUp n' d (z₁ + z₂) - ticks n₂ d z₂ := by
    rw [ticksUp_le hd]
    linarith
  omega

end Lib
