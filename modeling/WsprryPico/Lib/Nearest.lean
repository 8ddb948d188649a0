import Mathlib.Algebra.Order.Field.Basic
import Mathlib.Tactic.FieldSimp
import Mathlib.Tactic.Linarith
import Mathlib.Tactic.LinearCombination

/-!
# Rounding to the nearest

The quotient of two numbers, rounded once, halves up. It is off by at most half, no other whole
number is nearer, and a number less than half off is rounded to where it was.
-/

namespace Lib

variable {n d q k : Nat}

/-- The quotient rounded to the nearest, halves up. -/
def nearest (n d : Nat) : Nat := (2 * n + d) / (2 * d)

theorem nearest_bounds (hd : 0 < d) (n : Nat) :
    2 * d * nearest n d ≤ 2 * n + d ∧ 2 * n + d < 2 * d * (nearest n d + 1) := by
  have hmod := Nat.div_add_mod (2 * n + d) (2 * d)
  have hlt := Nat.mod_lt (2 * n + d) (Nat.mul_pos (by decide : 0 < 2) hd)
  unfold nearest
  rw [Nat.mul_add, Nat.mul_one]
  omega

theorem nearest_eq (hlow : 2 * d * q ≤ 2 * n + d)
    (hhigh : 2 * n + d < 2 * d * (q + 1)) : nearest n d = q := by
  refine Nat.div_eq_of_lt_le ?_ ?_
  · rwa [Nat.mul_comm q]
  · rwa [Nat.mul_comm (q + 1)]

theorem nearest_error (hd : 0 < d) (n : Nat) : |2 * ((nearest n d : Int) * d - n)| ≤ d := by
  obtain ⟨hlow, hhigh⟩ := nearest_bounds hd n
  zify at hlow hhigh
  rw [abs_le]
  constructor <;> linarith

theorem le_of_half {x d : Int} (h : |2 * (x * d - n)| ≤ d) (y : Int) :
    |x * d - n| ≤ |y * d - n| := by
  obtain ⟨hlow, hhigh⟩ := abs_le.mp h
  obtain hlt | rfl | hgt := lt_trichotomy y x
  · have hmul : y * d ≤ x * d - d := by nlinarith
    rw [abs_le]
    have hneg : y * d - n ≤ 0 := by linarith
    rw [abs_of_nonpos hneg]
    constructor <;> linarith
  · exact le_refl _
  · have hmul : x * d + d ≤ y * d := by nlinarith
    rw [abs_le]
    have hpos : 0 ≤ y * d - n := by linarith
    rw [abs_of_nonneg hpos]
    constructor <;> linarith

theorem nearest_of_close (h : |2 * ((q : Int) * d - n)| < d) : nearest n d = q := by
  obtain ⟨hlow, hhigh⟩ := abs_lt.mp h
  refine nearest_eq ?_ ?_
  · zify
    linarith
  · zify
    linarith

end Lib

/-!
## Best approximations

Two fractions of determinant one have between them only fractions whose denominator is at least
the sum of theirs. A number between such neighbours has one of them as its best approximation among
the fractions of smaller denominators.
-/

namespace Lib

variable {K : Type} [Field K] [LinearOrder K] [IsStrictOrderedRing K]

/-- `p / q` and `r / s` are neighbours, in this order. -/
structure Neighbours (p q r s : ℤ) : Prop where
  left : 0 < q
  right : 0 < s
  determinant : r * q - p * s = 1

namespace Neighbours

variable {p q r s u v : ℤ} {x : K}

theorem lt (h : Neighbours p q r s) : (p / q : K) < r / s := by
  have hq : (0 : K) < q := by exact_mod_cast h.left
  have hs : (0 : K) < s := by exact_mod_cast h.right
  have hdet : (r * q - p * s : K) = 1 := by exact_mod_cast h.determinant
  rw [div_lt_div_iff₀ hq hs]
  linarith

/-- A fraction strictly between neighbours has at least the sum of their denominators. -/
theorem le_denominator (h : Neighbours p q r s) (hv : 0 < v) (hlow : (p / q : K) < u / v)
    (hhigh : (u / v : K) < r / s) : q + s ≤ v := by
  have hq : (0 : K) < q := by exact_mod_cast h.left
  have hs : (0 : K) < s := by exact_mod_cast h.right
  have hv' : (0 : K) < v := by exact_mod_cast hv
  rw [div_lt_div_iff₀ hq hv'] at hlow
  rw [div_lt_div_iff₀ hv' hs] at hhigh
  have hleft : p * v < u * q := by exact_mod_cast hlow
  have hright : u * s < r * v := by exact_mod_cast hhigh
  have hsum : v = (u * q - p * v) * s + (r * v - u * s) * q := by
    linear_combination -v * h.determinant
  have hfirst : s ≤ (u * q - p * v) * s := by
    nlinarith [h.right]
  have hsecond : q ≤ (r * v - u * s) * q := by
    nlinarith [h.left]
  omega

/-- One of the neighbours around a number is as close to it as any fraction of a smaller
denominator. -/
theorem min_le (h : Neighbours p q r s) (hleft : (p / q : K) ≤ x) (hright : x ≤ (r / s : K))
    (hv : 0 < v) (hsmall : v < q + s) :
    min |(p / q : K) - x| |(r / s : K) - x| ≤ |(u / v : K) - x| := by
  by_cases hlow : (p / q : K) < u / v
  · by_cases hhigh : (u / v : K) < r / s
    · exact absurd (h.le_denominator hv hlow hhigh) (by omega)
    · refine le_trans (min_le_right _ _) ?_
      rw [abs_of_nonneg (by linarith), abs_of_nonneg (by linarith [not_lt.mp hhigh])]
      linarith [not_lt.mp hhigh]
  · refine le_trans (min_le_left _ _) ?_
    rw [abs_of_nonpos (by linarith), abs_of_nonpos (by linarith [not_lt.mp hlow])]
    linarith [not_lt.mp hlow]

end Neighbours

/-! ## Weighted mediants -/

variable {a b c d t x : K}

/-- A weighted mediant lies between its two fractions. -/
theorem mediant_between (hb : 0 < b) (hd : 0 < d) (ht : 0 ≤ t) (hx : x * (b + t * d) = a + t * c)
    (hle : a / b ≤ c / d) : a / b ≤ x ∧ x ≤ c / d := by
  have hpos : 0 < b + t * d := by positivity
  have hx' : x = (a + t * c) / (b + t * d) := (eq_div_iff hpos.ne').mpr hx
  rw [div_le_div_iff₀ hb hd] at hle
  rw [hx']
  constructor
  · rw [div_le_div_iff₀ hb hpos]
    nlinarith
  · rw [div_le_div_iff₀ hpos hd]
    nlinarith

/-- A weighted mediant of neighbours, either way around, has one of them as its best approximation
among the fractions of a denominator below their sum. -/
theorem mediant_best {p q r s u v : ℤ} (hq : 0 < q) (hs : 0 < s)
    (hdet : r * q - p * s = 1 ∨ r * q - p * s = -1) (ht : 0 ≤ t)
    (hx : x * (q + t * s) = p + t * r) (hv : 0 < v) (hsmall : v < q + s) :
    min |(p / q : K) - x| |(r / s : K) - x| ≤ |(u / v : K) - x| := by
  have hq' : (0 : K) < q := by exact_mod_cast hq
  have hs' : (0 : K) < s := by exact_mod_cast hs
  obtain hdet | hdet := hdet
  · have h : Neighbours p q r s := ⟨hq, hs, hdet⟩
    obtain ⟨hleft, hright⟩ := mediant_between hq' hs' ht hx h.lt.le
    exact h.min_le hleft hright hv hsmall
  · have h : Neighbours r s p q := ⟨hs, hq, by linarith⟩
    have hneg := mediant_between (x := -x) (a := -(p : K)) (c := -(r : K)) hq' hs' ht
      (by linear_combination -hx) (by rw [neg_div, neg_div]; exact neg_le_neg h.lt.le)
    rw [neg_div, neg_div] at hneg
    rw [min_comm]
    exact h.min_le (neg_le_neg_iff.mp hneg.2) (neg_le_neg_iff.mp hneg.1) hv (by omega)

end Lib
