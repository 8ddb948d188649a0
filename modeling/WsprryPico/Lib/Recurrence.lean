import Mathlib.Data.Nat.ModEq
import Mathlib.Order.Bounds.Basic

/-!
# Recurrences

The times a first time and a period give, the first of them from a bound on, and
when two recurrences meet.
-/

namespace Lib

variable {first period bound t : Nat}

/-- `t` is the first time or a whole number of periods after it. -/
def Recurs (first period t : Nat) : Prop := ∃ k, t = first + k * period

/-- The first time from `bound` on. -/
def nextTerm (first period bound : Nat) : Nat :=
  first + ((bound - first) / period + if (bound - first) % period = 0 then 0 else 1) * period

theorem nextTerm_recurs (first period bound : Nat) :
    Recurs first period (nextTerm first period bound) :=
  ⟨_, rfl⟩

theorem nextTerm_of_le (h : bound ≤ first) : nextTerm first period bound = first := by
  unfold nextTerm
  rw [Nat.sub_eq_zero_of_le h]
  simp

theorem bound_le_nextTerm (hpos : 0 < period) : bound ≤ nextTerm first period bound := by
  have hdiv := Nat.div_add_mod (bound - first) period
  have hmod := Nat.mod_lt (bound - first) hpos
  rw [Nat.mul_comm] at hdiv
  unfold nextTerm
  rw [Nat.add_mul]
  split <;> omega

/-- No earlier time of the recurrence is late enough. -/
theorem nextTerm_le (h : Recurs first period t) (hbound : bound ≤ t) :
    nextTerm first period bound ≤ t := by
  obtain ⟨k, rfl⟩ := h
  unfold nextTerm
  refine Nat.add_le_add_left (Nat.mul_le_mul_right period ?_) first
  have hle : bound - first ≤ k * period := by omega
  have hquot : (bound - first) / period ≤ k := Nat.div_le_of_le_mul (by rwa [Nat.mul_comm])
  split
  · exact hquot
  · rename_i hrem
    refine Nat.lt_of_le_of_ne hquot fun hk => hrem ?_
    have hdiv := Nat.div_add_mod (bound - first) period
    rw [hk, Nat.mul_comm] at hdiv
    omega

theorem nextTerm_least (first : Nat) (hpos : 0 < period) (bound : Nat) :
    IsLeast {t | Recurs first period t ∧ bound ≤ t} (nextTerm first period bound) :=
  ⟨⟨nextTerm_recurs first period bound, bound_le_nextTerm hpos⟩, fun _ h => nextTerm_le h.1 h.2⟩

theorem recurs_iff_mod (h : first < period) : Recurs first period t ↔ t % period = first := by
  constructor
  · rintro ⟨k, rfl⟩
    rw [Nat.add_mul_mod_self_right, Nat.mod_eq_of_lt h]
  · intro hmod
    refine ⟨t / period, ?_⟩
    have hdiv := Nat.div_add_mod t period
    rw [Nat.mul_comm] at hdiv
    omega

/-! ## By rounding down

A time of the recurrence is also found from the whole periods below a bound. -/

theorem rounded_recurs (first period bound : Nat) :
    Recurs first period (bound / period * period + first) :=
  ⟨bound / period, Nat.add_comm _ _⟩

theorem rounded_le (h : Recurs first period t) (hfirst : first < period) (hbound : bound ≤ t) :
    bound / period * period + first ≤ t := by
  rw [recurs_iff_mod hfirst] at h
  calc bound / period * period + first
      ≤ t / period * period + first :=
        Nat.add_le_add_right (Nat.mul_le_mul_right _ (Nat.div_le_div_right hbound)) _
    _ = t := by rw [← h, Nat.mul_comm, Nat.div_add_mod]

theorem Recurs.add_le {t' : Nat} (h : Recurs first period t) (h' : Recurs first period t')
    (hlt : t < t') : t + period ≤ t' := by
  obtain ⟨k, rfl⟩ := h
  obtain ⟨k', rfl⟩ := h'
  have hk : k < k' := Nat.lt_of_mul_lt_mul_right (Nat.lt_of_add_lt_add_left hlt)
  rw [Nat.add_assoc, ← Nat.succ_mul]
  exact Nat.add_le_add_left (Nat.mul_le_mul_right period hk) first

theorem Recurs.succ (h : Recurs first period t) : Recurs first period (t + period) := by
  obtain ⟨k, rfl⟩ := h
  exact ⟨k + 1, by rw [Nat.succ_mul, Nat.add_assoc]⟩

/-- The first time from the bound on, or from behind it on, is the rounded one or the one behind
it. -/
theorem rounded_next {start : Nat} (hfirst : first < period) (hbound : bound ≤ start)
    (hstart : start ≤ bound + 1) :
    (if bound / period * period + first < start then bound / period * period + first + period
      else bound / period * period + first) = nextTerm first period start := by
  have hrecurs := rounded_recurs first period bound
  have hlt := Nat.lt_div_mul_add (a := bound) (Nat.zero_lt_of_lt hfirst)
  refine IsLeast.unique (s := {t | Recurs first period t ∧ start ≤ t}) ?_
    (nextTerm_least first (Nat.zero_lt_of_lt hfirst) start)
  split
  · rename_i hbelow
    exact ⟨⟨hrecurs.succ, by omega⟩, fun t ht =>
      hrecurs.add_le ht.1 (Nat.lt_of_lt_of_le hbelow ht.2)⟩
  · exact ⟨⟨hrecurs, by omega⟩, fun t ht => rounded_le ht.1 hfirst (hbound.trans ht.2)⟩

/-! ## Two recurrences -/

/-- Two recurrences meet when their phases agree modulo the greatest common divisor of their
periods, and only then. -/
theorem recurrences_meet {a b p q : Nat} :
    (∃ t, t % p = a % p ∧ t % q = b % q) ↔ a % p.gcd q = b % p.gcd q := by
  constructor
  · rintro ⟨t, ha, hb⟩
    have hp : t ≡ a [MOD p.gcd q] := Nat.ModEq.of_dvd (Nat.gcd_dvd_left p q) ha
    have hq : t ≡ b [MOD p.gcd q] := Nat.ModEq.of_dvd (Nat.gcd_dvd_right p q) hb
    exact hp.symm.trans hq
  · intro h
    obtain ⟨t, ha, hb⟩ := Nat.chineseRemainder' (n := p) (m := q) h
    exact ⟨t, ha, hb⟩

end Lib
