import Mathlib.Data.Nat.Bitwise
import Mathlib.Data.Nat.Fib.Basic
import Mathlib.Data.Rat.Floor
import Mathlib.RingTheory.Coprime.Lemmas
import Mathlib.Tactic.Positivity
import WsprryPico.Lib.Nearest
import WsprryPico.Rf.Si5351.Synthesis

/-!
# The dividers are best approximations

The arithmetic of the synthesis read as exact rationals. The loop over the continued fraction ends
by itself, since denominators grow like Fibonacci numbers, and it ends at the last convergent whose
denominator is legal; that one or the last legal semiconvergent is the closest fraction there is.
The registers say the fraction exactly.
-/

namespace WsprryPico.Rf.Si5351

open Lib LongDouble

/-- Halves are rounded away from zero. -/
def roundAway (x : ℚ) : ℤ := if 0 ≤ x then ⌊x + 1 / 2⌋ else ⌈x - 1 / 2⌉

instance : LongDouble ℚ where
  isFinite _ := true
  floor := Int.floor
  round := roundAway
  fabs x := |x|

/-! ## The continued fraction -/

/-- A number with the convergents so far and the rest of its continued fraction. -/
structure Expansion (x r : ℚ) (s : Convergents) : Prop where
  determinant : (s.p1 * s.q0 - s.p0 * s.q1 : ℤ) = 1 ∨ (s.p1 * s.q0 - s.p0 * s.q1 : ℤ) = -1
  value : x * (s.q0 + r * s.q1) = s.p0 + r * s.p1
  q0_le : s.q0 ≤ maximumDenominator
  q1_le : s.q1 ≤ maximumDenominator

/-- Where the loop ends: at the number itself, or where the next denominator is too large. -/
structure Converged (x : ℚ) (s : Convergents) : Prop where
  determinant : (s.p1 * s.q0 - s.p0 * s.q1 : ℤ) = 1 ∨ (s.p1 * s.q0 - s.p0 * s.q1 : ℤ) = -1
  q0_le : s.q0 ≤ maximumDenominator
  q1_le : s.q1 ≤ maximumDenominator
  q1_pos : 0 < s.q1
  ends : x * s.q1 = s.p1 ∨ ∃ r : ℚ, x * (s.q0 + r * s.q1) = s.p0 + r * s.p1 ∧
    (((maximumDenominator - s.q0) / s.q1 : ℕ) : ℚ) ≤ r

variable {x r : ℚ} {s : Convergents} {k : ℕ}

theorem full_eq_false {a : ℤ} (h : s.full a = false) (ha : 0 ≤ a) (hq0 : s.q0 ≤ maximumDenominator) :
    s.q0 + a.toNat * s.q1 ≤ maximumDenominator := by
  simp only [Convergents.full, Bool.or_eq_false_iff, decide_eq_false_iff_not, Bool.and_eq_false_iff,
    ne_eq, not_not, not_lt] at h
  obtain ⟨-, hzero | hle⟩ := h
  · rw [hzero]
    omega
  · have hle : a.toNat ≤ (maximumDenominator - s.q0) / s.q1 := by omega
    have hmul := Nat.mul_le_of_le_div _ _ _ hle
    omega

theorem Expansion.next_determinant (h : Expansion x r s) (a : ℕ) :
    ((s.next a).p1 * (s.next a).q0 - (s.next a).p0 * (s.next a).q1 : ℤ) = 1 ∨
      ((s.next a).p1 * (s.next a).q0 - (s.next a).p0 * (s.next a).q1 : ℤ) = -1 := by
  have hnext : ((s.next a).p1 * (s.next a).q0 - (s.next a).p0 * (s.next a).q1 : ℤ) =
      -(s.p1 * s.q0 - s.p0 * s.q1) := by
    simp only [Convergents.next]
    push_cast
    ring
  rw [hnext]
  obtain hdet | hdet := h.determinant
  · exact .inr (by rw [hdet])
  · exact .inl (by rw [hdet]; rfl)

/-- The number with the next convergent: the rest of the coefficient weighs the one before it. -/
theorem Expansion.next_value (h : Expansion x r s) (hr : 0 ≤ r) :
    x * ((r - ⌊r⌋) * (s.next ⌊r⌋.toNat).q0 + (s.next ⌊r⌋.toNat).q1) =
      (r - ⌊r⌋) * (s.next ⌊r⌋.toNat).p0 + (s.next ⌊r⌋.toNat).p1 := by
  have hfloor : ((⌊r⌋.toNat : ℕ) : ℚ) = (⌊r⌋ : ℚ) := by
    have hnonneg : 0 ≤ ⌊r⌋ := Int.floor_nonneg.mpr hr
    exact_mod_cast Int.toNat_of_nonneg hnonneg
  simp only [Convergents.next]
  push_cast
  rw [hfloor]
  linear_combination h.value

/-- The loop behind its first round: coefficients are positive, so that the denominators grow like
the Fibonacci numbers. -/
structure Growing (x r : ℚ) (k : ℕ) (s : Convergents) : Prop extends Expansion x r s where
  remainder : 1 < r
  q0_fib : Nat.fib k ≤ s.q0
  q1_fib : Nat.fib (k + 1) ≤ s.q1

theorem Growing.q1_pos (h : Growing x r k s) : 0 < s.q1 :=
  lt_of_lt_of_le (Nat.fib_pos.mpr (Nat.succ_pos k)) h.q1_fib

theorem Growing.bound (h : Growing x r k s) : k < 30 := by
  by_contra hk
  have hmono : Nat.fib 31 ≤ Nat.fib (k + 1) := Nat.fib_mono (by omega)
  have hfib : Nat.fib 31 = 1346269 := by decide +kernel
  have hle := h.q1_fib.trans h.q1_le
  have hmax : maximumDenominator = 1048575 := rfl
  omega

theorem Growing.full (h : Growing x r k s) (hfull : s.full ⌊r⌋ = true) : Converged x s := by
  refine ⟨h.determinant, h.q0_le, h.q1_le, h.q1_pos, .inr ⟨r, h.value, ?_⟩⟩
  have hfloor : (⌊r⌋ : ℚ) ≤ r := Int.floor_le r
  have hbound : (((maximumDenominator - s.q0) / s.q1 : ℕ) : ℤ) ≤ ⌊r⌋ := by
    simp only [Convergents.full, Bool.or_eq_true, decide_eq_true_eq, Bool.and_eq_true] at hfull
    obtain hlarge | ⟨-, hlarge⟩ := hfull
    · have hdiv : (maximumDenominator - s.q0) / s.q1 ≤ maximumDenominator :=
        (Nat.div_le_self _ _).trans (Nat.sub_le _ _)
      omega
    · omega
  calc (((maximumDenominator - s.q0) / s.q1 : ℕ) : ℚ)
      = ((((maximumDenominator - s.q0) / s.q1 : ℕ) : ℤ) : ℚ) := (Int.cast_natCast _).symm
    _ ≤ ⌊r⌋ := Int.cast_le.mpr hbound
    _ ≤ r := hfloor

/-- One round of the loop ends at the number or goes on with a larger remainder. -/
theorem Growing.next (h : Growing x r k s) (hfull : s.full ⌊r⌋ = false) :
    (r - ⌊r⌋ = 0 → Converged x (s.next ⌊r⌋.toNat)) ∧
      (r - ⌊r⌋ ≠ 0 → Growing x (1 / (r - ⌊r⌋)) (k + 1) (s.next ⌊r⌋.toNat)) := by
  have hr : 0 ≤ r := by linarith [h.remainder]
  have hone : 1 ≤ ⌊r⌋ := Int.le_floor.mpr (by exact_mod_cast h.remainder.le)
  have hdet := h.next_determinant ⌊r⌋.toNat
  have hvalue := h.next_value hr
  have hlegal := full_eq_false hfull (by omega) h.q0_le
  have hcoefficient : 1 ≤ ⌊r⌋.toNat := by omega
  have hgrow : s.q0 + s.q1 ≤ (s.next ⌊r⌋.toNat).q1 := by
    simp only [Convergents.next]
    have hmul := Nat.mul_le_mul_right s.q1 hcoefficient
    omega
  refine ⟨fun hzero => ⟨hdet, h.q1_le, hlegal, ?_, .inl ?_⟩, fun hne => ?_⟩
  · have hpos := h.q1_pos
    omega
  · rw [hzero] at hvalue
    linarith
  · have hfract : 0 < r - ⌊r⌋ := lt_of_le_of_ne (Int.fract_nonneg r) (Ne.symm hne)
    have hlt : r - ⌊r⌋ < 1 := Int.fract_lt_one r
    refine ⟨⟨hdet, ?_, h.q1_le, hlegal⟩, ?_, h.q1_fib, ?_⟩
    · field_simp
      linarith
    · rw [lt_div_iff₀ hfract]
      linarith
    · rw [Nat.fib_add_two]
      have hq0 := h.q0_fib
      have hq1 := h.q1_fib
      omega

theorem converge_growing (iterations : ℕ) (h : Growing x r k s) (henough : 30 ≤ k + iterations) :
    (converge iterations r s).2 = true ∧ Converged x (converge iterations r s).1 := by
  induction iterations generalizing r k s with
  | zero =>
    have hbound := h.bound
    omega
  | succ iterations ih =>
    unfold converge
    rw [if_neg (by simp [isFinite])]
    dsimp only [LongDouble.floor]
    split
    · rename_i hfull
      exact ⟨rfl, h.full hfull⟩
    · rename_i hfull
      obtain ⟨hends, hgoes⟩ := h.next (by simpa using hfull)
      split
      · rename_i hzero
        exact ⟨rfl, hends (by simpa using hzero)⟩
      · rename_i hne
        rw [Nat.cast_one]
        exact ih (hgoes (by simpa using hne)) (by omega)

/-- The limit of 64 rounds is never what ends the loop. -/
theorem converge_spec (hx : 0 ≤ x) (hlt : x < 1) :
    (converge 64 x {}).2 = true ∧ Converged x (converge 64 x {}).1 := by
  have hfloor : ⌊x⌋ = 0 := Int.floor_eq_zero_iff.mpr ⟨hx, hlt⟩
  have hexpansion : Expansion x x {} := ⟨.inl rfl, by norm_num, by decide, by decide⟩
  unfold converge
  rw [if_neg (by simp [isFinite])]
  dsimp only [LongDouble.floor]
  rw [hfloor, if_neg (by decide)]
  have hnext : Convergents.next (0 : ℤ).toNat {} = ⟨1, 0, 0, 1⟩ := rfl
  rw [hnext]
  split
  · rename_i hzero
    have hzero : x = 0 := by simpa using hzero
    exact ⟨rfl, .inr rfl, by decide, by decide, by decide, .inl (by simp [hzero])⟩
  · rename_i hne
    have hpos : 0 < x := lt_of_le_of_ne hx (by simpa [eq_comm] using hne)
    have hgrowing : Growing x (1 / x) 0 ⟨1, 0, 0, 1⟩ := by
      refine ⟨⟨.inr rfl, ?_, by decide, by decide⟩, ?_, by decide, by decide⟩
      · norm_num
        field_simp
      · rw [lt_div_iff₀ hpos]
        linarith
    have hrest : x - ((0 : ℤ) : ℚ) = x := by norm_num
    rw [hrest, Nat.cast_one]
    exact converge_growing 63 hgrowing (by decide)

/-! ## The closest fraction -/

/-- `p / q` is as close to `x` as any fraction of a legal denominator. -/
structure Closest (x : ℚ) (p q : ℕ) : Prop where
  pos : 0 < q
  legal : q ≤ maximumDenominator
  coprime : Nat.Coprime p q
  best : ∀ u v : ℤ, 0 < v → v ≤ maximumDenominator → |(p / q : ℚ) - x| ≤ |(u / v : ℚ) - x|

theorem coprime_of_determinant {p q u v : ℕ}
    (h : (p * v - u * q : ℤ) = 1 ∨ (p * v - u * q : ℤ) = -1) : Nat.Coprime p q := by
  refine Nat.isCoprime_iff_coprime.mp ?_
  obtain h | h := h
  · exact ⟨v, -u, by linear_combination h⟩
  · exact ⟨-v, u, by linear_combination -h⟩

theorem Converged.closest (h : Converged x s) :
    Closest x (s.closest x).1 (s.closest x).2 := by
  have hpos := h.q1_pos
  have hq0 := h.q0_le
  have hq1 := h.q1_le
  unfold Convergents.closest
  dsimp only [LongDouble.fabs]
  have hlegal : s.q0 + (maximumDenominator - s.q0) / s.q1 * s.q1 ≤ maximumDenominator := by
    have hmul := Nat.div_mul_le_self (maximumDenominator - s.q0) s.q1
    omega
  have hlast : maximumDenominator < s.q0 + (maximumDenominator - s.q0) / s.q1 * s.q1 + s.q1 := by
    have hmod := Nat.lt_div_mul_add (a := maximumDenominator - s.q0) hpos
    omega
  have hends : x * s.q1 = s.p1 ∨ ∃ r : ℚ, x * (s.q0 + r * s.q1) = s.p0 + r * s.p1 ∧
      (((maximumDenominator - s.q0) / s.q1 : ℕ) : ℚ) ≤ r := h.ends
  generalize (maximumDenominator - s.q0) / s.q1 = scale at *
  have hbq : 0 < s.q0 + scale * s.q1 := by omega
  have hdet : (s.p1 * (s.q0 + scale * s.q1 : ℕ) - (s.p0 + scale * s.p1 : ℕ) * s.q1 : ℤ) = 1 ∨
      (s.p1 * (s.q0 + scale * s.q1 : ℕ) - (s.p0 + scale * s.p1 : ℕ) * s.q1 : ℤ) = -1 := by
    have hsame : (s.p1 * (s.q0 + scale * s.q1 : ℕ) - (s.p0 + scale * s.p1 : ℕ) * s.q1 : ℤ) =
        s.p1 * s.q0 - s.p0 * s.q1 := by
      push_cast
      ring
    rw [hsame]
    exact h.determinant
  have hcoprime : Nat.Coprime (s.p0 + scale * s.p1) (s.q0 + scale * s.q1) := by
    refine coprime_of_determinant (u := s.p1) (v := s.q1) ?_
    obtain hdet | hdet := hdet
    · exact .inr (by linarith)
    · exact .inl (by linarith)
  have hbest : ∀ u v : ℤ, 0 < v → v ≤ maximumDenominator →
      (|((s.p0 + scale * s.p1 : ℕ) / (s.q0 + scale * s.q1 : ℕ) : ℚ) - x| <
          |(s.p1 / s.q1 : ℚ) - x| ∧
        |((s.p0 + scale * s.p1 : ℕ) / (s.q0 + scale * s.q1 : ℕ) : ℚ) - x| ≤ |(u / v : ℚ) - x|) ∨
      (|(s.p1 / s.q1 : ℚ) - x| ≤
          |((s.p0 + scale * s.p1 : ℕ) / (s.q0 + scale * s.q1 : ℕ) : ℚ) - x| ∧
        |(s.p1 / s.q1 : ℚ) - x| ≤ |(u / v : ℚ) - x|) := by
    intro u v hv hle
    obtain hexact | ⟨r, hvalue, hscale⟩ := hends
    · have hzero : (s.p1 / s.q1 : ℚ) - x = 0 := by
        have hne : (s.q1 : ℚ) ≠ 0 := by exact_mod_cast hpos.ne'
        rw [← hexact]
        field_simp
        ring
      rw [hzero, abs_zero]
      exact .inr ⟨abs_nonneg _, abs_nonneg _⟩
    · have hmin := mediant_best (x := x) (t := r - scale) (p := (s.p0 + scale * s.p1 : ℕ))
        (q := (s.q0 + scale * s.q1 : ℕ)) (r := s.p1) (s := s.q1) (u := u) (v := v)
        (by exact_mod_cast hbq) (by exact_mod_cast hpos) hdet (by linarith)
        (by push_cast; linear_combination hvalue) hv (by omega)
      simp only [Int.cast_natCast] at hmin
      obtain hlt | hge := lt_or_ge (|((s.p0 + scale * s.p1 : ℕ) / (s.q0 + scale * s.q1 : ℕ) : ℚ) - x|)
        (|(s.p1 / s.q1 : ℚ) - x|)
      · rw [min_eq_left hlt.le] at hmin
        exact .inl ⟨hlt, hmin⟩
      · rw [min_eq_right hge] at hmin
        exact .inr ⟨hge, hmin⟩
  split
  · rename_i hcloser
    refine ⟨hbq, hlegal, hcoprime, fun u v hv hle => ?_⟩
    obtain ⟨-, hle⟩ | ⟨hno, -⟩ := hbest u v hv hle
    · exact hle
    · exact absurd hcloser.2 (not_lt.mpr hno)
  · rename_i hnot
    refine ⟨hpos, hq1, coprime_of_determinant h.determinant, fun u v hv hle => ?_⟩
    obtain ⟨hlt, -⟩ | ⟨-, hle⟩ := hbest u v hv hle
    · exact absurd ⟨hbq.ne', hlt⟩ hnot
    · exact hle

/-! ## The registers -/

def registerP1 (r : Vector UInt8 8) : ℕ := r[2].toNat % 4 * 65536 + r[3].toNat * 256 + r[4].toNat

def registerP2 (r : Vector UInt8 8) : ℕ := r[5].toNat % 16 * 65536 + r[6].toNat * 256 + r[7].toNat

def registerP3 (r : Vector UInt8 8) : ℕ := r[5].toNat / 16 * 65536 + r[0].toNat * 256 + r[1].toNat

/-- The code of the R divider, where the bytes are those of a MultiSynth. -/
def registerR (r : Vector UInt8 8) : ℕ := r[2].toNat / 16 % 8

/-- The bits that make a MultiSynth divide by four. -/
def registerDivideBy4 (r : Vector UInt8 8) : Bool := r[2].toNat / 4 % 4 = 3

theorem toUInt8_toNat (n : ℕ) : n.toUInt8.toNat = n % 256 := by
  simp [Nat.toUInt8]

theorem or_shiftLeft_four {x : ℕ} (h : x < 16) (y : ℕ) : x ||| (y <<< 4) = y * 16 + x := by
  rw [Nat.or_comm, ← Nat.shiftLeft_add_eq_or_of_lt h, Nat.shiftLeft_eq]

/-- The fields of a divider come back from its bytes. -/
theorem dividerRegisters_decode {p q c rCode : ℕ} (hp : p < 2 ^ 18) (hq : q < 2 ^ 20)
    (hc : c < 2 ^ 20) (hr : rCode ≤ 7) :
    registerP1 (dividerRegisters p q c rCode) = p ∧ registerP2 (dividerRegisters p q c rCode) = q ∧
      registerP3 (dividerRegisters p q c rCode) = c ∧
      registerR (dividerRegisters p q c rCode) = rCode ∧
      registerDivideBy4 (dividerRegisters p q c rCode) = false := by
  have hthree : (p >>> 16) &&& 3 = p / 65536 % 4 := by
    rw [Nat.shiftRight_eq_div_pow]
    exact Nat.and_two_pow_sub_one_eq_mod _ 2
  have hfifteen : (q >>> 16) &&& 15 = q / 65536 % 16 := by
    rw [Nat.shiftRight_eq_div_pow]
    exact Nat.and_two_pow_sub_one_eq_mod _ 4
  have hsecond : ((p >>> 16) &&& 3) ||| (rCode <<< 4) = rCode * 16 + p / 65536 % 4 := by
    rw [hthree]
    exact or_shiftLeft_four (by omega) _
  have hfifth : ((c >>> 16) <<< 4) ||| ((q >>> 16) &&& 15) = c / 65536 * 16 + q / 65536 % 16 := by
    rw [hfifteen, Nat.or_comm, or_shiftLeft_four (by omega), Nat.shiftRight_eq_div_pow]
  have hshift : ∀ n : ℕ, n >>> 8 = n / 256 := fun n => Nat.shiftRight_eq_div_pow n 8
  simp only [registerP1, registerP2, registerP3, registerR, registerDivideBy4, dividerRegisters,
    hsecond, hfifth, hshift]
  simp only [Vector.getElem_mk, List.getElem_toArray, List.getElem_cons_succ,
    List.getElem_cons_zero, toUInt8_toNat]
  refine ⟨?_, ?_, ?_, ?_, ?_⟩
  · omega
  · omega
  · omega
  · omega
  · rw [decide_eq_false_iff_not]
    omega

/-- What the fields of a divider say, and its bytes of them. -/
structure Encoded (d : Divider) (a b c rCode : ℕ) : Prop where
  integer : d.integer.toNat = a
  numerator : d.numerator.toNat = b
  denominator : d.denominator.toNat = c
  p2_lt : d.p2.toNat < d.p3.toNat
  p1_lt : d.p1.toNat < 2 ^ 18
  p2_bits : d.p2.toNat < 2 ^ 20
  ratio : ((d.p1.toNat + 512 + d.p2.toNat / d.p3.toNat) / 128 : ℚ) = a + (b / c : ℚ)
  registers_p1 : registerP1 d.registers = d.p1.toNat
  registers_p2 : registerP2 d.registers = d.p2.toNat
  registers_p3 : registerP3 d.registers = d.p3.toNat
  registers_r : registerR d.registers = rCode
  registers_by4 : registerDivideBy4 d.registers = false

theorem dividerP2_eq (b c : ℕ) : dividerP2 b c = 128 * b % c := by
  unfold dividerP2
  have hmod := Nat.div_add_mod (128 * b) c
  omega

theorem encodeDivider_encoded {a b c rCode : ℕ} (ha : 4 ≤ a) (ha' : a ≤ 2048) (hbc : b < c)
    (hc : c ≤ maximumDenominator) (hr : rCode ≤ 7) :
    Encoded (encodeDivider a b c rCode) a b c rCode ∧ encodable (a, b, c) = true := by
  have hc' : c ≤ 1048575 := hc
  have hd : 128 * b / c < 128 := by
    rw [Nat.div_lt_iff_lt_mul (by omega)]
    omega
  have hp1 : dividerP1 a b c + 512 = 128 * a + 128 * b / c := by
    unfold dividerP1
    generalize 128 * b / c = d
    omega
  have hp1_lt : dividerP1 a b c < 2 ^ 18 := by omega
  have hp2 := dividerP2_eq b c
  have hp2_lt : dividerP2 b c < c := by
    rw [hp2]
    exact Nat.mod_lt _ (by omega)
  have hdecode := dividerRegisters_decode hp1_lt (show dividerP2 b c < 2 ^ 20 by omega)
    (show c < 2 ^ 20 by omega) hr
  have hword : ∀ n : ℕ, n < 2 ^ 32 → n.toUInt32.toNat = n := by
    intro n hn
    exact Nat.mod_eq_of_lt hn
  have hp1_word := hword (dividerP1 a b c) (by omega)
  have hp2_word := hword (dividerP2 b c) (by omega)
  have hc_word := hword c (by omega)
  constructor
  · refine ⟨hword a (by omega), hword b (by omega), hc_word, ?_, ?_, ?_, ?_, ?_, ?_, ?_,
      hdecode.2.2.2.1, hdecode.2.2.2.2⟩
    · simp only [encodeDivider, hp2_word, hc_word]
      exact hp2_lt
    · simp only [encodeDivider, hp1_word]
      exact hp1_lt
    · simp only [encodeDivider, hp2_word]
      omega
    · simp only [encodeDivider, hp1_word, hp2_word, hc_word]
      have hcq : (c : ℚ) ≠ 0 := by
        have hne : c ≠ 0 := by omega
        exact_mod_cast hne
      have hp1q : (dividerP1 a b c + 512 : ℚ) = 128 * a + (128 * b / c : ℕ) := by exact_mod_cast hp1
      have hmod : ((c * (128 * b / c) + 128 * b % c : ℕ) : ℚ) = (128 * b : ℕ) := by
        rw [Nat.div_add_mod]
      push_cast at hmod
      rw [hp1q, hp2]
      field_simp
      linear_combination hmod
    · simp only [encodeDivider, hp1_word]
      exact hdecode.1
    · simp only [encodeDivider, hp2_word]
      exact hdecode.2.1
    · simp only [encodeDivider, hc_word]
      exact hdecode.2.2.1
  · simp only [encodable, Bool.and_eq_true, decide_eq_true_eq]
    exact ⟨⟨hp1_lt, by omega⟩, hc⟩

/-! ## The divider of a ratio -/

theorem Closest.le {p q : ℕ} (h : Closest x p q) (hlt : x < 1) : p ≤ q := by
  by_contra hgt
  have hq : (0 : ℚ) < q := by exact_mod_cast h.pos
  have hone : (1 : ℚ) < p / q := by
    rw [lt_div_iff₀ hq, one_mul]
    exact_mod_cast not_le.mp hgt
  have hbest := h.best 1 1 one_pos (by decide)
  rw [abs_of_pos (by linarith), abs_of_pos (by push_cast; linarith)] at hbest
  linarith

theorem Closest.eq_zero {p q : ℕ} (h : Closest 0 p q) : p = 0 := by
  have hq : (0 : ℚ) < q := by exact_mod_cast h.pos
  have hbest := h.best 0 1 one_pos (by decide)
  simp only [Int.cast_zero, zero_div, sub_zero, abs_zero] at hbest
  have hzero : (p / q : ℚ) = 0 := abs_nonpos_iff.mp hbest
  rw [div_eq_zero_iff] at hzero
  obtain hzero | hzero := hzero
  · exact_mod_cast hzero
  · exact absurd hzero hq.ne'

/-- The fraction of a ratio, carried and in its lowest terms. -/
theorem carried_spec {a p q : ℕ} (h : Closest x p q) (hx : 0 ≤ x) (hlt : x < 1) :
    ∃ a' b c, reduced (carried a (p, q)) = (a', b, c) ∧ b < c ∧ c ≤ maximumDenominator ∧
      Nat.Coprime b c ∧ (a' + b / c : ℚ) = a + p / q ∧ a ≤ a' ∧ (a' ≤ a ∨ 0 < x ∧ a' ≤ a + 1) := by
  unfold carried
  obtain heq | hne := eq_or_ne p q
  · rw [if_pos heq]
    refine ⟨a + 1, 0, 1, by simp [reduced], by decide, by decide, by decide, ?_, by omega,
      .inr ⟨?_, le_refl _⟩⟩
    · have hq : (q : ℚ) ≠ 0 := by exact_mod_cast h.pos.ne'
      rw [heq, div_self hq]
      push_cast
      ring
    · refine lt_of_le_of_ne hx fun hzero => ?_
      subst hzero
      have hpos := h.pos
      rw [← heq, h.eq_zero] at hpos
      exact absurd hpos (lt_irrefl 0)
  · rw [if_neg hne]
    have hle := h.le hlt
    refine ⟨a, p, q, ?_, by omega, h.legal, h.coprime, rfl, le_refl a, .inl (le_refl a)⟩
    simp only [reduced, h.coprime, Nat.div_one]

/-- The divider of a ratio in range, as the fraction it encodes. -/
theorem divider_spec {ratio : ℚ} {rCode : ℕ} (hlow : 8 ≤ ratio) (hhigh : ratio ≤ 2048)
    (hcode : rCode ≤ 7) :
    ∃ a b c, divider ratio rCode = some (encodeDivider a b c rCode) ∧ 8 ≤ a ∧ a ≤ 2048 ∧ b < c ∧
      c ≤ maximumDenominator ∧ Nat.Coprime b c ∧
      ∀ u v : ℤ, 0 < v → v ≤ maximumDenominator →
        |(a + b / c : ℚ) - ratio| ≤ |(u / v : ℚ) - ratio| := by
  have hfloor : ((⌊ratio⌋.toNat : ℕ) : ℚ) = (⌊ratio⌋ : ℚ) := by
    rw [Int.floor_toNat, natCast_floor_eq_intCast_floor (by linarith)]
  have hrest : 0 ≤ ratio - (⌊ratio⌋.toNat : ℕ) := by
    rw [hfloor]
    exact Int.fract_nonneg ratio
  have hless : ratio - (⌊ratio⌋.toNat : ℕ) < 1 := by
    rw [hfloor]
    exact Int.fract_lt_one ratio
  have hfloor_low : 8 ≤ ⌊ratio⌋ := Int.le_floor.mpr (by exact_mod_cast hlow)
  have hfloor_high : ⌊ratio⌋ ≤ 2048 := by
    have hle : (⌊ratio⌋ : ℚ) ≤ 2048 := (Int.floor_le ratio).trans hhigh
    exact_mod_cast hle
  obtain ⟨-, hconverged⟩ := converge_spec hrest hless
  have hclosest := hconverged.closest
  unfold divider
  rw [if_neg (by simp [isFinite, not_lt.mpr hlow, not_lt.mpr hhigh, hcode])]
  dsimp only [LongDouble.floor]
  rw [if_neg hconverged.q1_pos.ne']
  generalize (converge 64 (ratio - (⌊ratio⌋.toNat : ℕ)) {}).1.closest
    (ratio - (⌊ratio⌋.toNat : ℕ)) = fraction at hclosest ⊢
  obtain ⟨a, b, c, heq, hbc, hc, hcoprime, hsame, hle, hcarry⟩ :=
    carried_spec (a := ⌊ratio⌋.toNat) hclosest hrest hless
  rw [show (fraction.1, fraction.2) = fraction from rfl] at heq
  rw [heq]
  have ha : a ≤ 2048 := by
    obtain hnone | ⟨hpos, hone⟩ := hcarry
    · omega
    · have hlt : (⌊ratio⌋ : ℚ) < 2048 := by
        rw [hfloor] at hpos
        linarith
      have hlt' : ⌊ratio⌋ < 2048 := by exact_mod_cast hlt
      omega
  have hencoded := encodeDivider_encoded (by omega) ha hbc hc hcode
  rw [hencoded.2]
  refine ⟨a, b, c, rfl, by omega, ha, hbc, hc, hcoprime, fun u v hv hle => ?_⟩
  have hbest := hclosest.best (u - ⌊ratio⌋ * v) v hv hle
  have hv' : (v : ℚ) ≠ 0 := by exact_mod_cast hv.ne'
  have hmoved : (((u - ⌊ratio⌋ * v : ℤ) : ℚ) / v) - (ratio - (⌊ratio⌋.toNat : ℕ)) = u / v - ratio := by
    rw [hfloor]
    push_cast
    field_simp
    ring
  rw [hmoved] at hbest
  have hshifted : (a + b / c : ℚ) - ratio = fraction.1 / fraction.2 - (ratio - (⌊ratio⌋.toNat : ℕ)) := by
    rw [hsame]
    ring
  rw [hshifted]
  exact hbest

/-- For every ratio in range the divider is the best approximation by a legal denominator, its
registers say it exactly, and the loop found it by itself. -/
theorem divider_best (ratio : ℚ) (rCode : ℕ) (hlow : 8 ≤ ratio) (hhigh : ratio ≤ 2048)
    (hcode : rCode ≤ 7) :
    ∃ d, divider ratio rCode = some d ∧ d.numerator.toNat < d.denominator.toNat ∧
      d.denominator.toNat ≤ maximumDenominator ∧
      Nat.Coprime d.numerator.toNat d.denominator.toNat ∧
      (d.numerator.toNat = 0 → d.denominator.toNat = 1) ∧
      (∀ u v : ℤ, 0 < v → v ≤ maximumDenominator →
        |(d.ratio : ℚ) - ratio| ≤ |(u / v : ℚ) - ratio|) ∧
      d.p2.toNat < d.p3.toNat ∧ d.p1.toNat < 2 ^ 18 ∧ d.p2.toNat < 2 ^ 20 ∧
      ((d.p1.toNat + 512 + d.p2.toNat / d.p3.toNat) / 128 : ℚ) = d.ratio ∧
      registerR d.registers = rCode ∧ registerP1 d.registers = d.p1.toNat ∧
      registerP2 d.registers = d.p2.toNat ∧ registerP3 d.registers = d.p3.toNat ∧
      (converge 64 (ratio - ((⌊ratio⌋.toNat : ℕ) : ℚ)) {}).2 = true := by
  obtain ⟨a, b, c, heq, ha, ha', hbc, hc, hcoprime, hbest⟩ := divider_spec hlow hhigh hcode
  obtain ⟨h, -⟩ := encodeDivider_encoded (by omega) ha' hbc hc hcode
  have hratio : ((encodeDivider a b c rCode).ratio : ℚ) = a + b / c := by
    unfold Divider.ratio
    rw [h.integer, h.numerator, h.denominator]
  have hfloor : ((⌊ratio⌋.toNat : ℕ) : ℚ) = (⌊ratio⌋ : ℚ) := by
    rw [Int.floor_toNat, natCast_floor_eq_intCast_floor (by linarith)]
  refine ⟨_, heq, ?_, ?_, ?_, ?_, ?_, h.p2_lt, h.p1_lt, h.p2_bits, ?_, h.registers_r,
    h.registers_p1, h.registers_p2, h.registers_p3, ?_⟩
  · rw [h.numerator, h.denominator]
    exact hbc
  · rw [h.denominator]
    exact hc
  · rw [h.numerator, h.denominator]
    exact hcoprime
  · rw [h.numerator, h.denominator]
    rintro rfl
    exact (Nat.coprime_zero_left c).mp hcoprime
  · rw [hratio]
    exact hbest
  · rw [hratio]
    exact h.ratio
  · rw [hfloor]
    exact (converge_spec (Int.fract_nonneg ratio) (Int.fract_lt_one ratio)).1

/-- The PLL of a 27 MHz crystal. -/
theorem divider_best_899_27 : ∃ d, divider (899 / 27 : ℚ) 0 = some d ∧
    ∀ u v : ℤ, 0 < v → v ≤ maximumDenominator →
      |(d.ratio : ℚ) - 899 / 27| ≤ |(u / v : ℚ) - 899 / 27| := by
  obtain ⟨d, heq, -, -, -, -, hbest, -⟩ :=
    divider_best (899 / 27) 0 (by norm_num) (by norm_num) (by decide)
  exact ⟨d, heq, hbest⟩

end WsprryPico.Rf.Si5351
