import Mathlib.Algebra.Group.Nat.Defs
import Mathlib.Data.List.Basic
import Mathlib.Data.List.Induction

/-!
# Decimal text

Texts are lists of bytes. `decimal` spells a number in base ten without leading
zeros, `numeral` reads such a text back, and the two are inverse on the texts
that `Canonical` describes.
-/

namespace Lib

/-- The bytes of a text of one-byte characters. -/
def ascii (text : String) : List UInt8 := text.toList.map fun c => UInt8.ofNat c.toNat

theorem forall_mem_of_all {p : UInt8 → Prop} [DecidablePred p] {text : List UInt8}
    (h : text.all (fun c => p c) = true) : ∀ c ∈ text, p c := fun c hc =>
  of_decide_eq_true (List.all_eq_true.mp h c hc)

def isDigit (c : UInt8) : Bool := 48 ≤ c && c ≤ 57

theorem isDigit_iff {c : UInt8} : isDigit c = true ↔ 48 ≤ c.toNat ∧ c.toNat ≤ 57 := by
  simp [isDigit, UInt8.le_iff_toNat_le]

theorem isDigit_ofNat {d : Nat} (h : d < 10) : isDigit (UInt8.ofNat (48 + d)) = true := by
  rw [isDigit_iff, UInt8.toNat_ofNat']
  omega

/-- The number a list of digits spells. -/
def numeral (text : List UInt8) : Nat := text.foldl (fun n c => n * 10 + (c.toNat - 48)) 0

/-- The spelling of a number in base ten. -/
def decimal (n : Nat) : List UInt8 :=
  if n < 10 then [UInt8.ofNat (48 + n)]
  else decimal (n / 10) ++ [UInt8.ofNat (48 + n % 10)]
termination_by n

theorem decimal_small {n : Nat} (h : n < 10) : decimal n = [UInt8.ofNat (48 + n)] := by
  rw [decimal, if_pos h]

theorem decimal_large {n : Nat} (h : 10 ≤ n) :
    decimal n = decimal (n / 10) ++ [UInt8.ofNat (48 + n % 10)] := by
  rw [decimal, if_neg (by omega)]

@[simp] theorem numeral_nil : numeral [] = 0 := rfl

theorem numeral_snoc (text : List UInt8) (c : UInt8) :
    numeral (text ++ [c]) = numeral text * 10 + (c.toNat - 48) := by
  simp [numeral]

theorem numeral_decimal (n : Nat) : numeral (decimal n) = n := by
  induction n using decimal.induct with
  | case1 n h =>
    rw [decimal_small h, ← List.nil_append [_], numeral_snoc, UInt8.toNat_ofNat', numeral_nil]
    omega
  | case2 n h ih =>
    rw [decimal_large (by omega), numeral_snoc, ih, UInt8.toNat_ofNat']
    omega

theorem decimal_digits (n : Nat) : ∀ c ∈ decimal n, isDigit c = true := by
  induction n using decimal.induct with
  | case1 n h =>
    rw [decimal_small h]
    intro c hc
    rw [List.mem_singleton] at hc
    rw [hc]
    exact isDigit_ofNat h
  | case2 n h ih =>
    rw [decimal_large (by omega)]
    intro c hc
    rcases List.mem_append.mp hc with hc | hc
    · exact ih c hc
    · rw [List.mem_singleton] at hc
      rw [hc]
      exact isDigit_ofNat (by omega)

theorem decimal_ne_nil (n : Nat) : decimal n ≠ [] := by
  rw [decimal]
  split <;> simp

/-- Digits without a leading zero. -/
structure Canonical (text : List UInt8) : Prop where
  ne_nil : text ≠ []
  digits : ∀ c ∈ text, isDigit c = true
  leading : text.head? = some 48 → text = [48]

theorem decimal_head {n : Nat} (hn : 0 < n) : (decimal n).head? ≠ some 48 := by
  induction n using decimal.induct with
  | case1 n h =>
    rw [decimal_small h, List.head?_singleton]
    intro hc
    have := congrArg UInt8.toNat (Option.some.inj hc)
    rw [UInt8.toNat_ofNat'] at this
    have hlit : UInt8.toNat 48 = 48 := rfl
    omega
  | case2 n h ih =>
    rw [decimal_large (by omega), List.head?_append_of_ne_nil _ (decimal_ne_nil _)]
    exact ih (by omega)

theorem decimal_canonical (n : Nat) : Canonical (decimal n) where
  ne_nil := decimal_ne_nil n
  digits := decimal_digits n
  leading h := by
    by_cases hn : 0 < n
    · exact absurd h (decimal_head hn)
    · have : n = 0 := by omega
      subst this
      exact decimal_small (by decide)

private theorem ofNat_digit {c : UInt8} (h : isDigit c = true) :
    UInt8.ofNat (48 + (c.toNat - 48)) = c := by
  rw [isDigit_iff] at h
  apply UInt8.toNat_inj.mp
  rw [UInt8.toNat_ofNat']
  omega

private theorem numeral_pos {text : List UInt8} (hd : ∀ c ∈ text, isDigit c = true)
    (hne : text ≠ []) (hh : text.head? ≠ some 48) : 0 < numeral text := by
  induction text using List.reverseRecOn with
  | nil => exact absurd rfl hne
  | append_singleton init c ih =>
    rw [numeral_snoc]
    cases init with
    | nil =>
      have hdigit := isDigit_iff.mp (hd c (by simp))
      have : c.toNat ≠ 48 := fun h => hh (by
        simp only [List.nil_append, List.head?_cons, Option.some.injEq]
        exact UInt8.toNat_inj.mp h)
      omega
    | cons a init =>
      have := ih (fun c hc => hd c (List.mem_append_left _ hc)) (by simp) (by simpa using hh)
      omega

/-- A canonical text is the spelling of its number. -/
theorem Canonical.decimal_numeral {text : List UInt8} (h : Canonical text) :
    decimal (numeral text) = text := by
  obtain ⟨hne, hd, hlead⟩ := h
  induction text using List.reverseRecOn with
  | nil => exact absurd rfl hne
  | append_singleton init c ih =>
    have hc := hd c (by simp)
    have hdigit := isDigit_iff.mp hc
    rw [numeral_snoc]
    cases init with
    | nil =>
      rw [decimal_small (by rw [numeral_nil]; omega), numeral_nil, Nat.zero_mul, Nat.zero_add,
        ofNat_digit hc]
      rfl
    | cons a init =>
      have hzero : (a :: init).head? ≠ some 48 := fun h =>
        absurd (hlead (by simpa using h)) (by simp)
      have hinit : ∀ c ∈ a :: init, isDigit c = true := fun c hc =>
        hd c (List.mem_append_left _ hc)
      have hpos := numeral_pos hinit (by simp) hzero
      have hsplit : (numeral (a :: init) * 10 + (c.toNat - 48)) / 10 = numeral (a :: init) := by
        omega
      have hlast : (numeral (a :: init) * 10 + (c.toNat - 48)) % 10 = c.toNat - 48 := by omega
      rw [decimal_large (by omega), hsplit, hlast, ofNat_digit hc,
        ih (by simp) hinit fun h => absurd h hzero]

theorem decimal_length_le {n k : Nat} (hk : 0 < k) : (decimal n).length ≤ k ↔ n < 10 ^ k := by
  induction n using decimal.induct generalizing k with
  | case1 n h =>
    rw [decimal_small h]
    have : 10 ^ 1 ≤ 10 ^ k := Nat.pow_le_pow_right (by decide) hk
    simp only [List.length_singleton]
    omega
  | case2 n h ih =>
    rw [decimal_large (by omega), List.length_append, List.length_singleton]
    cases k with
    | zero => omega
    | succ k =>
      by_cases hk : 0 < k
      · rw [Nat.add_le_add_iff_right, ih hk, Nat.pow_succ]
        omega
      · have : k = 0 := by omega
        subst this
        have := List.length_pos_iff.mpr (decimal_ne_nil (n / 10))
        simp only [Nat.zero_add, Nat.pow_one]
        omega

end Lib
