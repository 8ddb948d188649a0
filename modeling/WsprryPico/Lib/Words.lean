import Mathlib.Data.List.Basic
import Mathlib.Data.Bool.Basic

/-!
# Words of bits

The bits of a 32-bit word, a word filled bit by bit, and the parity of a list.
The entries of a list that is sorted by a key, up to a bound and from it on.
-/

namespace Lib

/-! ## Bits of a word -/

def bitOf (word : UInt32) (i : Nat) : Bool := word.toNat.testBit i

theorem word_ext {v w : UInt32} (h : ∀ i, i < 32 → bitOf v i = bitOf w i) : v = w := by
  refine UInt32.toNat_inj.mp (Nat.eq_of_testBit_eq fun i => ?_)
  by_cases hi : i < 32
  · exact h i hi
  · have hsmall : ∀ u : UInt32, u.toNat.testBit i = false := fun u =>
      Nat.testBit_lt_two_pow
        (Nat.lt_of_lt_of_le u.toNat_lt (Nat.pow_le_pow_right (by decide) (by omega)))
    rw [hsmall v, hsmall w]

@[simp] theorem bitOf_zero (i : Nat) : bitOf 0 i = false := Nat.zero_testBit i

@[simp] theorem bitOf_or (v w : UInt32) (i : Nat) : bitOf (v ||| w) i = (bitOf v i || bitOf w i) := by
  unfold bitOf
  rw [UInt32.toNat_or, Nat.testBit_or]

@[simp] theorem bitOf_xor (v w : UInt32) (i : Nat) :
    bitOf (v ^^^ w) i = (bitOf v i ^^ bitOf w i) := by
  unfold bitOf
  rw [UInt32.toNat_xor, Nat.testBit_xor]

theorem bitOf_shiftLeft {v : UInt32} (hv : v.toNat ≤ 1) {n i : Nat} (hn : n < 32) :
    bitOf (v <<< UInt32.ofNat n) i = (decide (i = n) && decide (v ≠ 0)) := by
  have hplace : (UInt32.ofNat n).toNat = n := UInt32.toNat_ofNat_of_lt' (Nat.lt_trans hn (by decide))
  unfold bitOf
  rw [UInt32.toNat_shiftLeft, hplace, Nat.mod_eq_of_lt hn]
  by_cases hzero : v = 0
  · subst hzero
    simp
  · have hone : v.toNat = 1 := by
      have : v.toNat ≠ 0 := fun h => hzero (UInt32.toNat_inj.mp h)
      omega
    rw [hone, Nat.shiftLeft_eq, Nat.one_mul,
      Nat.mod_eq_of_lt (Nat.pow_lt_pow_right (by decide) hn), Nat.testBit_two_pow]
    simp [hzero, eq_comm]

/-- The word with the first `n` bits of `bit`. -/
def wordUpTo (bit : Nat → Bool) : Nat → UInt32
  | 0 => 0
  | n + 1 => wordUpTo bit n ||| ((if bit n then 1 else 0) <<< UInt32.ofNat n)

theorem bitOf_wordUpTo (bit : Nat → Bool) {n : Nat} (hn : n ≤ 32) (i : Nat) :
    bitOf (wordUpTo bit n) i = (decide (i < n) && bit i) := by
  induction n with
  | zero => simp [wordUpTo]
  | succ n ih =>
    have hbit : (if bit n then 1 else 0 : UInt32).toNat ≤ 1 := by split <;> decide
    rw [wordUpTo, bitOf_or, ih (by omega), bitOf_shiftLeft hbit (by omega)]
    by_cases hi : i = n
    · subst hi
      cases bit i <;> simp
    · have : i < n + 1 ↔ i < n := by omega
      simp [hi, this]

theorem wordUpTo_congr {bit bit' : Nat → Bool} {n : Nat} (h : ∀ i, i < n → bit i = bit' i) :
    wordUpTo bit n = wordUpTo bit' n := by
  induction n with
  | zero => rfl
  | succ n ih => rw [wordUpTo, wordUpTo, ih fun i hi => h i (by omega), h n (by omega)]

theorem wordUpTo_false {bit : Nat → Bool} {n : Nat} (h : ∀ i, i < n → bit i = false) :
    wordUpTo bit n = 0 := by
  induction n with
  | zero => rfl
  | succ n ih =>
    rw [wordUpTo, ih fun i hi => h i (by omega), h n (by omega)]
    simp

theorem wordUpTo_extend {bit : Nat → Bool} {n m : Nat} (hle : n ≤ m) (hm : m ≤ 32)
    (h : ∀ i, n ≤ i → bit i = false) : wordUpTo bit n = wordUpTo bit m := by
  refine word_ext fun i _ => ?_
  rw [bitOf_wordUpTo bit (Nat.le_trans hle hm), bitOf_wordUpTo bit hm]
  by_cases hi : i < n
  · simp [hi, Nat.lt_of_lt_of_le hi hle]
  · simp [h i (by omega)]

/-! ## Parity -/

def parity (bits : List Bool) : Bool := bits.foldr xor false

@[simp] theorem parity_nil : parity [] = false := rfl

@[simp] theorem parity_cons (b : Bool) (bits : List Bool) :
    parity (b :: bits) = (b ^^ parity bits) := rfl

theorem parity_append (xs ys : List Bool) : parity (xs ++ ys) = (parity xs ^^ parity ys) := by
  induction xs with
  | nil => simp
  | cons x xs ih => simp [ih]

theorem parity_perm {xs ys : List Bool} (h : xs.Perm ys) : parity xs = parity ys := by
  induction h with
  | nil => rfl
  | cons x _ ih => rw [parity_cons, parity_cons, ih]
  | swap x y l => simp only [parity_cons, Bool.xor_left_comm]
  | trans _ _ ih ih' => exact ih.trans ih'

theorem parity_flatMap {α β : Type*} (f : α → List β) (q : β → Bool) (xs : List α) :
    parity ((xs.flatMap f).map q) = parity (xs.map fun x => parity ((f x).map q)) := by
  induction xs with
  | nil => rfl
  | cons x xs ih => rw [List.flatMap_cons, List.map_append, parity_append, ih]; rfl

theorem parity_filter {α : Type*} (p q : α → Bool) (xs : List α) :
    parity ((xs.filter p).map q) = parity (xs.map fun x => p x && q x) := by
  induction xs with
  | nil => rfl
  | cons x xs ih =>
    by_cases hp : p x = true
    · simp [hp, ih]
    · simp [hp, ih]

theorem parity_single (bit : Nat → Bool) (place n : Nat) :
    parity ((List.range n).map fun i => decide (place = i) && bit i) =
      (decide (place < n) && bit place) := by
  induction n with
  | zero => rfl
  | succ n ih =>
    rw [List.range_succ, List.map_append, parity_append, ih]
    by_cases hplace : place = n
    · subst hplace
      simp
    · have : place < n + 1 ↔ place < n := by omega
      simp [hplace, this]

theorem bitOf_toggled {α : Type*} (applies : α → Bool) (toggle : α → UInt32) (xs : List α)
    (word : UInt32) (i : Nat) :
    bitOf (xs.foldl (fun word x => if applies x then word ^^^ toggle x else word) word) i =
      (bitOf word i ^^ parity (xs.map fun x => applies x && bitOf (toggle x) i)) := by
  induction xs generalizing word with
  | nil => simp
  | cons x xs ih =>
    rw [List.foldl_cons, ih]
    cases happlies : applies x with
    | true => simp [happlies]
    | false => simp [happlies]

/-! ## Sorted lists -/

section Sorted

variable {α : Type*} {key : α → Nat} {xs : List α}

theorem takeWhile_sorted (h : xs.Pairwise fun a b => key a ≤ key b) (below : Nat → Bool)
    (hbelow : ∀ m n, m ≤ n → below n = true → below m = true) :
    xs.takeWhile (fun x => below (key x)) = xs.filter fun x => below (key x) := by
  induction xs with
  | nil => rfl
  | cons x xs ih =>
    obtain ⟨hx, hxs⟩ := List.pairwise_cons.mp h
    cases hkey : below (key x) with
    | true => simp [hkey, ih hxs]
    | false =>
      have hnone : ∀ y ∈ xs, below (key y) = false := fun y hy => by
        by_contra hy'
        exact absurd (hbelow _ _ (hx y hy) (by simpa using hy')) (by simp [hkey])
      simpa [hkey] using hnone

theorem dropWhile_sorted (h : xs.Pairwise fun a b => key a ≤ key b) (below : Nat → Bool)
    (hbelow : ∀ m n, m ≤ n → below n = true → below m = true) :
    xs.dropWhile (fun x => below (key x)) = xs.filter fun x => !below (key x) := by
  induction xs with
  | nil => rfl
  | cons x xs ih =>
    obtain ⟨hx, hxs⟩ := List.pairwise_cons.mp h
    cases hkey : below (key x) with
    | true => simp [hkey, ih hxs]
    | false =>
      have hnone : ∀ y ∈ xs, below (key y) = false := fun y hy => by
        by_contra hy'
        exact absurd (hbelow _ _ (hx y hy) (by simpa using hy')) (by simp [hkey])
      simp only [hkey, Bool.false_eq_true, not_false_eq_true, List.dropWhile_cons_of_neg,
        Bool.not_false, List.filter_cons_of_pos, List.cons.injEq, true_and]
      exact (List.filter_eq_self.mpr fun y hy => by rw [hnone y hy]; rfl).symm

/-- The entries that are not below one bound but below the other, by their places. -/
theorem between_sorted (h : xs.Pairwise fun a b => key a ≤ key b) (below below' : Nat → Bool)
    (hbelow : ∀ m n, m ≤ n → below n = true → below m = true)
    (hbelow' : ∀ m n, m ≤ n → below' n = true → below' m = true) {first last : Nat}
    (hfirst : first = (xs.takeWhile fun x => below (key x)).length)
    (hlast : last = first + ((xs.drop first).takeWhile fun x => below' (key x)).length) :
    (xs.take last).drop first = xs.filter fun x => !below (key x) && below' (key x) := by
  have hdrop : xs.drop first = xs.dropWhile fun x => below (key x) := by
    conv_lhs => rw [← List.takeWhile_append_dropWhile (p := fun x => below (key x)) (l := xs)]
    rw [hfirst, List.drop_left]
  have hsorted : (xs.dropWhile fun x => below (key x)).Pairwise fun a b => key a ≤ key b :=
    h.sublist (List.dropWhile_sublist _)
  rw [List.drop_take, hlast, Nat.add_sub_cancel_left,
    ← List.prefix_iff_eq_take.mp (List.takeWhile_prefix _), hdrop,
    takeWhile_sorted hsorted below' hbelow', dropWhile_sorted h below hbelow, List.filter_filter]
  exact List.filter_congr fun x _ => Bool.and_comm _ _

end Sorted

end Lib
