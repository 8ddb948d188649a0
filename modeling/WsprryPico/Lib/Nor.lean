import Mathlib.Logic.Basic

/-!
# NOR flash and the loss of power

An erase sets the bits of a sector, a program clears bits of a page. `power` is
how many more bytes are written before the power is lost; a write that needs more
keeps the prefix it had power for, and nothing works after it.
-/

namespace Lib

structure Nor where
  bytes : Nat → UInt8
  power : Option Nat := none

namespace Nor

inductive Write where
  | erase (base size : Nat)
  | program (base : Nat) (data : List UInt8)

/-- `size` bytes from `base` on. -/
def slice (bytes : Nat → UInt8) (base size : Nat) : List UInt8 :=
  (List.range size).map fun i => bytes (base + i)

@[simp] theorem length_slice (bytes : Nat → UInt8) (base size : Nat) :
    (slice bytes base size).length = size := by
  simp [slice]

theorem getElem?_slice {bytes : Nat → UInt8} {base size i : Nat} (h : i < size) :
    (slice bytes base size)[i]? = some (bytes (base + i)) := by
  simp [slice, h]

theorem slice_congr {bytes bytes' : Nat → UInt8} {base size : Nat}
    (h : ∀ i, i < size → bytes' (base + i) = bytes (base + i)) :
    slice bytes' base size = slice bytes base size :=
  List.map_congr_left fun i hi => h i (List.mem_range.mp hi)

/-- What agrees on `size` bytes agrees on each slice of them. -/
theorem slice_within {bytes bytes' : Nat → UInt8} {base size offset n : Nat}
    (h : ∀ i, i < size → bytes' (base + i) = bytes (base + i)) (hfits : offset + n ≤ size) :
    slice bytes' (base + offset) n = slice bytes (base + offset) n := by
  refine slice_congr fun i hi => ?_
  rw [Nat.add_assoc]
  exact h _ (by omega)

theorem slice_take {bytes : Nat → UInt8} {base size n : Nat} (h : n ≤ size) :
    (slice bytes base size).take n = slice bytes base n := by
  unfold slice
  rw [← List.map_take, List.take_range, Nat.min_eq_left h]

theorem slice_drop {bytes : Nat → UInt8} {base size n : Nat} :
    (slice bytes base size).drop n = slice bytes (base + n) (size - n) := by
  refine List.ext_getElem? fun i => ?_
  rw [List.getElem?_drop]
  by_cases hi : i < size - n
  · rw [getElem?_slice hi, getElem?_slice (by omega), Nat.add_assoc]
  · rw [List.getElem?_eq_none (by rw [length_slice]; omega),
      List.getElem?_eq_none (by rw [length_slice]; omega)]

namespace Write

def base : Write → Nat
  | .erase base _ => base
  | .program base _ => base

def size : Write → Nat
  | .erase _ size => size
  | .program _ data => data.length

/-- The first `k` bytes of a write. -/
def upTo (k : Nat) (bytes : Nat → UInt8) : Write → Nat → UInt8
  | .erase base _, a => if base ≤ a ∧ a < base + k then 0xff else bytes a
  | .program base data, a =>
    if base ≤ a ∧ a < base + k then bytes a &&& data.getD (a - base) 0xff else bytes a

theorem upTo_outside {w : Write} {k : Nat} {bytes : Nat → UInt8} {a : Nat}
    (h : a < w.base ∨ w.base + k ≤ a) : w.upTo k bytes a = bytes a := by
  cases w with
  | erase base size => exact if_neg (by simp only [Write.base] at h; omega)
  | program base data => exact if_neg (by simp only [Write.base] at h; omega)

/-- The first `k` bytes of a record, programmed where the flash is erased. -/
theorem slice_program {base size k : Nat} {bytes : Nat → UInt8} {data : List UInt8}
    (hlength : data.length = size) (hblank : ∀ i, i < size → bytes (base + i) = 0xff) (hk : k ≤ size) :
    slice ((program base data).upTo k bytes) base size =
      data.take k ++ List.replicate (size - k) 0xff := by
  refine List.ext_getElem? fun i => ?_
  by_cases hi : i < size
  · rw [getElem?_slice hi]
    simp only [upTo, Nat.add_sub_cancel_left]
    rw [hblank i hi]
    by_cases hik : i < k
    · rw [if_pos (by omega), List.getElem?_append_left (by rw [List.length_take]; omega),
        List.getElem?_take_of_lt hik, List.getD_eq_getElem?_getD,
        List.getElem?_eq_getElem (by omega), Option.getD_some]
      exact congrArg some (UInt8.neg_one_and ..)
    · rw [if_neg (by omega), List.getElem?_append_right (by rw [List.length_take]; omega),
        List.getElem?_replicate, if_pos (by rw [List.length_take]; omega)]
  · rw [List.getElem?_eq_none (by rw [length_slice]; omega), List.getElem?_eq_none]
    rw [List.length_append, List.length_take, List.length_replicate]
    omega

theorem slice_programmed {base : Nat} {bytes : Nat → UInt8} {data : List UInt8}
    (hblank : ∀ i, i < data.length → bytes (base + i) = 0xff) :
    slice ((program base data).upTo data.length bytes) base data.length = data := by
  rw [slice_program rfl hblank (Nat.le_refl _), List.take_length, Nat.sub_self,
    List.replicate_zero, List.append_nil]

/-- A program continued over further pages. -/
theorem upTo_append (base : Nat) (k : Nat) (xs : List UInt8) (ys : List UInt8) (bytes : Nat → UInt8) :
    (program (base + xs.length) ys).upTo k ((program base xs).upTo xs.length bytes) =
      (program base (xs ++ ys)).upTo (xs.length + k) bytes := by
  funext a
  simp only [upTo]
  by_cases hy : base + xs.length ≤ a ∧ a < base + xs.length + k
  · rw [if_pos hy, if_neg (by omega), if_pos (by omega), List.getD_eq_getElem?_getD,
      List.getD_eq_getElem?_getD, List.getElem?_append_right (by omega)]
    congr 3
    omega
  · rw [if_neg hy]
    by_cases hx : base ≤ a ∧ a < base + xs.length
    · rw [if_pos hx, if_pos (by omega), List.getD_eq_getElem?_getD, List.getD_eq_getElem?_getD,
        List.getElem?_append_left (by omega)]
    · rw [if_neg hx, if_neg (by omega)]

end Write

def read (base size : Nat) (f : Nor) : Option (List UInt8) :=
  if f.power = some 0 then none else some (slice f.bytes base size)

theorem read_powered {f : Nor} (h : f.power = none) (base size : Nat) :
    f.read base size = some (slice f.bytes base size) :=
  if_neg (by rw [h]; exact nofun)

theorem of_read {f : Nor} {base size : Nat} {data : List UInt8} (h : f.read base size = some data) :
    data = slice f.bytes base size := by
  unfold read at h
  split at h
  · cases h
  · exact (Option.some.inj h).symm

def write (w : Write) (f : Nor) : Bool × Nor :=
  match f.power with
  | none => (true, { f with bytes := w.upTo w.size f.bytes })
  | some n =>
    if w.size ≤ n then (true, ⟨w.upTo w.size f.bytes, some (n - w.size)⟩)
    else (false, ⟨w.upTo n f.bytes, some 0⟩)

def erase (base size : Nat) (f : Nor) : Bool × Nor := f.write (.erase base size)

def program (base : Nat) (data : List UInt8) (f : Nor) : Bool × Nor := f.write (.program base data)

/-- `count` pages of `page` bytes. -/
def programPages (page : Nat) : Nat → Nat → List UInt8 → Nor → Bool × Nor
  | 0, _, _, f => (true, f)
  | count + 1, base, data, f =>
    match f.program base (data.take page) with
    | (false, f) => (false, f)
    | (true, f) => programPages page count (base + page) (data.drop page) f

variable {f f' : Nor} {w : Write}

/-- How a write ends: done, or with a proper prefix of it and the power gone. -/
def Wrote (w : Write) (f : Nor) (ok : Bool) (f' : Nor) : Prop :=
  (ok = true ∧ f'.bytes = w.upTo w.size f.bytes ∧ (f.power = none → f'.power = none)) ∨
    (ok = false ∧ (∃ k, k < w.size ∧ f'.bytes = w.upTo k f.bytes) ∧ f.power ≠ none)

theorem write_spec (w : Write) (f : Nor) : Wrote w f (f.write w).1 (f.write w).2 := by
  unfold write
  cases hpower : f.power with
  | none => exact .inl ⟨rfl, rfl, fun _ => rfl⟩
  | some n =>
    dsimp only
    split
    · exact .inl ⟨rfl, rfl, fun h => (nomatch hpower.symm.trans h)⟩
    · refine .inr ⟨rfl, ⟨n, by omega, rfl⟩, ?_⟩
      rw [hpower]
      exact nofun

theorem programPages_spec {page count : Nat} (base : Nat) {data : List UInt8} (f : Nor)
    (h : data.length = count * page) :
    Wrote (.program base data) f (f.programPages page count base data).1
      (f.programPages page count base data).2 := by
  induction count generalizing base data f with
  | zero =>
    obtain rfl : data = [] := List.eq_nil_of_length_eq_zero (by omega)
    refine .inl ⟨rfl, funext fun a => ?_, fun h => h⟩
    exact (Write.upTo_outside (by simp only [Write.base, Write.size, List.length_nil]; omega)).symm
  | succ count ih =>
    have hpage : (data.take page).length = page := by
      rw [List.length_take, h, Nat.succ_mul]
      omega
    have hrest : (data.drop page).length = count * page := by
      rw [List.length_drop, h, Nat.succ_mul]
      omega
    have happend : ∀ k bytes, (Write.program (base + page) (data.drop page)).upTo k
        ((Write.program base (data.take page)).upTo page bytes) =
          (Write.program base data).upTo (page + k) bytes := by
      intro k bytes
      have := Write.upTo_append base k (data.take page) (data.drop page) bytes
      rwa [hpage, List.take_append_drop] at this
    have hsize : (Write.program base data).size = page + count * page := by
      simp only [Write.size, h, Nat.succ_mul]
      omega
    unfold programPages
    rcases hwrite : f.program base (data.take page) with ⟨ok, g⟩
    have hfirst := write_spec (.program base (data.take page)) f
    rw [show f.write (.program base (data.take page)) = (ok, g) from hwrite] at hfirst
    rcases hfirst with ⟨hok, hbytes, hpower⟩ | ⟨hok, ⟨k, hk, hbytes⟩, hpower⟩
    · subst hok
      have hbytes : g.bytes = (Write.program base (data.take page)).upTo page f.bytes := by
        simpa only [Write.size, hpage] using hbytes
      rcases ih (base + page) g hrest with ⟨hok', hbytes', hpower'⟩ |
          ⟨hok', ⟨k, hk, hbytes'⟩, hpower'⟩
      · refine .inl ⟨hok', ?_, fun h => hpower' (hpower h)⟩
        rw [hbytes', hbytes, happend, hsize, Write.size, hrest]
      · refine .inr ⟨hok', ⟨page + k, ?_, ?_⟩, fun h => hpower' (hpower h)⟩
        · simp only [Write.size, hrest] at hk
          omega
        · rw [hbytes', hbytes, happend]
    · subst hok
      have hk' : k < page := by simpa only [Write.size, hpage] using hk
      refine .inr ⟨rfl, ⟨k, by omega, ?_⟩, hpower⟩
      rw [hbytes]
      funext a
      simp only [Write.upTo]
      by_cases ha : base ≤ a ∧ a < base + k
      · rw [if_pos ha, if_pos ha, List.getD_eq_getElem?_getD, List.getD_eq_getElem?_getD,
          List.getElem?_take_of_lt (by omega)]
      · rw [if_neg ha, if_neg ha]

/-- Writes one after the other, up to the first that fails. -/
inductive WroteAll : List Write → Nor → Bool → Nor → Prop where
  | done (g : Nor) : WroteAll [] g true g
  | failed {first : Write} {rest : List Write} {g g' : Nor} (h : Wrote first g false g') :
    WroteAll (first :: rest) g false g'
  | step {first : Write} {rest : List Write} {g g' g'' : Nor} {ok : Bool}
    (h : Wrote first g true g') (hrest : WroteAll rest g' ok g'') :
    WroteAll (first :: rest) g ok g''

theorem Wrote.outside {ok : Bool} (h : Wrote w f ok f') {a : Nat}
    (ha : a < w.base ∨ w.base + w.size ≤ a) : f'.bytes a = f.bytes a := by
  rcases h with ⟨-, hbytes, -⟩ | ⟨-, ⟨k, hk, hbytes⟩, -⟩
  · rw [hbytes, Write.upTo_outside ha]
  · rw [hbytes, Write.upTo_outside (by omega)]

theorem Wrote.done (h : Wrote w f true f') : f'.bytes = w.upTo w.size f.bytes := by
  rcases h with ⟨-, hbytes, -⟩ | ⟨hok, -⟩
  · exact hbytes
  · cases hok

theorem Wrote.powered {ok : Bool} (h : Wrote w f ok f') (hpower : f.power = none) :
    ok = true ∧ f'.power = none := by
  rcases h with ⟨hok, -, hkeeps⟩ | ⟨-, -, hlost⟩
  · exact ⟨hok, hkeeps hpower⟩
  · exact absurd hpower hlost

theorem WroteAll.outside {ws : List Write} {ok : Bool} (h : WroteAll ws f ok f') {a : Nat}
    (ha : ∀ w ∈ ws, a < w.base ∨ w.base + w.size ≤ a) : f'.bytes a = f.bytes a := by
  induction h with
  | done => rfl
  | failed h => exact h.outside (ha _ List.mem_cons_self)
  | step h _ ih =>
    rw [ih (List.forall_mem_cons.1 ha).2]
    exact h.outside (ha _ List.mem_cons_self)

theorem WroteAll.powered {ws : List Write} {ok : Bool} (h : WroteAll ws f ok f')
    (hpower : f.power = none) : ok = true ∧ f'.power = none := by
  induction h with
  | done => exact ⟨rfl, hpower⟩
  | failed h => exact h.powered hpower
  | step h _ ih => exact ih (h.powered hpower).2

end Nor

end Lib
