import Mathlib.Algebra.Group.Nat.Defs
import WsprryPico.Lib.Nor

/-!
# Bytes of a flash record

`put`, `get`, `crc32` and `erased`, which `standalone/storage.cpp`,
`provisioning/storage.cpp` and `provisioning/access.cpp` each define alike.
-/

namespace WsprryPico.Standalone

/-- `count` bytes of a number, the least significant first. -/
def put : Nat → Nat → List UInt8
  | 0, _ => []
  | count + 1, value => UInt8.ofNat value :: put count (value / 256)

def get : List UInt8 → Nat
  | [] => 0
  | byte :: rest => byte.toNat + 256 * get rest

@[simp] theorem length_put (count value : Nat) : (put count value).length = count := by
  induction count generalizing value with
  | zero => rfl
  | succ count ih => simp [put, ih]

theorem get_put {count value : Nat} (h : value < 256 ^ count) : get (put count value) = value := by
  induction count generalizing value with
  | zero =>
    have : value = 0 := by simpa using h
    exact this.symm
  | succ count ih =>
    have hrest : value / 256 < 256 ^ count := by
      rw [Nat.div_lt_iff_lt_mul (by omega), ← Nat.pow_succ]
      exact h
    rw [put, get, ih hrest, UInt8.toNat_ofNat']
    exact Nat.mod_add_div value 256

theorem get_lt (bytes : List UInt8) : get bytes < 256 ^ bytes.length := by
  induction bytes with
  | nil => decide
  | cons byte rest ih =>
    have := byte.toNat_lt
    simp only [get, List.length_cons, Nat.pow_succ]
    omega

theorem get_injective {xs ys : List UInt8} (hlength : xs.length = ys.length) (h : get xs = get ys) :
    xs = ys := by
  induction xs generalizing ys with
  | nil => exact (List.eq_nil_of_length_eq_zero hlength.symm).symm
  | cons x xs ih =>
    match ys, hlength with
    | y :: ys, hlength =>
      have hx := x.toNat_lt
      have hy := y.toNat_lt
      simp only [get] at h
      have hbyte : x = y := UInt8.toNat_inj.mp (by omega)
      rw [hbyte, ih (Nat.succ.inj hlength) (by omega)]

def crcBit (crc : UInt32) : UInt32 :=
  (crc >>> 1) ^^^ (if crc &&& 1 = 1 then 0xedb88320 else 0)

def crcByte (crc : UInt32) (byte : UInt8) : UInt32 :=
  (List.range 8).foldl (fun crc _ => crcBit crc) (crc ^^^ byte.toUInt32)

def crc32 (bytes : List UInt8) : Nat := (~~~bytes.foldl crcByte 0xffffffff).toNat

theorem crc32_lt (bytes : List UInt8) : crc32 bytes < 256 ^ 4 := UInt32.toNat_lt _

def erased (bytes : List UInt8) : Bool := bytes.all (· = 255)

theorem erased_iff {bytes : List UInt8} :
    erased bytes = true ↔ ∀ i, i < bytes.length → bytes[i]? = some 255 := by
  unfold erased
  rw [List.all_eq_true]
  constructor
  · intro h i hi
    rw [List.getElem?_eq_getElem hi]
    exact congrArg some (of_decide_eq_true (h _ (List.getElem_mem hi)))
  · intro h byte hbyte
    obtain ⟨i, hi, rfl⟩ := List.mem_iff_getElem.mp hbyte
    have := h i hi
    rw [List.getElem?_eq_getElem hi] at this
    exact decide_eq_true (Option.some.inj this)

theorem erased_slice {bytes : Nat → UInt8} {base size : Nat} :
    erased (Lib.Nor.slice bytes base size) = true ↔ ∀ i, i < size → bytes (base + i) = 255 := by
  rw [erased_iff, Lib.Nor.length_slice]
  refine forall₂_congr fun i hi => ?_
  rw [Lib.Nor.getElem?_slice hi, Option.some_inj]

/-- `count` bytes from `offset` on. -/
def subspan (offset count : Nat) (bytes : List UInt8) : List UInt8 := (bytes.drop offset).take count

def byteAt (offset : Nat) (bytes : List UInt8) : UInt8 := bytes.getD offset 0

section Fields

variable {xs ys : List UInt8} {offset count : Nat}

theorem subspan_skip (h : xs.length ≤ offset) :
    subspan offset count (xs ++ ys) = subspan (offset - xs.length) count ys := by
  unfold subspan
  rw [List.drop_append, List.drop_eq_nil_of_le h, List.nil_append]

@[simp] theorem subspan_cons (x : UInt8) :
    subspan (offset + 1) count (x :: xs) = subspan offset count xs := rfl

theorem subspan_here (h : xs.length = count) : subspan 0 count (xs ++ ys) = xs := by
  unfold subspan
  rw [List.drop_zero, List.take_left' h]

theorem subspan_all (h : xs.length = count) : subspan 0 count xs = xs := by
  have hhere : subspan 0 count (xs ++ []) = xs := subspan_here h
  rwa [List.append_nil] at hhere

theorem byteAt_skip (h : xs.length ≤ offset) :
    byteAt offset (xs ++ ys) = byteAt (offset - xs.length) ys := by
  unfold byteAt
  rw [List.getD_eq_getElem?_getD, List.getElem?_append_right h, List.getD_eq_getElem?_getD]

@[simp] theorem byteAt_cons (x : UInt8) : byteAt (offset + 1) (x :: xs) = byteAt offset xs := rfl

@[simp] theorem byteAt_zero (x : UInt8) : byteAt 0 (x :: xs) = x := rfl

end Fields

end WsprryPico.Standalone
