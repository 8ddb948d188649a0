import WsprryPico.Lib.Nor

/-!
# NOR flash with writes that fail

A write is done, or it is reported as failed and leaves any bytes where it writes. A run
whose writes are all done is a run on flash that keeps its power.
-/

namespace Lib

structure FaultyNor where
  bytes : Nat → UInt8
  /-- For each write to come: none if it is done, what it leaves if it fails. -/
  faults : List (Option (Nat → UInt8)) := []

namespace FaultyNor

open Nor

/-- What a write that fails leaves. -/
def torn (w : Write) (left bytes : Nat → UInt8) : Nat → UInt8 := fun a =>
  if w.base ≤ a ∧ a < w.base + w.size then left a else bytes a

def write (w : Write) (f : FaultyNor) : Bool × FaultyNor :=
  match f.faults with
  | [] => (true, ⟨w.upTo w.size f.bytes, []⟩)
  | none :: rest => (true, ⟨w.upTo w.size f.bytes, rest⟩)
  | some left :: rest => (false, ⟨torn w left f.bytes, rest⟩)

def erase (base size : Nat) (f : FaultyNor) : Bool × FaultyNor := f.write (.erase base size)

def program (base : Nat) (data : List UInt8) (f : FaultyNor) : Bool × FaultyNor :=
  f.write (.program base data)

/-- `count` pages of `page` bytes. -/
def programPages (page : Nat) : Nat → Nat → List UInt8 → FaultyNor → Bool × FaultyNor
  | 0, _, _, f => (true, f)
  | count + 1, base, data, f =>
    match f.program base (data.take page) with
    | (false, f) => (false, f)
    | (true, f) => programPages page count (base + page) (data.drop page) f

/-- The same bytes on flash that keeps its power. -/
def powered (f : FaultyNor) : Nor := { bytes := f.bytes }

variable {f f' : FaultyNor}

theorem write_done {w : Write} (h : f.write w = (true, f')) : f.powered.write w = (true, f'.powered) := by
  unfold write at h
  split at h
  · obtain ⟨-, rfl⟩ := h
    rfl
  · obtain ⟨-, rfl⟩ := h
    rfl
  · cases h

/-- Without faults every write is done. -/
theorem write_smooth (h : f.faults = []) (w : Write) :
    ∃ f', f.write w = (true, f') ∧ f'.faults = [] := by
  unfold write
  rw [h]
  exact ⟨_, rfl, rfl⟩

theorem programPages_smooth (h : f.faults = []) (page count base : Nat) (data : List UInt8) :
    ∃ f', f.programPages page count base data = (true, f') ∧ f'.faults = [] := by
  induction count generalizing base data f with
  | zero => exact ⟨f, rfl, h⟩
  | succ count ih =>
    obtain ⟨f₁, hpage, hfaults⟩ := write_smooth h (.program base (data.take page))
    unfold programPages program
    rw [hpage]
    exact ih hfaults _ _

theorem programPages_done {page count base : Nat} {data : List UInt8}
    (h : f.programPages page count base data = (true, f')) :
    f.powered.programPages page count base data = (true, f'.powered) := by
  induction count generalizing base data f with
  | zero =>
    obtain ⟨-, rfl⟩ := h
    rfl
  | succ count ih =>
    unfold programPages at h
    rcases hpage : f.program base (data.take page) with ⟨_ | _, f₁⟩
    · rw [hpage] at h
      cases h
    · rw [hpage] at h
      unfold Nor.programPages
      rw [Nor.program, write_done hpage]
      exact ih h

end FaultyNor

end Lib
