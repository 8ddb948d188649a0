import Mathlib.Data.List.Basic

/-!
# Slices of a document

`slice document offset count` is what a bounded copy from a place of the document gives.
A server that hands out a slice at each place it is asked for lets a reader, who takes as
much of a view as it likes and asks again as often as it likes, put the document together.
-/

namespace Lib

variable {α σ ι : Type} {a b d : List α} {o n : Nat}

def slice (document : List α) (offset count : Nat) : List α := (document.drop offset).take count

theorem slice_length : (slice d o n).length = min n (d.length - o) := by
  simp [slice]

theorem slice_zero : slice d 0 n = d.take n := by
  simp [slice]

theorem slice_none : slice d o 0 = [] := by
  simp [slice]

theorem slice_beyond (h : d.length ≤ o) : slice d o n = [] := by
  unfold slice
  rw [List.drop_of_length_le h, List.take_nil]

theorem slice_drop (start : Nat) : slice (d.drop start) o n = slice d (o + start) n := by
  unfold slice
  rw [List.drop_drop, Nat.add_comm]

theorem slice_append : slice (a ++ b) o n =
    slice a o n ++ slice b (o - a.length) (n - (slice a o n).length) := by
  rw [slice_length]
  unfold slice
  rw [List.drop_append, List.take_append, List.length_drop]
  congr 2
  omega

theorem slice_left (h : o + n ≤ a.length) : slice (a ++ b) o n = slice a o n := by
  have hfull : n - (slice a o n).length = 0 := by
    rw [slice_length]
    omega
  rw [slice_append, hfull, slice_none, List.append_nil]

theorem slice_right (h : a.length ≤ o) : slice (a ++ b) o n = slice b (o - a.length) n := by
  rw [slice_append, slice_beyond h]
  simp

theorem slice_full (h : (slice a o n).length = n) : slice (a ++ b) o n = slice a o n := by
  rw [slice_append, h, Nat.sub_self, slice_none, List.append_nil]

theorem take_slice (position count : Nat) :
    d.take position ++ slice d position count = d.take (position + count) := by
  rw [slice, List.take_add]

theorem slice_take (count : Nat) : (slice d o n).take count = slice d o (min count n) := by
  rw [slice, List.take_take, slice]

theorem drop_slice (count : Nat) : (slice d o n).drop count = slice d (o + count) (n - count) := by
  rw [slice, slice, List.drop_take, List.drop_drop]

/-! ## Readers -/

/-- What a reader does: asks at any place, takes some of what it gets at its own place, or
something else happens to the server. -/
inductive Read (ι : Type) where
  | retry (offset : Nat)
  | advance (count : Nat)
  | act (i : ι)

structure Reading (σ α : Type) where
  server : σ
  position : Nat := 0
  received : List α := []

variable {serve : σ → Nat → List α × σ} {act : ι → σ → σ} {P : σ → Prop} {document : List α}

def Reading.step (serve : σ → Nat → List α × σ) (act : ι → σ → σ) (r : Reading σ α) :
    Read ι → Reading σ α
  | .retry offset => { r with server := (serve r.server offset).2 }
  | .advance count =>
    let answer := serve r.server r.position
    let taken := answer.1.take count
    { server := answer.2, position := r.position + taken.length, received := r.received ++ taken }
  | .act i => { r with server := act i r.server }

/-- Each answer of the server, in any state that `P` admits, is a slice at the place asked. -/
structure Serves (serve : σ → Nat → List α × σ) (act : ι → σ → σ) (P : σ → Prop)
    (document : List α) : Prop where
  view : ∀ s, P s → ∀ offset, ∃ count, (serve s offset).1 = slice document offset count
  served : ∀ s, P s → ∀ offset, P (serve s offset).2
  acted : ∀ s, P s → ∀ i, P (act i s)

/-- What a reader has is the document up to its place. -/
structure Reading.Keeps (P : σ → Prop) (document : List α) (r : Reading σ α) : Prop where
  server : P r.server
  bound : r.position ≤ document.length
  received : r.received = document.take r.position

theorem Serves.step (h : Serves serve act P document) {r : Reading σ α}
    (hr : r.Keeps P document) (read : Read ι) : (r.step serve act read).Keeps P document := by
  cases read with
  | retry offset => exact ⟨h.served _ hr.server offset, hr.bound, hr.received⟩
  | act i => exact ⟨h.acted _ hr.server i, hr.bound, hr.received⟩
  | advance count =>
    obtain ⟨size, hview⟩ := h.view _ hr.server r.position
    have htaken : (serve r.server r.position).1.take count =
        slice document r.position (min count size) := by rw [hview, slice_take]
    have hlength := congrArg List.length htaken
    rw [slice_length] at hlength
    have hbound := hr.bound
    refine ⟨h.served _ hr.server r.position, ?_, ?_⟩
    · dsimp only [Reading.step]
      omega
    · dsimp only [Reading.step]
      rw [hr.received, htaken, take_slice, slice_length, List.take_eq_take_iff]
      omega

theorem Serves.run (h : Serves serve act P document) {r : Reading σ α}
    (hr : r.Keeps P document) (reads : List (Read ι)) :
    (reads.foldl (Reading.step serve act) r).Keeps P document := by
  induction reads generalizing r with
  | nil => exact hr
  | cons read reads ih => exact ih (h.step hr read)

end Lib
