import Mathlib.Data.List.Nodup
import Mathlib.Data.List.Perm.Basic

/-!
# Lists with keys

Two lists kept in lockstep have the same sequence of keys. Each lemma says what
an operation does to the keys: moving an element to the front, dropping the
last one with its namesakes, filtering one list by the keys that stay in the
other.
-/

namespace Lib

variable {α β κ : Type}

/-- `std::rotate(begin, found, found + 1)` for the first element `p` accepts. -/
def moveToFront (p : α → Bool) (l : List α) : List α :=
  match l.find? p with
  | some a => a :: l.eraseP p
  | none => l

theorem moveToFront_perm (p : α → Bool) (l : List α) : (moveToFront p l).Perm l := by
  unfold moveToFront
  split
  · rename_i a h
    induction l with
    | nil => simp at h
    | cons b l ih =>
      rw [List.find?_cons] at h
      split at h
      · rename_i hb
        rw [List.eraseP_cons_of_pos hb, Option.some.inj h]
      · rename_i hb
        rw [List.eraseP_cons_of_neg (by simp [hb])]
        exact (List.Perm.swap b a _).trans ((ih h).cons b)
  · exact .refl l

theorem map_moveToFront [BEq κ] (f : α → κ) (k : κ) (l : List α) :
    (moveToFront (fun a => f a == k) l).map f = moveToFront (· == k) (l.map f) := by
  unfold moveToFront
  rw [List.find?_map, List.eraseP_map]
  show _ = match (l.find? (fun a => f a == k)).map f with
    | some a => _
    | none => _
  cases l.find? (fun a => f a == k) <;> rfl

variable [DecidableEq κ] {f : α → κ} {g : β → κ} {l : List α} {m : List β}

/-- Dropping the last element of one list and its key's elements of the other. -/
theorem lockstep_dropLast (h : l.map f = m.map g) (hn : (l.map f).Nodup) {a : α}
    (ha : l.getLast? = some a) :
    m.filter (fun b => g b != f a) = m.dropLast := by
  obtain ⟨l', rfl⟩ := List.getLast?_eq_some_iff.1 ha
  rw [List.map_append, List.map_singleton] at h hn
  obtain ⟨m', b, rfl, hm', hb⟩ : ∃ m' b, m = m' ++ [b] ∧ m'.map g = l'.map f ∧ g b = f a := by
    obtain ⟨m', m'', rfl, hm', hm''⟩ := List.append_eq_map_iff.1 h
    obtain ⟨b, rfl, hb⟩ := List.map_eq_singleton_iff.1 hm''
    exact ⟨m', b, rfl, hm', hb⟩
  rw [List.filter_append, List.dropLast_concat]
  have hlast : [b].filter (fun b => g b != f a) = [] := by simp [hb]
  rw [hlast, List.append_nil, List.filter_eq_self]
  intro b' hb'
  have hmem : g b' ∈ l'.map f := hm' ▸ List.mem_map_of_mem hb'
  have hne : g b' ≠ f a := fun he =>
    (List.nodup_append.1 hn).2.2 _ hmem _ (List.mem_singleton_self _) he
  simpa using hne

/-- Filtering one list, and the other by the keys that stayed. -/
theorem lockstep_filter (p : α → Bool) (h : l.map f = m.map g) (hn : (l.map f).Nodup) :
    (m.filter fun b => (l.filter p).any fun a => f a == g b).map g = (l.filter p).map f := by
  let q : κ → Bool := fun k => (l.filter p).any fun a => f a == k
  have hq : ∀ a ∈ l, q (f a) = p a := by
    intro a ha
    have hinj := List.inj_on_of_nodup_map hn
    rw [Bool.eq_iff_iff]
    simp only [q, List.any_eq_true, List.mem_filter, beq_iff_eq]
    constructor
    · rintro ⟨a', ⟨ha', hp⟩, he⟩
      rwa [← hinj ha' ha he]
    · exact fun hp => ⟨a, ⟨ha, hp⟩, rfl⟩
  calc (m.filter fun b => q (g b)).map g
      = (m.map g).filter q := (List.filter_map (f := g) (p := q)).symm
    _ = (l.map f).filter q := by rw [h]
    _ = (l.filter fun a => q (f a)).map f := List.filter_map
    _ = (l.filter p).map f := by rw [List.filter_congr hq]

end Lib
