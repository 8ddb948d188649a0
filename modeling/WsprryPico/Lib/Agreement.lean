import Mathlib.Data.Nat.Bitwise
import Mathlib.Data.List.Basic
import Mathlib.Order.MinMax

/-!
# Agreement of intervals

The sets of a list as bit masks, the common part of intervals, and the first largest of the sets a
search goes through.
-/

namespace Lib

/-! ## Masks -/

variable {α β : Type}

/-- The members of a list whose bits are set in `mask`. -/
def picked (l : List α) (mask : Nat) : List α :=
  (l.zipIdx.filter fun p => mask.testBit p.2).map (·.1)

theorem picked_sublist (l : List α) (mask : Nat) : (picked l mask).Sublist l := by
  have h := (List.filter_sublist (p := fun p : α × Nat => mask.testBit p.2) (l := l.zipIdx)).map
    (·.1)
  rwa [List.zipIdx_map_fst] at h

theorem picked_eq_filter {l : List α} {p : α → Bool} {mask : Nat}
    (h : ∀ x ∈ l.zipIdx, mask.testBit x.2 = p x.1) : picked l mask = l.filter p := by
  unfold picked
  rw [List.filter_congr h]
  conv_rhs => rw [← List.zipIdx_map_fst 0 l, List.filter_map]
  rfl

theorem exists_mask (l : List α) (p : α → Bool) :
    ∃ mask, mask < 2 ^ l.length ∧ picked l mask = l.filter p := by
  refine ⟨Nat.ofBits fun k : Fin l.length => p l[k], Nat.ofBits_lt_two_pow _, ?_⟩
  refine picked_eq_filter fun x hx => ?_
  obtain ⟨hlt, hget⟩ := List.mem_zipIdx' hx
  rw [Nat.testBit_ofBits_lt _ _ hlt, hget]
  rfl

/-! ## Common points -/

section Meet

variable [LinearOrder β]

/-- The common part of two intervals; all when there is none yet. -/
def meetStep (common : Option (β × β)) (interval : β × β) : Option (β × β) :=
  match common with
  | none => some interval
  | some (low, high) => some (max low interval.1, min high interval.2)

/-- `x` lies in the common part. -/
def InCommon (common : Option (β × β)) (x : β) : Prop :=
  ∀ part, common = some part → part.1 ≤ x ∧ x ≤ part.2

theorem inCommon_meetStep (common : Option (β × β)) (interval : β × β) (x : β) :
    InCommon (meetStep common interval) x ↔
      InCommon common x ∧ interval.1 ≤ x ∧ x ≤ interval.2 := by
  rcases common with - | ⟨low, high⟩
  · simp [InCommon, meetStep]
  · simp only [InCommon, meetStep, Option.some.injEq, forall_eq', max_le_iff, le_min_iff]
    tauto

theorem inCommon_foldl (intervals : List (β × β)) (common : Option (β × β)) (x : β) :
    InCommon (intervals.foldl meetStep common) x ↔
      InCommon common x ∧ ∀ i ∈ intervals, i.1 ≤ x ∧ x ≤ i.2 := by
  induction intervals generalizing common with
  | nil => simp
  | cons i intervals ih =>
    rw [List.foldl_cons, ih, inCommon_meetStep, List.forall_mem_cons, and_assoc]

theorem foldl_meetStep_some {intervals : List (β × β)} (hne : intervals ≠ []) :
    ∃ part, intervals.foldl meetStep none = some part := by
  obtain ⟨i, rest, rfl⟩ := List.exists_cons_of_ne_nil hne
  have hsome : ∀ (l : List (β × β)) (c : β × β), ∃ part, l.foldl meetStep (some c) = some part := by
    intro l
    induction l with
    | nil => exact fun c => ⟨c, rfl⟩
    | cons j l ih => exact fun c => ih _
  exact hsome rest i

/-- Intervals have a common point when the largest low end is at most the least high end. -/
theorem common_point_iff {intervals : List (β × β)} (hne : intervals ≠ []) :
    (∃ x, ∀ i ∈ intervals, i.1 ≤ x ∧ x ≤ i.2) ↔
      ∀ part, intervals.foldl meetStep none = some part → part.1 ≤ part.2 := by
  have hnone : ∀ x, InCommon (none : Option (β × β)) x := fun x part h => by cases h
  have hpoint : ∀ x, (∀ i ∈ intervals, i.1 ≤ x ∧ x ≤ i.2) ↔
      InCommon (intervals.foldl meetStep none) x := by
    intro x
    rw [inCommon_foldl]
    exact ⟨fun h => ⟨hnone x, h⟩, fun h => h.2⟩
  simp only [hpoint]
  obtain ⟨part, hpart⟩ := foldl_meetStep_some hne
  rw [hpart]
  simp only [InCommon, Option.some.injEq, forall_eq']
  exact ⟨fun ⟨x, hx⟩ => hx.1.trans hx.2, fun h => ⟨part.1, le_refl _, h⟩⟩

end Meet

/-! ## The first largest -/

section Largest

variable {ok : α → Prop} [DecidablePred ok] {set : α → List β}

/-- The step of a search for the first largest set. -/
def largerStep (ok : α → Prop) [DecidablePred ok] (set : α → List β) (best : List β) (x : α) :
    List β :=
  if ok x ∧ best.length < (set x).length then set x else best

theorem length_le_foldl (l : List α) (best : List β) :
    best.length ≤ (l.foldl (largerStep ok set) best).length := by
  induction l generalizing best with
  | nil => exact le_refl _
  | cons x l ih =>
    refine le_trans ?_ (ih _)
    unfold largerStep
    split_ifs with h
    · exact h.2.le
    · exact le_refl _

/-- No set of the search is larger than the one it ends with. -/
theorem foldl_largest {l : List α} {best : List β} {x : α} (hx : x ∈ l) (hok : ok x) :
    (set x).length ≤ (l.foldl (largerStep ok set) best).length := by
  induction l generalizing best with
  | nil => cases hx
  | cons y l ih =>
    rw [List.foldl_cons]
    rcases List.mem_cons.mp hx with rfl | hx
    · refine le_trans ?_ (length_le_foldl l _)
      unfold largerStep
      split_ifs with h
      · exact le_refl _
      · exact not_lt.mp fun hlt => h ⟨hok, hlt⟩
    · exact ih hx

theorem foldl_mem (l : List α) (best : List β) :
    l.foldl (largerStep ok set) best = best ∨
      ∃ x ∈ l, ok x ∧ l.foldl (largerStep ok set) best = set x := by
  induction l generalizing best with
  | nil => exact .inl rfl
  | cons y l ih =>
    rw [List.foldl_cons]
    obtain h | ⟨x, hx, hok, h⟩ := ih (largerStep ok set best y)
    · rw [h]
      unfold largerStep
      split_ifs with hy
      · exact .inr ⟨y, by simp, hy.1, rfl⟩
      · exact .inl rfl
    · exact .inr ⟨x, by simp [hx], hok, h⟩

end Largest

end Lib
