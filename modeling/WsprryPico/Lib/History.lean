/-!
# Histories

A history lists what happened, the first event first. `Each P l`: every event of `l`
stands in the relation `P` to the events before it.
-/

namespace Lib

variable {α : Type} {P Q : List α → α → Prop} {l : List α} {x : α}

def Each (P : List α → α → Prop) (l : List α) : Prop :=
  ∀ before x after, l = before ++ x :: after → P before x

namespace Each

theorem nil : Each P [] := by
  intro before x after h
  exact absurd h (by simp)

theorem snoc (h : Each P l) (hx : P l x) : Each P (l ++ [x]) := by
  intro before y after heq
  rcases List.eq_nil_or_concat after with rfl | ⟨init, last, rfl⟩
  · obtain ⟨rfl, hy⟩ := List.append_inj' heq rfl
    obtain rfl := List.singleton_inj.mp hy
    exact hx
  · rw [List.concat_eq_append, ← List.cons_append, ← List.append_assoc] at heq
    obtain ⟨hl, -⟩ := List.append_inj' heq rfl
    exact h before y init hl

theorem of_append {after : List α} (h : Each P (l ++ after)) : Each P l := by
  intro before x rest heq
  exact h before x (rest ++ after) (by rw [heq, List.append_assoc, List.cons_append])

theorem init (h : Each P (l ++ [x])) : Each P l := h.of_append

theorem last (h : Each P (l ++ [x])) : P l x := h l x [] rfl

theorem of_forall {p : α → Prop} (h : ∀ y ∈ l, p y) :
    Each (fun before _ => ∀ y ∈ before, p y) l := by
  intro before x after heq y hy
  exact h y (by rw [heq]; exact List.mem_append_left _ hy)

end Each

/-- The events of a list stand in the relation, one after the other, behind a history. -/
def Extends (P : List α → α → Prop) : List α → List α → Prop
  | _, [] => True
  | l, x :: xs => P l x ∧ Extends P (l ++ [x]) xs

theorem Each.append (h : Each P l) {xs : List α} (hxs : Extends P l xs) : Each P (l ++ xs) := by
  induction xs generalizing l with
  | nil => simpa using h
  | cons x xs ih =>
    have hnext := ih (h.snoc hxs.1) hxs.2
    rwa [List.append_assoc, List.singleton_append] at hnext

/-! ## The last of a kind -/

/-- `x` stands in the history with `after` behind it, and no event there ends it. -/
def Since (ends : α → Prop) (x : α) (after l : List α) : Prop :=
  ∃ before, l = before ++ x :: after ∧ ∀ y ∈ after, ¬ ends y

namespace Since

variable {ends : α → Prop} {after : List α} {y : α}

theorem here : Since ends x [] (l ++ [x]) := ⟨l, rfl, by simp⟩

theorem snoc (h : Since ends x after l) (hy : ¬ ends y) :
    Since ends x (after ++ [y]) (l ++ [y]) := by
  obtain ⟨before, rfl, hafter⟩ := h
  refine ⟨before, by simp, ?_⟩
  intro z hz
  rcases List.mem_append.mp hz with hz | hz
  · exact hafter z hz
  · rwa [List.mem_singleton.mp hz]

end Since

/-! ## What stands open -/

def Standing (opens closes : α → Prop) (l : List α) : Prop :=
  ∃ x after, opens x ∧ Since closes x after l

variable {opens closes : α → Prop}

theorem not_standing_nil : ¬ Standing opens closes [] := by
  rintro ⟨x, after, -, before, h, -⟩
  exact absurd h (by simp)

theorem standing_snoc :
    Standing opens closes (l ++ [x]) ↔ opens x ∨ ¬ closes x ∧ Standing opens closes l := by
  constructor
  · rintro ⟨y, after, hy, before, heq, hafter⟩
    rcases List.eq_nil_or_concat after with rfl | ⟨init, last, rfl⟩
    · obtain ⟨-, hx⟩ := List.append_inj' heq rfl
      obtain rfl := List.singleton_inj.mp hx
      exact .inl hy
    · rw [List.concat_eq_append, ← List.cons_append, ← List.append_assoc] at heq
      obtain ⟨hl, hx⟩ := List.append_inj' heq rfl
      obtain rfl := List.singleton_inj.mp hx
      exact .inr ⟨hafter x (by simp), y, init, hy, before, hl, fun z hz => hafter z (by simp [hz])⟩
  · rintro (hx | ⟨hx, y, after, hy, hsince⟩)
    · exact ⟨x, [], hx, .here⟩
    · exact ⟨y, after ++ [x], hy, hsince.snoc hx⟩

/-- An opening finds nothing open, and a closing finds an opening to close. -/
def Alternates (opens closes : α → Prop) : List α → Prop :=
  Each fun before x => (opens x → ¬ Standing opens closes before) ∧
    (closes x → Standing opens closes before)

end Lib
