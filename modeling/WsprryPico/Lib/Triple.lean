import Mathlib.Logic.Basic

/-!
# Triples for state computations

`Triple P m Q`: from a state with `P` the computation `m` ends with a result and
a state of `Q`. The rules follow the shape of `do` blocks, and `Keeps I m` is
the triple of an invariant.
-/

namespace Lib

variable {σ α β : Type}

def Triple (P : σ → Prop) (m : StateM σ α) (Q : α → σ → Prop) : Prop :=
  ∀ s, P s → Q (m s).1 (m s).2

def Keeps (I : σ → Prop) (m : StateM σ α) : Prop := Triple I m fun _ => I

namespace Triple

variable {P S : σ → Prop} {m n : StateM σ α} {k : α → StateM σ β} {Q Q' R : α → σ → Prop}
  {Q₂ : β → σ → Prop}

theorem pure {a : α} (h : ∀ s, P s → Q a s) : Triple P (Pure.pure a) Q := h

theorem bind (hm : Triple P m R) (hk : ∀ a, Triple (R a) (k a) Q₂) : Triple P (m >>= k) Q₂ :=
  fun s h => hk (m s).1 (m s).2 (hm s h)

theorem weaken (hm : Triple P m Q) (h : ∀ a s, Q a s → Q' a s) : Triple P m Q' :=
  fun s hs => h _ _ (hm s hs)

theorem strengthen (hm : Triple P m Q) (h : ∀ s, S s → P s) : Triple S m Q :=
  fun s hs => hm s (h s hs)

theorem ite {c : Prop} [Decidable c] (ht : c → Triple P m Q) (hf : ¬ c → Triple P n Q) :
    Triple P (if c then m else n) Q := by
  split
  · exact ht ‹_›
  · exact hf ‹_›

theorem guarded {b : StateM σ Bool} {R : σ → Prop} {k : Bool → StateM σ β}
    (hb : Triple P b fun r s => if r then R s else S s) (ht : Triple R (k true) Q₂)
    (hf : Triple S (k false) Q₂) : Triple P (b >>= k) Q₂ :=
  hb.bind fun
    | true => ht.strengthen fun _ h => by simpa using h
    | false => hf.strengthen fun _ h => by simpa using h

end Triple

namespace Keeps

variable {I : σ → Prop} {m n : StateM σ α} {k : α → StateM σ β}

theorem pure (a : α) : Keeps I (Pure.pure a) := fun _ h => h

theorem bind (hm : Keeps I m) (hk : ∀ a, Keeps I (k a)) : Keeps I (m >>= k) :=
  Triple.bind hm hk

theorem ite {c : Prop} [Decidable c] (ht : c → Keeps I m) (hf : ¬ c → Keeps I n) :
    Keeps I (if c then m else n) := Triple.ite ht hf

theorem guarded {b : StateM σ Bool} {l : Bool → StateM σ β} (hb : Keeps I b)
    (ht : Keeps I (l true)) (hf : Keeps I (l false)) : Keeps I (b >>= l) :=
  hb.bind fun
    | true => ht
    | false => hf

theorem and {J : σ → Prop} (hI : Keeps I m) (hJ : Keeps J m) : Keeps (fun s => I s ∧ J s) m :=
  fun s h => ⟨hI s h.1, hJ s h.2⟩

end Keeps

end Lib
