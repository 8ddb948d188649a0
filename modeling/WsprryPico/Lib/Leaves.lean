import Mathlib.Logic.Function.Basic

/-!
# What a computation leaves alone

`Leaves f m`: whatever state the computation `m` starts from, it ends with the
same value of `f`. The rules follow the shape of `do` blocks; `f` is usually a
tuple of the fields a group of functions must not touch.
-/

namespace Lib

variable {σ α β γ : Type}

def Leaves (f : σ → γ) (m : StateM σ α) : Prop := ∀ s, f (m s).2 = f s

namespace Leaves

variable {f : σ → γ} {m n : StateM σ α} {k : α → StateM σ β}

theorem pure (a : α) : Leaves f (Pure.pure a) := fun _ => rfl

theorem bind (hm : Leaves f m) (hk : ∀ a, Leaves f (k a)) : Leaves f (m >>= k) :=
  fun s => (hk (m s).1 (m s).2).trans (hm s)

theorem ite {c : Prop} [Decidable c] (hm : Leaves f m) (hn : Leaves f n) :
    Leaves f (if c then m else n) := by
  split
  · exact hm
  · exact hn

theorem branch {b : StateM σ Bool} {k : Bool → StateM σ β} (hb : Leaves f b)
    (ht : Leaves f (k true)) (hf : Leaves f (k false)) : Leaves f (b >>= k) :=
  hb.bind fun
    | true => ht
    | false => hf

end Leaves

end Lib
