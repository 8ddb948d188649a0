import Mathlib.Data.List.Basic

/-!
# Incremental scanners

A scanner works through the input it holds, round by round, until it has to wait
for more or stops for good. A `Local` scanner decides a round without regard to
the input still to come, and its events do not depend on how the input is cut
(`feed_append`).
-/

namespace Lib

variable {σ α ε : Type}

/-- What a round comes to: a wait for more input, a round that used some of it, or the end. -/
inductive Round (σ α ε : Type) where
  | wait (s : σ) (held : List α)
  | next (s : σ) (rest : List α) (events : List ε)
  | halt (events : List ε)

/-- The round with more input behind it. -/
def Round.extend (ys : List α) : Round σ α ε → Round σ α ε
  | .wait s held => .wait s (held ++ ys)
  | .next s rest events => .next s (rest ++ ys) events
  | .halt events => .halt events

structure Scanner (σ α ε : Type) where
  round : σ → List α → Round σ α ε
  shrinks : ∀ {s xs s' rest events}, round s xs = .next s' rest events → rest.length < xs.length

namespace Scanner

variable (sc : Scanner σ α ε)

/-- The rounds on the input `xs`, until a wait or the end, which leaves no state. -/
def run (s : σ) (xs : List α) : Option (σ × List α) × List ε :=
  match h : sc.round s xs with
  | .wait s' held => (some (s', held), [])
  | .next s' rest events =>
    have := sc.shrinks h
    ((run s' rest).1, events ++ (run s' rest).2)
  | .halt events => (none, events)
termination_by xs.length

def feed : Option (σ × List α) → List α → Option (σ × List α) × List ε
  | none, _ => (none, [])
  | some (s, held), xs => sc.run s (held ++ xs)

/-- No round depends on the input still to come. -/
structure Local : Prop where
  wait : ∀ {s xs s' held}, sc.round s xs = .wait s' held →
    ∀ ys, sc.round s (xs ++ ys) = sc.round s' (held ++ ys)
  decided : ∀ {s xs}, (∀ s' held, sc.round s xs ≠ .wait s' held) →
    ∀ ys, sc.round s (xs ++ ys) = (sc.round s xs).extend ys

variable {sc} {s s' : σ} {xs held rest : List α} {events : List ε}

theorem run_wait (h : sc.round s xs = .wait s' held) : sc.run s xs = (some (s', held), []) := by
  rw [run]
  split <;> simp_all

theorem run_next (h : sc.round s xs = .next s' rest events) :
    sc.run s xs = ((sc.run s' rest).1, events ++ (sc.run s' rest).2) := by
  rw [run]
  split <;> simp_all

theorem run_halt (h : sc.round s xs = .halt events) : sc.run s xs = (none, events) := by
  rw [run]
  split <;> simp_all

theorem Local.next (h : sc.Local) (hround : sc.round s xs = .next s' rest events) (ys : List α) :
    sc.round s (xs ++ ys) = .next s' (rest ++ ys) events := by
  rw [h.decided (by simp [hround]), hround]
  rfl

theorem Local.halt (h : sc.Local) (hround : sc.round s xs = .halt events) (ys : List α) :
    sc.round s (xs ++ ys) = .halt events := by
  rw [h.decided (by simp [hround]), hround]
  rfl

theorem run_congr {xs' : List α} (h : sc.round s xs = sc.round s' xs') :
    sc.run s xs = sc.run s' xs' := by
  cases hround : sc.round s' xs' with
  | wait => rw [run_wait (h.trans hround), run_wait hround]
  | next => rw [run_next (h.trans hround), run_next hround]
  | halt => rw [run_halt (h.trans hround), run_halt hround]

variable (sc) in
theorem run_induct {P : σ → List α → Prop}
    (hwait : ∀ s xs s' held, sc.round s xs = .wait s' held → P s xs)
    (hnext : ∀ s xs s' rest events, sc.round s xs = .next s' rest events → P s' rest → P s xs)
    (hhalt : ∀ s xs events, sc.round s xs = .halt events → P s xs) (s : σ) (xs : List α) :
    P s xs := by
  induction hlength : xs.length using Nat.strongRecOn generalizing s xs with
  | ind n ih =>
    cases hround : sc.round s xs with
    | wait s' held => exact hwait _ _ _ _ hround
    | next s' rest events =>
      have hshrinks := sc.shrinks hround
      exact hnext _ _ _ _ _ hround (ih rest.length (by omega) s' rest rfl)
    | halt events => exact hhalt _ _ _ hround

/-! ## Cutting the input -/

theorem run_append (h : sc.Local) (s : σ) (xs ys : List α) :
    sc.run s (xs ++ ys) =
      ((sc.feed (sc.run s xs).1 ys).1, (sc.run s xs).2 ++ (sc.feed (sc.run s xs).1 ys).2) := by
  refine run_induct sc (P := fun s xs => sc.run s (xs ++ ys) =
    ((sc.feed (sc.run s xs).1 ys).1, (sc.run s xs).2 ++ (sc.feed (sc.run s xs).1 ys).2)) ?_ ?_ ?_ s xs
  · intro s xs s' held hround
    rw [run_wait hround, run_congr (h.wait hround ys)]
    rfl
  · intro s xs s' rest events hround ih
    rw [run_next hround, run_next (h.next hround ys), ih]
    simp only [List.append_assoc]
  · intro s xs events hround
    rw [run_halt hround, run_halt (h.halt hround ys)]
    simp [feed]

theorem feed_append (h : sc.Local) (st : Option (σ × List α)) (xs ys : List α) :
    sc.feed st (xs ++ ys) =
      ((sc.feed (sc.feed st xs).1 ys).1, (sc.feed st xs).2 ++ (sc.feed (sc.feed st xs).1 ys).2) := by
  cases st with
  | none => rfl
  | some st =>
    simp only [feed]
    rw [← List.append_assoc, run_append h]
    rfl

/-- The scanner has done with what it holds. -/
def Settled (sc : Scanner σ α ε) : Option (σ × List α) → Prop
  | none => True
  | some (s, held) => sc.round s held = .wait s held

theorem Settled.feed_nil {st : Option (σ × List α)} (h : sc.Settled st) :
    sc.feed st [] = (st, []) := by
  cases st with
  | none => rfl
  | some st =>
    rw [feed, List.append_nil]
    exact run_wait h

theorem settled_run (h : sc.Local) (s : σ) (xs : List α) : sc.Settled (sc.run s xs).1 := by
  refine run_induct sc (P := fun s xs => sc.Settled (sc.run s xs).1) ?_ ?_ ?_ s xs
  · intro s xs s' held hround
    rw [run_wait hround]
    show sc.round s' held = .wait s' held
    rw [← List.append_nil held, ← h.wait hround, List.append_nil, hround, List.append_nil]
  · intro s xs s' rest events hround ih
    rwa [run_next hround]
  · intro s xs events hround
    rw [run_halt hround]
    trivial

theorem settled_feed (h : sc.Local) (st : Option (σ × List α)) (xs : List α) :
    sc.Settled (sc.feed st xs).1 := by
  cases st with
  | none => trivial
  | some st => exact settled_run h st.1 (st.2 ++ xs)

end Scanner

end Lib
