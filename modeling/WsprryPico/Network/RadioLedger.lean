import WsprryPico.Network.RadioExchange
import WsprryPico.Lib.History

/-!
# The ledger of the radio sessions

What the radio API may do, as a ledger that each event of a history changes: the life of the
session at each place, from its start to its close. The API keeps to it, and what the laws say
of a history follows from the ledger alone.
-/

namespace WsprryPico.Network

open Lib Wtp Wtp.Json

inductive Phase where
  /-- The login is begun. -/
  | pending
  /-- Its proof is accepted, and not yet answered. -/
  | proved
  | ready
  /-- A packet is opened. -/
  | opened
  /-- Its request is taken. -/
  | passed
  /-- A cipher has failed. -/
  | failed

/-- Between two calls. -/
def Phase.Rests (phase : Phase) : Prop := phase = pending ∨ phase = ready

/-- A packet has been opened and nothing sealed since. -/
def Phase.Busy (phase : Phase) : Prop := phase = opened ∨ phase = passed

/-- An event that neither takes a transaction nor finishes one. -/
def RadioEvent.Plain : RadioEvent → Prop
  | dispatched .. | finished .. => False
  | _ => True

/-- A session from its start to its close. -/
structure Life where
  id : Bytes
  generation : UInt64
  interface : ConsumerInterface
  authority : Bytes
  phase : Phase
  /-- How many of its packets are opened. -/
  opened : Nat
  transaction : Option UInt64

structure Ledger where
  lives : Place → Option Life := fun _ => none
  /-- The ids of all the sessions there were. -/
  ids : List Bytes := []
  /-- The last call of `handle`. -/
  call : Option (HttpRequest × ConsumerInterface) := none
  /-- The generations found current in that call. -/
  current : List (Place × UInt64) := []
  /-- What the transport has reported and the browser API has not heard. -/
  owed : Option (UInt64 × Bool) := none

namespace Ledger

def put (p : Place) (life : Option Life) (L : Ledger) : Ledger :=
  { L with lives := Function.update L.lives p life }

/-- The transaction waits for its finish. -/
def Holds (transaction : UInt64) (L : Ledger) : Prop :=
  ∃ p life, L.lives p = some life ∧ life.transaction = some transaction

/-- Nothing is owed, and no cipher has failed. -/
def Settled (L : Ledger) : Prop :=
  L.owed = none ∧ ∀ p life, L.lives p = some life → life.phase ≠ .failed

def Rests (L : Ledger) : Prop := L.owed = none ∧ ∀ p life, L.lives p = some life → life.phase.Rests

/-- A life after its cipher has been used. -/
def tried (life : Life) (phase : Phase) (accepted : Bool) : Life :=
  { life with phase := if accepted then phase else .failed }

/-- The changes of a ledger, behind a history. -/
inductive Step (h : List RadioEvent) (L : Ledger) : RadioEvent → Ledger → Prop where
  | handled {request : HttpRequest} {interface : ConsumerInterface} (rests : L.Rests) :
      Step h L (.handled request interface)
        { L with call := some (request, interface), current := [] }
  | current {p : Place} {generation : UInt64} (settled : L.Settled) :
      Step h L (.current p generation) { L with current := (p, generation) :: L.current }
  | started {p : Place} {id : Bytes} {generation : UInt64} {interface : ConsumerInterface}
      {authority : Bytes} (settled : L.Settled) (free : L.lives p = none) (fresh : id ∉ L.ids)
      (alone : p ≠ .recovery →
        ∀ i life, L.lives (.session i) = some life → life.phase ≠ .pending) :
      Step h L (.started p id generation interface authority)
        { L.put p (some
            { id, generation, interface, authority, phase := .pending, opened := 0
              transaction := none }) with
          ids := id :: L.ids }
  | authenticated {p : Place} {life : Life} {accepted : Bool} (settled : L.Settled)
      (lives : L.lives p = some life) (pending : life.phase = .pending) :
      Step h L (.authenticated p life.id accepted) (L.put p (some (tried life .proved accepted)))
  | greeted {p : Place} {life : Life} {accepted : Bool} (settled : L.Settled)
      (lives : L.lives p = some life) (proved : life.phase = .proved)
      (last : h.getLast? = some (.authenticated p life.id true)) :
      Step h L (.sealed p life.id 0 accepted) (L.put p (some (tried life .ready accepted)))
  | opened {p : Place} {life : Life} {sequence : UInt64} {accepted : Bool} (settled : L.Settled)
      (lives : L.lives p = some life) (ready : life.phase = .ready)
      (next : sequence.toNat = life.opened + 1) :
      Step h L (.opened p life.id sequence accepted)
        (L.put p (some { tried life .opened accepted with opened := life.opened + 1 }))
  | dispatched {p : Place} {life : Life} {sequence transaction : UInt64} {sink : Option Sink}
      {request : HttpRequest} {interface : ConsumerInterface} (settled : L.Settled)
      (lives : L.lives p = some life) (opened : life.phase = .opened)
      (last : h.getLast? = some (.opened p life.id sequence true))
      (next : sequence.toNat = life.opened) (call : L.call = some (request, interface))
      (faces : life.interface = interface ∧ life.authority = request.header "host")
      (names : ConsumerRadio.headerMatches request.body life.id sequence = true)
      (current : (p, life.generation) ∈ L.current) (nonzero : transaction ≠ 0)
      (free : ¬ L.Holds transaction) (idle : life.transaction = none) :
      Step h L (.dispatched p life.id sequence transaction sink)
        (L.put p (some { life with phase := .passed, transaction := some transaction }))
  | replied {p : Place} {life : Life} {sequence : UInt64} {accepted : Bool} (settled : L.Settled)
      (lives : L.lives p = some life) (busy : life.phase.Busy)
      (next : sequence.toNat = life.opened) :
      Step h L (.sealed p life.id sequence accepted) (L.put p (some (tried life .ready accepted)))
  | observed {request : HttpRequest} (settled : L.Settled)
      (fixed : ConsumerRadio.PublicRead request) : Step h L (.observed request) L
  | reported {transaction : UInt64} {apply : Bool} (settled : L.Settled)
      (holds : L.Holds transaction) :
      Step h L (.reported transaction apply) { L with owed := some (transaction, apply) }
  | unheld {transaction : UInt64} {apply : Bool} (settled : L.Settled)
      (free : ¬ L.Holds transaction) : Step h L (.reported transaction apply) L
  | finished {p : Place} {life : Life} {transaction : UInt64} {apply : Bool}
      (lives : L.lives p = some life) (holds : life.transaction = some transaction)
      (heard : (L.owed = some (transaction, apply) ∧
          h.getLast? = some (.reported transaction apply)) ∨
        (L.owed = none ∧ apply = false)) :
      Step h L (.finished transaction apply)
        { L.put p (some { life with transaction := none }) with owed := none }
  | closed {p : Place} {life : Life} (settled : L.owed = none) (lives : L.lives p = some life)
      (idle : life.transaction = none) : Step h L (.closed p life.id) (L.put p none)
  | unused {p : Place} {id : Bytes} (settled : L.owed = none) (free : L.lives p = none) :
      Step h L (.closed p id) L

/-- The histories that keep to the ledger, and where it stands behind them. -/
inductive Runs : List RadioEvent → Ledger → Prop where
  | nil : Runs [] {}
  | snoc {h : List RadioEvent} {L L' : Ledger} {x : RadioEvent} (run : Runs h L)
      (step : Step h L x L') : Runs (h ++ [x]) L'

namespace Runs

variable {h after : List RadioEvent} {L : Ledger} {x : RadioEvent}

theorem last (hrun : Runs (h ++ [x]) L) : ∃ M, Runs h M ∧ Step h M x L := by
  generalize hl : h ++ [x] = l at hrun
  cases hrun with
  | nil => simp at hl
  | snoc run step =>
    obtain ⟨rfl, hx⟩ := List.append_inj' hl rfl
    obtain rfl := List.singleton_inj.mp hx
    exact ⟨_, run, step⟩

theorem of_append (hrun : Runs (h ++ after) L) : ∃ M, Runs h M := by
  induction after using List.reverseRecOn generalizing L with
  | nil => exact ⟨L, by simpa using hrun⟩
  | append_singleton after x ih =>
    rw [← List.append_assoc] at hrun
    obtain ⟨M, hM, -⟩ := hrun.last
    exact ih hM

theorem step_at (hrun : Runs (h ++ x :: after) L) :
    ∃ M M', Runs h M ∧ Step h M x M' ∧ Runs (h ++ [x]) M' := by
  rw [← List.singleton_append, ← List.append_assoc] at hrun
  obtain ⟨M', hM'⟩ := hrun.of_append
  obtain ⟨M, hM, hstep⟩ := hM'.last
  exact ⟨M, M', hM, hstep, hM'⟩

end Runs

/-! ## Transactions -/

section Transactions

variable {h : List RadioEvent} {L L' : Ledger} {x : RadioEvent} {p q : Place} {t : UInt64}
  {life life' : Life}

/-- The transaction that waits at a place. -/
def transaction (L : Ledger) (p : Place) : Option UInt64 := (L.lives p).bind Life.transaction

theorem holds_iff : L.Holds t ↔ ∃ p, L.transaction p = some t := by
  constructor
  · rintro ⟨p, life, hlife, ht⟩
    exact ⟨p, by rw [transaction, hlife]; exact ht⟩
  · rintro ⟨p, ht⟩
    obtain ⟨life, hlife, ht⟩ := Option.bind_eq_some_iff.mp ht
    exact ⟨p, life, hlife, ht⟩

theorem transaction_put (life : Option Life) : (L.put p life).transaction =
    Function.update L.transaction p (life.bind Life.transaction) := by
  funext q
  by_cases hq : q = p
  · subst hq
    simp [transaction, put]
  · simp [transaction, put, hq]

theorem transaction_keep (hlives : L.lives p = some life)
    (ht : life'.transaction = life.transaction) :
    (L.put p (some life')).transaction = L.transaction := by
  rw [transaction_put, Function.update_eq_self_iff]
  simp [transaction, hlives, ht]

/-- What an event does to the transactions. -/
theorem Step.transactions (hstep : Step h L x L') :
    (∃ p id sequence t sink, x = .dispatched p id sequence t sink ∧ t ≠ 0 ∧ ¬ L.Holds t ∧
      L.transaction p = none ∧ L'.transaction = Function.update L.transaction p (some t)) ∨
    (∃ p t apply, x = .finished t apply ∧ L.transaction p = some t ∧
      L'.transaction = Function.update L.transaction p none) ∨
    (x.Plain ∧ L'.transaction = L.transaction) := by
  cases hstep with
  | handled | current | observed | reported | unheld | unused => exact Or.inr (Or.inr ⟨trivial, rfl⟩)
  | started _ free =>
    refine Or.inr (Or.inr ⟨trivial, ?_⟩)
    show (L.put _ _).transaction = _
    rw [transaction_put, Function.update_eq_self_iff]
    simp [transaction, free]
  | authenticated _ lives | greeted _ lives | opened _ lives | replied _ lives =>
    exact Or.inr (Or.inr ⟨trivial, transaction_keep lives rfl⟩)
  | dispatched _ lives _ _ _ _ _ _ _ nonzero free idle =>
    refine Or.inl ⟨_, _, _, _, _, rfl, nonzero, free, ?_, transaction_put _⟩
    simp [transaction, lives, idle]
  | finished lives holds =>
    refine Or.inr (Or.inl ⟨_, _, _, rfl, ?_, transaction_put _⟩)
    simp [transaction, lives, holds]
  | closed _ lives idle =>
    refine Or.inr (Or.inr ⟨trivial, ?_⟩)
    rw [transaction_put, Function.update_eq_self_iff]
    simp [transaction, lives, idle]

/-- The transactions that wait are not zero, and no two are alike. -/
theorem Runs.distinct (hrun : Runs h L) : (∀ p, L.transaction p ≠ some 0) ∧
    ∀ p q t, L.transaction p = some t → L.transaction q = some t → p = q := by
  induction hrun with
  | nil => exact ⟨fun _ => by simp [transaction], fun _ _ _ h => by simp [transaction] at h⟩
  | @snoc h L L' x _ step ih =>
    obtain ⟨p, _, _, t, _, -, hzero, hfree, -, heq⟩ | ⟨p, t, _, -, -, heq⟩ | ⟨-, heq⟩ :=
      step.transactions
    · have hne : ∀ q, L.transaction q ≠ some t := fun q hq => hfree (holds_iff.mpr ⟨q, hq⟩)
      rw [heq]
      constructor
      · intro q
        by_cases hq : q = p
        · simpa [hq] using hzero
        · simpa [hq] using ih.1 q
      · intro q r u hqu hru
        by_cases hq : q = p <;> by_cases hr : r = p
        · rw [hq, hr]
        · obtain rfl : t = u := by simpa [hq] using hqu
          exact absurd (by simpa [hr] using hru) (hne r)
        · obtain rfl : t = u := by simpa [hr] using hru
          exact absurd (by simpa [hq] using hqu) (hne q)
        · exact ih.2 q r u (by simpa [hq] using hqu) (by simpa [hr] using hru)
    · rw [heq]
      constructor
      · intro q
        by_cases hq : q = p
        · simp [hq]
        · simpa [hq] using ih.1 q
      · intro q r u hqu hru
        by_cases hq : q = p
        · simp [hq] at hqu
        · by_cases hr : r = p
          · simp [hr] at hru
          · exact ih.2 q r u (by simpa [hq] using hqu) (by simpa [hr] using hru)
    · rw [heq]
      exact ih

end Transactions

end Ledger

end WsprryPico.Network
