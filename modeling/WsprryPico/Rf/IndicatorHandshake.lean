import WsprryPico.Lib.History
import WsprryPico.Rf.Chain

/-!
# The indicator handshake

`IndicatorGate` between its two owners. The RF owner is inside `request_launch` or
between calls; the indicator owner may acknowledge any ticket it ever read, at any time
and any number of times. Every access to an atomic member is a step of its own, so that
an interleaving is a list of actions. No step reads the history.
-/

namespace WsprryPico.Rf.Indicator

open Lib

/-- The RF owner's next access in `request_launch`: it calls, it stores the ticket it
counted, or it loads the acknowledgement to compare. -/
inductive Caller where
  | idle
  | storing (ticket : UInt32)
  | comparing (ticket : UInt32)
  deriving DecidableEq

/-- `returned` carries the ticket that `requested_` held. -/
inductive Event where
  | requested (ticket : UInt32)
  | inactive
  | acknowledged (ticket : UInt32)
  | returned (ticket : UInt32) (granted : Bool)
  deriving DecidableEq

inductive Action where
  | call | store | compare | inactive | read
  | acknowledge (ticket : UInt32)

structure Machine where
  gate : IndicatorGate := {}
  caller : Caller := .idle
  read : List UInt32 := []
  history : List Event := []

namespace Machine

def record (m : Machine) (event : Event) : Machine := { m with history := m.history ++ [event] }

def returns (m : Machine) (granted : Bool) : Machine :=
  { m.record (.returned m.gate.requested granted) with caller := .idle }

/-- `request_launch` up to its next access of an atomic member. -/
def call (m : Machine) : Machine :=
  if !m.gate.enabled then m.returns true
  else if m.gate.requested = 0 then
    if m.gate.next = 0xffffffff then m.returns false
    else
      let ticket := m.gate.next + 1
      { m with gate := { m.gate with next := ticket }, caller := .storing ticket }
  else { m with caller := .comparing m.gate.requested }

/-- An action whose owner is not at it does nothing. -/
def step (m : Machine) : Action → Machine
  | .call => if m.caller = .idle then m.call else m
  | .store =>
    match m.caller with
    | .storing ticket =>
      { m.record (.requested ticket) with
        gate := { m.gate with requested := ticket }, caller := .comparing ticket }
    | _ => m
  | .compare =>
    match m.caller with
    | .comparing ticket => m.returns (m.gate.acknowledged = ticket)
    | _ => m
  | .inactive =>
    if m.caller = .idle then { m.record .inactive with gate := m.gate.inactive } else m
  | .read => { m with read := m.gate.requested :: m.read }
  | .acknowledge ticket =>
    if ticket ∈ m.read ∧ ticket ≠ 0 then
      { m.record (.acknowledged ticket) with gate := { m.gate with acknowledged := ticket } }
    else m

def run (m : Machine) (actions : List Action) : Machine := actions.foldl step m

def start (enabled : Bool) : Machine := { gate := { enabled := enabled } }

end Machine

/-- With nothing in between, the steps are `request_launch`. -/
theorem run_call {m : Machine} (h : m.caller = .idle) :
    (m.run [.call, .store, .compare]).gate = m.gate.requestLaunch.2 ∧
      (m.run [.call, .store, .compare]).history.getLast? =
        some (.returned m.gate.requestLaunch.2.requested m.gate.requestLaunch.1) := by
  have hrun : m.run [.call, .store, .compare] = (m.call.step .store).step .compare := by
    show ((if m.caller = .idle then m.call else m).step .store).step .compare = _
    rw [if_pos h]
  rw [hrun]
  unfold Machine.call IndicatorGate.requestLaunch
  split_ifs <;> exact ⟨rfl, List.getLast?_concat⟩

/-! ## The law -/

/-- What takes the requested ticket away. -/
def Event.Ends : Event → Prop
  | .requested _ | .inactive => True
  | _ => False

/-- A ticket is new when it is requested and acknowledged only later. A granted launch has
a ticket that stands requested and was acknowledged since. -/
def Handshake (before : List Event) : Event → Prop
  | .requested ticket =>
    ticket ≠ 0 ∧ .requested ticket ∉ before ∧ .acknowledged ticket ∉ before
  | .inactive => True
  | .acknowledged ticket => .requested ticket ∈ before
  | .returned ticket granted => granted = true →
    ∃ after, Since Event.Ends (.requested ticket) after before ∧ .acknowledged ticket ∈ after

structure Inv (m : Machine) : Prop where
  enabled : m.gate.enabled = true
  law : Each Handshake m.history
  counted : ∀ t, .requested t ∈ m.history → t ≤ m.gate.next
  standing : m.gate.requested ≠ 0 →
    ∃ after, Since Event.Ends (.requested m.gate.requested) after m.history
  read : ∀ t ∈ m.read, t ≠ 0 → .requested t ∈ m.history
  acknowledged : m.gate.acknowledged ≠ 0 → .acknowledged m.gate.acknowledged ∈ m.history
  storing : ∀ t, m.caller = .storing t →
    t = m.gate.next ∧ t ≠ 0 ∧ .requested t ∉ m.history ∧ m.gate.requested = 0
  comparing : ∀ t, m.caller = .comparing t → m.gate.requested = t ∧ t ≠ 0

theorem acknowledged_since {l after : List Event} {t : UInt32} (hlaw : Each Handshake l)
    (hsince : Since Event.Ends (.requested t) after l) (hack : .acknowledged t ∈ l) :
    .acknowledged t ∈ after := by
  obtain ⟨before, rfl, -⟩ := hsince
  rcases List.mem_append.mp hack with hack | hack
  · exact absurd hack (hlaw before _ after rfl).2.2
  · exact (List.mem_cons.mp hack).resolve_left Event.noConfusion

theorem requested_of_acknowledged {l : List Event} {t : UInt32} (hlaw : Each Handshake l)
    (hack : .acknowledged t ∈ l) : .requested t ∈ l := by
  obtain ⟨before, after, rfl⟩ := List.append_of_mem hack
  exact List.mem_append_left _ (hlaw before _ after rfl)

namespace Inv

variable {m : Machine}

theorem start : Inv (.start true) where
  enabled := rfl
  law := .nil
  counted := fun _ h => absurd h List.not_mem_nil
  standing := fun h => absurd rfl h
  read := fun _ h => absurd h List.not_mem_nil
  acknowledged := fun h => absurd rfl h
  storing := fun _ h => by cases h
  comparing := fun _ h => by cases h

/-- What neither requests nor withdraws a ticket may be recorded. -/
theorem record {e : Event} (h : Inv m) (hlaw : Handshake m.history e)
    (hends : ¬ e.Ends) : Inv (m.record e) where
  enabled := h.enabled
  law := h.law.snoc hlaw
  counted := by
    intro t ht
    rcases List.mem_append.mp ht with ht | ht
    · exact h.counted t ht
    · rw [← List.mem_singleton.mp ht] at hends
      exact absurd trivial hends
  standing := by
    intro hne
    obtain ⟨after, hsince⟩ := h.standing hne
    exact ⟨_, hsince.snoc hends⟩
  read := fun t ht hne => List.mem_append_left _ (h.read t ht hne)
  acknowledged := fun hne => List.mem_append_left _ (h.acknowledged hne)
  storing := by
    intro t ht
    obtain ⟨heq, hne, hnew, hzero⟩ := h.storing t ht
    refine ⟨heq, hne, fun hin => ?_, hzero⟩
    rcases List.mem_append.mp hin with hin | hin
    · exact hnew hin
    · rw [← List.mem_singleton.mp hin] at hends
      exact hends trivial
  comparing := h.comparing

theorem returns (h : Inv m) {granted : Bool}
    (hgranted : granted = true → m.gate.requested ≠ 0 ∧
      .acknowledged m.gate.requested ∈ m.history) : Inv (m.returns granted) := by
  refine { h.record (e := .returned m.gate.requested granted) (fun htrue => ?_) id with
    storing := ?_, comparing := ?_ }
  · obtain ⟨hne, hack⟩ := hgranted htrue
    obtain ⟨after, hsince⟩ := h.standing hne
    exact ⟨after, hsince, acknowledged_since h.law hsince hack⟩
  · exact fun _ ht => by cases ht
  · exact fun _ ht => by cases ht

/-- The ticket counted up is above every one before it. -/
theorem call (h : Inv m) : Inv m.call := by
  unfold Machine.call
  rw [h.enabled]
  split_ifs with hoff hzero hlast
  · exact absurd hoff Bool.false_ne_true
  · exact h.returns fun htrue => absurd htrue Bool.false_ne_true
  · have hlt : m.gate.next < m.gate.next + 1 := by
      have hne : m.gate.next.toNat ≠ 0xffffffff := fun hn => hlast (UInt32.toNat_inj.mp hn)
      have hbound := m.gate.next.toNat_lt
      rw [UInt32.lt_iff_toNat_lt, UInt32.toNat_add, UInt32.toNat_one]
      omega
    refine { h with counted := fun t ht => ?_, storing := ?_, comparing := fun _ ht => (by cases ht) }
    · exact UInt32.le_of_lt (UInt32.lt_of_le_of_lt (h.counted t ht) hlt)
    · intro t ht
      obtain rfl := Caller.storing.inj ht
      refine ⟨rfl, fun hn => ?_, fun hin => ?_, hzero⟩
      · rw [hn] at hlt
        exact UInt32.not_lt_zero hlt
      · exact UInt32.not_lt.mpr (h.counted _ hin) hlt
  · refine { h with storing := fun _ ht => (by cases ht), comparing := fun t ht => ?_ }
    obtain rfl := Caller.comparing.inj ht
    exact ⟨rfl, hzero⟩

theorem store {ticket : UInt32} (h : Inv m) (hcaller : m.caller = .storing ticket) :
    Inv (m.step .store) := by
  obtain ⟨rfl, hpos, hnew, hzero⟩ := h.storing _ hcaller
  rw [Machine.step, hcaller]
  exact {
    enabled := h.enabled
    law := h.law.snoc ⟨hpos, hnew, fun hack => hnew (requested_of_acknowledged h.law hack)⟩
    counted := by
      intro t ht
      rcases List.mem_append.mp ht with ht | ht
      · exact h.counted t ht
      · rw [Event.requested.inj (List.mem_singleton.mp ht)]
        exact UInt32.le_refl _
    standing := fun _ => ⟨[], .here⟩
    read := fun t ht hne => List.mem_append_left _ (h.read t ht hne)
    acknowledged := fun hne => List.mem_append_left _ (h.acknowledged hne)
    storing := fun _ ht => by cases ht
    comparing := by
      intro t ht
      obtain rfl := Caller.comparing.inj ht
      exact ⟨rfl, hpos⟩ }

theorem inactive (h : Inv m) (hidle : m.caller = .idle) : Inv (m.step .inactive) := by
  rw [Machine.step, if_pos hidle]
  exact {
    enabled := h.enabled
    law := h.law.snoc trivial
    counted := fun t ht => h.counted t ((List.mem_append.mp ht).resolve_right (by simp))
    standing := fun hne => absurd rfl hne
    read := fun t ht hne => List.mem_append_left _ (h.read t ht hne)
    acknowledged := fun hne => List.mem_append_left _ (h.acknowledged hne)
    storing := fun _ ht => by cases hidle.symm.trans ht
    comparing := fun _ ht => by cases hidle.symm.trans ht }

theorem step (h : Inv m) (action : Action) : Inv (m.step action) := by
  cases action with
  | call =>
    by_cases hidle : m.caller = .idle
    · rw [Machine.step, if_pos hidle]
      exact h.call
    · rwa [Machine.step, if_neg hidle]
  | store =>
    cases hcaller : m.caller with
    | storing ticket => exact h.store hcaller
    | idle | comparing => rwa [Machine.step, hcaller]
  | compare =>
    cases hcaller : m.caller with
    | idle | storing => rwa [Machine.step, hcaller]
    | comparing ticket =>
      obtain ⟨rfl, hne⟩ := h.comparing _ hcaller
      rw [Machine.step, hcaller]
      refine h.returns fun hgranted => ⟨hne, ?_⟩
      have heq := of_decide_eq_true hgranted
      rw [← heq] at hne ⊢
      exact h.acknowledged hne
  | inactive =>
    by_cases hidle : m.caller = .idle
    · exact h.inactive hidle
    · rwa [Machine.step, if_neg hidle]
  | read =>
    refine { h with read := fun t ht hne => ?_ }
    rcases List.mem_cons.mp ht with rfl | ht
    · obtain ⟨after, before, heq, -⟩ := h.standing hne
      exact heq ▸ List.mem_append_right _ List.mem_cons_self
    · exact h.read t ht hne
  | acknowledge ticket =>
    by_cases hread : ticket ∈ m.read ∧ ticket ≠ 0
    · rw [Machine.step, if_pos hread]
      exact { h.record (e := .acknowledged ticket) (h.read _ hread.1 hread.2) id with
        acknowledged := fun _ => List.mem_append_right _ List.mem_cons_self }
    · rwa [Machine.step, if_neg hread]

theorem run (h : Inv m) (actions : List Action) : Inv (m.run actions) := by
  induction actions generalizing m with
  | nil => exact h
  | cons action rest ih => exact ih (h.step action)

end Inv

/-- On an enabled gate every interleaving keeps the law. -/
theorem launch_acknowledged (actions : List Action) :
    Each Handshake ((Machine.start true).run actions).history :=
  (Inv.start.run actions).law

example : ((Machine.start true).run [.call, .store, .read, .compare, .acknowledge 1, .call,
    .compare]).history.getLast? = some (.returned 1 true) := by decide

/-- A disabled gate lets a launch pass that nobody requested. -/
theorem disabled_passes : ¬ Each Handshake ((Machine.start false).run [.call]).history := by
  intro h
  obtain ⟨after, ⟨before, heq, -⟩, -⟩ := h [] (.returned 0 true) [] rfl rfl
  exact absurd heq (by simp)

end WsprryPico.Rf.Indicator
