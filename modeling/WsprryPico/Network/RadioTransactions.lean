import WsprryPico.Network.RadioServed
import Mathlib.Data.List.TakeWhile

/-!
# Radio transactions

Each transaction that `exchange` takes is finished once: by the report of the transport, or as
lost before its session is gone.
-/

namespace WsprryPico.Network

open Lib Wtp Wtp.Json
open Provisioning hiding ascii

variable {ω : Type} {h before after : List RadioEvent} {x : RadioEvent} {p : Place} {t : UInt64}
  {L L' : Ledger}

namespace RadioEvent

/-- `exchange` takes a request for the transaction. -/
def dispatches (t : UInt64) : RadioEvent → Bool
  | dispatched _ _ _ t' _ => t' = t
  | _ => false

/-- `api_.finish_request` is called for the transaction. -/
def finishes (t : UInt64) : RadioEvent → Bool
  | finished t' _ => t' = t
  | _ => false

/-- The session at a place is closed, or the place is used anew. -/
def Frees (p : Place) : RadioEvent → Prop
  | closed q _ | started q .. | dispatched q .. => q = p
  | _ => False

/-- The transport has reported the transaction. -/
def Reports (t : UInt64) : RadioEvent → Prop
  | reported t' _ => t' = t
  | _ => False

/-- What ends the wait of a transaction at a place. -/
def Ends (p : Place) (t : UInt64) (x : RadioEvent) : Prop := x.finishes t = true ∨ x.Frees p

end RadioEvent

open RadioEvent

/-- The transactions that wait for their finish. -/
def waiting (h : List RadioEvent) : List UInt64 :=
  h.foldl (fun ts x =>
    match x with
    | .dispatched _ _ _ t _ => ts ++ [t]
    | .finished t _ => ts.filter (· ≠ t)
    | _ => ts) []

/-- The events up to the next dispatch of the transaction. -/
def own (t : UInt64) (after : List RadioEvent) : List RadioEvent :=
  after.takeWhile fun x => !x.dispatches t

/-- What follows the dispatch of a transaction: no second finish, and one finish where the
transport has reported it, its session is gone or serves another request, or the transaction
is taken again. -/
structure FinishedOnce (p : Place) (t : UInt64) (after : List RadioEvent) : Prop where
  once : (own t after).countP (finishes t) ≤ 1
  settled : (∃ x ∈ after, x.Reports t ∨ x.Frees p ∨ x.dispatches t = true) →
    (own t after).countP (finishes t) = 1

/-- What the history of an API says of its transactions. -/
structure Accounted (h : List RadioEvent) : Prop where
  once : ∀ before p id sequence t sink after,
    h = before ++ .dispatched p id sequence t sink :: after → FinishedOnce p t after
  /-- A finish is of a transaction that waits, and a delivery was reported for it just now. -/
  heard : ∀ before t apply after, h = before ++ .finished t apply :: after →
    ∃ p id sequence sink mid, Since (Ends p t) (.dispatched p id sequence t sink) mid before ∧
      (apply = true → mid.getLast? = some (.reported t true))
  distinct : ∀ before, before <+: h → (waiting before).Nodup ∧ 0 ∉ waiting before

/-! ## What the ledger keeps -/

theorem waiting_snoc : waiting (h ++ [x]) =
    match x with
    | .dispatched _ _ _ t _ => waiting h ++ [t]
    | .finished t _ => (waiting h).filter (· ≠ t)
    | _ => waiting h := by
  rw [waiting, List.foldl_append]
  rfl

namespace Ledger

theorem Runs.waits (hrun : Runs h L) :
    (∀ t, t ∈ waiting h ↔ L.Holds t) ∧ (waiting h).Nodup ∧ 0 ∉ waiting h := by
  induction hrun with
  | nil => exact ⟨fun t => by simp [waiting, holds_iff, transaction], by simp [waiting], by
      simp [waiting]⟩
  | @snoc h L L' x run step ih =>
    obtain ⟨hmem, hnodup, hzero⟩ := ih
    rw [waiting_snoc]
    obtain ⟨p, _, _, t, _, rfl, hne, hfree, hidle, heq⟩ | ⟨p, t, _, rfl, hp, heq⟩ | ⟨hplain, heq⟩ :=
      step.transactions
    · refine ⟨fun u => ?_, ?_, ?_⟩
      · rw [List.mem_append, hmem, List.mem_singleton, holds_iff, holds_iff, heq]
        constructor
        · rintro (⟨q, hq⟩ | rfl)
          · refine ⟨q, ?_⟩
            rw [Function.update_of_ne]
            · exact hq
            · rintro rfl
              rw [hidle] at hq
              cases hq
          · exact ⟨p, by simp⟩
        · rintro ⟨q, hq⟩
          by_cases hqp : q = p
          · subst hqp
            exact Or.inr (by simpa using hq.symm)
          · exact Or.inl ⟨q, by simpa [hqp] using hq⟩
      · exact List.nodup_append.mpr ⟨hnodup, by simp, fun u hu v hv => by
          rintro rfl
          rw [List.mem_singleton.mp hv] at hu
          exact hfree ((hmem t).mp hu)⟩
      · simpa [hzero] using fun h : 0 = t => hne h.symm
    · refine ⟨fun u => ?_, hnodup.filter _, fun hmem => hzero (List.mem_of_mem_filter hmem)⟩
      rw [List.mem_filter, hmem, holds_iff, holds_iff, heq]
      constructor
      · rintro ⟨⟨q, hq⟩, hu⟩
        refine ⟨q, ?_⟩
        rw [Function.update_of_ne]
        · exact hq
        · rintro rfl
          rw [hp] at hq
          exact absurd (Option.some.inj hq).symm (by simpa using hu)
      · rintro ⟨q, hq⟩
        have hqp : q ≠ p := by
          rintro rfl
          simp at hq
        rw [Function.update_of_ne hqp] at hq
        refine ⟨⟨q, hq⟩, ?_⟩
        rw [decide_eq_true_eq]
        rintro rfl
        exact hqp (run.distinct.2 q p u hq hp)
    · have hholds : ∀ u, L'.Holds u ↔ L.Holds u := fun u => by rw [holds_iff, holds_iff, heq]
      cases x <;> first | exact absurd hplain id | exact ⟨fun u => by rw [hmem, hholds], hnodup, hzero⟩

/-- A transaction at a place was taken there, and nothing has ended its wait. -/
theorem Runs.taken (hrun : Runs h L) (ht : L.transaction p = some t) :
    ∃ id sequence sink mid, Since (Ends p t) (.dispatched p id sequence t sink) mid h := by
  induction hrun with
  | nil => simp [transaction] at ht
  | @snoc h L L' x run step ih =>
    obtain ⟨q, id, sequence, u, sink, rfl, -, hfree, hidle, heq⟩ | ⟨q, u, apply, rfl, hq, heq⟩ |
      ⟨hplain, heq⟩ := step.transactions
    · rw [heq] at ht
      by_cases hqp : p = q
      · subst hqp
        obtain rfl : u = t := by simpa using ht
        exact ⟨id, sequence, sink, [], Since.here⟩
      · obtain ⟨id', sequence', sink', mid, hsince⟩ := ih (by simpa [hqp] using ht)
        refine ⟨id', sequence', sink', _, hsince.snoc ?_⟩
        rintro (hends | hfrees)
        · cases hends
        · exact hqp hfrees.symm
    · rw [heq] at ht
      have hqp : p ≠ q := by
        rintro rfl
        simp at ht
      rw [Function.update_of_ne hqp] at ht
      obtain ⟨id', sequence', sink', mid, hsince⟩ := ih ht
      refine ⟨id', sequence', sink', _, hsince.snoc ?_⟩
      rintro (hends | hfrees)
      · obtain rfl : u = t := by simpa [finishes] using hends
        exact hqp (run.distinct.2 p q u ht hq)
      · exact hfrees
    · rw [heq] at ht
      obtain ⟨id', sequence', sink', mid, hsince⟩ := ih ht
      refine ⟨id', sequence', sink', _, hsince.snoc ?_⟩
      rintro (hends | hfrees)
      · cases x <;> first | exact absurd hplain id | cases hends
      · -- a place with a transaction is neither closed nor free
        cases step with
        | started _ free =>
          obtain rfl : _ = p := hfrees
          simp [transaction, free] at ht
        | closed _ lives idle =>
          obtain rfl : _ = p := hfrees
          simp [transaction, lives, idle] at ht
        | unused _ free =>
          obtain rfl : _ = p := hfrees
          simp [transaction, free] at ht
        | dispatched => exact hplain
        | _ => exact hfrees

/-- Behind its dispatch a transaction waits at its place, and nothing has ended its wait. -/
structure Open (p : Place) (t : UInt64) (after : List RadioEvent) (L : Ledger) : Prop where
  waits : L.transaction p = some t
  still : ∀ x ∈ after, x.finishes t = false ∧ ¬ x.Frees p ∧ x.dispatches t = false
  owed : (∃ x ∈ after, x.Reports t) → ∃ apply, L.owed = some (t, apply)

/-- It has been finished once, and does not wait unless it is taken again. -/
structure Done (t : UInt64) (after : List RadioEvent) (L : Ledger) : Prop where
  count : (own t after).countP (finishes t) = 1
  freed : (∃ x ∈ after, x.dispatches t = true) ∨ ¬ L.Holds t

theorem own_snoc (hnone : ∀ x ∈ after, x.dispatches t = false) :
    own t (after ++ [x]) = if x.dispatches t then after else after ++ [x] := by
  have hpos : ∀ y ∈ after, (!y.dispatches t) = true := fun y hy => by rw [hnone y hy]; rfl
  rw [own, List.takeWhile_append_of_pos hpos]
  cases hx : x.dispatches t <;> simp [hx]

theorem own_over (hex : ∃ y ∈ after, y.dispatches t = true) : own t (after ++ [x]) = own t after := by
  obtain ⟨y, hy, hdispatches⟩ := hex
  have hlt : (after.takeWhile fun x => !x.dispatches t).length ≠ after.length := by
    intro heq
    have hall := List.takeWhile_eq_self_iff.mp
      ((List.takeWhile_prefix _).eq_of_length heq) y hy
    rw [hdispatches] at hall
    cases hall
  rw [own, List.takeWhile_append, if_neg hlt]
  rfl

theorem Done.snoc (h : Done t after L) (hstep : Step before L x L') : Done t (after ++ [x]) L' := by
  obtain ⟨hcount, hover⟩ := h
  by_cases hex : ∃ y ∈ after, y.dispatches t = true
  · refine ⟨by rwa [own_over hex], Or.inl ?_⟩
    obtain ⟨y, hy, hdispatches⟩ := hex
    exact ⟨y, List.mem_append_left _ hy, hdispatches⟩
  · have hfree := hover.resolve_left hex
    have hnone : ∀ y ∈ after, y.dispatches t = false := fun y hy => by
      cases hy' : y.dispatches t
      · rfl
      · exact absurd ⟨y, hy, hy'⟩ hex
    have hall : own t after = after :=
      List.takeWhile_eq_self_iff.mpr fun y hy => by rw [hnone y hy]; rfl
    rw [hall] at hcount
    have hfinish : x.finishes t = false := by
      cases hx : x.finishes t with
      | false => rfl
      | true =>
        cases hstep with
        | finished lives holds =>
          obtain rfl : _ = t := by simpa [finishes] using hx
          exact absurd ⟨_, _, lives, holds⟩ hfree
        | _ => cases hx
    constructor
    · rw [own_snoc hnone]
      cases x.dispatches t <;> simp [hcount, hfinish]
    · cases hx : x.dispatches t with
      | true => exact Or.inl ⟨x, by simp, hx⟩
      | false =>
        refine Or.inr fun hholds => hfree ?_
        obtain ⟨q, _, _, u, _, rfl, -, -, -, heq⟩ | ⟨q, u, _, -, -, heq⟩ | ⟨-, heq⟩ :=
          hstep.transactions
        · have hut : u ≠ t := by simpa [dispatches] using hx
          rw [holds_iff, heq] at hholds
          obtain ⟨r, hr⟩ := hholds
          by_cases hrq : r = q
          · subst hrq
            exact absurd (by simpa using hr) hut
          · exact holds_iff.mpr ⟨r, by simpa [hrq] using hr⟩
        · rw [holds_iff, heq] at hholds
          obtain ⟨r, hr⟩ := hholds
          by_cases hrq : r = q
          · subst hrq
            simp at hr
          · exact holds_iff.mpr ⟨r, by simpa [hrq] using hr⟩
        · rwa [holds_iff, heq, ← holds_iff] at hholds

/-- An event leaves the transaction waiting or finishes it. -/
theorem Open.snoc (h : Open p t after L) (hrun : Runs before L) (hstep : Step before L x L') :
    Open p t (after ++ [x]) L' ∨ Done t (after ++ [x]) L' := by
  obtain ⟨hwaits, hstill, howed⟩ := h
  have hholds : L.Holds t := holds_iff.mpr ⟨p, hwaits⟩
  have hnone : ∀ y ∈ after, y.dispatches t = false := fun y hy => (hstill y hy).2.2
  cases hfin : x.finishes t with
  | true =>
    refine Or.inr ⟨?_, Or.inr ?_⟩
    · have hzero : after.countP (finishes t) = 0 :=
        List.countP_eq_zero.mpr fun y hy => by simp [(hstill y hy).1]
      have hdispatches : x.dispatches t = false := by cases x <;> first | rfl | cases hfin
      rw [own_snoc hnone, hdispatches]
      simp [hzero, hfin]
    · rw [holds_iff]
      rintro ⟨q, hq⟩
      obtain ⟨_, _, _, _, _, rfl, -⟩ | ⟨r, u, _, rfl, hr, heq⟩ | ⟨hplain, -⟩ := hstep.transactions
      · cases hfin
      · obtain rfl : u = t := by simpa [finishes] using hfin
        obtain rfl := hrun.distinct.2 p r u hwaits hr
        rw [heq] at hq
        by_cases hqp : q = p
        · subst hqp
          simp at hq
        · exact hqp (hrun.distinct.2 q p u (by simpa [hqp] using hq) hwaits)
      · cases x <;> first | exact hplain | cases hfin
  | false =>
    have hfree : ¬ x.Frees p := by
      intro hfrees
      cases hstep with
      | started _ free | unused _ free =>
        obtain rfl : _ = p := hfrees
        simp_all [transaction]
      | closed _ lives idle | dispatched _ lives _ _ _ _ _ _ _ _ _ idle =>
        obtain rfl : _ = p := hfrees
        simp_all [transaction]
      | _ => exact hfrees
    have hnew : x.dispatches t = false := by
      cases hx : x.dispatches t with
      | false => rfl
      | true =>
        cases hstep with
        | dispatched _ _ _ _ _ _ _ _ _ _ free =>
          obtain rfl : _ = t := by simpa [dispatches] using hx
          exact absurd hholds free
        | _ => cases hx
    refine Or.inl ⟨?_, ?_, ?_⟩
    · obtain ⟨r, _, _, u, _, rfl, -, -, hidle, heq⟩ | ⟨r, u, _, rfl, hr, heq⟩ | ⟨-, heq⟩ :=
        hstep.transactions
      · have hrp : p ≠ r := by
          rintro rfl
          rw [hidle] at hwaits
          cases hwaits
        rw [heq, Function.update_of_ne hrp]
        exact hwaits
      · have hrp : p ≠ r := by
          rintro rfl
          cases hwaits.symm.trans hr
          simp [finishes] at hfin
        rw [heq, Function.update_of_ne hrp]
        exact hwaits
      · rw [heq]
        exact hwaits
    · intro y hy
      rcases List.mem_append.mp hy with hy | hy
      · exact hstill y hy
      · obtain rfl := List.mem_singleton.mp hy
        exact ⟨hfin, hfree, hnew⟩
    · -- what is reported is heard at once
      rintro ⟨y, hy, hreports⟩
      rcases List.mem_append.mp hy with hy | hy
      · obtain ⟨apply, howes⟩ := howed ⟨y, hy, hreports⟩
        cases hstep with
        | finished _ _ heard =>
          rw [howes] at heard
          obtain ⟨heq, -⟩ | ⟨heq, -⟩ := heard
          · cases heq
            simp [finishes] at hfin
          · cases heq
        | handled rests => exact absurd (howes.symm.trans rests.1) (by simp)
        | closed settled | unused settled => exact absurd (howes.symm.trans settled) (by simp)
        | _ settled => exact absurd (howes.symm.trans settled.1) (by simp)
      · obtain rfl := List.mem_singleton.mp hy
        cases hstep with
        | reported =>
          obtain rfl : _ = t := hreports
          exact ⟨_, rfl⟩
        | unheld _ free =>
          obtain rfl : _ = t := hreports
          exact absurd hholds free
        | _ => exact hreports.elim

theorem Runs.course {id : Bytes} {sequence : UInt64} {sink : Option Sink}
    (hrun : Runs (before ++ .dispatched p id sequence t sink :: after) L) :
    Open p t after L ∨ Done t after L := by
  induction after using List.reverseRecOn generalizing L with
  | nil =>
    obtain ⟨M, -, hstep⟩ := hrun.last
    cases hstep with
    | dispatched =>
      exact Or.inl ⟨by simp [transaction, put], by simp, by simp⟩
  | append_singleton after x ih =>
    rw [← List.cons_append, ← List.append_assoc] at hrun
    obtain ⟨M, hM, hstep⟩ := hrun.last
    obtain hopen | hdone := ih hM
    · exact hopen.snoc hM hstep
    · exact Or.inr (hdone.snoc hstep)

theorem Open.finishedOnce (h : Open p t after L) (howed : L.owed = none) :
    FinishedOnce p t after := by
  have hzero : (own t after).countP (finishes t) = 0 := by
    rw [List.countP_eq_zero]
    intro y hy
    simp [(h.still y ((List.takeWhile_sublist _).mem hy)).1]
  refine ⟨by omega, ?_⟩
  rintro ⟨y, hy, hreports | hfrees | hdispatches⟩
  · obtain ⟨apply, howes⟩ := h.owed ⟨y, hy, hreports⟩
    rw [howed] at howes
    cases howes
  · exact absurd hfrees (h.still y hy).2.1
  · rw [(h.still y hy).2.2] at hdispatches
    cases hdispatches

theorem Done.finishedOnce (h : Done t after L) : FinishedOnce p t after :=
  ⟨h.count.le, fun _ => h.count⟩

/-- A finish is of a transaction that waits; one that applies was just reported. -/
theorem Runs.heard {apply : Bool} (hrun : Runs (h ++ [.finished t apply]) L) :
    ∃ p id sequence sink mid, Since (Ends p t) (.dispatched p id sequence t sink) mid h ∧
      (apply = true → mid.getLast? = some (.reported t true)) := by
  obtain ⟨M, hM, hstep⟩ := hrun.last
  cases hstep with
  | @finished p life _ _ lives holds heard =>
    have hp : M.transaction p = some t := by simp [transaction, lives, holds]
    obtain ⟨id, sequence, sink, mid, hsince⟩ := hM.taken hp
    refine ⟨p, id, sequence, sink, mid, hsince, ?_⟩
    rintro rfl
    obtain ⟨-, hlast⟩ | ⟨-, happly⟩ := heard
    · obtain ⟨front, rfl, -⟩ := hsince
      rw [List.getLast?_append] at hlast
      cases mid using List.reverseRecOn with
      | nil => simp at hlast
      | append_singleton mid y => simpa [List.getLast?_cons] using hlast
    · cases happly

theorem Runs.accounted (hrun : Runs h L) (howed : L.owed = none) : Accounted h := by
  refine ⟨?_, ?_, ?_⟩
  · rintro before p id sequence t sink after rfl
    obtain hopen | hdone := hrun.course
    · exact hopen.finishedOnce howed
    · exact hdone.finishedOnce
  · rintro before t apply after rfl
    obtain ⟨_, _, -, -, hrun'⟩ := hrun.step_at
    exact hrun'.heard
  · rintro before ⟨after, rfl⟩
    obtain ⟨M, hM⟩ := hrun.of_append
    exact hM.waits.2

end Ledger

theorem transactions_accounted (host : RadioHost ω) (device boot : Bytes) (crypto recovery : Bool)
    (world : ω) (calls : List (RadioCall ω)) :
    let a := (Radio.run host device boot crypto recovery world calls).api
    Accounted a.history ∧
      (∀ t, t ∈ waiting a.history ↔ ∃ i, (a.sessions i).pendingTransaction = some t) ∧
      ∀ i t, (a.sessions i).pendingTransaction = some t →
        t ≠ 0 ∧ ∀ j, (a.sessions j).pendingTransaction = some t → i = j := by
  intro a
  obtain ⟨L, tracks, howed⟩ :=
    ConsumerRadio.run_held host device boot crypto recovery world calls
  obtain ⟨hnonzero, hdistinct⟩ := tracks.run.distinct
  have hslot : ∀ i, L.transaction (.session i) = (a.sessions i).pendingTransaction :=
    fun i => tracks.transaction_slot (.session i)
  refine ⟨tracks.run.accounted howed, ?_, ?_⟩
  · intro t
    rw [tracks.run.waits.1 t, tracks.holds_iff]
  · intro i t hi
    have hwaits : L.transaction (.session i) = some t := (hslot i).trans hi
    refine ⟨?_, ?_⟩
    · rintro rfl
      exact hnonzero _ hwaits
    · intro j hj
      have heq := hdistinct _ _ t hwaits ((hslot j).trans hj)
      injection heq

end WsprryPico.Network
