import Mathlib.Data.List.Chain
import WsprryPico.Provisioning.ProfileCommit

/-!
# Power-cut safety of the profile store

Every history of loads and selections of a profile store, the power lost at any point:
which selection a load returns, and how selections follow one another.
-/

namespace WsprryPico.Provisioning

open Lib Standalone Wtp

structure Selection where
  sequence : Nat
  source : ProfileSource
  data : List UInt8
  deriving DecidableEq

def ProfileStore.selection (store : ProfileStore) : Selection :=
  ⟨store.sequence, store.source, store.data⟩

namespace Profile

open ProfileStore

/-- A slot beside one of this sequence number does not count. -/
def Below (sequence : Nat) : ProfileCandidate → Prop
  | .valid s _ => s < sequence
  | .invalidCommitted s => s < sequence
  | .invalidUnknown => False
  | _ => True

/-- What a store that is healthy has on the flash. -/
inductive Held (p : Parsers) (bytes : Nat → UInt8) : ProfileStore → Prop where
  | virgin (hfirst : scanned bytes 0 = .empty) (hsecond : scanned bytes 1 = .empty) :
    Held p bytes { healthy := true }
  | slot {store : ProfileStore} {payload : List UInt8} (hhealthy : store.healthy = true)
    (hslot : store.activeSlot < 2)
    (hfound : scanned bytes store.activeSlot = .valid store.sequence payload)
    (hadopt : adopt p payload = (true, store.source, store.data))
    (hother : Below store.sequence (scanned bytes (1 - store.activeSlot))) : Held p bytes store

section Load

variable {p : Parsers} {m : Media} {store : ProfileStore} {actual seen : ProfileCandidate}
  {sequence : Nat} {data : List UInt8}

theorem Seen.valid (h : Seen actual seen) (hv : seen = .valid sequence data) :
    actual = .valid sequence data := by
  cases h with
  | same => exact hv
  | unknown => exact nomatch hv
  | payload => exact nomatch hv

theorem Seen.empty (h : Seen actual seen) (hv : seen = .empty) : actual = .empty := by
  cases h with
  | same => exact hv
  | unknown => exact nomatch hv
  | payload => exact nomatch hv

theorem Seen.below (h : Seen actual seen) (hv : Below sequence seen) : Below sequence actual := by
  cases h with
  | same => exact hv
  | unknown => exact absurd hv id
  | payload s hactual =>
    rcases hactual with rfl | rfl | ⟨data, rfl⟩
    · trivial
    · exact hv
    · exact hv

/-- The slot that a load picks, beside one that does not count. -/
def Picked (first second : ProfileCandidate) : Option (Nat × Nat × List UInt8) → Prop
  | none => NotValid first ∧ NotValid second
  | some (slot, sequence, data) =>
    (slot = 0 ∧ first = .valid sequence data ∧ Below sequence second) ∨
      (slot = 1 ∧ second = .valid sequence data ∧ Below sequence first)

theorem best_spec {first second : ProfileCandidate} {found : Option (Nat × Nat × List UInt8)}
    (hfirst : first ≠ .invalidUnknown) (hsecond : second ≠ .invalidUnknown)
    (hbest : best first second = some found) (h0 : blocks found first = false)
    (h1 : blocks found second = false) : Picked first second found := by
  have hbelow : ∀ {slot s : Nat} {payload : List UInt8} {c : ProfileCandidate},
      c ≠ .invalidUnknown → NotValid c → blocks (some (slot, s, payload)) c = false → Below s c := by
    intro slot s payload c hknown hnot hblocks
    cases c with
    | valid s' data => exact absurd rfl (hnot s' data)
    | invalidUnknown => exact absurd rfl hknown
    | invalidCommitted s' =>
      have := of_decide_eq_false hblocks
      show s' < s
      omega
    | empty => trivial
    | pending => trivial
  unfold best at hbest
  split at hbest
  · rename_i s payload s' payload'
    split at hbest
    · cases hbest
    · split at hbest
      · cases hbest
        exact .inr ⟨rfl, rfl, ‹_›⟩
      · cases hbest
        refine .inl ⟨rfl, rfl, ?_⟩
        show s' < s
        omega
  · rename_i s payload c hnot
    cases hbest
    exact .inl ⟨rfl, rfl, hbelow hsecond (fun s d h => hnot s d h) h1⟩
  · rename_i s payload c hnot
    cases hbest
    exact .inr ⟨rfl, rfl, hbelow hfirst (fun s d h => hnot s d h) h0⟩
  · rename_i hnot hnot' _
    cases hbest
    exact ⟨fun s d h => hnot s d h, fun s d h => hnot' s d h⟩

theorem load_failed (h : load p m = (false, store)) : store.healthy = false := by
  unfold load at h
  dsimp only at h
  split at h
  · obtain ⟨-, rfl⟩ := h
    rfl
  split at h
  · obtain ⟨-, rfl⟩ := h
    rfl
  split at h
  · obtain ⟨-, rfl⟩ := h
    rfl
  split at h
  · split at h
    · obtain ⟨-, rfl⟩ := h
      rfl
    · cases h
  · injection h with hok hstore
    rw [← hstore]
    exact hok

theorem load_held (h : load p m = (true, store)) : Held p m.flash.bytes store := by
  have hseen := scan_seen m
  unfold load at h
  dsimp only at h
  split at h
  · cases h
  rename_i hknown
  rw [not_or] at hknown
  split at h
  · cases h
  rename_i found hbest
  split at h
  · cases h
  rename_i hblocks
  rw [Bool.not_eq_true, Bool.or_eq_false_iff] at hblocks
  have hspec := best_spec hknown.1 hknown.2 hbest hblocks.1 hblocks.2
  split at h
  · split at h
    · cases h
    · rename_i hempty
      rw [not_or, Decidable.not_not, Decidable.not_not] at hempty
      obtain ⟨-, rfl⟩ := h
      exact .virgin ((hseen 0).empty hempty.1) ((hseen 1).empty hempty.2)
  · rename_i slot sequence payload
    rcases hadopt : adopt p payload with ⟨usable, source, data⟩
    rw [hadopt] at h
    obtain ⟨rfl, rfl⟩ := h
    rcases hspec with ⟨rfl, hv, hbelow⟩ | ⟨rfl, hv, hbelow⟩
    · exact .slot rfl Nat.zero_lt_two ((hseen 0).valid hv) hadopt ((hseen 1).below hbelow)
    · exact .slot rfl Nat.one_lt_two ((hseen 1).valid hv) hadopt ((hseen 0).below hbelow)

/-- A slot beside one that does not count is picked. -/
theorem best_of_below {slot : Nat} (hslot : slot < 2)
    (hfound : scan m slot = .valid sequence data) (hother : Below sequence (scan m (1 - slot))) :
    scan m 0 ≠ .invalidUnknown ∧ scan m 1 ≠ .invalidUnknown ∧
      best (scan m 0) (scan m 1) = some (some (slot, sequence, data)) ∧
      blocks (some (slot, sequence, data)) (scan m 0) = false ∧
      blocks (some (slot, sequence, data)) (scan m 1) = false := by
  have hknown : ∀ {c : ProfileCandidate}, Below sequence c → c ≠ .invalidUnknown ∧
      blocks (some (slot, sequence, data)) c = false := by
    intro c hc
    cases c with
    | invalidUnknown => exact absurd hc id
    | invalidCommitted s => exact ⟨nofun, decide_eq_false (Nat.not_le.mpr hc)⟩
    | _ => exact ⟨nofun, rfl⟩
  have hslots : slot = 0 ∨ slot = 1 := by omega
  rcases hslots with rfl | rfl
  · rw [Nat.sub_zero] at hother
    obtain ⟨hne, hblocks⟩ := hknown hother
    rw [hfound]
    refine ⟨nofun, hne, ?_, rfl, hblocks⟩
    unfold best
    cases hc : scan m 1 with
    | valid s payload =>
      rw [hc] at hother
      have hother : s < sequence := hother
      dsimp only
      rw [if_neg (by omega), if_neg (by omega)]
    | _ => rfl
  · rw [Nat.sub_self] at hother
    obtain ⟨hne, hblocks⟩ := hknown hother
    rw [hfound]
    refine ⟨hne, nofun, ?_, hblocks, rfl⟩
    unfold best
    cases hc : scan m 0 with
    | valid s payload =>
      rw [hc] at hother
      have hother : s < sequence := hother
      dsimp only
      rw [if_neg (by omega), if_pos (by omega)]
    | _ => rfl

theorem Held.load {bytes : Nat → UInt8} (h : Held p bytes store) :
    load p { flash := { bytes } } = (true, store) := by
  cases h with
  | virgin hfirst hsecond =>
    have hfirst : scan { flash := { bytes } } 0 = .empty := hfirst
    have hsecond : scan { flash := { bytes } } 1 = .empty := hsecond
    unfold ProfileStore.load
    rw [hfirst, hsecond]
    rfl
  | slot hhealthy hslot hfound hadopt hother =>
    obtain ⟨h0, h1, hbest, hblocks0, hblocks1⟩ := best_of_below hslot hfound hother
    unfold ProfileStore.load
    rw [if_neg (not_or.mpr ⟨h0, h1⟩), hbest]
    dsimp only
    rw [hblocks0, hblocks1, if_neg (by decide), hadopt]
    rw [← hhealthy]

end Load

/-- How a selection may follow another. -/
structure Follows (p : Parsers) (prior next : Selection) : Prop where
  sequence : next.sequence = prior.sequence + 1
  source : prior.source = .consumerProfile →
    next.source = .consumerProfile ∨ next.source = .unprovisioned
  owner : prior.source = .consumerProfile → next.source = .consumerProfile →
    ∃ before after, p.consumer prior.data = some before ∧ p.consumer next.data = some after ∧
      before.deviceId = after.deviceId ∧
      (before.ownerEpoch ≤ after.ownerEpoch ∨ (after.ownerEpoch = 0 ∧ after.owners = []))

theorem Admitted.follows {p : Parsers} {source : ProfileSource} {profile : List UInt8}
    {store : ProfileStore} (h : Admitted p source profile store) :
    Follows p store.selection ⟨store.sequence + 1, source, profile⟩ := by
  refine ⟨rfl, h.after, fun hprior hnext => ?_⟩
  have hvalid := h.valid hnext
  have hprior : store.source = .consumerProfile := hprior
  unfold validConsumerPayload at hvalid
  rw [hprior] at hvalid
  show ∃ before after, p.consumer store.data = some before ∧ p.consumer profile = some after ∧ _
  cases hafter : p.consumer profile with
  | none =>
    rw [hafter] at hvalid
    cases hvalid
  | some after =>
    cases hbefore : p.consumer store.data with
    | none =>
      rw [hafter, hbefore] at hvalid
      cases hvalid
    | some before =>
      rw [hafter, hbefore] at hvalid
      simp only [Bool.and_eq_true, Bool.or_eq_true, decide_eq_true_eq, List.isEmpty_iff] at hvalid
      exact ⟨before, after, rfl, rfl, hvalid.1.1, hvalid.1.2⟩

end Profile

/-- A store and its flash. `last` is the selection in force, `next` the one that an
interrupted selection may have left, `trail` all that were in force, the last one first. -/
structure Profiles where
  store : ProfileStore
  bytes : Nat → UInt8
  last : Selection
  next : Option Selection := none
  trail : List Selection := []

namespace Profiles

open Profile ProfileStore

inductive Event where
  | load (unreadable : Nat → Bool)
  /-- `power` is for how many bytes more. -/
  | select (source : ProfileSource) (profile : List UInt8) (unreadable : Nat → Bool)
    (power : Option Nat)

/-- This selection is in force. -/
def inForce (s : Profiles) (store : ProfileStore) : Profiles :=
  { s with
    store, last := store.selection, next := none
    trail := if store.selection = s.last then s.trail else store.selection :: s.trail }

def loaded (p : Parsers) (s : Profiles) (unreadable : Nat → Bool) : Profiles :=
  match ProfileStore.load p { flash := { bytes := s.bytes }, unreadable } with
  | (true, store) => s.inForce store
  | (false, store) => { s with store }

def selected (s : Profiles) (source : ProfileSource) (profile : List UInt8) :
    Bool × ProfileStore × Media → Profiles
  | (true, store, m) => { s.inForce store with bytes := m.flash.bytes }
  | (false, store, m) =>
    { s with
      store, bytes := m.flash.bytes
      next := if store = s.store then s.next else some ⟨s.store.sequence + 1, source, profile⟩ }

/-- After the loss of power the store starts anew. -/
def restarted (power : Option Nat) (s : Profiles) : Profiles :=
  if power = none then s else { s with store := {} }

def step (p : Parsers) (s : Profiles) : Event → Profiles
  | .load unreadable => s.loaded p unreadable
  | .select source profile unreadable power =>
    (s.selected source profile
      (s.store.select p source profile { flash := { bytes := s.bytes, power }, unreadable })).restarted
        power

/-- The histories that begin with a load of flash that succeeds. -/
inductive Reach (p : Parsers) : Profiles → Prop where
  | start (bytes : Nat → UInt8) {store : ProfileStore}
    (h : ProfileStore.load p { flash := { bytes } } = (true, store)) :
    Reach p { store, bytes, last := store.selection, trail := [store.selection] }
  | step {s : Profiles} (h : Reach p s) (e : Event) : Reach p (s.step p e)

/-- A slot with the selection of an interrupted write. -/
def Interrupted (p : Parsers) (next : Option Selection) (sequence : Nat) (payload : List UInt8) :
    Prop :=
  ∃ selection, next = some selection ∧ sequence = selection.sequence ∧
    adopt p payload = (true, selection.source, selection.data)

/-- What the slots hold. -/
inductive Slots (p : Parsers) (bytes : Nat → UInt8) (next : Option Selection) : Selection → Prop where
  | first (hfirst : ∀ q payload, Profile.scanned bytes 0 = .valid q payload → Interrupted p next q payload)
    (hsecond : Profile.scanned bytes 1 = .empty) : Slots p bytes next ⟨0, .legacyBootstrap, []⟩
  | slot {slot : Nat} (selection : Selection) {payload : List UInt8} (hslot : slot < 2)
    (hfound : Profile.scanned bytes slot = .valid selection.sequence payload)
    (hadopt : adopt p payload = (true, selection.source, selection.data))
    (hother : ∀ q data, Profile.scanned bytes (1 - slot) = .valid q data →
      q < selection.sequence ∨ Interrupted p next q data) : Slots p bytes next selection

structure Sound (p : Parsers) (s : Profiles) : Prop where
  slots : Slots p s.bytes s.next s.last
  healthy : s.store.healthy = true → Held p s.bytes s.store ∧ s.store.selection = s.last
  head : s.trail.head? = some s.last
  chain : s.trail.IsChain fun next prior => Follows p prior next
  offered : ∀ selection, s.next = some selection → Follows p s.last selection

variable {p : Parsers} {s : Profiles}

/-- What a load that succeeds returns, with any reads failing. -/
theorem Slots.found {bytes : Nat → UInt8} {next : Option Selection} {last : Selection}
    (h : Slots p bytes next last) {store : ProfileStore} (hheld : Held p bytes store) :
    store.selection = last ∨ next = some store.selection := by
  have hinterrupted : ∀ {payload : List UInt8},
      adopt p payload = (true, store.source, store.data) →
      Interrupted p next store.sequence payload → next = some store.selection := by
    intro payload hadopt ⟨found, hnext, hsequence, hadopt'⟩
    rw [hadopt] at hadopt'
    injection hadopt' with _ hrest
    injection hrest with hsource hdata
    rw [hnext]
    unfold selection
    rw [hsequence, hsource, hdata]
  cases hheld with
  | virgin hzero hone =>
    cases h with
    | first => exact .inl rfl
    | slot _ hslot hfound hadopt hother =>
      rename_i slot _
      have hslots : slot = 0 ∨ slot = 1 := by omega
      rcases hslots with rfl | rfl
      · cases hzero.symm.trans hfound
      · cases hone.symm.trans hfound
  | slot hhealthy hactive hfound hadopt hbelow =>
    cases h with
    | first hfirst hsecond =>
      have hslots : store.activeSlot = 0 ∨ store.activeSlot = 1 := by omega
      rcases hslots with hslot | hslot
      · rw [hslot] at hfound
        exact .inr (hinterrupted hadopt (hfirst _ _ hfound))
      · rw [hslot] at hfound
        cases hsecond.symm.trans hfound
    | slot _ hslot hfound' hadopt' hother =>
      rename_i slot _
      by_cases heq : store.activeSlot = slot
      · rw [heq, hfound'] at hfound
        obtain ⟨hsequence, rfl⟩ := ProfileCandidate.valid.inj hfound
        rw [hadopt'] at hadopt
        injection hadopt with _ hrest
        injection hrest with hsource hdata
        refine .inl ?_
        unfold selection
        rw [← hsequence, ← hsource, ← hdata]
      · have hslots : store.activeSlot = 1 - slot ∧ 1 - store.activeSlot = slot := by omega
        rw [hslots.2, hfound'] at hbelow
        rw [hslots.1] at hfound
        rcases hother _ _ hfound with holder | hnext
        · have hbelow : last.sequence < store.sequence := hbelow
          omega
        · exact .inr (hinterrupted hadopt hnext)

theorem held_slots {bytes : Nat → UInt8} {store : ProfileStore} (h : Held p bytes store)
    (next : Option Selection) : Slots p bytes next store.selection := by
  cases h with
  | virgin hfirst hsecond =>
    exact .first (fun _ _ hv => (nomatch hfirst.symm.trans hv)) hsecond
  | slot hhealthy hslot hfound hadopt hother =>
    refine .slot store.selection hslot hfound hadopt fun q data hv => .inl ?_
    rw [hv] at hother
    exact hother

/-- A selection that is in force now, and is the last one or follows it. -/
theorem sound_inForce (h : Sound p s) {store : ProfileStore} {bytes : Nat → UInt8}
    (hheld : Held p bytes store)
    (hfollows : store.selection = s.last ∨ Follows p s.last store.selection) :
    Sound p { s.inForce store with bytes := bytes } := by
  refine ⟨held_slots hheld none, fun _ => ⟨hheld, rfl⟩, ?_, ?_, nofun⟩
  · simp only [inForce]
    split
    · rename_i heq
      rw [heq]
      exact h.head
    · rfl
  · simp only [inForce]
    split
    · exact h.chain
    · rename_i hne
      have hlast := h.head
      have hchain := h.chain
      match htrail : s.trail with
      | [] =>
        rw [htrail] at hlast
        cases hlast
      | prior :: rest =>
        rw [htrail] at hlast hchain
        cases hlast
        exact .cons_cons (hfollows.resolve_left hne) hchain

theorem sound_loaded (h : Sound p s) (unreadable : Nat → Bool) : Sound p (s.loaded p unreadable) := by
  unfold loaded
  rcases hrun : ProfileStore.load p { flash := { bytes := s.bytes }, unreadable } with ⟨_ | _, store⟩
  · have hfailed := load_failed hrun
    refine ⟨h.slots, fun hhealthy => ?_, h.head, h.chain, h.offered⟩
    cases hfailed.symm.trans hhealthy
  · have hheld : Held p s.bytes store := load_held hrun
    refine sound_inForce h hheld ?_
    rcases h.slots.found hheld with hlast | hnext
    · exact .inl hlast
    · exact .inr (h.offered _ hnext)

theorem held_sequence {bytes : Nat → UInt8} {store : ProfileStore} (h : Held p bytes store) :
    store.sequence < 2 ^ 64 := by
  cases h with
  | virgin => decide
  | slot hhealthy hslot hfound hadopt hother =>
    have hsequence := (Profile.scanned_valid hfound).sequence
    have hlt := get_lt (subspan 8 8 (Profile.headerOf bytes store.activeSlot))
    have hlength : (subspan 8 8 (Profile.headerOf bytes store.activeSlot)).length ≤ 8 := by
      unfold subspan
      exact List.length_take_le ..
    have hpow := Nat.pow_le_pow_right (show 0 < 256 by decide) hlength
    have height : (256 : Nat) ^ 8 = 2 ^ 64 := by decide
    omega

theorem stored_spec {source : ProfileSource} {profile : List UInt8} {store store' : ProfileStore}
    {m m' : Media} {ok : Bool} (hheld : Held p m.flash.bytes store)
    (hadmitted : Admitted p source profile store)
    (hstored : Stored source profile store m ok store' m') :
    Slots p m'.flash.bytes (some ⟨store.sequence + 1, source, profile⟩) store.selection ∧
      (ok = true → Held p m'.flash.bytes store' ∧
        store'.selection = ⟨store.sequence + 1, source, profile⟩) := by
  have hadopt := adopt_selection hadmitted
  have hnew : ∀ q data, Profile.scanned m'.flash.bytes store.target = .valid q data →
      Profile.scanned m.flash.bytes store.target = .valid q data ∨
        Interrupted p (some ⟨store.sequence + 1, source, profile⟩) q data := by
    intro q data hv
    cases hstored.left with
    | untouched hsame => exact .inl (hsame.symm.trans hv)
    | torn hnot => exact absurd hv (hnot q data)
    | written hwritten =>
      obtain ⟨rfl, rfl⟩ := ProfileCandidate.valid.inj (hwritten.symm.trans hv)
      exact .inr ⟨_, rfl, rfl, hadopt⟩
  have hdone := hstored.done
  cases hheld with
  | virgin hfirst hsecond =>
    have hone := (hstored.others 1 (by decide)).trans hsecond
    refine ⟨.first (fun q data hv => ?_) hone, fun hok => ?_⟩
    · rcases hnew q data hv with hold | hnext
      · cases hfirst.symm.trans hold
      · exact hnext
    · obtain ⟨rfl, hfound⟩ := hdone hok
      refine ⟨.slot rfl Nat.zero_lt_two hfound hadopt ?_, rfl⟩
      show Below _ (Profile.scanned m'.flash.bytes 1)
      rw [hone]
      trivial
  | slot hhealthy hslot hfound hadopt' hother =>
    have hpositive := (headerValid_fields (Profile.scanned_valid hfound).header).2
    rw [(Profile.scanned_valid hfound).sequence] at hpositive
    have htarget : store.target = 1 - store.activeSlot := by
      unfold ProfileStore.target
      rw [if_neg hpositive]
    have hold := (hstored.others store.activeSlot (by omega)).trans hfound
    refine ⟨.slot store.selection hslot hold hadopt' fun q data hv => ?_, fun hok => ?_⟩
    · rw [← htarget] at hv
      rcases hnew q data hv with hv | hnext
      · rw [← htarget, hv] at hother
        exact .inl hother
      · exact .inr hnext
    · obtain ⟨rfl, hwritten⟩ := hdone hok
      refine ⟨.slot rfl ?_ hwritten hadopt ?_, rfl⟩
      · show store.target < 2
        omega
      · show Below (store.sequence + 1) (Profile.scanned m'.flash.bytes (1 - store.target))
        rw [show 1 - store.target = store.activeSlot by omega, hold]
        exact Nat.lt_succ_self _

theorem select_rejected {source : ProfileSource} {profile : List UInt8} {store : ProfileStore}
    (h : rejects p source profile store = true) (m : Media) :
    store.select p source profile m = (false, store, m) := by
  unfold select
  rw [if_pos h]

/-- The history after a selection, before the store starts anew if it was cut short. -/
theorem sound_selected (h : Sound p s) (source : ProfileSource) (profile : List UInt8) {m : Media}
    (hm : m.flash.bytes = s.bytes) :
    Sound p (s.selected source profile (s.store.select p source profile m)) := by
  cases hhealthy : s.store.healthy with
  | false =>
    rw [select_rejected (by simp [rejects, hhealthy]) m]
    simp only [selected, if_true, hm]
    exact ⟨h.slots, h.healthy, h.head, h.chain, h.offered⟩
  | true =>
    obtain ⟨hheld, hselection⟩ := h.healthy hhealthy
    rw [← hm] at hheld
    rcases hrun : s.store.select p source profile m with ⟨ok, store', m'⟩
    rcases select_spec (held_sequence hheld) hrun with ⟨rfl, rfl, rfl, -⟩ |
        ⟨hadmitted, ⟨rfl, rfl, rfl, -⟩ | hstored⟩
    · simp only [selected, if_true, hm]
      exact ⟨h.slots, h.healthy, h.head, h.chain, h.offered⟩
    · exact sound_inForce h hheld (.inl hselection)
    · have hfollows := hadmitted.follows
      obtain ⟨hslots, hdone⟩ := stored_spec hheld hadmitted hstored
      rw [hselection] at hslots hfollows
      cases ok with
      | true =>
        obtain ⟨hheld', hselection'⟩ := hdone rfl
        exact sound_inForce h hheld' (.inr (hselection' ▸ hfollows))
      | false =>
        obtain rfl := hstored.failed rfl
        have hne : ({ s.store with healthy := false } : ProfileStore) ≠ s.store := by
          intro heq
          have := congrArg ProfileStore.healthy heq
          cases this.trans hhealthy
        simp only [selected]
        rw [if_neg hne]
        refine ⟨hslots, fun h => (by cases h), h.head, h.chain, fun n hn => ?_⟩
        cases hn
        exact hfollows

theorem sound_step (h : Sound p s) (e : Event) : Sound p (s.step p e) := by
  cases e with
  | load unreadable => exact sound_loaded h unreadable
  | select source profile unreadable power =>
    have hselected := sound_selected h source profile
      (m := { flash := { bytes := s.bytes, power }, unreadable }) rfl
    simp only [step, restarted]
    split
    · exact hselected
    · exact ⟨hselected.slots, nofun, hselected.head, hselected.chain,
        hselected.offered⟩

theorem reach_sound (h : Reach p s) : Sound p s := by
  induction h with
  | start bytes h =>
    have hheld : Held p bytes _ := load_held h
    exact ⟨held_slots hheld none, fun _ => ⟨hheld, rfl⟩, rfl, .singleton _, nofun⟩
  | step h e ih => exact sound_step ih e

/-- Power-cut safety of the profile store. A load that succeeds returns the selection in force or
that of the interrupted `select`; a `select` that is reported is what a fresh load returns, its
sequence the next one unless the selection was in force already; one that is rejected changes
nothing; and each selection follows the one before as the owners of a device require. -/
theorem profile_power_safe (h : Reach p s) :
    (∀ unreadable store,
      ProfileStore.load p { flash := { bytes := s.bytes }, unreadable } = (true, store) →
      store.selection = s.last ∨ s.next = some store.selection) ∧
    (∀ source profile unreadable power store m,
      s.store.select p source profile { flash := { bytes := s.bytes, power }, unreadable } =
        (true, store, m) →
      ProfileStore.load p { flash := { bytes := m.flash.bytes } } = (true, store) ∧
        store.source = source ∧ store.data = profile ∧
        (store.sequence = s.store.sequence + 1 ∨ store = s.store)) ∧
    (∀ source profile m, rejects p source profile s.store = true →
      s.store.select p source profile m = (false, s.store, m)) ∧
    s.trail.head? = some s.last ∧ s.trail.IsChain fun next prior => Follows p prior next := by
  have hsound := reach_sound h
  refine ⟨fun unreadable store hload => hsound.slots.found (load_held hload),
    fun source profile unreadable power store m hrun => ?_,
    fun source profile m hrejects => select_rejected hrejects m, hsound.head, hsound.chain⟩
  have hhealthy : s.store.healthy = true := by
    cases hs : s.store.healthy with
    | true => rfl
    | false =>
      rw [select_rejected (by simp [rejects, hs])] at hrun
      cases hrun
  have hheld := (hsound.healthy hhealthy).1
  rcases select_spec (held_sequence hheld) hrun with ⟨hok, -⟩ |
      ⟨hadmitted, ⟨-, rfl, rfl, rfl, rfl⟩ | hstored⟩
  · cases hok
  · exact ⟨hheld.load, rfl, rfl, .inr rfl⟩
  · obtain ⟨-, hdone⟩ := stored_spec hheld hadmitted hstored
    obtain ⟨rfl, -⟩ := hstored.done rfl
    exact ⟨(hdone rfl).1.load, rfl, rfl, .inl rfl⟩

theorem scanned_blank (slot : Nat) : Profile.scanned (fun _ => 255) slot = .empty := by
  have hpages : ∀ base pages, scanErased { flash := { bytes := fun _ => 255 } } base pages = .empty := by
    intro base pages
    induction pages with
    | nil => rfl
    | cons page rest ih =>
      unfold scanErased
      rw [Profile.read_plain]
      dsimp only
      rw [if_pos (erased_slice.mpr fun _ _ => rfl), ih]
  unfold Profile.scanned Profile.scan
  simp only [Profile.read_plain]
  rw [if_pos (by rw [erased_slice.mpr fun _ _ => rfl, erased_slice.mpr fun _ _ => rfl]; rfl), hpages]

def noProfiles : Parsers := ⟨fun _ => none, fun _ => none⟩

/-- The power is lost while the second selection erases its slot: a load finds the first. -/
theorem profile_power_safe_cut : ∃ s store, Reach noProfiles s ∧ s.store = {} ∧
    s.next = some ⟨2, .runtimeProfile, [7]⟩ ∧
    ProfileStore.load noProfiles { flash := { bytes := s.bytes } } = (true, store) ∧
    (store.selection = ⟨1, .unprovisioned, []⟩ ∨ s.next = some store.selection) := by
  have hblank : Held noProfiles (fun _ => 255) { healthy := true } :=
    .virgin (scanned_blank 0) (scanned_blank 1)
  let first : ProfileStore := { healthy := true }
  let saved : ProfileStore := { healthy := true, sequence := 1, source := .unprovisioned }
  let s : Profiles := ⟨first, fun _ => 255, first.selection, none, [first.selection]⟩
  have hstart : Reach noProfiles s := .start _ hblank.load
  obtain ⟨m, hsaves⟩ : ∃ m, first.select noProfiles .unprovisioned []
      { flash := { bytes := s.bytes } } = (true, saved, m) :=
    select_saves (by decide) (by decide) (.inl (by decide)) rfl fun _ => rfl
  have hload := ((profile_power_safe hstart).2.1 _ _ (fun _ => false) none _ _ hsaves).1
  have houtside : ∀ a, profileSlotSize ≤ a → m.flash.bytes a = 255 := by
    intro a ha
    rcases select_spec (by decide) hsaves with ⟨hok, -⟩ | ⟨-, ⟨-, -, -, hsource, -⟩ | hstored⟩
    · cases hok
    · cases hsource
    · exact hstored.outside a (.inr ((Nat.zero_mul profileSlotSize).symm ▸ by omega))
  have hbytes : (Nor.Write.erase profileSlotSize profileSlotSize).upTo 300 m.flash.bytes =
      m.flash.bytes := by
    funext a
    show (if profileSlotSize ≤ a ∧ a < profileSlotSize + 300 then 0xff else m.flash.bytes a) = _
    split
    · exact (houtside a (by omega)).symm
    · rfl
  let written : Profiles := { s.inForce saved with bytes := m.flash.bytes }
  have hwritten : s.step noProfiles (.select .unprovisioned [] (fun _ => false) none) = written := by
    show restarted none (s.selected .unprovisioned []
      (first.select noProfiles .unprovisioned [] { flash := { bytes := s.bytes } })) = written
    rw [hsaves]
    rfl
  have hcut : saved.select noProfiles .runtimeProfile [7]
      { flash := { bytes := m.flash.bytes, power := some 300 } } =
        (false, { saved with healthy := false }, { flash :=
          ⟨(Nor.Write.erase profileSlotSize profileSlotSize).upTo 300 m.flash.bytes, some 0⟩ }) := by
    have htarget : saved.target * profileSlotSize = profileSlotSize := Nat.one_mul _
    refine (if_neg (by decide)).trans ((if_neg (by decide)).trans ?_)
    dsimp only
    rw [htarget]
    rfl
  have hreach := (hstart.step (.select .unprovisioned [] (fun _ => false) none)).step
    (.select .runtimeProfile [7] (fun _ => false) (some 300))
  rw [hwritten] at hreach
  simp only [step, hcut, written, inForce, hbytes] at hreach
  exact ⟨_, _, hreach, rfl, rfl, hload, (profile_power_safe hreach).1 _ _ hload⟩

end Profiles

end WsprryPico.Provisioning
