import WsprryPico.Provisioning.AccessCommit

/-!
# Power-cut safety of the access store

Every history of loads, initializations and replaces of an access store, the power
lost at any point: which record a load returns, and that epochs do not go back.
-/

namespace WsprryPico.Provisioning

open Lib Standalone Wtp

section Load

variable {m : AccessMedia} {store : AccessStore} {ok : Bool}

/-- A load that found a record. -/
structure Loaded (m : AccessMedia) (store : AccessStore) : Prop where
  state : store.state = .healthy
  slot : store.activeSlot < 2
  found : scan m store.activeSlot = .valid store.sequence store.record
  newest : ∀ sequence record, scan m (1 - store.activeSlot) = .valid sequence record →
    sequence < store.sequence
  torn : scan m (1 - store.activeSlot) = .invalid → store.record.reset.pending = true

theorem loadPending_spec (hinvalid : scan m 0 = .invalid ∨ scan m 1 = .invalid)
    (h : AccessStore.loadPending (scan m 0) (scan m 1) = (ok, store)) :
    (ok = false ∧ store = AccessStore.faulted) ∨ (ok = true ∧ Loaded m store) := by
  unfold AccessStore.loadPending at h
  split at h
  · rename_i sequence record hfirst
    have hsecond : scan m 1 = .invalid := by
      rcases hinvalid with hzero | hone
      · cases hzero.symm.trans hfirst
      · exact hone
    rw [hsecond] at h
    split at h
    · rename_i hpending
      obtain ⟨rfl, rfl⟩ := h
      exact .inr ⟨rfl, rfl, Nat.zero_lt_two, hfirst, fun _ _ hv => (nomatch hsecond.symm.trans hv),
        fun _ => hpending⟩
    · obtain ⟨rfl, rfl⟩ := h
      exact .inl ⟨rfl, rfl⟩
  · rename_i sequence record hsecond hnot
    have hfirst : scan m 0 = .invalid := by
      rcases hinvalid with hzero | hone
      · exact hzero
      · cases hone.symm.trans hsecond
    split at h
    · rename_i hpending
      obtain ⟨rfl, rfl⟩ := h
      exact .inr ⟨rfl, rfl, Nat.one_lt_two, hsecond, fun _ _ hv => (nomatch hfirst.symm.trans hv),
        fun _ => hpending⟩
    · obtain ⟨rfl, rfl⟩ := h
      exact .inl ⟨rfl, rfl⟩
  · obtain ⟨rfl, rfl⟩ := h
    exact .inl ⟨rfl, rfl⟩

theorem loadBest_spec (hfirst : scan m 0 ≠ .invalid) (hsecond : scan m 1 ≠ .invalid)
    (h : AccessStore.loadBest (scan m 0) (scan m 1) = (ok, store)) :
    (ok = false ∧ store = AccessStore.faulted) ∨ (ok = true ∧ Loaded m store) := by
  unfold AccessStore.loadBest at h
  split at h
  · rename_i s r s' r' hzero hone
    split at h
    · obtain ⟨rfl, rfl⟩ := h
      exact .inl ⟨rfl, rfl⟩
    · split at h
      · rename_i hgreater
        obtain ⟨rfl, rfl⟩ := h
        refine .inr ⟨rfl, rfl, Nat.one_lt_two, hone, fun _ _ hv => ?_, fun hv => absurd hv hfirst⟩
        obtain ⟨rfl, -⟩ := Candidate.valid.inj (hzero.symm.trans hv)
        exact hgreater
      · obtain ⟨rfl, rfl⟩ := h
        refine .inr ⟨rfl, rfl, Nat.zero_lt_two, hzero, fun _ _ hv => ?_, fun hv => absurd hv hsecond⟩
        obtain ⟨rfl, -⟩ := Candidate.valid.inj (hone.symm.trans hv)
        show s' < s
        omega
  · rename_i s r second hzero hnot
    obtain ⟨rfl, rfl⟩ := h
    exact .inr ⟨rfl, rfl, Nat.zero_lt_two, hzero, fun _ _ hv => absurd hv (hnot _ _),
      fun hv => absurd hv hsecond⟩
  · rename_i s r hone hnot
    obtain ⟨rfl, rfl⟩ := h
    exact .inr ⟨rfl, rfl, Nat.one_lt_two, hone, fun _ _ hv => absurd hv (hnot _ _),
      fun hv => absurd hv hfirst⟩
  · obtain ⟨rfl, rfl⟩ := h
    exact .inl ⟨rfl, rfl⟩

theorem load_spec (h : AccessStore.load m = (ok, store)) :
    (ok = false ∧ store = AccessStore.faulted) ∨
    (ok = true ∧ store = { AccessStore.faulted with state := .erased } ∧
      scan m 0 = .empty ∧ scan m 1 = .empty) ∨
    (ok = true ∧ Loaded m store) := by
  unfold AccessStore.load at h
  dsimp only at h
  split at h
  · rename_i hinvalid
    exact (loadPending_spec hinvalid h).imp_right .inr
  · rename_i hvalid
    rw [not_or] at hvalid
    split at h
    · rename_i hempty
      obtain ⟨rfl, rfl⟩ := h
      exact .inr (.inl ⟨rfl, rfl, hempty⟩)
    · exact (loadBest_spec hvalid.1 hvalid.2 h).imp_right .inr

theorem load_found {slot sequence : Nat} {record : AccessRecord} (hslot : slot < 2)
    (hfound : scan m slot = .valid sequence record)
    (hother : scan m (1 - slot) = .invalid → record.reset.pending = true)
    (hnewest : ∀ s r, scan m (1 - slot) = .valid s r → s < sequence) :
    AccessStore.load m = (true, AccessStore.selected sequence slot record) := by
  have hslots : slot = 0 ∨ slot = 1 := by omega
  rcases hslots with rfl | rfl
  · rw [Nat.sub_zero] at hother hnewest
    unfold AccessStore.load AccessStore.loadPending AccessStore.loadBest
    cases hsecond : scan m 1 with
    | valid s r =>
      have := hnewest s r hsecond
      simp only [hfound]
      rw [if_neg (by simp), if_neg (by simp), if_neg (by omega), if_neg (by omega)]
    | invalid => simp [hfound, hother hsecond]
    | empty => simp [hfound]
    | pending => simp [hfound]
  · rw [Nat.sub_self] at hother hnewest
    unfold AccessStore.load AccessStore.loadPending AccessStore.loadBest
    cases hfirst : scan m 0 with
    | valid s r =>
      have := hnewest s r hfirst
      simp only [hfound]
      rw [if_neg (by simp), if_neg (by simp), if_neg (by omega), if_pos (by omega)]
    | invalid => simp [hfound, hother hfirst]
    | empty => simp [hfound]
    | pending => simp [hfound]

end Load

/-- A store and its flash. `last` is the record in force, `next` the one that an
interrupted write may have left besides it, `floor` the greatest epoch reported. -/
structure Access where
  store : AccessStore
  bytes : Nat → UInt8
  last : Option AccessRecord
  next : Option AccessRecord := none
  floor : UInt64 := 0

namespace Access

inductive Event where
  | load
  /-- `initialize` or, with `first` false, `replace`; `power` is for how many bytes more. -/
  | write (first : Bool) (record : AccessRecord) (unreadable : Nat → Bool) (power : Option Nat)

/-- The media with nothing failing. -/
def media (s : Access) : AccessMedia := { flash := { bytes := s.bytes } }

def write (first : Bool) (record : AccessRecord) (store : AccessStore) (m : AccessMedia) :
    Bool × AccessStore × AccessMedia :=
  if first then store.initializeStore record m else store.replace record m

def loaded (s : Access) : Access :=
  let store := (AccessStore.load s.media).2
  match store.state with
  | .healthy => { s with store := store, last := some store.record, next := none }
  | _ => { s with store := store }

def written (s : Access) (record : AccessRecord) : Bool × AccessStore × AccessMedia → Access
  | (true, store, m) =>
    { store := store, bytes := m.flash.bytes, last := some record
      floor := if s.floor ≤ record.epoch then record.epoch else s.floor }
  | (false, store, m) =>
    { s with
      store := store, bytes := m.flash.bytes
      next := if store = s.store then s.next else some record }

/-- After the loss of power the store starts anew. -/
def restarted (power : Option Nat) (s : Access) : Access :=
  if power = none then s else { s with store := {} }

def step (s : Access) : Event → Access
  | .load => s.loaded
  | .write first record unreadable power =>
    (s.written record
      (write first record s.store { flash := { bytes := s.bytes, power }, unreadable })).restarted power

/-- The histories that begin with a load of flash that succeeds. -/
inductive Reach : Access → Prop where
  | start (bytes : Nat → UInt8)
    (h : (AccessStore.load { flash := { bytes } }).1 = true) :
    Reach (loaded { store := {}, bytes, last := none })
  | step {s : Access} (h : Reach s) (e : Event) : Reach (s.step e)

/-- What the slots hold. -/
inductive Slots (bytes : Nat → UInt8) (next : Option AccessRecord) : Option AccessRecord → Prop where
  | first (hfirst : ∀ sequence record, scanned bytes 0 = .valid sequence record → next = some record)
    (hsecond : scanned bytes 1 = .empty) : Slots bytes next none
  | record {slot sequence : Nat} {record : AccessRecord} (hslot : slot < 2)
    (hfound : scanned bytes slot = .valid sequence record)
    (hother : ∀ s r, scanned bytes (1 - slot) = .valid s r → s < sequence ∨ next = some r) :
    Slots bytes next (some record)

/-- The record of a store, in one slot, and in the other an older one at most. -/
structure Held (bytes : Nat → UInt8) (store : AccessStore) : Prop where
  slot : store.activeSlot < 2
  found : scanned bytes store.activeSlot = .valid store.sequence store.record
  newest : ∀ sequence record, scanned bytes (1 - store.activeSlot) = .valid sequence record →
    sequence < store.sequence
  torn : scanned bytes (1 - store.activeSlot) = .invalid → store.record.reset.pending = true

structure Sound (s : Access) : Prop where
  slots : Slots s.bytes s.next s.last
  floor : ∀ record, s.last = some record ∨ s.next = some record → s.floor ≤ record.epoch
  fresh : s.last = none → s.floor = 0
  healthy : s.store.state = .healthy → s.last = some s.store.record ∧ Held s.bytes s.store
  erased : s.store.state = .erased → s.store = { AccessStore.faulted with state := .erased } ∧
    s.last = none ∧ scanned s.bytes 0 = .empty ∧ scanned s.bytes 1 = .empty

variable {s : Access}

theorem empty_of_scan {m : AccessMedia} {slot : Nat} (h : scan m slot = .empty) :
    scanned m.flash.bytes slot = .empty := by
  rcases scan_cases m slot with hinvalid | hscan
  · cases hinvalid.symm.trans h
  · exact hscan.symm.trans h

theorem Slots.load {bytes : Nat → UInt8} {next last : Option AccessRecord}
    (h : Slots bytes next last) {unreadable : Nat → Bool} {ok : Bool} {store : AccessStore}
    (hload : AccessStore.load { flash := { bytes }, unreadable } = (ok, store)) :
    (ok = false ∧ store = AccessStore.faulted) ∨
    (ok = true ∧ store = { AccessStore.faulted with state := .erased } ∧ last = none ∧
      scanned bytes 0 = .empty ∧ scanned bytes 1 = .empty) ∨
    (ok = true ∧ Loaded { flash := { bytes }, unreadable } store ∧
      (last = some store.record ∨ next = some store.record ∨
        store.record.reset.pending = true ∧ ∃ page, unreadable page = true)) := by
  rcases load_spec hload with hfault | ⟨hok, hstore, hzero, hone⟩ | ⟨hok, hloaded⟩
  · exact .inl hfault
  · have hzero := empty_of_scan hzero
    have hone := empty_of_scan hone
    refine .inr (.inl ⟨hok, hstore, ?_, hzero, hone⟩)
    cases h with
    | first => rfl
    | record hslot hfound hother =>
      rename_i slot _ _
      have hslots : slot = 0 ∨ slot = 1 := by omega
      rcases hslots with rfl | rfl
      · cases hzero.symm.trans hfound
      · cases hone.symm.trans hfound
  · refine .inr (.inr ⟨hok, hloaded, ?_⟩)
    have hactive := valid_of_scan hloaded.found
    have hlt := hloaded.slot
    cases h with
    | first hfirst hsecond =>
      have hslots : store.activeSlot = 0 ∨ store.activeSlot = 1 := by omega
      rcases hslots with hslot | hslot
      · rw [hslot] at hactive
        exact .inr (.inl (hfirst _ _ hactive))
      · rw [hslot] at hactive
        cases hsecond.symm.trans hactive
    | record hslot hfound hother =>
      rename_i slot sequence record
      by_cases heq : store.activeSlot = slot
      · rw [heq] at hactive
        obtain ⟨-, rfl⟩ := Candidate.valid.inj (hfound.symm.trans hactive)
        exact .inl rfl
      · have hslots : store.activeSlot = 1 - slot ∧ 1 - store.activeSlot = slot := by omega
        rw [hslots.1] at hactive
        rcases hother _ _ hactive with holder | hnext
        · rcases scan_cases { flash := { bytes }, unreadable } slot with hinvalid | hscan
          · refine .inr (.inr ⟨hloaded.torn (by rw [hslots.2]; exact hinvalid), ?_⟩)
            by_contra hall
            push Not at hall
            have hreadable : ∀ page, unreadable page = false :=
              fun page => Bool.eq_false_iff.mpr (hall page)
            rw [scan_readable rfl hreadable] at hinvalid
            cases hinvalid.symm.trans hfound
          · have := hloaded.newest sequence record (by rw [hslots.2]; exact hscan.trans hfound)
            omega
        · exact .inr (.inl hnext)

/-- The state after a load, whatever the store was before. -/
theorem sound_loaded (hslots : Slots s.bytes s.next s.last)
    (hfloor : ∀ record, s.last = some record ∨ s.next = some record → s.floor ≤ record.epoch)
    (hfresh : s.last = none → s.floor = 0) : Sound s.loaded := by
  rcases hrun : AccessStore.load s.media with ⟨ok, store⟩
  unfold loaded
  rw [hrun]
  rcases hslots.load hrun with ⟨-, rfl⟩ | ⟨-, rfl, hlast, hzero, hone⟩ | ⟨-, hloaded, hrecord⟩
  · exact ⟨hslots, hfloor, hfresh, nofun, nofun⟩
  · exact ⟨hslots, hfloor, hfresh, nofun, fun _ => ⟨rfl, hlast, hzero, hone⟩⟩
  · dsimp only
    rw [hloaded.state]
    have hfound : scanned s.bytes store.activeSlot = .valid store.sequence store.record :=
      hloaded.found
    refine ⟨.record hloaded.slot hfound fun _ _ hv => .inl (hloaded.newest _ _ hv), ?_,
      nofun, fun _ => ⟨rfl, hloaded.slot, hfound, hloaded.newest, hloaded.torn⟩,
      fun h => (nomatch h.symm.trans hloaded.state)⟩
    intro record hrec
    have heq : record = store.record := by
      rcases hrec with h | h
      · exact (Option.some.inj h).symm
      · cases h
    rw [heq]
    rcases hrecord with h | h | ⟨-, page, h⟩
    · exact hfloor _ (.inl h)
    · exact hfloor _ (.inr h)
    · cases h

theorem Sound.sequence (h : Sound s) (hstate : s.store.state = .healthy ∨ s.store.state = .erased) :
    s.store.sequence < 2 ^ 64 := by
  rcases hstate with hhealthy | herased
  · exact (scanned_bound (h.healthy hhealthy).2.found).2
  · rw [(h.erased herased).1]
    show 0 < 2 ^ 64
    omega

theorem write_spec (h : Sound s) {first : Bool} {record : AccessRecord} {m m' : AccessMedia}
    {ok : Bool} {store' : AccessStore} (hm : m.flash.bytes = s.bytes)
    (hrun : write first record s.store m = (ok, store', m')) :
    (store' = s.store ∧ m' = m ∧ (ok = true → s.store.state = .healthy ∧ s.last = some record)) ∨
    (Committed s.store record m ok store' m' ∧ s.floor ≤ record.epoch ∧
      (s.store.state = .healthy ∨ s.store.state = .erased)) := by
  unfold write at hrun
  split at hrun
  · unfold AccessStore.initializeStore at hrun
    split at hrun
    · obtain ⟨rfl, rfl, rfl⟩ := hrun
      exact .inl ⟨rfl, rfl, nofun⟩
    · rename_i hadmitted
      have herased : s.store.state = .erased := by
        by_contra hne
        exact hadmitted (.inl hne)
      rcases commit_spec (h.sequence (.inr herased)) hrun with ⟨rfl, rfl, rfl, -⟩ | hc
      · exact .inl ⟨rfl, rfl, nofun⟩
      · refine .inr ⟨hc, ?_, .inr herased⟩
        rw [h.fresh (h.erased herased).2.1]
        exact UInt64.zero_le
  · rcases replace_spec (fun hs => (hm ▸ (h.healthy hs).2.found :)) hrun with
      ⟨rfl, rfl, rfl⟩ | ⟨hhealthy, hepoch, ⟨rfl, rfl, rfl, rfl⟩ | ⟨-, hc⟩⟩
    · exact .inl ⟨rfl, rfl, nofun⟩
    · exact .inl ⟨rfl, rfl, fun _ => ⟨hhealthy, (h.healthy hhealthy).1⟩⟩
    · refine .inr ⟨hc, ?_, .inl hhealthy⟩
      exact UInt64.le_trans (h.floor _ (.inl (h.healthy hhealthy).1)) (UInt64.not_lt.mp hepoch)

theorem committed_slots (h : Sound s) {record : AccessRecord} {m m' : AccessMedia} {ok : Bool}
    {store' : AccessStore} (hm : m.flash.bytes = s.bytes)
    (hstate : s.store.state = .healthy ∨ s.store.state = .erased)
    (hc : Committed s.store record m ok store' m') : Slots m'.flash.bytes (some record) s.last := by
  have hvalid : ∀ q r, scanned m'.flash.bytes s.store.target = .valid q r →
      scanned s.bytes s.store.target = .valid q r ∨ some record = some r := by
    intro q r hv
    cases hc.left with
    | untouched hsame =>
      rw [hm] at hsame
      exact .inl (hsame.symm.trans hv)
    | torn hnot => exact absurd hv (hnot q r)
    | written hwritten =>
      obtain ⟨-, rfl⟩ := Candidate.valid.inj (hwritten.symm.trans hv)
      exact .inr rfl
  have hothers := hc.others
  rw [hm] at hothers
  rcases hstate with hhealthy | herased
  · obtain ⟨hlast, hslot, hfound, hnewest, -⟩ := h.healthy hhealthy
    have htarget := target_of_found hfound
    rw [hlast]
    refine .record hslot ((hothers _ ?_).trans hfound) fun q r hv => ?_
    · omega
    · rw [← htarget] at hv
      rcases hvalid q r hv with hold | hnew
      · rw [htarget] at hold
        exact .inl (hnewest q r hold)
      · exact .inr hnew
  · obtain ⟨hstore, hlast, hzero, hone⟩ := h.erased herased
    have htarget : s.store.target = 0 := by rw [hstore]; rfl
    rw [hlast]
    refine .first (fun q r hv => ?_) ((hothers 1 (by omega)).trans hone)
    rw [← htarget] at hv
    rcases hvalid q r hv with hold | hnew
    · rw [htarget] at hold
      cases hzero.symm.trans hold
    · exact hnew

theorem committed_held (h : Sound s) {record : AccessRecord} {m m' : AccessMedia}
    {store' : AccessStore} (hm : m.flash.bytes = s.bytes)
    (hstate : s.store.state = .healthy ∨ s.store.state = .erased)
    (hc : Committed s.store record m true store' m') :
    store' = AccessStore.selected (s.store.sequence + 1) s.store.target record ∧
      Held m'.flash.bytes store' := by
  obtain ⟨hstore, hfound⟩ := hc.done rfl
  have hothers := hc.others
  rw [hm] at hothers
  subst hstore
  refine ⟨rfl, ?_⟩
  rcases hstate with hhealthy | herased
  · obtain ⟨hlast, hslot, hactive, -, -⟩ := h.healthy hhealthy
    have htarget := target_of_found hactive
    have hother : 1 - s.store.target = s.store.activeSlot := by omega
    have hold := (hothers s.store.activeSlot (by omega)).trans hactive
    rw [← hother] at hold
    refine ⟨?_, hfound, fun q r hv => ?_, fun hv => (nomatch hold.symm.trans hv)⟩
    · show s.store.target < 2
      omega
    · obtain ⟨rfl, -⟩ := Candidate.valid.inj (hold.symm.trans hv)
      exact Nat.lt_succ_self _
  · obtain ⟨hstore, -, -, hone⟩ := h.erased herased
    have htarget : s.store.target = 0 := by rw [hstore]; rfl
    have hempty := (hothers 1 (by omega)).trans hone
    have hother : (1 : Nat) = 1 - s.store.target := by omega
    rw [hother] at hempty
    refine ⟨?_, hfound, fun q r hv => (nomatch hempty.symm.trans hv),
      fun hv => (nomatch hempty.symm.trans hv)⟩
    show s.store.target < 2
    omega

theorem Held.slots {bytes : Nat → UInt8} {store : AccessStore} (h : Held bytes store)
    (next : Option AccessRecord) : Slots bytes next (some store.record) :=
  .record h.slot h.found fun _ _ hv => .inl (h.newest _ _ hv)

theorem Held.load {bytes : Nat → UInt8} {store : AccessStore} (h : Held bytes store)
    (hhealthy : store.state = .healthy) :
    AccessStore.load { flash := { bytes } } = (true, store) := by
  rw [load_found h.slot h.found h.torn h.newest]
  unfold AccessStore.selected
  rw [← hhealthy]

/-- Nothing is known besides what is in force. -/
theorem sound_reported {store : AccessStore} {bytes : Nat → UInt8} {record : AccessRecord}
    {floor : UInt64} (hheld : Held bytes store) (hstate : store.state = .healthy)
    (hrecord : store.record = record) (hfloor : floor ≤ record.epoch) :
    Sound { store, bytes, last := some record, floor } := by
  subst hrecord
  refine ⟨hheld.slots none, fun r hr => ?_, nofun, fun _ => ⟨rfl, hheld⟩,
    fun h => (nomatch h.symm.trans hstate)⟩
  rcases hr with hr | hr
  · rw [← Option.some.inj hr]
    exact hfloor
  · cases hr

/-- The history after a write, before the store starts anew if it was cut short. -/
theorem sound_written (h : Sound s) (first : Bool) (record : AccessRecord) {m : AccessMedia}
    (hm : m.flash.bytes = s.bytes) : Sound (s.written record (write first record s.store m)) := by
  have hreported : (if s.floor ≤ record.epoch then record.epoch else s.floor) ≤ record.epoch ∨
      ¬ s.floor ≤ record.epoch := by
    by_cases hle : s.floor ≤ record.epoch
    · rw [if_pos hle]
      exact .inl (UInt64.le_refl _)
    · exact .inr hle
  rcases hrun : write first record s.store m with ⟨ok, store', m'⟩
  rcases write_spec h hm hrun with ⟨rfl, rfl, hlast⟩ | ⟨hc, hfloor, hstate⟩
  · cases ok with
    | false =>
      simp only [written, hm, if_true]
      exact ⟨h.slots, h.floor, h.fresh, h.healthy, h.erased⟩
    | true =>
      obtain ⟨hhealthy, hlast⟩ := hlast rfl
      obtain ⟨hsame, hheld⟩ := h.healthy hhealthy
      simp only [written, hm]
      refine sound_reported hheld hhealthy (Option.some.inj (hsame.symm.trans hlast)) ?_
      exact hreported.resolve_right fun hnot => hnot (h.floor _ (.inl hlast))
  · cases ok with
    | true =>
      obtain ⟨rfl, hheld⟩ := committed_held h hm hstate hc
      exact sound_reported hheld rfl rfl (hreported.resolve_right fun hnot => hnot hfloor)
    | false =>
      have hslots := committed_slots h hm hstate hc
      obtain rfl := hc.failed rfl
      have hne : ({ s.store with state := .fault } : AccessStore) ≠ s.store := by
        intro heq
        have hfault : AccessStoreState.fault = s.store.state := congrArg AccessStore.state heq
        rcases hstate with hs | hs
        · cases hfault.trans hs
        · cases hfault.trans hs
      simp only [written]
      rw [if_neg hne]
      refine ⟨hslots, fun r hr => ?_, h.fresh, nofun, nofun⟩
      rcases hr with hr | hr
      · exact h.floor r (.inl hr)
      · rw [← Option.some.inj hr]
        exact hfloor

theorem sound_step (h : Sound s) (e : Event) : Sound (s.step e) := by
  cases e with
  | load => exact sound_loaded h.slots h.floor h.fresh
  | write first record unreadable power =>
    have hwritten := sound_written h first record
      (m := { flash := { bytes := s.bytes, power }, unreadable }) rfl
    simp only [step, restarted]
    split
    · exact hwritten
    · exact ⟨hwritten.slots, hwritten.floor, hwritten.fresh, nofun,
        nofun⟩

theorem reach_sound (h : Reach s) : Sound s := by
  induction h with
  | start bytes h =>
    rcases hrun : AccessStore.load { flash := { bytes } } with ⟨ok, store⟩
    rw [hrun] at h
    obtain rfl : ok = true := h
    have hloaded : loaded { store := {}, bytes, last := none } = match store.state with
        | .healthy => { store, bytes, last := some store.record }
        | _ => { store, bytes, last := none } := by
      unfold loaded media
      rw [hrun]
    rw [hloaded]
    rcases load_spec hrun with ⟨hok, -⟩ | ⟨-, rfl, hzero, hone⟩ | ⟨-, hfound⟩
    · cases hok
    · have hzero := empty_of_scan hzero
      refine ⟨.first (fun _ _ hv => (nomatch hzero.symm.trans hv)) hone, fun r hr => ?_, fun _ => rfl,
        nofun, fun _ => ⟨rfl, rfl, hzero, hone⟩⟩
      exact UInt64.zero_le
    · rw [hfound.state]
      exact sound_reported ⟨hfound.slot, hfound.found, hfound.newest, hfound.torn⟩ hfound.state rfl
        UInt64.zero_le
  | step h e ih => exact sound_step ih e

def erasedAccess : Access := loaded { store := {}, bytes := fun _ => 255, last := none }

def firstRecord : AccessRecord :=
  { epoch := 1, password := [119, 115, 112, 114, 45, 48, 97, 49, 98, 50, 99] }

def secondRecord : AccessRecord := { firstRecord with epoch := 2 }

theorem erased_initialize : ∃ store m,
    write true firstRecord erasedAccess.store erasedAccess.media = (true, store, m) ∧
      store = AccessStore.selected 1 0 firstRecord ∧ Held m.flash.bytes store ∧
      m.flash.power = none := by
  have hsound : Sound erasedAccess := reach_sound (.start _ (by decide +kernel))
  have hstore : erasedAccess.store = { AccessStore.faulted with state := .erased } := by
    decide +kernel
  have hstate : erasedAccess.store.state = .erased := by rw [hstore]
  rcases hrun : write true firstRecord erasedAccess.store erasedAccess.media with ⟨ok, store, m⟩
  have hcommit : erasedAccess.store.commit firstRecord erasedAccess.media = (ok, store, m) := by
    rw [← hrun, hstore, write, if_pos rfl, AccessStore.initializeStore]
    exact (if_neg (by decide)).symm
  rcases commit_spec (by rw [hstore]; decide) hcommit with ⟨-, -, -, hinvalid | hmax⟩ | hc
  · cases (show validRecord firstRecord = true by decide).symm.trans hinvalid
  · rw [hstore] at hmax
    cases hmax
  · obtain rfl := hc.finishes rfl fun _ => rfl
    have hmedia : erasedAccess.media.flash.bytes = erasedAccess.bytes := by rw [media]
    obtain ⟨hselected, hheld⟩ := committed_held hsound hmedia (.inr hstate) hc
    refine ⟨store, m, rfl, ?_, hheld, hc.powered rfl⟩
    rw [hselected, hstore]
    rfl

/-- Power-cut safety of the access store. A valid record reads back from its page. After
any history a load finds a fault, erased flash, the record in force or the one of the
interrupted write, and where a read fails besides these only a pending reset; the epoch
it finds is not below that of any record whose write was reported; and a write that is
reported is found by the next load. -/
theorem access_power_safe :
    (∀ record, validRecord record = true → deserialize (serialize record) = some record) ∧
    ∀ s, Reach s →
      (∀ unreadable ok store,
        AccessStore.load { flash := { bytes := s.bytes }, unreadable } = (ok, store) →
        store.state = .fault ∨ (store.state = .erased ∧ s.last = none) ∨
          (store.state = .healthy ∧ (s.last = some store.record ∨ s.next = some store.record ∨
            store.record.reset.pending = true ∧ ∃ page, unreadable page = true))) ∧
      (∀ ok store, AccessStore.load s.media = (ok, store) → store.state = .healthy →
        s.floor ≤ store.record.epoch) ∧
      (∀ first record unreadable power store m,
        write first record s.store { flash := { bytes := s.bytes, power }, unreadable } =
          (true, store, m) →
        AccessStore.load { flash := { bytes := m.flash.bytes } } = (true, store) ∧
          store.record = record) := by
  refine ⟨fun record hrecord => deserialize_serialize hrecord, fun s hreach => ?_⟩
  have h := reach_sound hreach
  refine ⟨fun unreadable ok store hload => ?_, fun ok store hload hhealthy => ?_,
    fun first record unreadable power store m hrun => ?_⟩
  · rcases h.slots.load hload with ⟨-, rfl⟩ | ⟨-, rfl, hlast, -⟩ | ⟨-, hloaded, hrecord⟩
    · exact .inl rfl
    · exact .inr (.inl ⟨rfl, hlast⟩)
    · exact .inr (.inr ⟨hloaded.state, hrecord⟩)
  · rcases h.slots.load hload with ⟨-, rfl⟩ | ⟨-, rfl, -⟩ | ⟨-, -, hrecord⟩
    · cases hhealthy
    · cases hhealthy
    · rcases hrecord with hlast | hnext | ⟨-, page, hpage⟩
      · exact h.floor _ (.inl hlast)
      · exact h.floor _ (.inr hnext)
      · cases hpage
  · rcases write_spec h rfl hrun with ⟨rfl, rfl, hlast⟩ | ⟨hc, -, hstate⟩
    · obtain ⟨hhealthy, hlast⟩ := hlast rfl
      obtain ⟨hsame, hheld⟩ := h.healthy hhealthy
      exact ⟨hheld.load hhealthy, Option.some.inj (hsame.symm.trans hlast)⟩
    · obtain ⟨rfl, hheld⟩ := committed_held h rfl hstate hc
      exact ⟨hheld.load rfl, rfl⟩

/-- The power is lost while the second write erases its slot. -/
theorem access_power_safe_cut : ∃ s, Reach s ∧ s.last = some firstRecord ∧
    s.next = some secondRecord ∧
    ∀ ok store, AccessStore.load s.media = (ok, store) → store.state = .healthy →
      s.floor ≤ store.record.epoch ∧ (store.record = firstRecord ∨ store.record = secondRecord) := by
  obtain ⟨store, m, hrun, rfl, -⟩ := erased_initialize
  have herased : Reach erasedAccess := .start _ (by decide +kernel)
  let saved := erasedAccess.written firstRecord (true, AccessStore.selected 1 0 firstRecord, m)
  have hwritten : erasedAccess.step (.write true firstRecord (fun _ => false) none) = saved := by
    unfold media at hrun
    simp only [step, hrun]
    rfl
  have hstore : saved.store = AccessStore.selected 1 0 firstRecord := rfl
  obtain ⟨m', hcut⟩ : ∃ m', write false secondRecord saved.store
      { flash := { bytes := saved.bytes, power := some 300 } } =
        (false, { saved.store with state := .fault }, m') := by
    rw [hstore]
    unfold write AccessStore.replace AccessStore.commit
    rw [if_neg (by decide), if_neg (by decide), if_neg (by decide), if_neg (by decide)]
    exact ⟨_, rfl⟩
  have hreach := (herased.step (.write true firstRecord (fun _ => false) none)).step
    (.write false secondRecord (fun _ => false) (some 300))
  rw [hwritten] at hreach
  simp only [step, hcut] at hreach
  refine ⟨_, hreach, rfl, rfl, fun ok store hload hhealthy => ?_⟩
  obtain ⟨hfound, hfloor, -⟩ := access_power_safe.2 _ hreach
  refine ⟨hfloor ok store hload hhealthy, ?_⟩
  obtain hfault | ⟨-, hlast⟩ | ⟨-, hlast | hnext | ⟨-, page, hpage⟩⟩ :=
    hfound (fun _ => false) ok store hload
  · cases hhealthy.symm.trans hfault
  · cases hlast
  · exact .inl (Option.some.inj hlast).symm
  · exact .inr (Option.some.inj hnext).symm
  · cases hpage

end Access

end WsprryPico.Provisioning
