import WsprryPico.Lib.FaultyNor
import WsprryPico.Provisioning.ProfileSafe

/-!
# The verdict on a setup

`commit_setup_profile` of `provisioning/network_profile.cpp` on flash whose erases, programs
and reads may fail. What it says of the flash is what a fresh load finds there.
-/

namespace WsprryPico.Provisioning

open Lib Standalone Wtp

/-- Flash with writes that fail, and the offsets that fail to read. -/
structure FaultyMedia where
  flash : FaultyNor
  unreadable : Nat → Bool := fun _ => false

/-- What is read from it. -/
def FaultyMedia.media (m : FaultyMedia) : Media :=
  { flash := m.flash.powered, unreadable := m.unreadable }

/-- `SetupCommitResult`. -/
inductive SetupCommitResult where
  | committed
  | notCommitted
  | reconcile

namespace ProfileStore

open Profile

variable (p : Parsers)

/-- Payload pages, header and commit page, up to the first that fails. -/
def programSlotFaulty (base sequence : Nat) (payload : List UInt8) (f : FaultyNor) :
    Bool × FaultyNor :=
  match f.programPages profilePageSize (pageCount payload) (base + profilePayloadOffset)
      (padded payload) with
  | (false, f) => (false, f)
  | (true, f) =>
    match f.program base (headerPage sequence payload) with
    | (false, f) => (false, f)
    | (true, f) => f.program (base + profileCommitOffset) (commitPage sequence payload)

/-- `ProfileStore::select`, any erase, program or read of which may fail. -/
def selectFaulty (source : ProfileSource) (profile : List UInt8) (store : ProfileStore)
    (m : FaultyMedia) : Bool × ProfileStore × FaultyMedia :=
  if rejects p source profile store then (false, store, m)
  else if source = store.source && profile = store.data && source ≠ .networkOnly then (true, store, m)
  else
    let payload := selectionPayload source profile
    let base := store.target * profileSlotSize
    match m.flash.erase base profileSlotSize with
    | (false, f) => (false, { store with healthy := false }, { m with flash := f })
    | (true, f) =>
      match programSlotFaulty base (store.sequence + 1) payload f with
      | (false, f) => (false, { store with healthy := false }, { m with flash := f })
      | (true, f) =>
        let m := { m with flash := f }
        if readsBack m.media 1 base (headerPage (store.sequence + 1) payload) &&
            readsBack m.media 1 (base + profileCommitOffset)
              (commitPage (store.sequence + 1) payload) &&
            readsBack m.media (pageCount payload) (base + profilePayloadOffset) payload then
          (true, { healthy := true, sequence := store.sequence + 1, activeSlot := store.target,
                   data := profile, source := source }, m)
        else (false, { store with healthy := false }, m)

/-- The verdict on the store behind a selection, by the store before it. -/
def setupVerdict (source : ProfileSource) (payload : List UInt8) (previous after : ProfileStore) :
    SetupCommitResult :=
  let committed := after.healthy && after.sequence = previous.sequence + 1 &&
    after.source = source && after.data = payload
  let unchanged := after.healthy && after.sequence = previous.sequence &&
    after.source = previous.source && after.data = previous.data
  if committed then .committed else if unchanged then .notCommitted else .reconcile

/-- `commit_setup_profile`. The reads of the load are not those of the selection: `reread` are
the offsets that fail there. -/
def commitSetupProfile (source : ProfileSource) (payload : List UInt8) (reread : Nat → Bool)
    (store : ProfileStore) (m : FaultyMedia) : SetupCommitResult × ProfileStore × FaultyMedia :=
  if !store.healthy || payload.isEmpty || store.sequence = 2 ^ 64 - 1 then (.reconcile, store, m)
  else
    let (selected, after, m) := store.selectFaulty p source payload m
    let after := if selected then after else (load p { m.media with unreadable := reread }).2
    (setupVerdict source payload store after, after, m)

end ProfileStore

namespace Profile

open ProfileStore

variable {p : Parsers} {source : ProfileSource} {profile : List UInt8} {store store' : ProfileStore}
  {m m' : FaultyMedia}

theorem programSlotFaulty_done {base sequence : Nat} {payload : List UInt8} {f f' : FaultyNor}
    (h : programSlotFaulty base sequence payload f = (true, f')) :
    programSlot base sequence payload f.powered = (true, f'.powered) := by
  unfold programSlotFaulty at h
  unfold programSlot
  rcases hpages : f.programPages profilePageSize (pageCount payload) (base + profilePayloadOffset)
    (padded payload) with ⟨_ | _, f₁⟩
  · rw [hpages] at h
    cases h
  · rw [hpages] at h
    rw [FaultyNor.programPages_done hpages]
    dsimp only at h ⊢
    rcases hheader : f₁.program base (headerPage sequence payload) with ⟨_ | _, f₂⟩
    · rw [hheader] at h
      cases h
    · rw [hheader] at h
      rw [Nor.program, FaultyNor.write_done hheader]
      exact FaultyNor.write_done h

/-- A selection that succeeds is one whose writes were all done. -/
theorem selectFaulty_done (h : store.selectFaulty p source profile m = (true, store', m')) :
    store.select p source profile m.media = (true, store', m'.media) := by
  unfold selectFaulty at h
  unfold select
  split at h
  · cases h
  rename_i hadmits
  rw [if_neg hadmits]
  split at h
  · rename_i hsame
    obtain ⟨-, rfl, rfl⟩ := h
    rw [if_pos hsame]
  rename_i hdiffers
  rw [if_neg hdiffers]
  dsimp only at h ⊢
  rcases herase : m.flash.erase (store.target * profileSlotSize) profileSlotSize with ⟨_ | _, f₁⟩
  · rw [herase] at h
    cases h
  rw [herase] at h
  have hpowered : m.media.flash = m.flash.powered := rfl
  rw [Nor.erase, hpowered, FaultyNor.write_done herase]
  dsimp only at h ⊢
  rcases hprogram : programSlotFaulty (store.target * profileSlotSize) (store.sequence + 1)
    (selectionPayload source profile) f₁ with ⟨_ | _, f₂⟩
  · rw [hprogram] at h
    cases h
  rw [hprogram] at h
  rw [programSlotFaulty_done hprogram]
  dsimp only at h ⊢
  split at h
  · rename_i hreads
    obtain ⟨-, rfl, rfl⟩ := h
    exact if_pos hreads
  · cases h

theorem programSlotFaulty_smooth {f : FaultyNor} (h : f.faults = []) (base sequence : Nat)
    (payload : List UInt8) : ∃ f', programSlotFaulty base sequence payload f = (true, f') := by
  obtain ⟨f₁, hpages, h₁⟩ := FaultyNor.programPages_smooth h profilePageSize (pageCount payload)
    (base + profilePayloadOffset) (padded payload)
  obtain ⟨f₂, hheader, h₂⟩ :=
    FaultyNor.write_smooth h₁ (.program base (headerPage sequence payload))
  obtain ⟨f₃, hcommit, -⟩ := FaultyNor.write_smooth h₂
    (.program (base + profileCommitOffset) (commitPage sequence payload))
  unfold programSlotFaulty FaultyNor.program
  rw [hpages]
  dsimp only
  rw [hheader]
  exact ⟨f₃, hcommit⟩

/-- Without faults a selection is that of the profile store. -/
theorem selectFaulty_smooth (h : m.flash.faults = []) :
    (store.selectFaulty p source profile m).1 = (store.select p source profile m.media).1 ∧
      (store.selectFaulty p source profile m).2.1 = (store.select p source profile m.media).2.1 := by
  obtain ⟨f₁, herase, h₁⟩ := FaultyNor.write_smooth h
    (.erase (store.target * profileSlotSize) profileSlotSize)
  obtain ⟨f₂, hprogram⟩ := programSlotFaulty_smooth h₁ (store.target * profileSlotSize)
    (store.sequence + 1) (selectionPayload source profile)
  unfold selectFaulty select
  split
  · exact ⟨rfl, rfl⟩
  split
  · exact ⟨rfl, rfl⟩
  have hpowered : m.media.flash = m.flash.powered := rfl
  dsimp only
  rw [FaultyNor.erase, herase, Nor.erase, hpowered, FaultyNor.write_done herase]
  dsimp only
  rw [hprogram, programSlotFaulty_done hprogram]
  dsimp only
  split
  · rename_i hreads
    unfold FaultyMedia.media at hreads ⊢
    dsimp only at hreads ⊢
    rw [if_pos hreads]
    exact ⟨rfl, rfl⟩
  · rename_i hreads
    unfold FaultyMedia.media at hreads ⊢
    dsimp only at hreads ⊢
    rw [if_neg hreads]
    exact ⟨rfl, rfl⟩

end Profile

/-- A store and its flash. -/
structure Setup where
  store : ProfileStore
  bytes : Nat → UInt8

namespace Setup

open Profile ProfileStore

inductive Event where
  | load (unreadable : Nat → Bool)
  | select (source : ProfileSource) (profile : List UInt8)
    (faults : List (Option (Nat → UInt8))) (unreadable : Nat → Bool)
  | commit (source : ProfileSource) (payload : List UInt8)
    (faults : List (Option (Nat → UInt8))) (unreadable reread : Nat → Bool)

/-- The flash as the next operation finds it. -/
def media (s : Setup) (faults : List (Option (Nat → UInt8))) (unreadable : Nat → Bool) : FaultyMedia :=
  { flash := { bytes := s.bytes, faults }, unreadable }

def after (result : ProfileStore × FaultyMedia) : Setup := ⟨result.1, result.2.flash.bytes⟩

def committed (p : Parsers) (s : Setup) (source : ProfileSource) (payload : List UInt8)
    (faults : List (Option (Nat → UInt8))) (unreadable reread : Nat → Bool) :
    SetupCommitResult × Setup :=
  Prod.map id after
    (s.store.commitSetupProfile p source payload reread (s.media faults unreadable))

def step (p : Parsers) (s : Setup) : Event → Setup
  | .load unreadable => { s with store := (ProfileStore.load p (s.media [] unreadable).media).2 }
  | .select source profile faults unreadable =>
    after (s.store.selectFaulty p source profile (s.media faults unreadable)).2
  | .commit source payload faults unreadable reread =>
    (s.committed p source payload faults unreadable reread).2

/-- The states of a store that begins on any flash. -/
inductive Reach (p : Parsers) : Setup → Prop where
  | start (bytes : Nat → UInt8) : Reach p ⟨{}, bytes⟩
  | step {s : Setup} (h : Reach p s) (e : Event) : Reach p (s.step p e)

variable {p : Parsers} {s : Setup} {source : ProfileSource} {payload : List UInt8}
  {faults : List (Option (Nat → UInt8))} {unreadable reread : Nat → Bool}

/-- A store that is healthy has what it says on the flash. -/
def Sound (p : Parsers) (s : Setup) : Prop := s.store.healthy = true → Held p s.bytes s.store

theorem held_load {m : Media} (h : (ProfileStore.load p m).2.healthy = true) :
    Held p m.flash.bytes (ProfileStore.load p m).2 := by
  rcases hload : ProfileStore.load p m with ⟨_ | _, store⟩
  · rw [hload] at h
    cases (load_failed hload).symm.trans h
  · exact load_held hload

theorem held_select (h : Sound p s) {store : ProfileStore} {m : FaultyMedia}
    (hrun : s.store.selectFaulty p source payload (s.media faults unreadable) = (true, store, m)) :
    Held p m.flash.bytes store := by
  have hselect := selectFaulty_done hrun
  cases hhealthy : s.store.healthy with
  | false =>
    rw [Profiles.select_rejected (by simp [rejects, hhealthy])] at hselect
    cases hselect
  | true =>
    have hheld := h hhealthy
    rcases select_spec (Profiles.held_sequence hheld) hselect with ⟨hok, -⟩ |
        ⟨hadmitted, ⟨-, rfl, hm, -⟩ | hstored⟩
    · cases hok
    · have hbytes : m.flash.bytes = s.bytes := congrArg (fun m => m.flash.bytes) hm
      rw [hbytes]
      exact hheld
    · exact ((Profiles.stored_spec hheld hadmitted hstored).2 rfl).1

theorem selectFaulty_failed {store store' : ProfileStore} {m m' : FaultyMedia}
    (hrun : store.selectFaulty p source payload m = (false, store', m')) :
    (store' = store ∧ m' = m) ∨ store'.healthy = false := by
  unfold selectFaulty at hrun
  split at hrun
  · obtain ⟨-, rfl, rfl⟩ := hrun
    exact .inl ⟨rfl, rfl⟩
  split at hrun
  · cases hrun
  dsimp only at hrun
  split at hrun
  · obtain ⟨-, rfl, -⟩ := hrun
    exact .inr rfl
  split at hrun
  · obtain ⟨-, rfl, -⟩ := hrun
    exact .inr rfl
  split at hrun
  · cases hrun
  · obtain ⟨-, rfl, -⟩ := hrun
    exact .inr rfl

theorem sound_select (h : Sound p s) :
    Sound p (after (s.store.selectFaulty p source payload (s.media faults unreadable)).2) := by
  rcases hrun : s.store.selectFaulty p source payload (s.media faults unreadable) with
    ⟨_ | _, store, m⟩
  · rcases selectFaulty_failed hrun with ⟨rfl, rfl⟩ | hfailed
    · exact h
    · exact fun hhealthy => nomatch hfailed.symm.trans hhealthy
  · exact fun _ => held_select h hrun

theorem sound_committed (h : Sound p s) :
    Sound p (s.committed p source payload faults unreadable reread).2 := by
  unfold committed commitSetupProfile
  split
  · exact h
  · rcases hrun : s.store.selectFaulty p source payload (s.media faults unreadable) with
      ⟨_ | _, store, m⟩
    · exact fun hhealthy => held_load hhealthy
    · exact fun _ => held_select h hrun

theorem sound_step (h : Sound p s) (e : Event) : Sound p (s.step p e) := by
  cases e with
  | load unreadable => exact fun hhealthy => held_load hhealthy
  | select => exact sound_select h
  | commit => exact sound_committed h

theorem reach_sound (h : Reach p s) : Sound p s := by
  induction h with
  | start bytes => exact nofun
  | step _ e ih => exact sound_step ih e

theorem setupVerdict_committed {previous found : ProfileStore}
    (h : setupVerdict source payload previous found = .committed) :
    found.healthy = true ∧ found.selection = ⟨previous.sequence + 1, source, payload⟩ := by
  unfold setupVerdict at h
  dsimp only at h
  split at h
  · rename_i hcommitted
    simp only [Bool.and_eq_true, decide_eq_true_eq] at hcommitted
    obtain ⟨⟨⟨hhealthy, hsequence⟩, hsource⟩, hdata⟩ := hcommitted
    refine ⟨hhealthy, ?_⟩
    rw [selection, hsequence, hsource, hdata]
  · split at h <;> exact nomatch h

theorem setupVerdict_notCommitted {previous found : ProfileStore}
    (h : setupVerdict source payload previous found = .notCommitted) :
    found.healthy = true ∧ found.selection = previous.selection := by
  unfold setupVerdict at h
  dsimp only at h
  split at h
  · cases h
  split at h
  · rename_i hunchanged
    simp only [Bool.and_eq_true, decide_eq_true_eq] at hunchanged
    obtain ⟨⟨⟨hhealthy, hsequence⟩, hsource⟩, hdata⟩ := hunchanged
    refine ⟨hhealthy, ?_⟩
    rw [selection, selection, hsequence, hsource, hdata]
  · cases h

theorem committed_verdict :
    let run := s.committed p source payload faults unreadable reread
    run.1 = .reconcile ∨ run.1 = setupVerdict source payload s.store run.2.store := by
  unfold committed commitSetupProfile
  split
  · exact .inl rfl
  · exact .inr rfl

/-- What a fresh load of the flash finds, if it succeeds. -/
def found (p : Parsers) (s : Setup) : Option Selection :=
  match ProfileStore.load p { flash := { bytes := s.bytes } } with
  | (true, store) => some store.selection
  | (false, _) => none

theorem found_of_healthy (h : Sound p s) (hhealthy : s.store.healthy = true) :
    s.found p = some s.store.selection := by
  unfold found
  rw [(h hhealthy).load]

/-- The verdict on a setup is true: what it says of the flash is what a fresh load finds there,
and where neither is found it is to reconcile. -/
theorem setup_commit_truthful (h : Reach p s) (source : ProfileSource) (payload : List UInt8)
    (faults : List (Option (Nat → UInt8))) (unreadable reread : Nat → Bool) :
    let run := s.committed p source payload faults unreadable reread
    let committed : Selection := ⟨s.store.sequence + 1, source, payload⟩
    (run.1 = .committed → run.2.found p = some committed) ∧
    (run.1 = .notCommitted → run.2.found p = some s.store.selection) ∧
    (run.2.found p ≠ some committed → run.2.found p ≠ some s.store.selection →
      run.1 = .reconcile) := by
  intro run committed
  have hsound : Sound p run.2 := sound_committed (reach_sound h)
  have hverdict : run.1 = .reconcile ∨ run.1 = setupVerdict source payload s.store run.2.store :=
    committed_verdict
  have hcommitted : run.1 = .committed → run.2.found p = some committed := by
    intro hrun
    rcases hverdict with hreconcile | hverdict
    · cases hreconcile.symm.trans hrun
    · obtain ⟨hhealthy, hselection⟩ := setupVerdict_committed (hverdict.symm.trans hrun)
      rw [found_of_healthy hsound hhealthy, hselection]
  have hunchanged : run.1 = .notCommitted → run.2.found p = some s.store.selection := by
    intro hrun
    rcases hverdict with hreconcile | hverdict
    · cases hreconcile.symm.trans hrun
    · obtain ⟨hhealthy, hselection⟩ := setupVerdict_notCommitted (hverdict.symm.trans hrun)
      rw [found_of_healthy hsound hhealthy, hselection]
  refine ⟨hcommitted, hunchanged, fun hnew hold => ?_⟩
  cases hrun : run.1 with
  | committed => exact absurd (hcommitted hrun) hnew
  | notCommitted => exact absurd (hunchanged hrun) hold
  | reconcile => rfl

/-- On erased flash a setup is committed, and the load finds it. -/
theorem setup_commit_truthful_committed : ∃ s, Reach Profiles.noProfiles s ∧
    let run := s.committed Profiles.noProfiles .runtimeProfile [7] [] (fun _ => false) fun _ => false
    run.1 = .committed ∧ run.2.found Profiles.noProfiles = some ⟨1, .runtimeProfile, [7]⟩ := by
  let s : Setup := ⟨{ healthy := true }, fun _ => 255⟩
  have hheld : Held Profiles.noProfiles s.bytes s.store :=
    .virgin (Profiles.scanned_blank 0) (Profiles.scanned_blank 1)
  have hload : ∀ store : ProfileStore, (ProfileStore.load Profiles.noProfiles
      ((⟨store, s.bytes⟩ : Setup).media [] fun _ => false).media).2 = s.store :=
    fun _ => congrArg Prod.snd hheld.load
  have hreach := (Reach.start s.bytes).step (p := Profiles.noProfiles) (.load fun _ => false)
  unfold step at hreach
  dsimp only at hreach
  rw [hload] at hreach
  obtain ⟨m', hsaves⟩ := @select_saves Profiles.noProfiles .runtimeProfile [7] s.store
    (s.media [] fun _ => false).media (by decide) (by decide) (.inl (by decide)) rfl fun _ => rfl
  obtain ⟨hselected, hafter⟩ := @selectFaulty_smooth Profiles.noProfiles .runtimeProfile [7] s.store
    (s.media [] fun _ => false) rfl
  rw [hsaves] at hselected hafter
  have hcommitted : (s.committed Profiles.noProfiles .runtimeProfile [7] [] (fun _ => false)
      fun _ => false).1 = .committed := by
    unfold committed commitSetupProfile
    rw [if_neg (by decide)]
    dsimp only [Prod.map, id]
    rw [hselected, if_pos rfl, hafter]
    rfl
  exact ⟨s, hreach, hcommitted, (setup_commit_truthful hreach .runtimeProfile [7] []
    (fun _ => false) fun _ => false).1 hcommitted⟩

end Setup

end WsprryPico.Provisioning
