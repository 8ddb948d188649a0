import WsprryPico.Standalone.JournalSpec

/-!
# The journal under power cuts

`Holds` says which record a load may find: the last one committed or, after a cut,
the one whose write was cut. Every operation keeps it, complete or cut short, and
a load that succeeds returns one of the two.
-/

namespace WsprryPico.Standalone

open Lib

section Holds

variable {size target : Nat} {v v' : Nat → Slot} {last new : Entry} {next : Option Entry}

/-- The records of the flash: `last`, older ones, and `next` where its write was
completed before a cut. -/
structure Holds (size : Nat) (v : Nat → Slot) (last : Entry) (next : Option Entry) : Prop where
  distinct : Distinct size v
  known : ∀ offset, IsSlot size offset → ∀ s d, v offset = .record s d →
    (s, d) = last ∨ s < last.1 ∨ some (s, d) = next
  newer : ∀ entry, next = some entry → last.1 < entry.1
  present : last = (0, []) ∨ (∃ offset, IsSlot size offset ∧ v offset = .of last) ∨
    ∃ entry offset, next = some entry ∧ IsSlot size offset ∧ v offset = .of entry

/-- The record of the greatest sequence number is `last` or `next`. -/
theorem Holds.top {j : Journal} (h : Holds size v last next)
    (hupper : ∀ offset, IsSlot size offset → ∀ s d, v offset = .record s d → s ≤ j.sequence)
    (hfound : (j.sequence = 0 ∧ j.data = []) ∨
      (IsSlot size j.latest ∧ v j.latest = .record j.sequence j.data))
    (hpositive : ∀ offset s d, v offset = .record s d → 0 < s) :
    (j.sequence, j.data) = last ∨ some (j.sequence, j.data) = next := by
  rcases hfound with ⟨hzero, hdata⟩ | ⟨hslot, hview⟩
  · left
    rw [hzero, hdata]
    rcases h.present with h | ⟨offset, hslot, hview⟩ | ⟨entry, offset, -, hslot, hview⟩
    · exact h.symm
    · have := hupper offset hslot _ _ hview
      have := hpositive _ _ _ hview
      omega
    · have := hupper offset hslot _ _ hview
      have := hpositive _ _ _ hview
      omega
  · rcases h.known _ hslot _ _ hview with hlast | hlt | hnext
    · exact .inl hlast
    · -- an older record cannot be the greatest
      rcases h.present with h | ⟨offset, hslot', hview'⟩ | ⟨entry, offset, hnext, hslot', hview'⟩
      · rw [h] at hlt
        exact absurd hlt (Nat.not_lt_zero _)
      · have := hupper offset hslot' _ _ hview'
        omega
      · have := hupper offset hslot' _ _ hview'
        have := h.newer entry hnext
        omega
    · exact .inr hnext

/-- What a load finds is the last record from then on. -/
theorem Holds.loaded {j : Journal} (h : Holds size v last next)
    (hupper : ∀ offset, IsSlot size offset → ∀ s d, v offset = .record s d → s ≤ j.sequence)
    (hfound : (j.sequence = 0 ∧ j.data = []) ∨
      (IsSlot size j.latest ∧ v j.latest = .record j.sequence j.data))
    (hpositive : ∀ offset s d, v offset = .record s d → 0 < s) :
    Holds size v (j.sequence, j.data) none where
  distinct := h.distinct
  known := by
    intro o ho s d hv
    rcases Nat.lt_or_eq_of_le (hupper o ho s d hv) with hlt | rfl
    · exact .inr (.inl hlt)
    · rcases hfound with ⟨hzero, -⟩ | ⟨hslot, hview⟩
      · have := hpositive _ _ _ hv
        omega
      · obtain rfl := h.distinct _ _ _ _ _ ho hslot hv hview
        injection hv.symm.trans hview with h1 h2
        exact .inl (by rw [h2])
  newer := nofun
  present := hfound.elim (fun h => .inl (by rw [h.1, h.2])) fun h => .inr (.inl ⟨_, h⟩)

theorem Holds.cut (h : Holds size v last none) (hcut : CutShort size v v' target new)
    (htarget : IsSlot size target) (hnew : last.1 < new.1)
    (hpresent : last = (0, []) ∨ (∃ offset, IsSlot size offset ∧ v' offset = .of last) ∨
      v' target = .of new) :
    Holds size v' last (some new) := by
  have hold : ∀ o s d, IsSlot size o → v' o = .record s d →
      v o = .record s d ∨ (o = target ∧ (s, d) = new) := by
    intro o s d ho hv
    have hdecayed : Decayed (v o) (v' o) → v o = .record s d := by
      rintro (h | h | h)
      · exact h ▸ hv
      · cases h.symm.trans hv
      · cases h.symm.trans hv
    by_cases hne : o = target
    · subst hne
      rcases hcut.written with h | h
      · injection h.symm.trans hv with h1 h2
        exact .inr ⟨rfl, Prod.ext h1.symm h2.symm⟩
      · exact .inl (hdecayed h)
    · exact .inl (hdecayed (hcut.others o ho hne))
  have hbound : ∀ o s d, IsSlot size o → v o = .record s d → s ≤ last.1 := by
    intro o s d ho hv
    rcases h.known o ho s d hv with h | h | h
    · exact Nat.le_of_eq (congrArg Prod.fst h)
    · exact Nat.le_of_lt h
    · cases h
  refine ⟨fun a b s d d' ha hb hva hvb => ?_, fun o ho s d hv => ?_, fun entry he => ?_, ?_⟩
  · rcases hold a s d ha hva with ha' | ⟨rfl, ha'⟩ <;> rcases hold b s d' hb hvb with hb' | ⟨rfl, hb'⟩
    · exact h.distinct a b s d d' ha hb ha' hb'
    · have := hbound a s d ha ha'
      rw [← hb'] at hnew
      omega
    · have := hbound b s d' hb hb'
      rw [← ha'] at hnew
      omega
    · rfl
  · rcases hold o s d ho hv with hv | ⟨-, hv⟩
    · rcases h.known o ho s d hv with h | h | h
      · exact .inl h
      · exact .inr (.inl h)
      · cases h
    · exact .inr (.inr (congrArg some hv))
  · cases he
    exact hnew
  · rcases hpresent with h | h | h
    · exact .inl h
    · exact .inr (.inl h)
    · exact .inr (.inr ⟨new, target, rfl, htarget, h⟩)

/-- Once complete the new record is the last one. -/
theorem Holds.commit (h : Holds size v last (some new)) (htarget : IsSlot size target)
    (hwritten : v target = .of new) : Holds size v new none where
  distinct := h.distinct
  known := by
    intro o ho s d hv
    rcases h.known o ho s d hv with h' | h' | h'
    · exact .inr (.inl (Nat.lt_of_le_of_lt (Nat.le_of_eq (congrArg Prod.fst h')) (h.newer new rfl)))
    · exact .inr (.inl (Nat.lt_trans h' (h.newer new rfl)))
    · exact .inl (Option.some.inj h')
  newer := nofun
  present := .inr (.inl ⟨target, htarget, hwritten⟩)

end Holds

/-- A journal object over its flash. `last` is the record last committed, `next` the one
whose write a power cut interrupted since, and `ordinary` that the journal was opened
without `reset_recovery`. -/
structure Storage where
  journal : Journal
  bytes : Nat → UInt8
  last : Entry := (0, [])
  next : Option Entry := none
  ordinary : Bool := false

/-- The calls of the journal; a cut loses the power after `k` more bytes are written,
and a restart follows it. -/
inductive JournalEvent where
  | load (resetRecovery : Bool)
  | append (data : List UInt8)
  | purge
  | cutAppend (data : List UInt8) (k : Nat)
  | cutPurge (k : Nat)
  | restart

namespace Storage

def flash (s : Storage) : Nor := ⟨s.bytes, none⟩

/-- The journal object after a restart. -/
def fresh (s : Storage) : Journal := { base := s.journal.base, size := s.journal.size }

/-- The record that `append` writes for `data`. -/
def entry (s : Storage) (data : List UInt8) : Entry := (s.journal.sequence + 1, data)

/-- After a call that may have committed a record. -/
def settled (s : Storage) (ok ordinary : Bool) (j : Journal) (f : Nor) : Storage :=
  if ok then
    { journal := j, bytes := f.bytes, last := (j.sequence, j.data), next := none
      ordinary := ordinary }
  else { s with journal := j, bytes := f.bytes }

/-- After a cut in the write of `data`: nothing was under way on an unhealthy journal. -/
def cut (s : Storage) (data : List UInt8) (f : Nor) : Storage :=
  { s with
    journal := s.fresh
    bytes := f.bytes
    next := if s.journal.healthy then some (s.entry data) else s.next }

def step (s : Storage) : JournalEvent → Storage
  | .load reset =>
    s.settled (s.journal.load reset s.flash).1 (!reset) (s.journal.load reset s.flash).2 s.flash
  | .append data =>
    s.settled (s.journal.append data s.flash).1 s.ordinary (s.journal.append data s.flash).2.1
      (s.journal.append data s.flash).2.2
  | .purge =>
    s.settled (s.journal.purgeHistory s.flash).1 true (s.journal.purgeHistory s.flash).2.1
      (s.journal.purgeHistory s.flash).2.2
  | .cutAppend data k => s.cut data (s.journal.append data ⟨s.bytes, some k⟩).2.2
  | .cutPurge k => s.cut s.journal.data (s.journal.purgeHistory ⟨s.bytes, some k⟩).2.2
  | .restart => { s with journal := s.fresh }

/-- No CRC collision in the record a cut interrupts. -/
def CollisionFree (s : Storage) : JournalEvent → Prop
  | .cutAppend data _ => NoCollision s.journal.size
      (encode s.journal.size (s.journal.sequence + 1) data)
  | .cutPurge _ => NoCollision s.journal.size
      (encode s.journal.size (s.journal.sequence + 1) s.journal.data)
  | _ => True

/-- The states reached from erased flash. -/
inductive Reach (base size : Nat) : Storage → Prop where
  | start (bytes : Nat → UInt8) (herased : ∀ i, i < 2 * sectorSize → bytes (base + i) = 255) :
    Reach base size { journal := { base, size }, bytes }
  | step {s : Storage} (h : Reach base size s) (e : JournalEvent) (hcrc : s.CollisionFree e) :
    Reach base size (s.step e)

abbrev slots (s : Storage) : Nat → Slot := view s.journal.base s.journal.size s.bytes

/-- What every call and every cut keeps. -/
structure Sound (base size : Nat) (s : Storage) : Prop where
  same : s.journal.base = base ∧ s.journal.size = size
  holds : Layout base size → Holds size (view base size s.bytes) s.last s.next
  synced : s.journal.healthy = true → Synced s.journal s.bytes ∧
    s.last = (s.journal.sequence, s.journal.data) ∧ s.next = none
  clean : s.journal.healthy = true → s.ordinary = true →
    ∀ offset, IsSlot size offset → view base size s.bytes offset ≠ .torn

variable {base size : Nat} {s : Storage}

theorem view_positive (hlayout : Layout base size) {bytes : Nat → UInt8} :
    ∀ offset q d, view base size bytes offset = .record q d → 0 < q :=
  fun _ _ _ h => (fits_of_classify hlayout.supported h).positive

theorem sound_start {bytes : Nat → UInt8} (herased : ∀ i, i < 2 * sectorSize → bytes (base + i) = 255) :
    Sound base size { journal := { base, size }, bytes } := by
  refine ⟨⟨rfl, rfl⟩, fun hlayout => ?_, nofun, nofun⟩
  have hblank : ∀ o, IsSlot size o → view base size bytes o = .blank := by
    intro o ho
    refine view_blank_iff.mpr fun i hi => ?_
    rw [Nat.add_assoc]
    refine herased _ ?_
    have hslot := (isSlot_iff hlayout.supported).mp ho
    have hsize := hlayout.supported
    unfold sectorSize at *
    rcases hsize with rfl | rfl <;> omega
  refine ⟨fun a _ s d d' ha _ hva _ => ?_, fun o ho s d hv => ?_, nofun, .inl rfl⟩
  · cases (hblank a ha).symm.trans hva
  · cases (hblank o ho).symm.trans hv

theorem Sound.present (h : Sound base size s) (hhealthy : s.journal.healthy = true) :
    s.last = (0, []) ∨ (0 < s.journal.sequence ∧ IsSlot size s.journal.latest ∧
      view base size s.bytes s.journal.latest = .of s.last) := by
  obtain ⟨hsynced, hlast, -⟩ := h.synced hhealthy
  rw [hlast]
  rcases hsynced.found with ⟨hzero, hdata⟩ | ⟨hslot, hview⟩
  · exact .inl (by rw [hzero, hdata])
  · rw [h.same.1, h.same.2] at hview
    rw [h.same.2] at hslot
    have hlayout := hsynced.layout
    rw [h.same.1, h.same.2] at hlayout
    exact .inr ⟨view_positive hlayout _ _ _ hview, hslot, hview⟩

theorem sound_load (h : Sound base size s) (reset : Bool) : Sound base size (s.step (.load reset)) := by
  have hsame := load_same s.journal s.flash reset
  simp only [step, settled]
  split
  · rename_i hok
    have hloaded : Loaded s.flash reset s.journal (s.journal.load reset s.flash).2 :=
      load_sound (Prod.ext hok rfl)
    obtain ⟨hbase, hsize⟩ := h.same
    have hlayout := hloaded.layout
    have hupper := hloaded.upper
    have hfound := hloaded.found
    have hclean := hloaded.clean
    rw [hbase, hsize] at hlayout hupper hfound hclean
    refine ⟨⟨hsame.1.1.trans hbase, hsame.1.2.trans hsize⟩, fun _ => ?_, fun _ => ⟨⟨?_, ?_⟩, rfl, rfl⟩,
      fun _ hreset => hclean (by simpa using hreset)⟩
    · exact (h.holds hlayout).loaded hupper hfound (view_positive hlayout)
    · rw [hsame.1.1, hsame.1.2, hbase, hsize]
      exact hlayout
    · rw [hsame.1.1, hsame.1.2, hbase, hsize]
      exact hfound
  · rename_i hok
    have hunhealthy := hsame.2 (by simpa using hok)
    exact ⟨⟨hsame.1.1.trans h.same.1, hsame.1.2.trans h.same.2⟩, h.holds,
      fun hh => (nomatch hunhealthy.symm.trans hh), fun hh => (nomatch hunhealthy.symm.trans hh)⟩

theorem append_unhealthy {j : Journal} {data : List UInt8} {f : Nor} (h : j.healthy = false) :
    j.append data f = (false, j, f) := by
  unfold Journal.append
  rw [h]
  rfl

theorem purge_unhealthy {j : Journal} {f : Nor} (h : j.healthy = false) :
    j.purgeHistory f = (false, j, f) := by
  unfold Journal.purgeHistory
  rw [h]
  rfl

theorem Appended.cutShort {j : Journal} {f f' : Nor} {target : Nat} {data : List UInt8} {ok : Bool}
    (h : Appended j f target data ok f')
    (hcrc : f.power ≠ none → NoCollision j.size (encode j.size (j.sequence + 1) data)) :
    CutShort j.size (view j.base j.size f.bytes) (view j.base j.size f'.bytes) target
      (j.sequence + 1, data) := by
  rcases h with ⟨-, hview, hothers, -⟩ | ⟨-, hlost, hcut⟩
  · exact ⟨.inl hview, fun o ho hne => (hothers o ho hne).imp_right .inl⟩
  · exact hcut (hcrc hlost)

/-- After a write, complete or cut short, that keeps the latest entry or is complete. -/
theorem Sound.written (h : Sound base size s) (hhealthy : s.journal.healthy = true) {f' : Nor}
    {target : Nat} {data : List UInt8} (htarget : IsSlot size target)
    (hcut : CutShort size (view base size s.bytes) (view base size f'.bytes) target (s.entry data))
    (hpresent : 0 < s.journal.sequence →
      view base size f'.bytes s.journal.latest = view base size s.bytes s.journal.latest ∨
        view base size f'.bytes target = .of (s.entry data))
    (hlayout : Layout base size) :
    Holds size (view base size f'.bytes) s.last (some (s.entry data)) := by
  obtain ⟨-, hlast, hnext⟩ := h.synced hhealthy
  have hholds := h.holds hlayout
  rw [hnext] at hholds
  refine hholds.cut hcut htarget ?_ ?_
  · rw [hlast]
    exact Nat.lt_succ_self _
  · rcases h.present hhealthy with hnone | ⟨hpos, hslot, hview⟩
    · exact .inl hnone
    · rcases hpresent hpos with hkept | hwritten
      · exact .inr (.inl ⟨_, hslot, hkept.trans hview⟩)
      · exact .inr (.inr hwritten)

theorem sound_append (h : Sound base size s) (data : List UInt8) :
    Sound base size (s.step (.append data)) := by
  simp only [step]
  cases hhealthy : s.journal.healthy with
  | false =>
    rw [append_unhealthy hhealthy]
    exact h
  | true =>
    obtain ⟨hsynced, hlast, hnext⟩ := h.synced hhealthy
    obtain ⟨hbase, hsize⟩ := h.same
    rcases hrun : s.journal.append data s.flash with ⟨ok, j', f'⟩
    rcases append_spec (f := s.flash) hsynced hhealthy hrun with
      ⟨rfl, rfl, rfl | ⟨-, hlost⟩⟩ | ⟨target, htarget, hfits, hkept, happended, hj⟩
    · exact h
    · exact absurd rfl hlost
    · have hcut := Appended.cutShort happended fun hlost => absurd rfl hlost
      rcases happended with ⟨rfl, hview, hothers, -⟩ | ⟨-, hlost, -⟩
      · subst hj
        rw [hbase, hsize] at hview hothers hcut hkept
        rw [hsize] at htarget
        have hlayout := hsynced.layout
        rw [hbase, hsize] at hlayout
        refine ⟨⟨hbase, hsize⟩, fun _ => ?_, fun _ => ⟨⟨?_, .inr ⟨?_, ?_⟩⟩, rfl, rfl⟩,
          fun _ hordinary => ?_⟩
        · have hholds := h.written hhealthy htarget hcut (fun hpos => .inl (hkept hpos)) hlayout
          exact hholds.commit htarget hview
        · show Layout s.journal.base s.journal.size
          rw [hbase, hsize]
          exact hlayout
        · show IsSlot s.journal.size target
          rw [hsize]
          exact htarget
        · show view s.journal.base s.journal.size f'.bytes target = _
          rw [hbase, hsize]
          exact hview
        · intro o ho
          by_cases hne : o = target
          · rw [hne]
            exact fun htorn => nomatch hview.symm.trans htorn
          · rcases hothers o ho hne with hv | hv
            · exact fun htorn => h.clean hhealthy hordinary o ho (hv.symm.trans htorn)
            · exact fun htorn => nomatch hv.symm.trans htorn
      · exact absurd rfl hlost

/-- The state after a cut: only the flash counts. -/
theorem sound_cut {data : List UInt8} {f' : Nor} (h : Sound base size s)
    (hholds : s.journal.healthy = true → Layout base size →
      Holds size (view base size f'.bytes) s.last (some (s.entry data)))
    (hbytes : s.journal.healthy = false → f'.bytes = s.bytes) :
    Sound base size (s.cut data f') := by
  refine ⟨h.same, fun hlayout => ?_, nofun, nofun⟩
  simp only [cut]
  cases hhealthy : s.journal.healthy with
  | true => exact hholds hhealthy hlayout
  | false =>
    rw [hbytes hhealthy]
    exact h.holds hlayout

/-- A call that was refused before the power was lost. -/
theorem Sound.offered (h : Sound base size s) (hhealthy : s.journal.healthy = true)
    (hlayout : Layout base size) (data : List UInt8) :
    Holds size (view base size s.bytes) s.last (some (s.entry data)) := by
  obtain ⟨-, hlast, hnext⟩ := h.synced hhealthy
  have hholds := h.holds hlayout
  rw [hnext] at hholds
  refine ⟨hholds.distinct, fun o ho q d hv => ?_, fun entry he => ?_, ?_⟩
  · rcases hholds.known o ho q d hv with h | h | h
    · exact .inl h
    · exact .inr (.inl h)
    · cases h
  · cases he
    rw [hlast]
    exact Nat.lt_succ_self _
  · rcases hholds.present with h | h | ⟨_, _, h, -⟩
    · exact .inl h
    · exact .inr (.inl h)
    · cases h

theorem sound_cutAppend (h : Sound base size s) (data : List UInt8) (k : Nat)
    (hcrc : s.CollisionFree (.cutAppend data k)) : Sound base size (s.step (.cutAppend data k)) := by
  simp only [step]
  rcases hrun : s.journal.append data ⟨s.bytes, some k⟩ with ⟨ok, j', f'⟩
  refine sound_cut h (fun hhealthy hlayout => ?_) fun hhealthy => ?_
  · obtain ⟨hsynced, -, -⟩ := h.synced hhealthy
    obtain ⟨hbase, hsize⟩ := h.same
    rcases append_spec (f := ⟨s.bytes, some k⟩) hsynced hhealthy hrun with
      ⟨-, rfl, -⟩ | ⟨target, htarget, -, hkept, happended, -⟩
    · exact h.offered hhealthy hlayout data
    · have hcut := Appended.cutShort happended fun _ => hcrc
      rw [hbase, hsize] at hcut hkept
      rw [hsize] at htarget
      exact h.written hhealthy htarget hcut (fun hpos => .inl (hkept hpos)) hlayout
  · rw [append_unhealthy hhealthy] at hrun
    obtain ⟨-, -, rfl⟩ := hrun
    rfl

theorem sound_cutPurge (h : Sound base size s) (k : Nat)
    (hcrc : s.CollisionFree (.cutPurge k)) : Sound base size (s.step (.cutPurge k)) := by
  simp only [step]
  rcases hrun : s.journal.purgeHistory ⟨s.bytes, some k⟩ with ⟨ok, j', f'⟩
  refine sound_cut h (fun hhealthy hlayout => ?_) fun hhealthy => ?_
  · obtain ⟨hsynced, -, -⟩ := h.synced hhealthy
    obtain ⟨hbase, hsize⟩ := h.same
    rcases purge_spec (f := ⟨s.bytes, some k⟩) hsynced hrun with
      ⟨-, rfl, -⟩ | ⟨target, htarget, -, ⟨-, -, hcut⟩ | ⟨-, halone, -, -⟩⟩
    · exact h.offered hhealthy hlayout _
    · obtain ⟨hshort, hpresent⟩ := hcut hcrc
      rw [hbase, hsize] at hshort hpresent
      rw [hsize] at htarget
      exact h.written hhealthy htarget hshort (fun _ => hpresent) hlayout
    · rw [hbase, hsize] at halone
      rw [hsize] at htarget
      exact h.written hhealthy htarget halone.cutShort (fun _ => .inr halone.written)
        hlayout
  · rw [purge_unhealthy hhealthy] at hrun
    obtain ⟨-, -, rfl⟩ := hrun
    rfl

theorem sound_purge (h : Sound base size s) : Sound base size (s.step .purge) := by
  simp only [step]
  cases hhealthy : s.journal.healthy with
  | false =>
    rw [purge_unhealthy hhealthy]
    exact h
  | true =>
    obtain ⟨hsynced, hlast, hnext⟩ := h.synced hhealthy
    obtain ⟨hbase, hsize⟩ := h.same
    rcases hrun : s.journal.purgeHistory s.flash with ⟨ok, j', f'⟩
    rcases purge_spec (f := s.flash) hsynced hrun with
      ⟨rfl, rfl, rfl⟩ | ⟨target, htarget, -, ⟨-, hlost, -⟩ | ⟨rfl, halone, -, hload⟩⟩
    · exact h
    · exact absurd rfl hlost
    · have hloaded := load_sound hload
      have hlayout := hloaded.layout
      have hupper := hloaded.upper
      have hfound := hloaded.found
      have hclean := hloaded.clean
      have hsame := hloaded.same
      dsimp only at hlayout hupper hfound hclean hsame
      rw [hbase, hsize] at hlayout hupper hfound hclean hsame halone
      rw [hsize] at htarget
      have hholds := h.written hhealthy htarget halone.cutShort (fun _ => .inr halone.written)
        hlayout
      refine ⟨hsame, fun _ => hholds.loaded hupper hfound (view_positive hlayout),
        fun _ => ⟨⟨?_, ?_⟩, rfl, rfl⟩, fun _ _ => hclean rfl⟩
      · show Layout j'.base j'.size
        rw [hsame.1, hsame.2]
        exact hlayout
      · show _ ∨ (IsSlot j'.size j'.latest ∧ view j'.base j'.size f'.bytes j'.latest = _)
        rw [hsame.1, hsame.2]
        exact hfound

theorem reach_sound (h : Reach base size s) : Sound base size s := by
  induction h with
  | start bytes herased => exact sound_start herased
  | step h e hcrc ih =>
    cases e with
    | load reset => exact sound_load ih reset
    | append data => exact sound_append ih data
    | purge => exact sound_purge ih
    | cutAppend data k => exact sound_cutAppend ih data k hcrc
    | cutPurge k => exact sound_cutPurge ih k hcrc
    | restart => exact ⟨ih.same, ih.holds, nofun, nofun⟩

theorem Sound.load_appended (h : Sound base size s) (hhealthy : s.journal.healthy = true)
    (hordinary : s.ordinary = true) : ∃ j', s.journal.load false s.flash = (true, j') ∧
      (j'.sequence, j'.data) = s.last := by
  obtain ⟨hsynced, -, hnext⟩ := h.synced hhealthy
  obtain ⟨hbase, hsize⟩ := h.same
  have hlayout := hsynced.layout
  rw [hbase, hsize] at hlayout
  have hdistinct := (h.holds hlayout).distinct
  have hclean := h.clean hhealthy hordinary
  rw [← hbase, ← hsize] at hdistinct hclean
  obtain ⟨j', hload⟩ := load_complete (f := s.flash) hsynced.layout rfl hdistinct hclean
  have hloaded := load_sound hload
  have hupper := hloaded.upper
  have hfound := hloaded.found
  rw [hbase, hsize] at hupper hfound
  rcases (h.holds hlayout).top hupper hfound (view_positive hlayout) with hlast | hlast
  · exact ⟨j', hload, hlast⟩
  · cases hlast.trans hnext

/-- Power-cut safety of the journal: a load that succeeds, ordinary or `reset_recovery`,
returns the last record committed or the complete record of the interrupted write; after
an append reported on a journal opened by an ordinary load, an ordinary load returns its
record; after a purge reported an ordinary load returns the same data, and no other slot
holds anything. -/
theorem journal_power_safe (h : Reach base size s) :
    (∀ reset j', s.journal.load reset s.flash = (true, j') →
      (j'.sequence, j'.data) = s.last ∨ some (j'.sequence, j'.data) = s.next) ∧
    (∀ data j' f', s.ordinary = true → s.journal.append data s.flash = (true, j', f') →
      ∃ j'', j'.load false f' = (true, j'') ∧ (j''.sequence, j''.data) = s.entry data) ∧
    (∀ j' f', s.journal.purgeHistory s.flash = (true, j', f') →
      ∃ j'', j'.load false f' = (true, j'') ∧ j''.data = s.journal.data ∧
        ∀ offset, IsSlot size offset → offset ≠ j''.latest →
          ∀ i, i < size → f'.bytes (base + offset + i) = 255) := by
  have hsound := reach_sound h
  refine ⟨fun reset j' hload => ?_, fun data j' f' hordinary hrun => ?_, fun j' f' hrun => ?_⟩
  · have hloaded := load_sound hload
    obtain ⟨hbase, hsize⟩ := hsound.same
    have hlayout := hloaded.layout
    have hupper := hloaded.upper
    have hfound := hloaded.found
    rw [hbase, hsize] at hlayout hupper hfound
    exact (hsound.holds hlayout).top hupper hfound (view_positive hlayout)
  · have hstep : s.step (.append data) =
        { journal := j', bytes := f'.bytes, last := (j'.sequence, j'.data), next := none
          ordinary := s.ordinary } := by
      simp only [step, hrun]
      rfl
    have hnext := sound_append hsound data
    rw [hstep] at hnext
    have hhealthy : s.journal.healthy = true := by
      cases hs : s.journal.healthy with
      | true => rfl
      | false => exact nomatch (append_unhealthy hs).symm.trans hrun
    have hpower : f'.power = none ∧ j'.healthy = true ∧ (j'.sequence, j'.data) = s.entry data := by
      rcases append_spec (f := s.flash) (hsound.synced hhealthy).1 hhealthy hrun with
        ⟨hok, -⟩ | ⟨target, -, -, -, ⟨-, -, -, hkeeps⟩ | ⟨hok, -⟩, hj⟩
      · cases hok
      · rw [hj]
        exact ⟨hkeeps rfl, hhealthy, rfl⟩
      · cases hok
    obtain ⟨j'', hload, hlast⟩ := hnext.load_appended hpower.2.1 hordinary
    refine ⟨j'', ?_, hlast.trans hpower.2.2⟩
    rw [← hload]
    exact congrArg (j'.load false) (congrArg (Nor.mk f'.bytes) hpower.1)
  · have hhealthy : s.journal.healthy = true := by
      cases hs : s.journal.healthy with
      | true => rfl
      | false => exact nomatch (purge_unhealthy hs).symm.trans hrun
    obtain ⟨hbase, hsize⟩ := hsound.same
    rcases purge_spec (f := s.flash) (hsound.synced hhealthy).1 hrun with
      ⟨hok, -⟩ | ⟨target, htarget, -, ⟨hok, -⟩ | ⟨-, halone, hkeeps, hload⟩⟩
    · cases hok
    · cases hok
    · have hsame := (load_sound hload).same
      have hlayout := (load_sound hload).layout
      dsimp only at hsame hlayout
      have halone' : Alone j'.size (view j'.base j'.size f'.bytes) target
          (s.journal.sequence + 1, s.journal.data) := by
        rw [hsame.1, hsame.2]
        exact halone
      have hlayout' : Layout j'.base j'.size := by
        rw [hsame.1, hsame.2]
        exact hlayout
      obtain ⟨j'', hagain⟩ := load_complete hlayout' (hkeeps rfl) halone'.distinct halone'.clean
      obtain ⟨hlatest, hdata⟩ := Alone.loaded (load_sound hagain) halone' (by
        rw [hsame.2]
        exact htarget)
      refine ⟨j'', hagain, hdata, fun offset hslot hne => ?_⟩
      rw [hbase, hsize] at halone
      exact view_blank_iff.mp (halone.others offset hslot fun h => hne (h.trans hlatest.symm))

/-- Erased flash, loaded, and the first record cut after nine bytes. -/
def firstCut : Storage :=
  (({ journal := { base := 8192, size := 256 }, bytes := fun _ => 255 } : Storage).step
    (.load false)).step (.cutAppend [7] 9)

theorem journal_power_safe_cut :
    (∀ reset j', firstCut.journal.load reset firstCut.flash = (true, j') →
      (j'.sequence, j'.data) = firstCut.last ∨ some (j'.sequence, j'.data) = firstCut.next) ∧
    firstCut.last = (0, []) ∧ firstCut.next = some (1, [7]) ∧
    (firstCut.journal.load false firstCut.flash).1 = false := by
  have hreach : Reach 8192 256 firstCut := by
    refine .step (.step (.start _ fun _ _ => rfl) (.load false) trivial) (.cutAppend [7] 9) ?_
    have hsequence : (({ journal := { base := 8192, size := 256 }, bytes := fun _ => 255 } :
        Storage).step (.load false)).journal.sequence = 0 := by decide +kernel
    have hsize : (({ journal := { base := 8192, size := 256 }, bytes := fun _ => 255 } :
        Storage).step (.load false)).journal.size = 256 := by decide +kernel
    show NoCollision _ _
    rw [hsequence, hsize]
    refine noCollision_of ⟨.inl rfl, by decide, by decide, by decide⟩ fun k hk => ?_
    -- in three parts, each of which the kernel evaluates on its own
    have hall : ∀ first ∈ [0, 11, 22], (List.range' first 11).all (fun k =>
        crc32 ((tornRecord k (encode 256 1 [7])).take 252) ≠ 0xffffffff) = true := by
      simp only [List.forall_mem_cons]
      exact ⟨by decide +kernel, by decide +kernel, by decide +kernel, nofun⟩
    have hk : k < 33 := hk
    have hpart := hall (k / 11 * 11) (by
      have : k / 11 = 0 ∨ k / 11 = 1 ∨ k / 11 = 2 := by omega
      rcases this with h | h | h <;> rw [h] <;> decide)
    exact of_decide_eq_true (List.all_eq_true.mp hpart k (List.mem_range'_1.mpr (by omega)))
  refine ⟨(journal_power_safe hreach).1, ?_, ?_, ?_⟩
  · decide +kernel
  · decide +kernel
  · decide +kernel

end Storage

end WsprryPico.Standalone
