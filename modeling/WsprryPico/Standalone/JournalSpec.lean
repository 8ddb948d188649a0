import WsprryPico.Standalone.Slots

/-!
# The operations of the journal

One theorem for each operation on flash that may lose its power: what `load` has
found, which slots `append` and `purge_history` wrote, and what a cut leaves of them.
-/

namespace WsprryPico.Standalone

open Lib

/-- A sequence number with its data; no record is `(0, [])`. -/
abbrev Entry := Nat × List UInt8

def Slot.of (entry : Entry) : Slot := .record entry.1 entry.2

section Scan

variable {v : Nat → Slot} {scanned rest : List Nat} {j j' : Journal} {f : Nor}

/-- The journal has the latest record of the slots scanned so far. -/
structure Top (v : Nat → Slot) (scanned : List Nat) (j : Journal) : Prop where
  upper : ∀ offset ∈ scanned, ∀ s d, v offset = .record s d → s ≤ j.sequence
  found : (j.sequence = 0 ∧ j.data = []) ∨
    (j.latest ∈ scanned ∧ v j.latest = .record j.sequence j.data)

/-- No two slots have records of one sequence number. -/
def Distinct (size : Nat) (v : Nat → Slot) : Prop :=
  ∀ a b s d d', IsSlot size a → IsSlot size b → v a = .record s d → v b = .record s d' → a = b

variable (scanned) in
theorem scan_sound {reset ignored ignored' : Bool}
    (hrun : Journal.scan reset f rest (j, ignored) = (true, j', ignored'))
    (htop : Top (view j.base j.size f.bytes) scanned j) :
    Top (view j.base j.size f.bytes) (scanned ++ rest) j' ∧
      (j'.base = j.base ∧ j'.size = j.size) ∧
      (reset = false → ∀ offset ∈ rest, view j.base j.size f.bytes offset ≠ .torn) := by
  induction rest generalizing scanned j ignored with
  | nil =>
    obtain ⟨-, rfl, -⟩ := hrun
    rw [List.append_nil]
    exact ⟨htop, ⟨rfl, rfl⟩, nofun⟩
  | cons offset rest ih =>
    unfold Journal.scan at hrun
    cases hread : f.read (j.base + offset) j.size with
    | none =>
      rw [hread] at hrun
      cases hrun
    | some record =>
      rw [hread] at hrun
      have hview : view j.base j.size f.bytes offset = classify j.size record := by
        rw [Nor.of_read hread]
        rfl
      have hkeep : (∀ s d, view j.base j.size f.bytes offset = .record s d → s ≤ j.sequence) →
          Top (view j.base j.size f.bytes) (scanned ++ [offset]) j := fun h =>
        ⟨fun o ho s d hs => by
          rcases List.mem_append.mp ho with ho | ho
          · exact htop.upper o ho s d hs
          · obtain rfl := List.mem_singleton.mp ho
            exact h s d hs,
          htop.found.imp_right fun h => ⟨List.mem_append_left _ h.1, h.2⟩⟩
      have hassoc : scanned ++ offset :: rest = scanned ++ [offset] ++ rest := by simp
      rw [hassoc]
      cases hslot : classify j.size record with
      | blank =>
        simp only [hslot] at hrun
        have := ih _ hrun (hkeep fun s d h => (nomatch (hview.symm.trans h).symm.trans hslot))
        refine ⟨this.1, this.2.1, fun hr => List.forall_mem_cons.mpr ⟨?_, this.2.2 hr⟩⟩
        rw [hview, hslot]
        exact nofun
      | torn =>
        simp only [hslot] at hrun
        cases hreset : reset with
        | false => simp [hreset] at hrun
        | true =>
          rw [if_pos hreset] at hrun
          have := ih _ hrun (hkeep fun s d h => (nomatch (hview.symm.trans h).symm.trans hslot))
          exact ⟨this.1, this.2.1, nofun⟩
      | record s d =>
        simp only [hslot] at hrun
        rw [hslot] at hview
        split at hrun
        · cases hrun
        · split at hrun
          · rename_i hgt
            have := @ih (scanned ++ [offset])
              { j with sequence := s, latest := offset, data := d } ignored hrun ?_
            · refine ⟨this.1, this.2.1, fun hr => List.forall_mem_cons.mpr ⟨?_, this.2.2 hr⟩⟩
              rw [hview]
              exact nofun
            · refine ⟨fun o ho s' d' hs => ?_, .inr ⟨by simp, hview⟩⟩
              rcases List.mem_append.mp ho with ho | ho
              · exact Nat.le_of_lt (Nat.lt_of_le_of_lt (htop.upper o ho s' d' hs) hgt)
              · obtain rfl := List.mem_singleton.mp ho
                injection hview.symm.trans hs with h1 h2
                exact Nat.le_of_eq h1.symm
          · have := ih _ hrun (hkeep fun s' d' h => by
              injection hview.symm.trans h with h1 h2
              omega)
            refine ⟨this.1, this.2.1, fun hr => List.forall_mem_cons.mpr ⟨?_, this.2.2 hr⟩⟩
            rw [hview]
            exact nofun

theorem scan_complete (rest scanned : List Nat) (j : Journal) (reset ignored : Bool)
    (hsize : j.size = 256 ∨ j.size = 2048)
    (hpower : f.power = none)
    (hfresh : ∀ a ∈ scanned, ∀ b ∈ rest, ∀ s d d', view j.base j.size f.bytes a = .record s d →
      view j.base j.size f.bytes b ≠ .record s d')
    (hrest : rest.Pairwise fun a b => ∀ s d d', view j.base j.size f.bytes a = .record s d →
      view j.base j.size f.bytes b ≠ .record s d')
    (htorn : ∀ offset ∈ rest, view j.base j.size f.bytes offset ≠ .torn)
    (htop : Top (view j.base j.size f.bytes) scanned j) :
    ∃ j', Journal.scan reset f rest (j, ignored) = (true, j', ignored) := by
  induction rest generalizing scanned j with
  | nil => exact ⟨j, rfl⟩
  | cons offset rest ih =>
    have hfresh' : ∀ a ∈ scanned ++ [offset], ∀ b ∈ rest, ∀ s d d',
        view j.base j.size f.bytes a = .record s d →
          view j.base j.size f.bytes b ≠ .record s d' := by
      intro a ha b hb
      rcases List.mem_append.mp ha with ha | ha
      · exact hfresh a ha b (List.mem_cons_of_mem _ hb)
      · obtain rfl := List.mem_singleton.mp ha
        exact (List.pairwise_cons.mp hrest).1 b hb
    have htorn' := (List.forall_mem_cons.mp htorn).2
    have hrest' := (List.pairwise_cons.mp hrest).2
    unfold Journal.scan
    rw [Nor.read_powered hpower]
    have hview : classify j.size (Nor.slice f.bytes (j.base + offset) j.size) =
        view j.base j.size f.bytes offset := rfl
    dsimp only
    cases hslot : view j.base j.size f.bytes offset with
    | torn => exact absurd hslot (List.forall_mem_cons.mp htorn).1
    | blank =>
      simp only [hview, hslot]
      refine ih _ _ hsize hfresh' hrest' htorn' ⟨fun o ho s d hs => ?_, ?_⟩
      · rcases List.mem_append.mp ho with ho | ho
        · exact htop.upper o ho s d hs
        · obtain rfl := List.mem_singleton.mp ho
          cases hslot.symm.trans hs
      · exact htop.found.imp_right fun h => ⟨List.mem_append_left _ h.1, h.2⟩
    | record s d =>
      simp only [hview, hslot]
      have hne : s ≠ j.sequence := by
        rintro rfl
        rcases htop.found with ⟨hzero, -⟩ | ⟨hmem, hfound⟩
        · have := (fits_of_classify hsize (hview.trans hslot)).positive
          omega
        · exact hfresh _ hmem offset List.mem_cons_self _ _ _ hfound hslot
      rw [if_neg hne]
      split
      · rename_i hgt
        refine ih _ { j with sequence := s, latest := offset, data := d } hsize hfresh' hrest'
          htorn' ⟨fun o ho s' d' hs => ?_, .inr ⟨by simp, hslot⟩⟩
        rcases List.mem_append.mp ho with ho | ho
        · exact Nat.le_of_lt (Nat.lt_of_le_of_lt (htop.upper o ho s' d' hs) hgt)
        · obtain rfl := List.mem_singleton.mp ho
          injection hslot.symm.trans hs with h1 h2
          exact Nat.le_of_eq h1.symm
      · refine ih _ _ hsize hfresh' hrest' htorn' ⟨fun o ho s' d' hs => ?_, ?_⟩
        · rcases List.mem_append.mp ho with ho | ho
          · exact htop.upper o ho s' d' hs
          · obtain rfl := List.mem_singleton.mp ho
            injection hslot.symm.trans hs with h1 h2
            omega
        · exact htop.found.imp_right fun h => ⟨List.mem_append_left _ h.1, h.2⟩

end Scan

section Load

variable {j j' : Journal} {f : Nor} {reset : Bool}

/-- The layouts a journal works with. -/
structure Layout (base size : Nat) : Prop where
  supported : size = 256 ∨ size = 2048
  aligned : base % sectorSize = 0
  base : base ≤ 8192

/-- What a load that succeeds has found. -/
structure Loaded (f : Nor) (reset : Bool) (j j' : Journal) : Prop where
  layout : Layout j.base j.size
  same : j'.base = j.base ∧ j'.size = j.size
  healthy : j'.healthy = true
  upper : ∀ offset, IsSlot j.size offset → ∀ s d,
    view j.base j.size f.bytes offset = .record s d → s ≤ j'.sequence
  found : (j'.sequence = 0 ∧ j'.data = []) ∨
    (IsSlot j.size j'.latest ∧
      view j.base j.size f.bytes j'.latest = .record j'.sequence j'.data)
  clean : reset = false → ∀ offset, IsSlot j.size offset → view j.base j.size f.bytes offset ≠ .torn

theorem scan_same (f : Nor) (reset : Bool) (rest : List Nat) (ignored : Bool) (j : Journal) :
    (Journal.scan reset f rest (j, ignored)).2.1.base = j.base ∧
      (Journal.scan reset f rest (j, ignored)).2.1.size = j.size ∧
      (Journal.scan reset f rest (j, ignored)).2.1.healthy = j.healthy := by
  induction rest generalizing j ignored with
  | nil => exact ⟨rfl, rfl, rfl⟩
  | cons offset rest ih =>
    unfold Journal.scan
    split
    · exact ⟨rfl, rfl, rfl⟩
    · split
      · exact ih _ _
      · split
        · exact ih _ _
        · exact ⟨rfl, rfl, rfl⟩
      · split
        · exact ⟨rfl, rfl, rfl⟩
        · split
          · exact ih _ _
          · exact ih _ _

variable (j f reset) in
theorem load_same : ((j.load reset f).2.base = j.base ∧ (j.load reset f).2.size = j.size) ∧
    ((j.load reset f).1 = false → (j.load reset f).2.healthy = false) := by
  have hscan := scan_same f reset (Journal.offsets j.size) false
    { j with healthy := false, sequence := 0, data := [] }
  unfold Journal.load
  dsimp only
  split
  · exact ⟨⟨rfl, rfl⟩, fun _ => rfl⟩
  · split
    · rename_i hrun
      rw [hrun] at hscan
      exact ⟨⟨hscan.1, hscan.2.1⟩, fun _ => hscan.2.2⟩
    · rename_i hrun
      rw [hrun] at hscan
      split
      · exact ⟨⟨hscan.1, hscan.2.1⟩, fun _ => hscan.2.2⟩
      · exact ⟨⟨hscan.1, hscan.2.1⟩, nofun⟩

theorem load_sound (h : j.load reset f = (true, j')) : Loaded f reset j j' := by
  unfold Journal.load at h
  dsimp only at h
  split at h
  · cases h
  · rename_i hlayout
    have hlayout : Layout j.base j.size := by
      refine ⟨?_, ?_, ?_⟩ <;> omega
    split at h
    · cases h
    · rename_i top ignored hscan
      split at h
      · cases h
      · obtain rfl := (Prod.mk.inj h).2
        have hsound := scan_sound [] hscan
          ⟨nofun, .inl ⟨rfl, rfl⟩⟩
        obtain ⟨htop, hsame, hclean⟩ := hsound
        exact ⟨hlayout, hsame, rfl, fun o ho => htop.upper o (mem_offsets.mpr ho),
          htop.found.imp_right fun h => ⟨mem_offsets.mp h.1, h.2⟩,
          fun hr o ho => hclean hr o (mem_offsets.mpr ho)⟩

theorem load_complete (hlayout : Layout j.base j.size) (hpower : f.power = none)
    (hdistinct : Distinct j.size (view j.base j.size f.bytes))
    (hclean : ∀ offset, IsSlot j.size offset → view j.base j.size f.bytes offset ≠ .torn) :
    ∃ j', j.load false f = (true, j') := by
  have hpos : 0 < j.size := by rcases hlayout.supported with h | h <;> omega
  have hrun := scan_complete (Journal.offsets j.size) []
    { j with healthy := false, sequence := 0, data := [] } false false hlayout.supported hpower
    nofun ?_ (fun o ho => hclean o (mem_offsets.mp ho)) ⟨nofun, .inl ⟨rfl, rfl⟩⟩
  · obtain ⟨top, hscan⟩ := hrun
    refine ⟨{ top with healthy := true }, ?_⟩
    have hnot : ¬ ((j.size ≠ 256 ∧ j.size ≠ 2048) ∨ j.base % sectorSize ≠ 0 ∨ j.base > 8192) := by
      have := hlayout.supported
      have := hlayout.aligned
      have := hlayout.base
      omega
    unfold Journal.load
    dsimp only
    rw [if_neg hnot, hscan]
    rfl
  · refine List.pairwise_map.mpr (List.pairwise_lt_range.imp_of_mem fun {a b} ha hb hlt s d d' h h' => ?_)
    have hsame := hdistinct _ _ s d d' ⟨a, List.mem_range.mp ha, rfl⟩
      ⟨b, List.mem_range.mp hb, rfl⟩ h h'
    exact absurd (Nat.eq_of_mul_eq_mul_right hpos hsame) (Nat.ne_of_lt hlt)

end Load

section Programs

variable {target : Nat} {j j' : Journal} {data : List UInt8} {f f' : Nor} {ok : Bool}

/-- A record programmed on an erased slot: reported and there, or cut short. -/
structure Programmed (j : Journal) (f : Nor) (target : Nat) (data : List UInt8) (ok : Bool)
    (f' : Nor) : Prop where
  others : ∀ offset, IsSlot j.size offset → offset ≠ target →
    view j.base j.size f'.bytes offset = view j.base j.size f.bytes offset
  ends : (ok = true ∧ view j.base j.size f'.bytes target = .record (j.sequence + 1) data ∧
      (f.power = none → f'.power = none)) ∨
    (ok = false ∧ f.power ≠ none ∧ (NoCollision j.size (encode j.size (j.sequence + 1) data) →
      view j.base j.size f'.bytes target = .record (j.sequence + 1) data ∨
        Decayed .blank (view j.base j.size f'.bytes target)))

theorem programRecord_spec (hfits : Fits j.size (j.sequence + 1) data) (htarget : IsSlot j.size target)
    (hblank : view j.base j.size f.bytes target = .blank)
    (hrun : j.programRecord data target f = (ok, f')) :
    Programmed j f target data ok f' ∧ (ok = true →
      Nor.slice f'.bytes (j.base + target) j.size = encode j.size (j.sequence + 1) data) := by
  have hlength := length_encode hfits
  have hpages : (encode j.size (j.sequence + 1) data).length = j.size / 256 * 256 := by
    rw [hlength]
    rcases hfits.supported with h | h <;> omega
  have hspec : Nor.Wrote (.program (j.base + target) (encode j.size (j.sequence + 1) data)) f
      (j.programRecord data target f).1 (j.programRecord data target f).2 :=
    Nor.programPages_spec _ f hpages
  rw [hrun] at hspec
  rcases hspec with ⟨hok, hbytes, hpower⟩ | ⟨hok, ⟨k, hk, hbytes⟩, hpower⟩
  · rw [Nor.Write.size, hlength] at hbytes
    refine ⟨⟨fun o ho hne => ?_, .inl ⟨hok, ?_, hpower⟩⟩, fun _ => ?_⟩
    · rw [hbytes]
      exact program_outside (Nat.le_refl _) htarget ho hne
    · rw [hbytes]
      exact program_done hfits hblank
    · rw [hbytes, slice_program _ hlength hblank (Nat.le_refl _), tornRecord_whole hlength]
  · rw [Nor.Write.size, hlength] at hk
    refine ⟨⟨fun o ho hne => ?_, .inr ⟨hok, hpower, fun hcrc => ?_⟩⟩,
      fun h => (by cases hok.symm.trans h)⟩
    · rw [hbytes]
      exact program_outside (Nat.le_of_lt hk) htarget ho hne
    · rw [hbytes]
      exact program_cut hfits hcrc hblank (Nat.le_of_lt hk)

theorem verified_of_slice (hpower : f'.power = none)
    (hbytes : Nor.slice f'.bytes (j.base + target) j.size = encode j.size (j.sequence + 1) data) :
    j.verified data target f' = true := by
  unfold Journal.verified
  rw [Nor.read_powered hpower, hbytes]
  exact decide_eq_true rfl

/-- A record that is there but could not be read back. -/
theorem Programmed.unverified (h : Programmed j f target data true f')
    (hpower : f'.power ≠ none) : Programmed j f target data false f' := by
  refine ⟨h.others, .inr ⟨rfl, fun hnone => ?_, fun _ => ?_⟩⟩
  · rcases h.ends with ⟨-, -, hkeeps⟩ | ⟨hok, -⟩
    · exact hpower (hkeeps hnone)
    · cases hok
  · rcases h.ends with ⟨-, hview, -⟩ | ⟨hok, -⟩
    · exact .inl hview
    · cases hok

theorem writeRecord_spec (hfits : Fits j.size (j.sequence + 1) data) (htarget : IsSlot j.size target)
    (hblank : view j.base j.size f.bytes target = .blank)
    (hrun : j.writeRecord data target f = (ok, j', f')) :
    Programmed j f target data ok f' ∧ j' =
      if ok then { j with latest := target, sequence := j.sequence + 1, data := data }
      else { j with healthy := false } := by
  unfold Journal.writeRecord at hrun
  rcases hprogram : j.programRecord data target f with ⟨_ | _, g⟩
  · rw [hprogram] at hrun
    obtain ⟨rfl, rfl, rfl⟩ := hrun
    exact ⟨(programRecord_spec hfits htarget hblank hprogram).1, rfl⟩
  · have hspec := programRecord_spec hfits htarget hblank hprogram
    rw [hprogram] at hrun
    dsimp only at hrun
    split at hrun
    · obtain ⟨rfl, rfl, rfl⟩ := hrun
      exact ⟨hspec.1, rfl⟩
    · rename_i hverified
      obtain ⟨rfl, rfl, rfl⟩ := hrun
      exact ⟨hspec.1.unverified fun hnone => hverified (verified_of_slice hnone (hspec.2 rfl)), rfl⟩

end Programs

section Operations

variable {v v' : Nat → Slot} {size target : Nat} {new : Entry} {j j' : Journal} {data : List UInt8}
  {f f' : Nor} {ok : Bool}

/-- The write of a record to `target`, cut short anywhere: a torn or erased slot where
it was not completed, and other slots erased for it. -/
structure CutShort (size : Nat) (v v' : Nat → Slot) (target : Nat) (new : Entry) : Prop where
  written : v' target = .of new ∨ Decayed (v target) (v' target)
  others : ∀ offset, IsSlot size offset → offset ≠ target → Decayed (v offset) (v' offset)

theorem Decayed.trans {a b c : Slot} (h : Decayed a b) (h' : Decayed b c) : Decayed a c := by
  rcases h' with rfl | rfl | rfl
  · exact h
  · exact .inr (.inl rfl)
  · exact .inr (.inr rfl)

/-- An operation that wrote a record to `target`: reported, with nothing torn by it, or
cut short. -/
def Appended (j : Journal) (f : Nor) (target : Nat) (data : List UInt8) (ok : Bool) (f' : Nor) : Prop :=
  (ok = true ∧ view j.base j.size f'.bytes target = .record (j.sequence + 1) data ∧
    (∀ offset, IsSlot j.size offset → offset ≠ target →
      view j.base j.size f'.bytes offset = view j.base j.size f.bytes offset ∨
        view j.base j.size f'.bytes offset = .blank) ∧
    (f.power = none → f'.power = none)) ∨
  (ok = false ∧ f.power ≠ none ∧
    (NoCollision j.size (encode j.size (j.sequence + 1) data) →
      CutShort j.size (view j.base j.size f.bytes) (view j.base j.size f'.bytes) target
        (j.sequence + 1, data)))

/-- A record programmed on flash `g`, of which some slots were erased before. -/
theorem Programmed.appended {g : Nor} (h : Programmed j g target data ok f')
    (herase : ∀ offset, IsSlot j.size offset → offset ≠ target →
      view j.base j.size g.bytes offset = view j.base j.size f.bytes offset ∨
        view j.base j.size g.bytes offset = .blank)
    (hpower : f.power = none → g.power = none) : Appended j f target data ok f' := by
  rcases h.ends with ⟨hok, hview, hkeeps⟩ | ⟨hok, hlost, hcut⟩
  · refine .inl ⟨hok, hview, fun o ho hne => ?_, fun h => hkeeps (hpower h)⟩
    rw [h.others o ho hne]
    exact herase o ho hne
  · refine .inr ⟨hok, fun h => hlost (hpower h), fun hcrc => ⟨(hcut hcrc).imp_right fun h => ?_,
      fun o ho hne => ?_⟩⟩
    · rcases h with h | h
      · exact .inr (.inl h)
      · exact .inr h
    · rw [h.others o ho hne]
      exact (herase o ho hne).imp_right .inl

/-- The journal knows its latest record. -/
structure Synced (j : Journal) (bytes : Nat → UInt8) : Prop where
  layout : Layout j.base j.size
  found : (j.sequence = 0 ∧ j.data = []) ∨
    (IsSlot j.size j.latest ∧ view j.base j.size bytes j.latest = .record j.sequence j.data)

theorem findErased_spec {count offset o : Nat} (h : j.findErased f count offset = some (some o)) :
    view j.base j.size f.bytes o = .blank ∧ ∃ i, i < count ∧ o = offset + i * j.size := by
  induction count generalizing offset with
  | zero => exact nomatch h
  | succ count ih =>
    unfold Journal.findErased at h
    split at h
    · cases h
    · rename_i record hread
      split at h
      · rename_i herased
        cases Option.some.inj h
        refine ⟨?_, 0, by omega, by omega⟩
        rw [Nor.of_read hread] at herased
        exact if_pos herased
      · obtain ⟨hblank, i, hi, rfl⟩ := ih h
        refine ⟨hblank, i + 1, by omega, ?_⟩
        rw [Nat.add_mul]
        omega

theorem isSlot_iff {offset : Nat} (hsize : size = 256 ∨ size = 2048) :
    IsSlot size offset ↔ offset % size = 0 ∧ offset < 2 * sectorSize := by
  unfold IsSlot sectorSize
  constructor
  · rintro ⟨n, hn, rfl⟩
    rcases hsize with rfl | rfl <;> omega
  · rintro ⟨hmod, hlt⟩
    refine ⟨offset / size, ?_, ?_⟩ <;> rcases hsize with rfl | rfl <;> omega

theorem sector_isSlot {sector : Nat} (hsize : size = 256 ∨ size = 2048)
    (hsector : sector = 0 ∨ sector = sectorSize) : IsSlot size sector := by
  rw [isSlot_iff hsize]
  unfold sectorSize at *
  rcases hsize with rfl | rfl <;> rcases hsector with rfl | rfl <;> omega

theorem Synced.latest_slot (hs : Synced j f.bytes) (h : 0 < j.sequence) :
    IsSlot j.size j.latest := by
  rcases hs.found with ⟨hzero, -⟩ | ⟨hslot, -⟩
  · omega
  · exact hslot

theorem Synced.other_bank (hs : Synced j f.bytes) (h : 0 < j.sequence) :
    ((1 - j.latest / sectorSize) * sectorSize = 0 ∨
      (1 - j.latest / sectorSize) * sectorSize = sectorSize) ∧
    (j.latest + j.size ≤ (1 - j.latest / sectorSize) * sectorSize ∨
      (1 - j.latest / sectorSize) * sectorSize + sectorSize ≤ j.latest) := by
  rcases hs.found with ⟨hzero, -⟩ | ⟨hslot, -⟩
  · omega
  · have hlatest := (isSlot_iff hs.layout.supported).mp hslot
    unfold sectorSize at *
    rcases hs.layout.supported with hsize | hsize <;> rw [hsize] at hlatest ⊢ <;> omega

theorem Synced.bank_le (hs : Synced j f.bytes) (h : 0 < j.sequence) :
    j.latest / sectorSize = 0 ∨ j.latest / sectorSize = 1 := by
  have hlatest := ((isSlot_iff hs.layout.supported).mp (hs.latest_slot h)).2
  have hlt : j.latest / sectorSize < 2 := (Nat.div_lt_iff_lt_mul (by decide)).mpr hlatest
  generalize j.latest / sectorSize = bank at hlt ⊢
  omega

theorem Synced.own_bank (hs : Synced j f.bytes) (h : 0 < j.sequence) :
    j.latest / sectorSize * sectorSize = 0 ∨ j.latest / sectorSize * sectorSize = sectorSize := by
  rcases hs.bank_le h with hbank | hbank
  · exact .inl (by rw [hbank, Nat.zero_mul])
  · exact .inr (by rw [hbank, Nat.one_mul])

theorem Synced.banks (hs : Synced j f.bytes) (h : 0 < j.sequence) :
    (1 - j.latest / sectorSize) * sectorSize + sectorSize = j.latest / sectorSize * sectorSize ∨
      j.latest / sectorSize * sectorSize + sectorSize = (1 - j.latest / sectorSize) * sectorSize := by
  rcases hs.bank_le h with hbank | hbank
  · exact .inr (by rw [hbank, Nat.zero_mul, Nat.one_mul, Nat.zero_add])
  · exact .inl (by rw [hbank, Nat.sub_self, Nat.zero_mul, Nat.one_mul, Nat.zero_add])

theorem IsSlot.other_bank {offset sector bank : Nat} (hsize : size = 256 ∨ size = 2048)
    (ho : IsSlot size offset) (hsector : sector = 0 ∨ sector = sectorSize)
    (hbank : bank = 0 ∨ bank = sectorSize)
    (happart : sector + sectorSize = bank ∨ bank + sectorSize = sector)
    (hout : offset + size ≤ bank ∨ bank + sectorSize ≤ offset) :
    sector ≤ offset ∧ offset + size ≤ sector + sectorSize := by
  have hbound := ((isSlot_iff hsize).mp ho).2
  have hside := ho.bank hsize hsector
  unfold sectorSize at *
  omega

theorem Synced.fits (hs : Synced j f.bytes) (hmax : j.sequence ≠ Journal.maxSequence)
    (hlength : data.length ≤ j.size - 64) : Fits j.size (j.sequence + 1) data := by
  refine ⟨hs.layout.supported, by omega, ?_, hlength⟩
  unfold Journal.maxSequence at hmax
  rcases hs.found with ⟨hzero, -⟩ | ⟨-, hview⟩
  · omega
  · have := (fits_of_classify hs.layout.supported hview).bound
    omega

theorem findErased_powered {count offset : Nat} (h : j.findErased f count offset = none) :
    f.power ≠ none := by
  induction count generalizing offset with
  | zero => exact nomatch h
  | succ count ih =>
    unfold Journal.findErased at h
    split at h
    · rename_i hread
      intro hpower
      rw [Nor.read_powered hpower] at hread
      cases hread
    · split at h
      · cases h
      · exact ih h

/-- The slots `append` looks through: those behind the latest record in its bank. -/
theorem Synced.free_slot (hs : Synced j f.bytes) {i : Nat}
    (h : i < ((j.bank + 1) * sectorSize -
      (if j.sequence = 0 then 0 else j.latest + j.size)) / j.size) :
    IsSlot j.size ((if j.sequence = 0 then 0 else j.latest + j.size) + i * j.size) ∧
      (0 < j.sequence →
        j.latest ≠ (if j.sequence = 0 then 0 else j.latest + j.size) + i * j.size) := by
  have hsize := hs.layout.supported
  rw [isSlot_iff hsize]
  unfold Journal.bank at h
  by_cases hzero : j.sequence = 0
  · rw [if_pos hzero] at h ⊢
    rw [if_pos hzero] at h
    unfold sectorSize at *
    rcases hsize with hsize | hsize <;> rw [hsize] at h ⊢ <;> omega
  · have hlatest := (isSlot_iff hsize).mp (hs.latest_slot (by omega))
    rw [if_neg hzero] at h ⊢
    rw [if_neg hzero] at h
    unfold sectorSize at *
    rcases hsize with hsize | hsize <;> rw [hsize] at h hlatest ⊢ <;> omega

/-- What an operation that erases the bank at `sector` first has done when the erase ends. -/
theorem erase_spec {sector : Nat} {g : Nor} (hsize : j.size = 256 ∨ j.size = 2048)
    (hsector : sector = 0 ∨ sector = sectorSize)
    (hrun : f.erase (j.base + sector) sectorSize = (ok, g)) :
    (∀ offset, IsSlot j.size offset →
      Decayed (view j.base j.size f.bytes offset) (view j.base j.size g.bytes offset)) ∧
    (∀ offset, offset + j.size ≤ sector ∨ sector + sectorSize ≤ offset →
      view j.base j.size g.bytes offset = view j.base j.size f.bytes offset) ∧
    ((ok = true ∧ (∀ offset, sector ≤ offset ∧ offset + j.size ≤ sector + sectorSize →
        view j.base j.size g.bytes offset = .blank) ∧
        (∀ i, i < sectorSize → g.bytes (j.base + sector + i) = 255) ∧
        (f.power = none → g.power = none)) ∨
      (ok = false ∧ f.power ≠ none)) := by
  have hspec := Nor.write_spec (.erase (j.base + sector) sectorSize) f
  rw [show f.write (.erase (j.base + sector) sectorSize) = (ok, g) from hrun] at hspec
  rcases hspec with ⟨hok, hbytes, hpower⟩ | ⟨hok, ⟨k, hk, hbytes⟩, hpower⟩
  · refine ⟨fun o ho => ?_, fun o ho => ?_, .inl ⟨hok, fun o ho => ?_, fun i hi => ?_, hpower⟩⟩
    · rw [hbytes]
      exact erase_decays hsize hsector (Nat.le_refl _) ho
    · rw [hbytes]
      exact erase_outside (Nat.le_refl _) ho
    · rw [hbytes]
      exact erase_blank ho
    · rw [hbytes]
      exact if_pos ⟨by omega, by simp only [Nor.Write.size]; omega⟩
  · refine ⟨fun o ho => ?_, fun o ho => ?_, .inr ⟨hok, hpower⟩⟩
    · rw [hbytes]
      exact erase_decays hsize hsector (Nat.le_of_lt hk) ho
    · rw [hbytes]
      exact erase_outside (Nat.le_of_lt hk) ho

/-- `append`: refused, or a record written to a slot other than the latest, which stays. -/
theorem append_spec (hs : Synced j f.bytes) (hhealthy : j.healthy = true)
    (hrun : j.append data f = (ok, j', f')) :
    (ok = false ∧ f' = f ∧ (j' = j ∨ (j' = { j with healthy := false } ∧ f.power ≠ none))) ∨
    ∃ target, IsSlot j.size target ∧ Fits j.size (j.sequence + 1) data ∧
      (0 < j.sequence → view j.base j.size f'.bytes j.latest = view j.base j.size f.bytes j.latest) ∧
      Appended j f target data ok f' ∧ j' =
        if ok then { j with latest := target, sequence := j.sequence + 1, data := data }
        else { j with healthy := false } := by
  have hsize := hs.layout.supported
  unfold Journal.append at hrun
  split at hrun
  · obtain ⟨rfl, rfl, rfl⟩ := hrun
    exact .inl ⟨rfl, rfl, .inl rfl⟩
  rename_i hadmitted
  simp only [hhealthy, Bool.not_true, Bool.false_or, Bool.or_eq_true, decide_eq_true_eq,
    not_or, Nat.not_lt, gt_iff_lt] at hadmitted
  have hfits := hs.fits hadmitted.2 hadmitted.1
  dsimp only at hrun
  split at hrun
  · -- a read failed: the power is gone
    rename_i hfind
    obtain ⟨rfl, rfl, rfl⟩ := hrun
    exact .inl ⟨rfl, rfl, .inr ⟨rfl, findErased_powered hfind⟩⟩
  · -- an erased slot of the current bank
    rename_i target hfind
    obtain ⟨hblank, i, hi, rfl⟩ := findErased_spec hfind
    have hfree := hs.free_slot hi
    obtain ⟨hprogrammed, hj⟩ := writeRecord_spec hfits hfree.1 hblank hrun
    exact .inr ⟨_, hfree.1, hfits, fun hpos => hprogrammed.others _ (hs.latest_slot hpos)
      (hfree.2 hpos), hprogrammed.appended (fun o _ _ => .inl rfl) fun h => h, hj⟩
  · -- the other bank, erased first
    let sector := (1 - j.bank) * sectorSize
    have hsector : sector = 0 ∨ sector = sectorSize := by
      have : j.bank = 0 ∨ 1 ≤ j.bank := by omega
      rcases this with h | h
      · exact .inr (by simp only [sector, h]; omega)
      · exact .inl (by simp only [sector, Nat.sub_eq_zero_of_le h, Nat.zero_mul])
    have htarget := sector_isSlot hsize hsector
    have hkept : 0 < j.sequence → j.latest + j.size ≤ sector ∨ sector + sectorSize ≤ j.latest := by
      intro hpos
      have hbank : j.bank = j.latest / sectorSize := if_neg (by omega)
      simp only [sector, hbank]
      exact (hs.other_bank hpos).2
    rcases herase : f.erase (j.base + sector) sectorSize with ⟨erased, g⟩
    obtain ⟨hdecays, houtside, hends⟩ := erase_spec hsize hsector herase
    simp only [sector] at herase
    rw [herase] at hrun
    rcases hends with ⟨rfl, hblank, -, hpower⟩ | ⟨rfl, hpower⟩
    · have hall : ∀ o, IsSlot j.size o → view j.base j.size g.bytes o = view j.base j.size f.bytes o ∨
          view j.base j.size g.bytes o = .blank := fun o ho =>
        (ho.bank hsize hsector).imp (houtside o) (hblank o)
      have htop : sector ≤ sector ∧ sector + j.size ≤ sector + sectorSize := by
        unfold sectorSize
        omega
      obtain ⟨hprogrammed, hj⟩ := writeRecord_spec hfits htarget (hblank sector htop) hrun
      refine .inr ⟨sector, htarget, hfits, fun hpos => ?_,
        hprogrammed.appended (fun o ho _ => hall o ho) hpower, hj⟩
      have hne : j.latest ≠ sector := by
        have := hkept hpos
        unfold sectorSize at this
        omega
      rw [hprogrammed.others _ (hs.latest_slot hpos) hne]
      exact houtside _ (hkept hpos)
    · obtain ⟨rfl, rfl, rfl⟩ := hrun
      exact .inr ⟨sector, htarget, hfits, fun hpos => houtside _ (hkept hpos),
        .inr ⟨rfl, hpower, fun _ => ⟨.inr (hdecays _ htarget), fun o ho _ => hdecays o ho⟩⟩, rfl⟩

theorem blankPages_of {g : Nor} {sector : Nat} (hpower : g.power = none)
    (h : ∀ i, i < sectorSize → g.bytes (sector + i) = 255) : Journal.blankPages g sector = true := by
  unfold Journal.blankPages
  rw [List.all_eq_true]
  intro page hpage
  have hpage := List.mem_range.mp hpage
  rw [Nor.read_powered hpower]
  refine erased_slice.mpr fun i hi => ?_
  rw [Nat.add_assoc]
  refine h _ ?_
  unfold sectorSize at *
  omega

/-- The only record of the flash is at `target`. -/
structure Alone (size : Nat) (v : Nat → Slot) (target : Nat) (new : Entry) : Prop where
  written : v target = .of new
  others : ∀ offset, IsSlot size offset → offset ≠ target → v offset = .blank

theorem Alone.loaded {reset : Bool} (hloaded : Loaded f reset j j')
    (h : Alone j.size (view j.base j.size f.bytes) target new) (htarget : IsSlot j.size target) :
    j'.latest = target ∧ j'.data = new.2 := by
  have hupper := hloaded.upper target htarget _ _ h.written
  have hpositive := (fits_of_classify hloaded.layout.supported h.written).positive
  rcases hloaded.found with ⟨hzero, -⟩ | ⟨hslot, hview⟩
  · omega
  · have hlatest : j'.latest = target := by
      by_cases hne : j'.latest = target
      · exact hne
      · cases (h.others _ hslot hne).symm.trans hview
    rw [hlatest] at hview
    injection h.written.symm.trans hview with h1 h2
    exact ⟨hlatest, h2.symm⟩

theorem Alone.distinct (h : Alone size v target new) : Distinct size v := by
  have hat : ∀ o s d, IsSlot size o → v o = .record s d → o = target := by
    intro o s d ho hv
    by_cases hne : o = target
    · exact hne
    · cases (h.others o ho hne).symm.trans hv
  intro a b s d d' ha hb hva hvb
  rw [hat a s d ha hva, hat b s d' hb hvb]

theorem Alone.clean (h : Alone size v target new) : ∀ offset, IsSlot size offset → v offset ≠ .torn := by
  intro o ho
  by_cases hne : o = target
  · rw [hne, h.written]
    exact nofun
  · rw [h.others o ho hne]
    exact nofun

theorem Alone.cutShort {v₀ : Nat → Slot} (h : Alone size v target new) :
    CutShort size v₀ v target new :=
  ⟨.inl h.written, fun o ho hne => .inr (.inl (h.others o ho hne))⟩

variable (target new) in
theorem eraseOriginal_spec {original : Nat} (hlayout : Layout j.base j.size)
    (horiginal : original * sectorSize = 0 ∨ original * sectorSize = sectorSize)
    (htarget : target + j.size ≤ original * sectorSize ∨
      original * sectorSize + sectorSize ≤ target)
    (hwritten : view j.base j.size f.bytes target = .of new)
    (hothers : ∀ offset, IsSlot j.size offset → offset ≠ target →
      offset + j.size ≤ original * sectorSize ∨ original * sectorSize + sectorSize ≤ offset →
      view j.base j.size f.bytes offset = .blank)
    (hrun : j.eraseOriginal original f = (ok, j', f')) :
    (ok = false ∧ f.power ≠ none ∧ view j.base j.size f'.bytes target = .of new ∧
      ∀ offset, IsSlot j.size offset →
        Decayed (view j.base j.size f.bytes offset) (view j.base j.size f'.bytes offset)) ∨
    (ok = true ∧ Alone j.size (view j.base j.size f'.bytes) target new ∧
      (f.power = none → f'.power = none) ∧ j.load false f' = (true, j')) := by
  have hsize := hlayout.supported
  unfold Journal.eraseOriginal at hrun
  rcases herase : f.erase (j.base + original * sectorSize) sectorSize with ⟨erased, g⟩
  obtain ⟨hdecays, houtside, hends⟩ := erase_spec hsize horiginal herase
  rw [herase] at hrun
  have hkept := (houtside target htarget).trans hwritten
  rcases hends with ⟨rfl, hblank, hbytes, hpower⟩ | ⟨rfl, hpower⟩
  · have halone : Alone j.size (view j.base j.size g.bytes) target new := by
      refine ⟨hkept, fun o ho hne => ?_⟩
      rcases ho.bank hsize horiginal with hout | hin
      · exact (houtside o hout).trans (hothers o ho hne hout)
      · exact hblank o hin
    dsimp only at hrun
    split at hrun
    · rename_i hpages
      obtain ⟨rfl, rfl, rfl⟩ := hrun
      refine .inl ⟨rfl, fun hnone => ?_, hkept, hdecays⟩
      rw [blankPages_of (hpower hnone) hbytes] at hpages
      cases hpages
    · rcases hload : j.load false g with ⟨_ | _, top⟩
      · rw [hload] at hrun
        obtain ⟨rfl, rfl, rfl⟩ := hrun
        refine .inl ⟨rfl, fun hnone => ?_, hkept, hdecays⟩
        obtain ⟨_, hok⟩ := load_complete hlayout (hpower hnone) halone.distinct halone.clean
        cases hload.symm.trans hok
      · rw [hload] at hrun
        obtain ⟨rfl, rfl, rfl⟩ := hrun
        exact .inr ⟨rfl, halone, hpower, hload⟩
  · obtain ⟨rfl, rfl, rfl⟩ := hrun
    exact .inl ⟨rfl, hpower, hkept, hdecays⟩

/-- A purge cut short: the latest record is still there or the new one complete. -/
structure PurgeCut (j : Journal) (f : Nor) (target : Nat) (f' : Nor) : Prop where
  short : CutShort j.size (view j.base j.size f.bytes) (view j.base j.size f'.bytes) target
    (j.sequence + 1, j.data)
  present : view j.base j.size f'.bytes j.latest = view j.base j.size f.bytes j.latest ∨
    view j.base j.size f'.bytes target = .record (j.sequence + 1) j.data

/-- `purge_history`: refused, cut short, or done with the new record alone. -/
theorem purge_spec (hs : Synced j f.bytes) (hrun : j.purgeHistory f = (ok, j', f')) :
    (ok = false ∧ f' = f ∧ j' = j) ∨
    ∃ target, IsSlot j.size target ∧ Fits j.size (j.sequence + 1) j.data ∧
      ((ok = false ∧ f.power ≠ none ∧ (NoCollision j.size (encode j.size (j.sequence + 1) j.data) →
          PurgeCut j f target f')) ∨
        (ok = true ∧ Alone j.size (view j.base j.size f'.bytes) target (j.sequence + 1, j.data) ∧
          (f.power = none → f'.power = none) ∧
          { j with latest := target, sequence := j.sequence + 1 }.load false f' = (true, j'))) := by
  have hsize := hs.layout.supported
  unfold Journal.purgeHistory at hrun
  split at hrun
  · obtain ⟨rfl, rfl, rfl⟩ := hrun
    exact .inl ⟨rfl, rfl, rfl⟩
  rename_i hadmitted
  simp only [Bool.or_eq_true, decide_eq_true_eq, not_or] at hadmitted
  have hpos : 0 < j.sequence := by omega
  have hlatest := hs.latest_slot hpos
  have hfound : view j.base j.size f.bytes j.latest = .record j.sequence j.data := by
    rcases hs.found with ⟨hzero, -⟩ | ⟨-, h⟩
    · omega
    · exact h
  have hfits := hs.fits hadmitted.2 (fits_of_classify hsize hfound).length
  obtain ⟨hsector, hother⟩ := hs.other_bank hpos
  have horiginal := hs.own_bank hpos
  have happart := hs.banks hpos
  dsimp only at hrun
  generalize hsec : (1 - j.latest / sectorSize) * sectorSize = sector at *
  have htarget := sector_isSlot hsize hsector
  have hne : j.latest ≠ sector := by
    unfold sectorSize at hother
    omega
  refine .inr ⟨sector, htarget, hfits, ?_⟩
  rcases herase : f.erase (j.base + sector) sectorSize with ⟨erased, g⟩
  obtain ⟨hdecays, houtside, hends⟩ := erase_spec hsize hsector herase
  rw [herase] at hrun
  rcases hends with ⟨rfl, hblank, -, hpower⟩ | ⟨rfl, hpower⟩
  · have htop : sector ≤ sector ∧ sector + j.size ≤ sector + sectorSize := by
      unfold sectorSize
      omega
    have hall : ∀ o, IsSlot j.size o → view j.base j.size g.bytes o = view j.base j.size f.bytes o ∨
        view j.base j.size g.bytes o = .blank := fun o ho =>
      (ho.bank hsize hsector).imp (houtside o) (hblank o)
    -- before the old bank is erased the latest record stays
    have hcut : ∀ {g' : Nor}, Programmed j g sector j.data false g' → f.power ≠ none ∧
        (NoCollision j.size (encode j.size (j.sequence + 1) j.data) → PurgeCut j f sector g') := by
      intro g' h
      rcases h.appended (fun o ho _ => hall o ho) hpower with ⟨hok, -⟩ | ⟨-, hlost, hcut⟩
      · cases hok
      · refine ⟨hlost, fun hcrc => ⟨hcut hcrc, .inl ?_⟩⟩
        rw [h.others _ hlatest hne]
        exact houtside _ hother
    dsimp only at hrun
    rcases hprogram : j.programRecord j.data sector g with ⟨_ | _, g'⟩
    · rw [hprogram] at hrun
      obtain ⟨rfl, rfl, rfl⟩ := hrun
      exact .inl ⟨rfl, hcut (programRecord_spec hfits htarget (hblank sector htop) hprogram).1⟩
    · obtain ⟨hprogrammed, hslice⟩ :=
        programRecord_spec hfits htarget (hblank sector htop) hprogram
      rw [hprogram] at hrun
      dsimp only at hrun
      split at hrun
      · rename_i hverified
        obtain ⟨rfl, rfl, rfl⟩ := hrun
        refine .inl ⟨rfl, hcut (hprogrammed.unverified fun hnone => ?_)⟩
        rw [verified_of_slice hnone (hslice rfl)] at hverified
        cases hverified
      · rcases hprogrammed.ends with ⟨-, hwritten, hkeeps⟩ | ⟨hok, -⟩
        · have hin : sector + j.size ≤ j.latest / sectorSize * sectorSize ∨
              j.latest / sectorSize * sectorSize + sectorSize ≤ sector := by
            have := htop.2
            omega
          have hrest : ∀ o, IsSlot j.size o → o ≠ sector →
              o + j.size ≤ j.latest / sectorSize * sectorSize ∨
                j.latest / sectorSize * sectorSize + sectorSize ≤ o →
              view j.base j.size g'.bytes o = .blank := by
            intro o ho hneo hout
            rw [hprogrammed.others o ho hneo]
            exact hblank o (ho.other_bank hsize hsector horiginal happart hout)
          have hend := eraseOriginal_spec sector (j.sequence + 1, j.data)
            (j := { j with latest := sector, sequence := j.sequence + 1 })
            hs.layout horiginal hin hwritten hrest hrun
          rcases hend with ⟨hok, hlost, hkept, hdecays'⟩ | ⟨hok, halone, hkeeps', hload⟩
          · refine .inl ⟨hok, fun hnone => hlost (hkeeps (hpower hnone)), fun _ =>
              ⟨⟨.inl hkept, fun o ho hne => ?_⟩, .inr hkept⟩⟩
            refine Decayed.trans ?_ (hdecays' o ho)
            rw [hprogrammed.others o ho hne]
            exact (hall o ho).imp_right .inl
          · exact .inr ⟨hok, halone, fun hnone => hkeeps' (hkeeps (hpower hnone)), hload⟩
        · cases hok
  · obtain ⟨rfl, rfl, rfl⟩ := hrun
    exact .inl ⟨rfl, hpower, fun _ => ⟨⟨.inr (hdecays _ htarget), fun o ho _ => hdecays o ho⟩,
      .inl (houtside _ hother)⟩⟩

end Operations

end WsprryPico.Standalone
