import WsprryPico.Standalone.JournalSpec

/-!
# A journal loaded again

`load` with torn records ignored, whatever the flash held before: a journal that
was loaded and appended to is what the next load finds. The scan refuses a record
that repeats the largest sequence number so far; `Rising` says that none does.
-/

namespace WsprryPico.Standalone

open Lib

section Rising

variable {v v' : Nat → Slot} {pre rest : List Nat} {m M : Nat}

/-- No record of the scan repeats the largest sequence number before it, `m` at the start. -/
def Rising (v : Nat → Slot) : List Nat → Nat → Prop
  | [], _ => True
  | offset :: rest, m =>
    match v offset with
    | .record s _ => s ≠ m ∧ Rising v rest (max m s)
    | _ => Rising v rest m

theorem rising_of_lt (h : ∀ offset ∈ rest, ∀ s d, v offset = .record s d → s < m) :
    Rising v rest m := by
  induction rest with
  | nil => trivial
  | cons offset rest ih =>
    have hrest := ih (List.forall_mem_cons.1 h).2
    unfold Rising
    cases hslot : v offset with
    | blank => exact hrest
    | torn => exact hrest
    | record s d =>
      have hlt := h offset List.mem_cons_self s d hslot
      refine ⟨Nat.ne_of_lt hlt, ?_⟩
      rw [Nat.max_eq_left (Nat.le_of_lt hlt)]
      exact hrest

/-- A prefix that stays, before slots that rise from any bound of it. -/
theorem Rising.extend {old : List Nat} (h : Rising v (pre ++ old) m) (hm : m ≤ M)
    (hupper : ∀ offset ∈ pre, ∀ s d, v offset = .record s d → s ≤ M)
    (hsame : ∀ offset ∈ pre, v' offset = v offset)
    (hrest : ∀ k, k ≤ M → Rising v' rest k) : Rising v' (pre ++ rest) m := by
  induction pre generalizing m with
  | nil => exact hrest m hm
  | cons offset pre ih =>
    have hnext := fun k (hk : k ≤ M) (h : Rising v (pre ++ old) k) =>
      ih h hk (List.forall_mem_cons.1 hupper).2
        (List.forall_mem_cons.1 hsame).2
    rw [List.cons_append] at h ⊢
    unfold Rising at h ⊢
    rw [hsame offset List.mem_cons_self]
    cases hslot : v offset with
    | blank =>
      rw [hslot] at h
      exact hnext m hm h
    | torn =>
      rw [hslot] at h
      exact hnext m hm h
    | record s d =>
      rw [hslot] at h
      exact ⟨h.1, hnext _ (Nat.max_le.mpr ⟨hm, hupper offset List.mem_cons_self s d hslot⟩) h.2⟩

end Rising

section Scan

variable {rest : List Nat} {j j' : Journal} {f : Nor} {ignored ignored' : Bool}

theorem scan_rising (h : Journal.scan true f rest (j, ignored) = (true, j', ignored')) :
    Rising (view j.base j.size f.bytes) rest j.sequence := by
  induction rest generalizing j ignored with
  | nil => trivial
  | cons offset rest ih =>
    unfold Journal.scan at h
    cases hread : f.read (j.base + offset) j.size with
    | none =>
      rw [hread] at h
      cases h
    | some record =>
      rw [hread] at h
      have hview : view j.base j.size f.bytes offset = classify j.size record := by
        rw [Nor.of_read hread]
        rfl
      unfold Rising
      rw [hview]
      cases hslot : classify j.size record with
      | blank =>
        simp only [hslot] at h
        exact ih h
      | torn =>
        simp only [hslot] at h
        exact ih h
      | record s d =>
        simp only [hslot] at h
        split at h
        · cases h
        · rename_i hne
          refine ⟨hne, ?_⟩
          split at h
          · rename_i hgt
            have hrest := ih h
            rwa [Nat.max_eq_right (Nat.le_of_lt hgt)]
          · rename_i hle
            rw [Nat.max_eq_left (Nat.le_of_not_lt hle)]
            exact ih h

variable (ignored) in
theorem scan_of_rising (hpower : f.power ≠ some 0)
    (h : Rising (view j.base j.size f.bytes) rest j.sequence) :
    ∃ j' ignored', Journal.scan true f rest (j, ignored) = (true, j', ignored') := by
  induction rest generalizing j ignored with
  | nil => exact ⟨j, ignored, rfl⟩
  | cons offset rest ih =>
    have hread : f.read (j.base + offset) j.size =
        some (Nor.slice f.bytes (j.base + offset) j.size) := if_neg hpower
    unfold Journal.scan
    rw [hread]
    have hview : classify j.size (Nor.slice f.bytes (j.base + offset) j.size) =
        view j.base j.size f.bytes offset := rfl
    unfold Rising at h
    dsimp only
    rw [hview]
    cases hslot : view j.base j.size f.bytes offset with
    | blank =>
      rw [hslot] at h
      exact ih ignored h
    | torn =>
      rw [hslot] at h
      exact ih true h
    | record s d =>
      rw [hslot] at h
      dsimp only
      rw [if_neg h.1]
      split
      · rename_i hgt
        have hrest := h.2
        rw [Nat.max_eq_right (Nat.le_of_lt hgt)] at hrest
        exact ih ignored (j := { j with sequence := s, latest := offset, data := d }) hrest
      · rename_i hle
        have hrest := h.2
        rw [Nat.max_eq_left (Nat.le_of_not_lt hle)] at hrest
        exact ih ignored hrest

end Scan

section Current

variable {j j' k : Journal} {f f' : Nor} {data : List UInt8}

/-- The journal is what a load of the flash finds. -/
structure Current (j : Journal) (bytes : Nat → UInt8) : Prop where
  synced : Synced j bytes
  upper : ∀ offset, IsSlot j.size offset → ∀ s d,
    view j.base j.size bytes offset = .record s d → s ≤ j.sequence
  rising : Rising (view j.base j.size bytes) (Journal.offsets j.size) 0

theorem load_current (h : j.load true f = (true, j')) : Current j' f.bytes := by
  have hloaded := load_sound h
  obtain ⟨hbase, hsize⟩ := hloaded.same
  have hrising : Rising (view j.base j.size f.bytes) (Journal.offsets j.size) 0 := by
    unfold Journal.load at h
    dsimp only at h
    split at h
    · cases h
    · split at h
      · cases h
      · rename_i hscan
        exact scan_rising hscan
  refine ⟨⟨?_, ?_⟩, ?_, ?_⟩
  · rw [hbase, hsize]
    exact hloaded.layout
  · rw [hbase, hsize]
    exact hloaded.found
  · rw [hbase, hsize]
    exact hloaded.upper
  · rw [hbase, hsize]
    exact hrising

/-- A load finds the journal again where its latest record is the only one of its number. -/
theorem Current.loaded (h : Current j f.bytes) (hhealthy : j.healthy = true)
    (hpos : 0 < j.sequence) (hunique : ∀ offset, IsSlot j.size offset → ∀ d,
      view j.base j.size f.bytes offset = .record j.sequence d → offset = j.latest)
    (hbase : k.base = j.base) (hsize : k.size = j.size) (hpower : f.power ≠ some 0) :
    k.load true f = (true, j) := by
  have hrising : Rising (view k.base k.size f.bytes) (Journal.offsets k.size) 0 := by
    rw [hbase, hsize]
    exact h.rising
  obtain ⟨top, ignored, hscan⟩ := scan_of_rising false
    (j := { k with healthy := false, sequence := 0, data := [] }) hpower hrising
  have htop := (scan_sound [] hscan ⟨nofun, .inl ⟨rfl, rfl⟩⟩).1
  have hsame := scan_same f true (Journal.offsets k.size) false
    { k with healthy := false, sequence := 0, data := [] }
  rw [hscan] at hsame
  dsimp only at htop hsame
  rw [hbase, hsize, List.nil_append] at htop
  have hslot : IsSlot j.size j.latest ∧
      view j.base j.size f.bytes j.latest = .record j.sequence j.data := by
    rcases h.synced.found with ⟨hzero, -⟩ | hfound
    · omega
    · exact hfound
  have hle := htop.upper _ (mem_offsets.mpr hslot.1) _ _ hslot.2
  obtain ⟨hlatest, hfound⟩ : top.latest ∈ Journal.offsets j.size ∧
      view j.base j.size f.bytes top.latest = .record top.sequence top.data := by
    rcases htop.found with ⟨hzero, -⟩ | hfound
    · omega
    · exact hfound
  have hsequence : top.sequence = j.sequence :=
    Nat.le_antisymm (h.upper _ (mem_offsets.mp hlatest) _ _ hfound) hle
  rw [hsequence] at hfound
  have hat := hunique _ (mem_offsets.mp hlatest) _ hfound
  rw [hat, hslot.2] at hfound
  injection hfound with _ hdata
  have hj : { top with healthy := true } = j := by
    cases top
    cases j
    simp only [Journal.mk.injEq]
    exact ⟨hsame.1.trans hbase, hsame.2.1.trans hsize, hhealthy.symm, hsequence, hat, hdata.symm⟩
  have hlayout : ¬ ((k.size ≠ 256 ∧ k.size ≠ 2048) ∨ k.base % sectorSize ≠ 0 ∨ k.base > 8192) := by
    have := h.synced.layout.supported
    have := h.synced.layout.aligned
    have := h.synced.layout.base
    rw [hbase, hsize]
    omega
  unfold Journal.load
  dsimp only
  rw [if_neg hlayout, hscan]
  have hnot : (ignored && decide (top.sequence = 0)) = false := by
    rw [Bool.and_eq_false_iff]
    exact .inr (decide_eq_false (by omega))
  dsimp only
  rw [hnot, hj]
  rfl

/-- The flash can still be read behind a record that was verified. -/
theorem writeRecord_powered {target : Nat} (h : j.writeRecord data target f = (true, j', f')) :
    f'.power ≠ some 0 := by
  unfold Journal.writeRecord at h
  split at h
  · cases h
  · split at h
    · rename_i hverified
      obtain ⟨-, -, rfl⟩ := h
      intro hpower
      have hread := of_decide_eq_true hverified
      rw [Nor.read, if_pos hpower] at hread
      cases hread
    · cases h

/-- The slots before the one appended to stay as they were. -/
theorem append_prefix (hs : Synced j f.bytes) (h : j.append data f = (true, j', f')) :
    f'.power ≠ some 0 ∧ ∀ offset, IsSlot j.size offset → offset < j'.latest →
      view j.base j.size f'.bytes offset = view j.base j.size f.bytes offset := by
  have hsize := hs.layout.supported
  unfold Journal.append at h
  split at h
  · cases h
  rename_i hadmitted
  simp only [Bool.or_eq_true, decide_eq_true_eq, not_or, Nat.not_lt, gt_iff_lt] at hadmitted
  have hfits := hs.fits hadmitted.2 hadmitted.1.2
  dsimp only at h
  split at h
  · cases h
  · rename_i target hfind
    obtain ⟨hblank, i, hi, rfl⟩ := findErased_spec hfind
    obtain ⟨hprogrammed, rfl⟩ := writeRecord_spec hfits (hs.free_slot hi).1 hblank h
    exact ⟨writeRecord_powered h, fun o ho hlt => hprogrammed.others o ho (Nat.ne_of_lt hlt)⟩
  · -- the target is the first slot of the bank erased for it
    have hsector : (1 - j.bank) * sectorSize = 0 ∨ (1 - j.bank) * sectorSize = sectorSize := by
      have : j.bank = 0 ∨ 1 ≤ j.bank := by omega
      rcases this with h | h
      · exact .inr (by rw [h]; omega)
      · exact .inl (by rw [Nat.sub_eq_zero_of_le h, Nat.zero_mul])
    generalize (1 - j.bank) * sectorSize = sector at h hsector
    have htarget := sector_isSlot hsize hsector
    rcases herase : f.erase (j.base + sector) sectorSize with ⟨erased, g⟩
    obtain ⟨-, houtside, hends⟩ := erase_spec hsize hsector herase
    rw [herase] at h
    rcases hends with ⟨rfl, hblank, -, -⟩ | ⟨rfl, -⟩
    · have htop : sector ≤ sector ∧ sector + j.size ≤ sector + sectorSize := by
        unfold sectorSize
        omega
      obtain ⟨hprogrammed, rfl⟩ := writeRecord_spec hfits htarget (hblank sector htop) h
      refine ⟨writeRecord_powered h, fun o ho hlt => ?_⟩
      rw [hprogrammed.others o ho (Nat.ne_of_lt hlt)]
      refine houtside o ?_
      rcases ho.bank hsize hsector with hout | hin
      · exact hout
      · exact absurd hin.1 (Nat.not_le_of_lt hlt)
    · cases h

theorem offsets_split {size target : Nat} (hsize : 0 < size) (h : IsSlot size target) :
    ∃ pre rest, Journal.offsets size = pre ++ target :: rest ∧ (∀ offset ∈ pre, offset < target) ∧
      ∀ offset ∈ rest, target < offset := by
  obtain ⟨pre, rest, hsplit⟩ := List.append_of_mem (mem_offsets.mpr h)
  have hsorted : (Journal.offsets size).Pairwise (· < ·) :=
    List.pairwise_map.mpr (List.pairwise_lt_range.imp fun h => Nat.mul_lt_mul_of_pos_right h hsize)
  rw [hsplit, List.pairwise_append, List.pairwise_cons] at hsorted
  exact ⟨pre, rest, hsplit, fun o ho => hsorted.2.2 o ho target List.mem_cons_self, hsorted.2.1.1⟩

/-- What `append` has written is what the next load finds. -/
theorem Current.append (h : Current j f.bytes) (hhealthy : j.healthy = true)
    (hrun : j.append data f = (true, j', f')) :
    Current j' f'.bytes ∧ (j'.base = j.base ∧ j'.size = j.size ∧ j'.data = data) ∧
      ∀ (k : Journal) (g : Nor), k.base = j.base → k.size = j.size → g.bytes = f'.bytes →
        g.power ≠ some 0 → k.load true g = (true, j') := by
  have hsize := h.synced.layout.supported
  obtain ⟨-, hprefix⟩ := append_prefix h.synced hrun
  rcases append_spec h.synced hhealthy hrun with ⟨hok, -⟩ |
    ⟨target, htarget, -, -, happended, rfl⟩
  · cases hok
  rcases happended with ⟨-, hwritten, hothers, -⟩ | ⟨hok, -⟩
  · rw [if_pos rfl] at hprefix ⊢
    -- every other slot is as it was or blank, so it has no larger number
    have hold : ∀ offset, IsSlot j.size offset → offset ≠ target → ∀ s d,
        view j.base j.size f'.bytes offset = .record s d → s ≤ j.sequence := by
      intro o ho hne s d hs
      rcases hothers o ho hne with hsame | hblank
      · exact h.upper o ho s d (hsame.symm.trans hs)
      · cases hblank.symm.trans hs
    have hupper : ∀ offset, IsSlot j.size offset → ∀ s d,
        view j.base j.size f'.bytes offset = .record s d → s ≤ j.sequence + 1 := by
      intro o ho s d hs
      by_cases hne : o = target
      · subst hne
        injection hwritten.symm.trans hs with hsequence _
        exact Nat.le_of_eq hsequence.symm
      · exact Nat.le_succ_of_le (hold o ho hne s d hs)
    have hrising : Rising (view j.base j.size f'.bytes) (Journal.offsets j.size) 0 := by
      obtain ⟨pre, rest, hsplit, hbefore, hafter⟩ := offsets_split (by omega) htarget
      have hmem : ∀ o, o ∈ pre ∨ o ∈ rest → IsSlot j.size o := fun o ho =>
        mem_offsets.mp (hsplit ▸ List.mem_append.mpr (ho.imp_right (List.mem_cons_of_mem _)))
      have hrising := h.rising
      rw [hsplit] at hrising ⊢
      refine hrising.extend (Nat.zero_le j.sequence)
        (fun o ho => h.upper o (hmem o (.inl ho)))
        (fun o ho => hprefix o (hmem o (.inl ho)) (hbefore o ho)) fun m hm => ?_
      unfold Rising
      rw [hwritten]
      refine ⟨by omega, rising_of_lt fun o ho s d hs => ?_⟩
      have hle := hold o (hmem o (.inr ho)) (Nat.ne_of_gt (hafter o ho)) s d hs
      omega
    have hcurrent : Current { j with latest := target, sequence := j.sequence + 1, data := data }
        f'.bytes := ⟨⟨h.synced.layout, .inr ⟨htarget, hwritten⟩⟩, hupper, hrising⟩
    refine ⟨hcurrent, ⟨rfl, rfl, rfl⟩, fun k g hbase hksize hbytes hpower => ?_⟩
    rw [← hbytes] at hcurrent
    refine hcurrent.loaded hhealthy (Nat.succ_pos _) (fun o ho d hd => ?_) hbase hksize hpower
    by_cases hne : o = target
    · exact hne
    · rw [hbytes] at hd
      have hle := hold o ho hne _ _ hd
      exact absurd hle (Nat.not_succ_le_self _)
  · cases hok

end Current

end WsprryPico.Standalone
