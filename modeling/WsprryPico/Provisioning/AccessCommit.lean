import WsprryPico.Provisioning.AccessStore

/-!
# What a commit does

The slot a commit writes, complete or cut short anywhere, is as it was, without a valid
record, or with the new one; the other slot is as it was. What a load makes of them.
-/

namespace WsprryPico.Provisioning

open Lib Standalone Wtp

/-- A slot as `scan` reads it where no read fails. -/
def scanned (bytes : Nat → UInt8) (slot : Nat) : Candidate := scan { flash := { bytes } } slot

def NotValid (c : Candidate) : Prop := ∀ sequence record, c ≠ .valid sequence record

section Scan

variable {m : AccessMedia} {slot : Nat} {bytes : Nat → UInt8}

theorem read_bytes {base : Nat} {page : List UInt8} (h : m.read base = some page) :
    page = Nor.slice m.flash.bytes base accessPageSize := by
  unfold AccessMedia.read at h
  split at h
  · cases h
  · exact Nor.of_read h

theorem read_plain (base : Nat) : ({ flash := { bytes } } : AccessMedia).read base =
    some (Nor.slice bytes base accessPageSize) := rfl

theorem laterPagesErased_some {base : Nat} {pages : List Nat} {answer : Bool}
    (h : laterPagesErased m base pages = some answer) :
    laterPagesErased { flash := { bytes := m.flash.bytes } } base pages = some answer := by
  induction pages with
  | nil => exact h
  | cons page rest ih =>
    unfold laterPagesErased at h ⊢
    split at h
    · cases h
    · rename_i page' hread
      rw [read_plain, ← read_bytes hread]
      dsimp only
      split at h
      · rw [if_pos ‹_›]
        exact ih h
      · rw [if_neg ‹_›]
        exact h

/-- A failed read makes a slot invalid and nothing else. -/
theorem scan_cases (m : AccessMedia) (slot : Nat) :
    scan m slot = .invalid ∨ scan m slot = scanned m.flash.bytes slot := by
  unfold scanned scan
  simp only [read_plain]
  split
  · rename_i header payload commit hheader hpayload hcommit
    rw [← read_bytes hheader, ← read_bytes hpayload, ← read_bytes hcommit]
    split
    · split
      · exact .inl rfl
      · rename_i hpages
        rw [laterPagesErased_some hpages]
        exact .inr rfl
      · rename_i hpages
        rw [laterPagesErased_some hpages]
        exact .inr rfl
    · exact .inr rfl
  · exact .inl rfl

theorem laterPagesErased_readable {base : Nat} {pages : List Nat} (hpower : m.flash.power = none)
    (hreadable : ∀ page, m.unreadable page = false) :
    laterPagesErased m base pages =
      laterPagesErased { flash := { bytes := m.flash.bytes } } base pages := by
  induction pages with
  | nil => rfl
  | cons page rest ih =>
    unfold laterPagesErased
    rw [ih, read_plain, AccessMedia.read, if_neg (by rw [hreadable]; decide),
      Nor.read_powered hpower]

theorem scan_readable (hpower : m.flash.power = none)
    (hreadable : ∀ page, m.unreadable page = false) : scan m slot = scanned m.flash.bytes slot := by
  have hread : ∀ base, m.read base = some (Nor.slice m.flash.bytes base accessPageSize) := by
    intro base
    rw [AccessMedia.read, if_neg (by rw [hreadable]; decide), Nor.read_powered hpower]
  unfold scanned scan
  simp only [hread, read_plain, laterPagesErased_readable hpower hreadable]

/-- The three pages that decide. -/
def headerOf (bytes : Nat → UInt8) (slot : Nat) : List UInt8 :=
  Nor.slice bytes (slot * accessSlotSize) accessPageSize

def payloadOf (bytes : Nat → UInt8) (slot : Nat) : List UInt8 :=
  Nor.slice bytes (slot * accessSlotSize + payloadOffset) accessPageSize

def commitOf (bytes : Nat → UInt8) (slot : Nat) : List UInt8 :=
  Nor.slice bytes (slot * accessSlotSize + commitOffset) accessPageSize

theorem scanned_valid {sequence : Nat} {record : AccessRecord}
    (h : scanned bytes slot = .valid sequence record) :
    erased (headerOf bytes slot) = false ∧ erased (commitOf bytes slot) = false ∧
      classifyPages (headerOf bytes slot) (payloadOf bytes slot) (commitOf bytes slot) =
        .valid sequence record := by
  unfold scanned scan at h
  simp only [read_plain] at h
  split at h
  · split at h <;> exact nomatch h
  · split at h
    · cases h
    · rename_i hneither
      rw [Bool.or_eq_true, not_or] at hneither
      exact ⟨Bool.eq_false_iff.mpr hneither.1, Bool.eq_false_iff.mpr hneither.2, h⟩

theorem scanned_of_pages (hheader : erased (headerOf bytes slot) = false)
    (hcommit : erased (commitOf bytes slot) = false) : scanned bytes slot =
      classifyPages (headerOf bytes slot) (payloadOf bytes slot) (commitOf bytes slot) := by
  have hheader' : erased (Nor.slice bytes (slot * accessSlotSize) accessPageSize) = false := hheader
  have hcommit' : erased (Nor.slice bytes (slot * accessSlotSize + commitOffset) accessPageSize) =
      false := hcommit
  unfold scanned scan
  simp only [read_plain, hheader', hcommit']
  rw [if_neg (by simp), if_neg (by simp)]
  rfl

theorem classify_valid {header payload commit : List UInt8} {sequence : Nat} {record : AccessRecord}
    (h : classifyPages header payload commit = .valid sequence record) :
    get (subspan 0 8 header) = accessHeaderMagic ∧ get (subspan 8 8 header) = sequence ∧
      sequence ≠ 0 ∧ deserialize payload = some record := by
  unfold classifyPages at h
  dsimp only at h
  split at h
  · rename_i hvalid
    split at h
    · rename_i hread
      injection h with hsequence hrecord
      exact ⟨hvalid.1, hsequence, hsequence ▸ hvalid.2.1, hrecord ▸ hread⟩
    · cases h
  · cases h

theorem classify_complete {sequence : Nat} {record : AccessRecord} (hrecord : validRecord record = true)
    (hpositive : 0 < sequence) (hbound : sequence < 2 ^ 64) :
    classifyPages (AccessStore.headerPage sequence record) (serialize record)
      (AccessStore.commitPage sequence record) = .valid sequence record := by
  have hheader := header_read accessHeaderMagic _ accessPageSize (sha256 (serialize record))
    (by decide) hbound (by decide)
  have hcommit := commit_read accessCommitMagic _ (sha256 (serialize record))
    (by decide) hbound
  unfold classifyPages AccessStore.headerPage AccessStore.commitPage
  simp only [hheader.magic, hheader.sequence, hheader.size, hheader.version, hheader.digest,
    hheader.crc, hcommit.magic, hcommit.sequence, hcommit.digest, hcommit.crc,
    deserialize_serialize hrecord]
  refine if_pos ⟨trivial, by omega, ?_⟩
  simp only [and_self]

end Scan

section Writes

variable {bytes bytes' : Nat → UInt8} {slot sequence : Nat} {record : AccessRecord}

variable (bytes bytes') in
theorem laterPagesErased_congr (base : Nat) (pages : List Nat)
    (h : ∀ page ∈ pages, Nor.slice bytes' (base + page * accessPageSize) accessPageSize =
      Nor.slice bytes (base + page * accessPageSize) accessPageSize) :
    laterPagesErased { flash := { bytes := bytes' } } base pages =
      laterPagesErased { flash := { bytes } } base pages := by
  induction pages with
  | nil => rfl
  | cons page rest ih =>
    unfold laterPagesErased
    rw [ih (List.forall_mem_cons.1 h).2, read_plain, read_plain, h page List.mem_cons_self]

theorem scanned_congr (h : ∀ i, i < accessSlotSize →
      bytes' (slot * accessSlotSize + i) = bytes (slot * accessSlotSize + i)) :
    scanned bytes' slot = scanned bytes slot := by
  have hpage : ∀ offset, offset + accessPageSize ≤ accessSlotSize →
      Nor.slice bytes' (slot * accessSlotSize + offset) accessPageSize =
        Nor.slice bytes (slot * accessSlotSize + offset) accessPageSize :=
    fun _ => Nor.slice_within h
  have hlater := laterPagesErased_congr bytes bytes' (slot * accessSlotSize) (List.range' 2 13)
    fun page hp => by
      have hlt := (List.mem_range'_1.mp hp).2
      refine Nor.slice_within h ?_
      unfold accessPageSize accessSlotSize
      omega
  have hheader := hpage 0 (by simp [accessPageSize, accessSlotSize])
  have hpayload := hpage payloadOffset (by simp [payloadOffset, accessPageSize, accessSlotSize])
  have hcommit := hpage commitOffset (by simp [commitOffset, accessPageSize, accessSlotSize])
  rw [Nat.add_zero] at hheader
  unfold scanned scan
  simp only [read_plain, hlater, hheader, hpayload, hcommit]

theorem notValid_of_commit (h : erased (commitOf bytes slot) = true) : NotValid (scanned bytes slot) :=
  fun _ _ hvalid => nomatch (scanned_valid hvalid).2.1.symm.trans h

theorem notValid_of_first (h : bytes (slot * accessSlotSize) = 255) :
    NotValid (scanned bytes slot) := by
  intro sequence record hvalid
  have hmagic := (classify_valid (scanned_valid hvalid).2.2).1
  refine magic_ne_of_first ?_ (by decide) hmagic
  unfold headerOf
  rw [Nor.getElem?_slice (by unfold accessPageSize; omega), Nat.add_zero, h]

/-- With its header and its payload complete a slot is valid with their record or not at all. -/
theorem scanned_committing (hrecord : validRecord record = true) (hbound : sequence < 2 ^ 64)
    (hheader : headerOf bytes slot = AccessStore.headerPage sequence record)
    (hpayload : payloadOf bytes slot = serialize record) {s : Nat} {r : AccessRecord}
    (hvalid : scanned bytes slot = .valid s r) : s = sequence ∧ r = record := by
  obtain ⟨-, hsequence, -, hread⟩ := classify_valid (scanned_valid hvalid).2.2
  have hfields := header_read accessHeaderMagic _ accessPageSize (sha256 (serialize record))
    (by decide) hbound (by decide)
  rw [hheader] at hsequence
  rw [hpayload, deserialize_serialize hrecord] at hread
  exact ⟨hsequence.symm.trans hfields.sequence, (Option.some.inj hread).symm⟩

theorem scanned_complete (hrecord : validRecord record = true) (hpositive : 0 < sequence)
    (hbound : sequence < 2 ^ 64) (hheader : headerOf bytes slot = AccessStore.headerPage sequence record)
    (hpayload : payloadOf bytes slot = serialize record)
    (hcommit : commitOf bytes slot = AccessStore.commitPage sequence record) :
    scanned bytes slot = .valid sequence record := by
  have hheaderRead := header_read accessHeaderMagic _ accessPageSize (sha256 (serialize record))
    (by decide) hbound (by decide)
  have hcommitRead := commit_read accessCommitMagic _ (sha256 (serialize record)) (by decide) hbound
  rw [scanned_of_pages, hheader, hpayload, hcommit]
  · exact classify_complete hrecord hpositive hbound
  · rw [hheader]
    exact not_erased_of_magic (by rw [AccessStore.headerPage,
      length_sealedPage headerFields_fit]; decide) hheaderRead.magic (by decide)
  · rw [hcommit]
    exact not_erased_of_magic (by rw [AccessStore.commitPage,
      length_sealedPage commitFields_fit]; decide) hcommitRead.magic (by decide)

end Writes

def slotLayout (slot : Nat) : SlotLayout where
  base := slot * accessSlotSize
  size := accessSlotSize
  payloadAt := payloadOffset
  commitAt := commitOffset

section Media

variable {m m' : AccessMedia} {ok : Bool}

theorem program_spec {base : Nat} {page : List UInt8} (h : m.program base page = (ok, m')) :
    Nor.Wrote (.program base page) m.flash ok m'.flash := by
  have hwrote := Nor.write_spec (.program base page) m.flash
  unfold AccessMedia.program at h
  obtain ⟨rfl, rfl⟩ := h
  exact hwrote

theorem erase_spec {base : Nat} (h : m.erase base = (ok, m')) :
    Nor.Wrote (.erase base accessSlotSize) m.flash ok m'.flash := by
  have hwrote := Nor.write_spec (.erase base accessSlotSize) m.flash
  unfold AccessMedia.erase at h
  obtain ⟨rfl, rfl⟩ := h
  exact hwrote

theorem programAll_spec {pages : List (Nat × List UInt8)}
    (h : AccessStore.programAll pages m = (ok, m')) :
    Nor.WroteAll (pages.map fun page => .program page.1 page.2) m.flash ok m'.flash := by
  induction pages generalizing m with
  | nil =>
    obtain ⟨rfl, rfl⟩ := h
    exact .done _
  | cons page rest ih =>
    unfold AccessStore.programAll at h
    rcases hfirst : m.program page.1 page.2 with ⟨_ | _, m₁⟩
    · rw [hfirst] at h
      obtain ⟨rfl, rfl⟩ := h
      exact .failed (program_spec hfirst)
    · rw [hfirst] at h
      exact .step (program_spec hfirst) (ih h)

theorem programAll_unreadable {pages : List (Nat × List UInt8)}
    (h : AccessStore.programAll pages m = (ok, m')) : m'.unreadable = m.unreadable := by
  induction pages generalizing m with
  | nil =>
    obtain ⟨rfl, rfl⟩ := h
    rfl
  | cons page rest ih =>
    unfold AccessStore.programAll at h
    have hfirst : (m.program page.1 page.2).2.unreadable = m.unreadable := rfl
    rcases hprogram : m.program page.1 page.2 with ⟨_ | _, m₁⟩
    · rw [hprogram] at h hfirst
      obtain ⟨rfl, rfl⟩ := h
      exact hfirst
    · rw [hprogram] at h hfirst
      exact (ih h).trans hfirst

end Media

section Commit

variable {record : AccessRecord} {sequence slot : Nat}

theorem length_headerPage : (AccessStore.headerPage sequence record).length = pageSize :=
  length_sealedPage headerFields_fit

theorem length_commitPage : (AccessStore.commitPage sequence record).length = pageSize :=
  length_sealedPage commitFields_fit

theorem slotLayout_fits (hrecord : validRecord record = true) :
    (slotLayout slot).Fits (serialize record) (AccessStore.headerPage sequence record)
      (AccessStore.commitPage sequence record) where
  header := length_headerPage
  commit := length_commitPage
  behind := Nat.le_refl _
  before := by
    rw [length_serialize hrecord]
    show payloadOffset + accessPageSize ≤ commitOffset
    decide
  within := by
    show commitOffset + pageSize ≤ accessSlotSize
    decide

/-- What is left of a slot that a commit writes. -/
inductive Left (bytes bytes' : Nat → UInt8) (slot sequence : Nat) (record : AccessRecord) : Prop where
  | untouched (h : scanned bytes' slot = scanned bytes slot)
  | torn (h : NotValid (scanned bytes' slot))
  | written (h : scanned bytes' slot = .valid sequence record)

/-- The pages of a slot, programmed after its erase. -/
theorem slotPages_spec {m m' : AccessMedia} {ok : Bool} (hrecord : validRecord record = true)
    (hpositive : 0 < sequence) (hbound : sequence < 2 ^ 64)
    (h : AccessStore.programAll (AccessStore.slotPages (slot * accessSlotSize) sequence record) m =
      (ok, m'))
    (hblank : ∀ i, i < accessSlotSize → m.flash.bytes (slot * accessSlotSize + i) = 255) :
    (NotValid (scanned m'.flash.bytes slot) ∨
      scanned m'.flash.bytes slot = .valid sequence record) ∧
    (ok = true → scanned m'.flash.bytes slot = .valid sequence record) := by
  rcases slot_written (l := slotLayout slot) (programAll_spec h) (slotLayout_fits hrecord) hblank with
    ⟨hok, hcommit⟩ | ⟨hheader, hpayload, hcommit⟩
  · refine ⟨.inl (notValid_of_commit hcommit), fun htrue => ?_⟩
    cases hok.symm.trans htrue
  · rw [length_serialize hrecord] at hpayload
    constructor
    · by_cases hnot : NotValid (scanned m'.flash.bytes slot)
      · exact .inl hnot
      · unfold NotValid at hnot
        push Not at hnot
        obtain ⟨s, r, hvalid⟩ := hnot
        obtain ⟨rfl, rfl⟩ := scanned_committing hrecord hbound hheader hpayload hvalid
        exact .inr hvalid
    · exact fun htrue => scanned_complete hrecord hpositive hbound hheader hpayload (hcommit htrue)

theorem scanned_other {bytes bytes' : Nat → UInt8} {other : Nat} (hne : other ≠ slot)
    (h : ∀ a, (a < slot * accessSlotSize ∨ slot * accessSlotSize + accessSlotSize ≤ a) →
      bytes' a = bytes a) : scanned bytes' other = scanned bytes other := by
  refine scanned_congr fun i hi => h _ ?_
  unfold accessSlotSize at *
  omega

variable (slot) in
theorem erase_left (bytes : Nat → UInt8) (k : Nat) :
    scanned ((Nor.Write.erase (slot * accessSlotSize) accessSlotSize).upTo k bytes) slot =
      scanned bytes slot ∨
    NotValid (scanned ((Nor.Write.erase (slot * accessSlotSize) accessSlotSize).upTo k bytes) slot) := by
  cases k with
  | zero =>
    refine .inl (scanned_congr fun i hi => Nor.Write.upTo_outside (.inr ?_))
    simp only [Nor.Write.base]
    omega
  | succ k =>
    refine .inr (notValid_of_first (if_pos ⟨Nat.le_refl _, ?_⟩))
    omega

theorem valid_of_scan {m : AccessMedia} {s : Nat} {r : AccessRecord}
    (h : scan m slot = .valid s r) : scanned m.flash.bytes slot = .valid s r := by
  rcases scan_cases m slot with hinvalid | hscan
  · cases hinvalid.symm.trans h
  · exact hscan.symm.trans h

/-- A commit that starts to write. -/
structure Committed (store : AccessStore) (record : AccessRecord) (m : AccessMedia) (ok : Bool)
    (store' : AccessStore) (m' : AccessMedia) : Prop where
  valid : validRecord record = true
  bound : store.sequence < AccessStore.maxSequence
  others : ∀ other, other ≠ store.target →
    scanned m'.flash.bytes other = scanned m.flash.bytes other
  left : Left m.flash.bytes m'.flash.bytes store.target (store.sequence + 1) record
  done : ok = true → store' = AccessStore.selected (store.sequence + 1) store.target record ∧
    scanned m'.flash.bytes store.target = .valid (store.sequence + 1) record
  failed : ok = false → store' = { store with state := .fault }
  powered : m.flash.power = none → m'.flash.power = none
  finishes : m.flash.power = none → (∀ page, m.unreadable page = false) → ok = true

/-- A commit is refused, or writes its slot and no other. -/
theorem commit_spec {store store' : AccessStore} {m m' : AccessMedia} {ok : Bool}
    (hsequence : store.sequence < 2 ^ 64) (hrun : store.commit record m = (ok, store', m')) :
    (ok = false ∧ store' = store ∧ m' = m ∧
      (validRecord record = false ∨ store.sequence = AccessStore.maxSequence)) ∨
    Committed store record m ok store' m' := by
  unfold AccessStore.commit at hrun
  split at hrun
  · rename_i hrefused
    obtain ⟨rfl, rfl, rfl⟩ := hrun
    rw [Bool.or_eq_true, Bool.not_eq_true', decide_eq_true_eq] at hrefused
    exact .inl ⟨rfl, rfl, rfl, hrefused⟩
  · rename_i hadmitted
    have hrecord : validRecord record = true := by
      cases hv : validRecord record with
      | true => rfl
      | false => simp [hv] at hadmitted
    have hmax : store.sequence < AccessStore.maxSequence := by
      have hne : store.sequence ≠ AccessStore.maxSequence := fun h => hadmitted (by simp [h])
      unfold AccessStore.maxSequence at *
      omega
    have hbound : store.sequence + 1 < 2 ^ 64 := by
      unfold AccessStore.maxSequence at hmax
      omega
    refine .inr ?_
    dsimp only at hrun
    rcases herase : m.erase (store.target * accessSlotSize) with ⟨_ | _, m₁⟩
    · rw [herase] at hrun
      obtain ⟨rfl, rfl, rfl⟩ := hrun
      have herased := erase_spec herase
      rcases erase_spec herase with ⟨hok, -⟩ | ⟨-, ⟨k, -, hbytes⟩, hlost⟩
      · cases hok
      · refine ⟨hrecord, hmax, fun other hne => scanned_other hne fun a ha =>
          herased.outside ha, ?_,
          fun h => (by cases h), fun _ => rfl, fun h => absurd h hlost, fun h => absurd h hlost⟩
        rw [hbytes]
        rcases erase_left store.target m.flash.bytes k with h | h
        · exact .untouched h
        · exact .torn h
    · rw [herase] at hrun
      have hwrote := erase_spec herase
      have hunreadable : m₁.unreadable = m.unreadable := congrArg (·.2.unreadable) herase.symm
      have hblank : ∀ i, i < accessSlotSize →
          m₁.flash.bytes (store.target * accessSlotSize + i) = 255 := by
        intro i hi
        rw [hwrote.done]
        exact if_pos ⟨by omega, by simp only [Nor.Write.size]; omega⟩
      dsimp only at hrun
      rcases hprogram : AccessStore.programAll (AccessStore.slotPages (store.target * accessSlotSize)
        (store.sequence + 1) record) m₁ with ⟨done, m₂⟩
      rw [hprogram] at hrun
      have hall := programAll_spec hprogram
      obtain ⟨hleft, hdone⟩ := slotPages_spec hrecord (Nat.succ_pos _) hbound hprogram hblank
      have hothers : ∀ other, other ≠ store.target →
          scanned m₂.flash.bytes other = scanned m.flash.bytes other := by
        intro other hne
        refine scanned_other hne fun a ha => ?_
        rw [slot_outside (l := slotLayout store.target) hall (slotLayout_fits hrecord) ha]
        exact hwrote.outside ha
      have hpowered : m.flash.power = none → done = true ∧ m₂.flash.power = none :=
        fun h => hall.powered (hwrote.powered h).2
      have hkept : Left m.flash.bytes m₂.flash.bytes store.target (store.sequence + 1) record :=
        hleft.elim .torn .written
      cases done with
      | false =>
        obtain ⟨rfl, rfl, rfl⟩ := hrun
        exact ⟨hrecord, hmax, hothers, hkept, fun h => (by cases h), fun _ => rfl,
          fun h => (hpowered h).2, fun h => (by cases (hpowered h).1)⟩
      | true =>
        dsimp only at hrun
        split at hrun
        · rename_i hscan
          obtain ⟨rfl, rfl, rfl⟩ := hrun
          exact ⟨hrecord, hmax, hothers, hkept, fun _ => ⟨rfl, valid_of_scan hscan⟩,
            fun h => (by cases h), fun h => (hpowered h).2, fun _ _ => rfl⟩
        · rename_i hscan
          obtain ⟨rfl, rfl, rfl⟩ := hrun
          refine ⟨hrecord, hmax, hothers, hkept, fun h => (by cases h), fun _ => rfl,
            fun h => (hpowered h).2, fun h hreadable => absurd ?_ hscan⟩
          rw [scan_readable (hpowered h).2 fun page => ?_]
          · exact hdone rfl
          · rw [programAll_unreadable hprogram, hunreadable]
            exact hreadable page

theorem scanned_bound {bytes : Nat → UInt8} (h : scanned bytes slot = .valid sequence record) :
    0 < sequence ∧ sequence < 2 ^ 64 := by
  obtain ⟨-, hsequence, hne, -⟩ := classify_valid (scanned_valid h).2.2
  have hlt := get_lt (subspan 8 8 (headerOf bytes slot))
  have hlength : (subspan 8 8 (headerOf bytes slot)).length ≤ 8 := by
    unfold subspan
    exact List.length_take_le ..
  have hpow := Nat.pow_le_pow_right (show 0 < 256 by decide) hlength
  omega

theorem target_of_found {store : AccessStore} {bytes : Nat → UInt8}
    (h : scanned bytes store.activeSlot = .valid store.sequence store.record) :
    store.target = 1 - store.activeSlot := by
  unfold AccessStore.target
  rw [if_neg (Nat.pos_iff_ne_zero.mp (scanned_bound h).1)]

theorem replace_spec {store store' : AccessStore} {m m' : AccessMedia} {ok : Bool}
    (hfound : store.state = .healthy →
      scanned m.flash.bytes store.activeSlot = .valid store.sequence store.record)
    (hrun : store.replace record m = (ok, store', m')) :
    (ok = false ∧ store' = store ∧ m' = m) ∨
    (store.state = .healthy ∧ ¬ record.epoch < store.record.epoch ∧
      ((ok = true ∧ record = store.record ∧ store' = store ∧ m' = m) ∨
        (record ≠ store.record ∧ Committed store record m ok store' m'))) := by
  unfold AccessStore.replace at hrun
  split at hrun
  · obtain ⟨rfl, rfl, rfl⟩ := hrun
    exact .inl ⟨rfl, rfl, rfl⟩
  · rename_i hadmitted
    simp only [Bool.or_eq_true, not_or, AccessStore.healthy, Bool.not_eq_true',
      decide_eq_false_iff_not, Decidable.not_not, decide_eq_true_eq] at hadmitted
    obtain ⟨hhealthy, hepoch⟩ := hadmitted
    split at hrun
    · rename_i heq
      obtain ⟨rfl, rfl, rfl⟩ := hrun
      exact .inr ⟨hhealthy, hepoch, .inl ⟨rfl, heq, rfl, rfl⟩⟩
    · rename_i hne
      rcases commit_spec (scanned_bound (hfound hhealthy)).2 hrun with ⟨rfl, rfl, rfl, -⟩ | hc
      · exact .inl ⟨rfl, rfl, rfl⟩
      · exact .inr ⟨hhealthy, hepoch, .inr ⟨hne, hc⟩⟩

end Commit

end WsprryPico.Provisioning
