import WsprryPico.Provisioning.ProfileStore

/-!
# What a selection does

What `scan` finds in a slot of the profile store, with reads that fail and without, and
what a selection leaves there, complete or cut short: the slot that it writes is as it
was, without a valid payload, or with the new one; the other slot is as it was.
-/

namespace WsprryPico.Provisioning

open Lib Standalone Wtp

namespace Profile

/-- A slot as `scan` reads it where no read fails. -/
def scanned (bytes : Nat → UInt8) (slot : Nat) : ProfileCandidate := scan { flash := { bytes } } slot

def NotValid (c : ProfileCandidate) : Prop := ∀ sequence data, c ≠ .valid sequence data

section Scan

variable {m : Media} {slot : Nat} {bytes : Nat → UInt8}

theorem read_bytes {offset size : Nat} {page : List UInt8} (h : m.read offset size = some page) :
    page = Nor.slice m.flash.bytes offset size := by
  unfold Media.read at h
  split at h
  · cases h
  · exact Nor.of_read h

theorem read_plain (offset size : Nat) :
    ({ flash := { bytes } } : Media).read offset size = some (Nor.slice bytes offset size) := rfl

/-- What a slot may look like when reads fail: as it is, unknown, or committed and unreadable. -/
inductive Seen (actual : ProfileCandidate) : ProfileCandidate → Prop where
  | same : Seen actual actual
  | unknown : Seen actual .invalidUnknown
  | payload (sequence : Nat)
    (h : actual = .pending ∨ actual = .invalidCommitted sequence ∨
      ∃ data, actual = .valid sequence data) : Seen actual (.invalidCommitted sequence)

theorem scanErased_seen {base : Nat} {pages : List Nat} :
    Seen (scanErased { flash := { bytes := m.flash.bytes } } base pages) (scanErased m base pages) := by
  induction pages with
  | nil => exact .same
  | cons page rest ih =>
    unfold scanErased
    rw [read_plain]
    cases hread : m.read (base + page * profilePageSize) profilePageSize with
    | none => exact .unknown
    | some bytes =>
      rw [← read_bytes hread]
      dsimp only
      split
      · exact ih
      · exact .same

theorem scanWritten_seen {base : Nat} {header commit : List UInt8} :
    Seen (scanWritten { flash := { bytes := m.flash.bytes } } base header commit)
      (scanWritten m base header commit) := by
  unfold scanWritten
  simp only [read_plain]
  cases hread : m.read (base + profilePayloadOffset) (get (subspan 16 4 header)) with
  | some payload =>
    rw [← read_bytes hread]
    exact .same
  | none =>
    dsimp only
    split
    · split
      · exact .same
      · refine .payload _ ?_
        split
        · exact .inl rfl
        · exact .inr (.inl rfl)
    · split
      · exact .same
      · split
        · exact .same
        · refine .payload _ ?_
          split
          · exact .inr (.inl rfl)
          · exact .inr (.inr ⟨_, rfl⟩)

theorem scan_seen (m : Media) (slot : Nat) : Seen (scanned m.flash.bytes slot) (scan m slot) := by
  unfold scanned scan
  simp only [read_plain]
  cases hheader : m.read (slot * profileSlotSize) profilePageSize with
  | none => exact .unknown
  | some header =>
    cases hcommit : m.read (slot * profileSlotSize + profileCommitOffset) profilePageSize with
    | none => exact .unknown
    | some commit =>
      rw [← read_bytes hheader, ← read_bytes hcommit]
      dsimp only
      split
      · exact scanErased_seen
      · exact scanWritten_seen

def headerOf (bytes : Nat → UInt8) (slot : Nat) : List UInt8 :=
  Nor.slice bytes (slot * profileSlotSize) profilePageSize

def commitOf (bytes : Nat → UInt8) (slot : Nat) : List UInt8 :=
  Nor.slice bytes (slot * profileSlotSize + profileCommitOffset) profilePageSize

def payloadOf (bytes : Nat → UInt8) (slot size : Nat) : List UInt8 :=
  Nor.slice bytes (slot * profileSlotSize + profilePayloadOffset) size

theorem scanErased_notValid {base : Nat} {pages : List Nat} : NotValid (scanErased m base pages) := by
  induction pages with
  | nil => exact nofun
  | cons page rest ih =>
    unfold scanErased
    split
    · exact nofun
    · split
      · exact ih
      · exact nofun

/-- What makes a slot valid. -/
structure ValidSlot (bytes : Nat → UInt8) (slot sequence : Nat) (data : List UInt8) : Prop where
  committed : erased (commitOf bytes slot) = false
  header : headerValid (headerOf bytes slot) = true
  sequence : get (subspan 8 8 (headerOf bytes slot)) = sequence
  data : payloadOf bytes slot (get (subspan 16 4 (headerOf bytes slot))) = data

theorem scanned_valid {sequence : Nat} {data : List UInt8}
    (h : scanned bytes slot = .valid sequence data) : ValidSlot bytes slot sequence data := by
  unfold scanned scan at h
  simp only [read_plain] at h
  split at h
  · exact absurd h (scanErased_notValid _ _)
  · unfold scanWritten at h
    simp only [read_plain] at h
    split at h
    · split at h
      · cases h
      · split at h <;> exact nomatch h
    · rename_i hcommitted
      split at h
      · split at h <;> exact nomatch h
      · rename_i hheader
        split at h
        · cases h
        · split at h
          · cases h
          · obtain ⟨rfl, rfl⟩ := ProfileCandidate.valid.inj h
            rw [Bool.not_eq_true, Bool.not_eq_false'] at hheader
            exact ⟨Bool.eq_false_iff.mpr hcommitted, hheader, rfl, rfl⟩

theorem headerValid_fields {header : List UInt8} (h : headerValid header = true) :
    get (subspan 0 8 header) = profileHeaderMagic ∧ get (subspan 8 8 header) ≠ 0 := by
  simp only [headerValid, Bool.and_eq_true, decide_eq_true_eq] at h
  exact ⟨h.1.1.1.1.2, h.1.1.1.2⟩

end Scan

section Writes

variable {bytes bytes' : Nat → UInt8} {slot sequence : Nat} {payload : List UInt8}

variable (bytes bytes') in
theorem scanErased_congr (base : Nat) (pages : List Nat)
    (h : ∀ page ∈ pages, Nor.slice bytes' (base + page * profilePageSize) profilePageSize =
      Nor.slice bytes (base + page * profilePageSize) profilePageSize) :
    scanErased { flash := { bytes := bytes' } } base pages =
      scanErased { flash := { bytes } } base pages := by
  induction pages with
  | nil => rfl
  | cons page rest ih =>
    unfold scanErased
    rw [ih (List.forall_mem_cons.1 h).2, read_plain, read_plain, h page List.mem_cons_self]

theorem headerValid_length {header : List UInt8} (h : headerValid header = true) :
    get (subspan 16 4 header) ≤ maximumPayloadSize := by
  simp only [headerValid, Bool.and_eq_true, decide_eq_true_eq] at h
  exact h.1.2

theorem scanned_congr (h : ∀ i, i < profileSlotSize →
      bytes' (slot * profileSlotSize + i) = bytes (slot * profileSlotSize + i)) :
    scanned bytes' slot = scanned bytes slot := by
  have hslice : ∀ offset size, offset + size ≤ profileSlotSize →
      Nor.slice bytes' (slot * profileSlotSize + offset) size =
        Nor.slice bytes (slot * profileSlotSize + offset) size :=
    fun _ _ => Nor.slice_within h
  have hpages := scanErased_congr bytes bytes' (slot * profileSlotSize) (List.range' 1 30)
    fun page hp => by
      have hlt := (List.mem_range'_1.mp hp).2
      refine Nor.slice_within h ?_
      unfold profilePageSize profileSlotSize
      omega
  have hheader := hslice 0 profilePageSize (by decide)
  have hcommit := hslice profileCommitOffset profilePageSize (by decide)
  rw [Nat.add_zero] at hheader
  unfold scanned scan
  simp only [read_plain, hpages, hheader, hcommit]
  split
  · rfl
  · unfold scanWritten
    simp only [read_plain]
    by_cases hvalid : headerValid (Nor.slice bytes (slot * profileSlotSize) profilePageSize) = true
    · have hlength := headerValid_length hvalid
      have hfits : profilePayloadOffset + maximumPayloadSize ≤ profileSlotSize := by decide
      rw [hslice profilePayloadOffset _ (by omega)]
    · rw [Bool.not_eq_true] at hvalid
      simp only [hvalid, Bool.not_false, if_true]

theorem notValid_of_commit (h : erased (commitOf bytes slot) = true) : NotValid (scanned bytes slot) :=
  fun _ _ hvalid => nomatch (scanned_valid hvalid).committed.symm.trans h

theorem notValid_of_first (h : bytes (slot * profileSlotSize) = 255) :
    NotValid (scanned bytes slot) := by
  intro sequence data hvalid
  have hmagic := (headerValid_fields (scanned_valid hvalid).header).1
  refine magic_ne_of_first ?_ (by decide) hmagic
  unfold headerOf
  rw [Nor.getElem?_slice (by decide), Nat.add_zero, h]

theorem headerPage_read (hbound : sequence < 2 ^ 64) (hsize : payload.length ≤ maximumPayloadSize) :
    HeaderRead profileHeaderMagic sequence payload.length (sha256 payload)
      (ProfileStore.headerPage sequence payload) := by
  have hmax : maximumPayloadSize < 256 ^ 4 := by decide
  exact header_read _ _ _ _ (by decide) hbound (by omega)

/-- With its header and its payload complete a slot is valid with them or not at all. -/
theorem scanned_committing (hbound : sequence < 2 ^ 64) (hsize : payload.length ≤ maximumPayloadSize)
    (hheader : headerOf bytes slot = ProfileStore.headerPage sequence payload)
    (hpayload : payloadOf bytes slot payload.length = payload) {s : Nat} {data : List UInt8}
    (hvalid : scanned bytes slot = .valid s data) : s = sequence ∧ data = payload := by
  have hslot := scanned_valid hvalid
  have hfields := headerPage_read hbound hsize
  have hsequence := hslot.sequence
  have hdata := hslot.data
  rw [hheader, hfields.sequence] at hsequence
  rw [hheader, hfields.size, hpayload] at hdata
  exact ⟨hsequence.symm, hdata.symm⟩

theorem headerValid_complete (hpositive : 0 < sequence) (hbound : sequence < 2 ^ 64)
    (hlength : 0 < payload.length) (hsize : payload.length ≤ maximumPayloadSize) :
    headerValid (ProfileStore.headerPage sequence payload) = true := by
  have hfields := headerPage_read hbound hsize
  have herased : erased (ProfileStore.headerPage sequence payload) = false :=
    not_erased_of_magic (by rw [ProfileStore.headerPage,
      length_sealedPage headerFields_fit]; decide) hfields.magic (by decide)
  unfold headerValid
  rw [herased, hfields.magic, hfields.sequence, hfields.size, hfields.crc]
  simp only [Bool.and_eq_true, decide_eq_true_eq, Bool.not_false]
  exact ⟨⟨⟨⟨⟨trivial, trivial⟩, by omega⟩, by omega⟩, hsize⟩, trivial⟩

theorem scanned_complete (hpositive : 0 < sequence) (hbound : sequence < 2 ^ 64)
    (hlength : 0 < payload.length) (hsize : payload.length ≤ maximumPayloadSize)
    (hheader : headerOf bytes slot = ProfileStore.headerPage sequence payload)
    (hpayload : payloadOf bytes slot payload.length = payload)
    (hcommit : commitOf bytes slot = ProfileStore.commitPage sequence payload) :
    scanned bytes slot = .valid sequence payload := by
  have hfields := headerPage_read hbound hsize
  have hread := commit_read profileCommitMagic _ (sha256 payload) (by decide)
    hbound
  have hvalid := headerValid_complete hpositive hbound hlength hsize
  have herased : erased (ProfileStore.commitPage sequence payload) = false :=
    not_erased_of_magic (by rw [ProfileStore.commitPage,
      length_sealedPage commitFields_fit]; decide) hread.magic (by decide)
  have hcommitted : commitHeaderValid (ProfileStore.commitPage sequence payload) = true := by
    unfold commitHeaderValid ProfileStore.commitPage
    rw [hread.magic, hread.sequence, hread.crc]
    simp only [Bool.and_eq_true, decide_eq_true_eq]
    exact ⟨⟨trivial, by omega⟩, trivial⟩
  unfold headerOf at hheader
  unfold commitOf at hcommit
  unfold payloadOf at hpayload
  unfold scanned scan
  simp only [read_plain, hheader, hcommit, herased, Bool.and_false]
  rw [if_neg (by decide)]
  unfold scanWritten
  simp only [read_plain, herased, hvalid, hcommitted]
  unfold ProfileStore.commitPage
  simp only [hfields.sequence, hfields.size, hfields.digest, hread.sequence, hread.digest, hpayload]
  simp

end Writes

open ProfileStore

def profileLayout (slot : Nat) : SlotLayout where
  base := slot * profileSlotSize
  size := profileSlotSize
  payloadAt := profilePayloadOffset
  commitAt := profileCommitOffset

section Program

variable {payload : List UInt8} {sequence slot : Nat}

variable (payload) in
theorem length_padded : (padded payload).length = pageCount payload * profilePageSize := by
  unfold padded pageCount profilePageSize
  rw [List.length_append, List.length_replicate]
  omega

theorem padded_take : (padded payload).take payload.length = payload := List.take_left

variable (sequence slot) in
theorem profileLayout_fits (hsize : payload.length ≤ maximumPayloadSize) :
    (profileLayout slot).Fits (padded payload) (headerPage sequence payload)
      (commitPage sequence payload) where
  header := length_sealedPage headerFields_fit
  commit := length_sealedPage commitFields_fit
  behind := Nat.le_refl _
  before := by
    have hmax : maximumPayloadSize = 7184 := rfl
    show profilePayloadOffset + _ ≤ profileCommitOffset
    rw [length_padded]
    unfold pageCount profilePayloadOffset profileCommitOffset profileSlotSize profilePageSize
    omega
  within := by
    show profileCommitOffset + pageSize ≤ profileSlotSize
    decide

theorem programSlot_spec {f f' : Nor} {ok : Bool}
    (h : programSlot (slot * profileSlotSize) sequence payload f = (ok, f')) :
    Nor.WroteAll ((profileLayout slot).writes (padded payload) (headerPage sequence payload)
      (commitPage sequence payload)) f ok f' := by
  unfold programSlot at h
  have hpages := Nor.programPages_spec (slot * profileSlotSize + profilePayloadOffset) f
    (length_padded payload)
  rcases hfirst : f.programPages profilePageSize (pageCount payload)
    (slot * profileSlotSize + profilePayloadOffset) (padded payload) with ⟨_ | _, f₁⟩
  · rw [hfirst] at h hpages
    obtain ⟨rfl, rfl⟩ := h
    exact .failed hpages
  · rw [hfirst] at h hpages
    refine .step hpages ?_
    dsimp only at h
    have hheader := Nor.write_spec (.program (slot * profileSlotSize) (headerPage sequence payload)) f₁
    rcases hsecond : f₁.program (slot * profileSlotSize) (headerPage sequence payload) with ⟨_ | _, f₂⟩
    · rw [Nor.program] at hsecond
      rw [Nor.program, hsecond] at h
      rw [hsecond] at hheader
      obtain ⟨rfl, rfl⟩ := h
      exact .failed hheader
    · rw [Nor.program] at hsecond
      rw [Nor.program, hsecond] at h
      rw [hsecond] at hheader
      refine .step hheader ?_
      have hcommit := Nor.write_spec (.program (slot * profileSlotSize + profileCommitOffset)
        (commitPage sequence payload)) f₂
      dsimp only at h
      rw [Nor.program] at h
      rw [h] at hcommit
      cases ok with
      | false => exact .failed hcommit
      | true => exact .step hcommit (.done _)

/-- The pages of a slot, programmed after its erase. -/
theorem slot_programmed {f f' : Nor} {ok : Bool} (hpositive : 0 < sequence)
    (hbound : sequence < 2 ^ 64) (hlength : 0 < payload.length)
    (hsize : payload.length ≤ maximumPayloadSize)
    (h : programSlot (slot * profileSlotSize) sequence payload f = (ok, f'))
    (hblank : ∀ i, i < profileSlotSize → f.bytes (slot * profileSlotSize + i) = 255) :
    (NotValid (scanned f'.bytes slot) ∨ scanned f'.bytes slot = .valid sequence payload) ∧
    (ok = true → scanned f'.bytes slot = .valid sequence payload ∧
      headerOf f'.bytes slot = headerPage sequence payload ∧
      commitOf f'.bytes slot = commitPage sequence payload ∧
      payloadOf f'.bytes slot payload.length = payload) := by
  rcases slot_written (programSlot_spec h) (profileLayout_fits _ _ hsize) hblank with
    ⟨hok, hcommit⟩ | ⟨hheader, hpadded, hcommit⟩
  · refine ⟨.inl (notValid_of_commit hcommit), fun htrue => ?_⟩
    cases hok.symm.trans htrue
  · have hpayload : payloadOf f'.bytes slot payload.length = payload := by
      have htake := congrArg (List.take payload.length) hpadded
      rw [Nor.slice_take, padded_take] at htake
      · exact htake
      · rw [length_padded]
        unfold pageCount profilePageSize
        omega
    constructor
    · by_cases hnot : NotValid (scanned f'.bytes slot)
      · exact .inl hnot
      · unfold NotValid at hnot
        push Not at hnot
        obtain ⟨s, data, hvalid⟩ := hnot
        obtain ⟨rfl, rfl⟩ := scanned_committing hbound hsize hheader hpayload hvalid
        exact .inr hvalid
    · exact fun htrue => ⟨scanned_complete hpositive hbound hlength hsize hheader hpayload
        (hcommit htrue), hheader, hcommit htrue, hpayload⟩

theorem scanned_other {bytes bytes' : Nat → UInt8} {other : Nat} (hne : other ≠ slot)
    (h : ∀ a, (a < slot * profileSlotSize ∨ slot * profileSlotSize + profileSlotSize ≤ a) →
      bytes' a = bytes a) : scanned bytes' other = scanned bytes other := by
  refine scanned_congr fun i hi => h _ ?_
  unfold profileSlotSize at *
  omega

variable (slot) in
theorem erase_left (bytes : Nat → UInt8) (k : Nat) :
    scanned ((Nor.Write.erase (slot * profileSlotSize) profileSlotSize).upTo k bytes) slot =
      scanned bytes slot ∨
    NotValid
      (scanned ((Nor.Write.erase (slot * profileSlotSize) profileSlotSize).upTo k bytes) slot) := by
  cases k with
  | zero =>
    refine .inl (scanned_congr fun i hi => Nor.Write.upTo_outside (.inr ?_))
    simp only [Nor.Write.base]
    omega
  | succ k =>
    refine .inr (notValid_of_first (if_pos ⟨Nat.le_refl _, ?_⟩))
    omega

theorem readsBack_of_slice {m : Media} (hpower : m.flash.power = none)
    (hreadable : ∀ offset, m.unreadable offset = false) {count offset : Nat} {expected : List UInt8}
    (hslice : Nor.slice m.flash.bytes offset expected.length = expected) :
    readsBack m count offset expected = true := by
  induction count generalizing offset expected with
  | zero => rfl
  | succ count ih =>
    unfold readsBack
    have hread : ∀ size, m.read offset size = some (Nor.slice m.flash.bytes offset size) := by
      intro size
      rw [Media.read, if_neg (by rw [hreadable]; decide), Nor.read_powered hpower]
    rw [hread]
    dsimp only
    rw [← Nor.slice_take (Nat.min_le_right profilePageSize expected.length), hslice, ih]
    · rw [Bool.and_true, decide_eq_true_eq]
      rcases Nat.le_total profilePageSize expected.length with hle | hle
      · rw [Nat.min_eq_left hle]
      · rw [Nat.min_eq_right hle, List.take_length, List.take_of_length_le hle]
    · have hdrop := congrArg (List.drop profilePageSize) hslice
      rw [Nor.slice_drop] at hdrop
      rw [List.length_drop]
      exact hdrop

end Program

section Select

variable {p : Parsers} {source : ProfileSource} {profile : List UInt8} {store store' : ProfileStore}
  {m m' : Media} {ok : Bool}

/-- What a selection that is not rejected may rely on. -/
structure Admitted (p : Parsers) (source : ProfileSource) (profile : List UInt8)
    (store : ProfileStore) : Prop where
  healthy : store.healthy = true
  named : source ≠ .legacyBootstrap
  length : profile.length ≤ maxProfileBytes
  present : hasProfile source = !profile.isEmpty
  after : store.source = .consumerProfile → source = .consumerProfile ∨ source = .unprovisioned
  valid : source = .consumerProfile → validConsumerPayload p profile store.source store.data = true
  room : store.sequence ≠ 2 ^ 64 - 1

theorem admitted_of (h : rejects p source profile store = false) : Admitted p source profile store := by
  simp only [rejects, Bool.or_eq_false_iff] at h
  obtain ⟨⟨⟨⟨⟨⟨⟨hhealthy, hnamed⟩, hwith⟩, hwithout⟩, hafter⟩, -⟩, hconsumer⟩, hroom⟩ := h
  have hpresent : hasProfile source = !profile.isEmpty := by
    cases hs : hasProfile source <;> cases he : profile.isEmpty <;> simp [hs, he] at hwith hwithout ⊢
  refine ⟨?_, of_decide_eq_false hnamed, ?_, hpresent, fun hprior => ?_, fun hs => ?_,
    of_decide_eq_false hroom⟩
  · simpa using hhealthy
  · cases he : profile.isEmpty with
    | true =>
      rw [List.isEmpty_iff.mp he]
      exact Nat.zero_le _
    | false =>
      rw [hpresent, he] at hwith
      simpa using hwith
  · by_cases hc : source = .consumerProfile
    · exact .inl hc
    · refine .inr (Decidable.byContradiction fun hu => ?_)
      simp [hprior, hc, hu] at hafter
  · rw [hs] at hconsumer
    simp only [decide_true, Bool.true_and, Bool.or_eq_false_iff, Bool.not_eq_false'] at hconsumer
    exact hconsumer.2

variable (source profile) in
theorem length_selectionPayload :
    (selectionPayload source profile).length = selectionHeaderSize + profile.length := by
  simp only [selectionPayload, selectionHeaderSize, List.length_append, List.length_cons,
    List.length_replicate, length_put]

theorem adopt_selection (h : Admitted p source profile store) :
    adopt p (selectionPayload source profile) = (true, source, profile) := by
  have hlength := length_selectionPayload source profile
  have hmagic : get (subspan 0 8 (selectionPayload source profile)) = selectionMagic := by
    unfold selectionPayload
    rw [List.append_assoc, subspan_here (length_put ..), get_put (by decide)]
  have hreserved : zeros (subspan 9 7 (selectionPayload source profile)) = true := by
    have hskip : subspan 9 7 (selectionPayload source profile) =
        subspan 0 7 (List.replicate 7 0 ++ profile) := by
      simp [selectionPayload, subspan_skip]
    rw [hskip, subspan_here List.length_replicate]
    decide
  have hsource : storedSource (byteAt 8 (selectionPayload source profile)) = some source := by
    have hbyte : byteAt 8 (selectionPayload source profile) = source.byte := by
      simp [selectionPayload, byteAt_skip]
    rw [hbyte]
    unfold storedSource
    rw [ProfileSource.ofByte_byte]
    cases source with
    | legacyBootstrap => exact absurd rfl h.named
    | _ => rfl
  have hdrop : (selectionPayload source profile).drop selectionHeaderSize = profile := by
    unfold selectionPayload
    exact List.drop_left' (by simp [selectionHeaderSize])
  have hconsumer : source = .consumerProfile → (p.consumer profile).isNone = false := by
    intro hs
    have hvalid := h.valid hs
    unfold validConsumerPayload at hvalid
    cases hp : p.consumer profile with
    | none =>
      rw [hp] at hvalid
      cases hvalid
    | some parsed => rfl
  have hpresent := h.present
  unfold adopt
  simp only [hmagic, hreserved, hsource, hlength, hdrop]
  rw [if_pos (by simp)]
  cases hs : hasProfile source with
  | true =>
    rw [hs] at hpresent
    have hne : profile.length ≠ 0 := by
      intro hzero
      rw [List.eq_nil_of_length_eq_zero hzero] at hpresent
      cases hpresent
    rw [if_pos rfl, if_neg (by omega), if_neg]
    intro hbad
    simp only [Bool.and_eq_true, decide_eq_true_eq] at hbad
    cases (hconsumer hbad.1).symm.trans hbad.2
  | false =>
    rw [hs] at hpresent
    have hnil : profile = [] := by
      cases profile with
      | nil => rfl
      | cons => exact nomatch hpresent
    subst hnil
    rw [if_neg (by decide), if_neg (by simp), if_neg]
    intro hbad
    simp only [Bool.and_eq_true, decide_eq_true_eq] at hbad
    rw [hbad.1] at hs
    cases hs

/-- What is left of a slot that a selection writes. -/
inductive Left (bytes bytes' : Nat → UInt8) (slot sequence : Nat) (payload : List UInt8) : Prop where
  | untouched (h : scanned bytes' slot = scanned bytes slot)
  | torn (h : NotValid (scanned bytes' slot))
  | written (h : scanned bytes' slot = .valid sequence payload)

/-- A selection that starts to write. -/
structure Stored (source : ProfileSource) (profile : List UInt8) (store : ProfileStore) (m : Media)
    (ok : Bool) (store' : ProfileStore) (m' : Media) : Prop where
  outside : ∀ a, (a < store.target * profileSlotSize ∨
    store.target * profileSlotSize + profileSlotSize ≤ a) → m'.flash.bytes a = m.flash.bytes a
  left : Left m.flash.bytes m'.flash.bytes store.target (store.sequence + 1)
    (selectionPayload source profile)
  done : ok = true →
    store' = { healthy := true, sequence := store.sequence + 1, activeSlot := store.target,
               data := profile, source := source } ∧
    scanned m'.flash.bytes store.target =
      .valid (store.sequence + 1) (selectionPayload source profile)
  failed : ok = false → store' = { store with healthy := false }
  powered : m.flash.power = none → m'.flash.power = none
  finishes : m.flash.power = none → (∀ offset, m.unreadable offset = false) → ok = true

theorem Stored.others (h : Stored source profile store m ok store' m') (other : Nat)
    (hne : other ≠ store.target) :
    scanned m'.flash.bytes other = scanned m.flash.bytes other :=
  scanned_other hne h.outside

/-- A selection is rejected, in force already, or written to its slot and no other. -/
theorem select_spec (hsequence : store.sequence < 2 ^ 64)
    (hrun : store.select p source profile m = (ok, store', m')) :
    (ok = false ∧ store' = store ∧ m' = m ∧ rejects p source profile store = true) ∨
    (Admitted p source profile store ∧
      ((ok = true ∧ store' = store ∧ m' = m ∧ source = store.source ∧ profile = store.data) ∨
        Stored source profile store m ok store' m')) := by
  unfold select at hrun
  split at hrun
  · rename_i hrejects
    obtain ⟨rfl, rfl, rfl⟩ := hrun
    exact .inl ⟨rfl, rfl, rfl, hrejects⟩
  rename_i hadmits
  have hadmitted := admitted_of (Bool.eq_false_iff.mpr hadmits)
  refine .inr ⟨hadmitted, ?_⟩
  split at hrun
  · rename_i hsame
    obtain ⟨rfl, rfl, rfl⟩ := hrun
    simp only [Bool.and_eq_true, decide_eq_true_eq] at hsame
    exact .inl ⟨rfl, rfl, rfl, hsame.1⟩
  refine .inr ?_
  have hbound : store.sequence + 1 < 2 ^ 64 := by
    have := hadmitted.room
    omega
  have hlength := length_selectionPayload source profile
  have hfits : (selectionPayload source profile).length ≤ maximumPayloadSize := by
    have := hadmitted.length
    unfold maximumPayloadSize
    omega
  have hpositive : 0 < (selectionPayload source profile).length := by
    unfold selectionHeaderSize at hlength
    omega
  dsimp only at hrun
  have hwrote := Nor.write_spec (.erase (store.target * profileSlotSize) profileSlotSize) m.flash
  rw [Nor.erase] at hrun
  rcases herase : m.flash.write (.erase (store.target * profileSlotSize) profileSlotSize) with
    ⟨_ | _, f₁⟩
  · rw [herase] at hrun hwrote
    obtain ⟨rfl, rfl, rfl⟩ := hrun
    have houtside : ∀ a, (a < store.target * profileSlotSize ∨
        store.target * profileSlotSize + profileSlotSize ≤ a) → f₁.bytes a = m.flash.bytes a :=
      fun a ha => hwrote.outside ha
    rcases hwrote with ⟨hok, -⟩ | ⟨-, ⟨k, -, hbytes⟩, hlost⟩
    · cases hok
    · refine ⟨houtside, ?_, fun h => (by cases h), fun _ => rfl,
        fun h => absurd h hlost, fun h => absurd h hlost⟩
      rw [hbytes]
      rcases erase_left store.target m.flash.bytes k with h | h
      · exact .untouched h
      · exact .torn h
  · rw [herase] at hrun hwrote
    have hblank : ∀ i, i < profileSlotSize → f₁.bytes (store.target * profileSlotSize + i) = 255 := by
      intro i hi
      rw [hwrote.done]
      exact if_pos ⟨by omega, by simp only [Nor.Write.size]; omega⟩
    dsimp only at hrun
    rcases hprogram : programSlot (store.target * profileSlotSize) (store.sequence + 1)
      (selectionPayload source profile) f₁ with ⟨done, f₂⟩
    rw [hprogram] at hrun
    have hall := programSlot_spec hprogram
    obtain ⟨hleft, hdone⟩ :=
      slot_programmed (Nat.succ_pos _) hbound hpositive hfits hprogram hblank
    have houtside : ∀ a, (a < store.target * profileSlotSize ∨
        store.target * profileSlotSize + profileSlotSize ≤ a) → f₂.bytes a = m.flash.bytes a := by
      intro a ha
      rw [slot_outside hall (profileLayout_fits _ _ hfits) ha]
      exact hwrote.outside ha
    have hpowered : m.flash.power = none → done = true ∧ f₂.power = none :=
      fun h => hall.powered (hwrote.powered h).2
    have hkept : Left m.flash.bytes f₂.bytes store.target (store.sequence + 1)
        (selectionPayload source profile) := hleft.elim .torn .written
    cases done with
    | false =>
      obtain ⟨rfl, rfl, rfl⟩ := hrun
      exact ⟨houtside, hkept, fun h => (by cases h), fun _ => rfl, fun h => (hpowered h).2,
        fun h => (by cases (hpowered h).1)⟩
    | true =>
      obtain ⟨hvalid, hheader, hcommit, hpayload⟩ := hdone rfl
      dsimp only at hrun
      split at hrun
      · obtain ⟨rfl, rfl, rfl⟩ := hrun
        exact ⟨houtside, hkept, fun _ => ⟨rfl, hvalid⟩, fun h => (by cases h),
          fun h => (hpowered h).2, fun _ _ => rfl⟩
      · rename_i hreads
        obtain ⟨rfl, rfl, rfl⟩ := hrun
        refine ⟨houtside, hkept, fun h => (by cases h), fun _ => rfl, fun h => (hpowered h).2,
          fun h hreadable => absurd ?_ hreads⟩
        have hfits' := profileLayout_fits (store.sequence + 1) store.target hfits
        have hback : ∀ {count offset : Nat} {expected : List UInt8},
            Nor.slice f₂.bytes offset expected.length = expected →
            readsBack { m with flash := f₂ } count offset expected = true :=
          fun hslice => readsBack_of_slice (m := { m with flash := f₂ }) (hpowered h).2 hreadable hslice
        rw [hback, hback, hback]
        · rfl
        · exact hpayload
        · rw [hfits'.commit]
          exact hcommit
        · rw [hfits'.header]
          exact hheader

theorem select_saves (hsequence : store.sequence < 2 ^ 64)
    (hadmits : rejects p source profile store = false)
    (hnew : source ≠ store.source ∨ profile ≠ store.data) (hpower : m.flash.power = none)
    (hreads : ∀ offset, m.unreadable offset = false) :
    ∃ m', store.select p source profile m =
      (true, { healthy := true, sequence := store.sequence + 1, activeSlot := store.target,
               data := profile, source }, m') := by
  rcases hrun : store.select p source profile m with ⟨ok, store', m'⟩
  rcases select_spec hsequence hrun with
    ⟨-, -, -, hrejects⟩ | ⟨-, ⟨-, -, -, hsource, hdata⟩ | hstored⟩
  · cases hadmits.symm.trans hrejects
  · exact (hnew.elim (· hsource) (· hdata)).elim
  · obtain rfl := hstored.finishes hpower hreads
    obtain ⟨rfl, -⟩ := hstored.done rfl
    exact ⟨m', rfl⟩

end Select

end Profile

end WsprryPico.Provisioning
