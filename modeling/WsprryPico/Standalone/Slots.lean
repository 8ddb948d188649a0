import WsprryPico.Standalone.Journal

/-!
# The slots of a journal

What erases and programs do to the slots, each read as `load` reads it. A write
cut short leaves a slot as it was, erased, torn, or complete: CRC collisions are
excluded (`NoCollision`).
-/

namespace WsprryPico.Standalone

open Lib

section Records

variable {size sequence : Nat} {data record : List UInt8}

/-- What a record may hold. -/
structure Fits (size sequence : Nat) (data : List UInt8) : Prop where
  supported : size = 256 ∨ size = 2048
  positive : 0 < sequence
  bound : sequence < 2 ^ 64
  length : data.length ≤ size - 64

theorem length_encode (h : Fits size sequence data) : (encode size sequence data).length = size := by
  have := h.length
  rcases h.supported with rfl | rfl <;> simp [encode] <;> omega

theorem classify_first (h : record[0]? = some 255) (s : Nat) (d : List UInt8) :
    classify size record ≠ .record s d := by
  cases record with
  | nil => cases h
  | cons byte rest =>
    obtain rfl : byte = 255 := Option.some.inj h
    have hmagic : get ((255 :: rest).take 8) ≠ journalMagic := by
      rw [List.take_succ_cons, get, journalMagic]
      have : (255 : UInt8).toNat = 255 := rfl
      omega
    unfold classify
    split
    · exact fun h => by cases h
    · simp only [hmagic, false_and, if_false]
      exact fun h => by cases h

theorem first_encode : (encode size sequence data)[0]? = some 0x57 := by
  simp [encode, put, journalMagic]

theorem classify_encode (h : Fits size sequence data) :
    classify size (encode size sequence data) = .record sequence data := by
  have hlength := h.length
  have hsize : 256 ≤ size ∧ size ≤ 2048 := by rcases h.supported with rfl | rfl <;> omega
  have hnot : erased (encode size sequence data) = false := by
    rw [Bool.eq_false_iff]
    intro herased
    have hfirst := erased_iff.mp herased 0 (by rw [length_encode h]; omega)
    rw [first_encode] at hfirst
    exact absurd (Option.some.inj hfirst) (by decide)
  unfold classify
  rw [hnot]
  let tail := List.replicate (size - 36 - data.length) (255 : UInt8)
  let body := put 8 journalMagic ++ put 8 sequence ++ put 4 data.length ++ List.replicate 12 255 ++
    data ++ tail
  have hbody : body.length = size - 4 := by
    simp only [body, tail, List.length_append, length_put, List.length_replicate]
    omega
  have hrecord : encode size sequence data = body ++ put 4 (crc32 body) := rfl
  have htake : (encode size sequence data).take (size - 4) = body := by
    rw [hrecord, List.take_left' hbody]
  have hdrop : (encode size sequence data).drop (size - 4) = put 4 (crc32 body) := by
    rw [hrecord, List.drop_left' hbody]
  have hsplit : encode size sequence data = put 8 journalMagic ++ (put 8 sequence ++
      (put 4 data.length ++ (List.replicate 12 255 ++ (data ++ (tail ++ put 4 (crc32 body)))))) := by
    simp only [hrecord, body, List.append_assoc]
  have h8 : (encode size sequence data).take 8 = put 8 journalMagic := by
    rw [hsplit, List.take_left' (length_put ..)]
  have hd8 : (encode size sequence data).drop 8 = put 8 sequence ++
      (put 4 data.length ++ (List.replicate 12 255 ++ (data ++ (tail ++ put 4 (crc32 body))))) := by
    rw [hsplit, List.drop_left' (length_put ..)]
  have hd16 : (encode size sequence data).drop 16 =
      put 4 data.length ++ (List.replicate 12 255 ++ (data ++ (tail ++ put 4 (crc32 body)))) := by
    rw [show 16 = 8 + 8 from rfl, ← List.drop_drop, hd8, List.drop_left' (length_put ..)]
  have hd32 : (encode size sequence data).drop 32 = data ++ (tail ++ put 4 (crc32 body)) := by
    rw [show 32 = 16 + (4 + 12) from rfl, ← List.drop_drop, hd16, ← List.drop_drop,
      List.drop_left' (length_put ..), List.drop_left' List.length_replicate]
  have hseq : get (((encode size sequence data).drop 8).take 8) = sequence := by
    rw [hd8, List.take_left' (length_put ..), get_put]
    exact h.bound
  have hlen : get (((encode size sequence data).drop 16).take 4) = data.length := by
    rw [hd16, List.take_left' (length_put ..), get_put]
    have : (256 : Nat) ^ 4 = 4294967296 := rfl
    omega
  simp only [htake, hdrop, h8, hseq, hlen, hd32]
  rw [get_put (by decide), get_put (crc32_lt body)]
  have hall : journalMagic = journalMagic ∧ sequence > 0 ∧ data.length ≤ size - 64 ∧
      crc32 body = crc32 body := ⟨rfl, h.positive, hlength, rfl⟩
  rw [if_neg (by decide), if_pos hall, List.take_left' rfl]

theorem fits_of_classify (hsize : size = 256 ∨ size = 2048)
    (h : classify size record = .record sequence data) : Fits size sequence data := by
  unfold classify at h
  split at h
  · cases h
  · dsimp only at h
    split at h
    · rename_i hvalid
      injection h with hsequence hdata
      have hbound := get_lt ((record.drop 8).take 8)
      have htake : ((record.drop 8).take 8).length ≤ 8 := List.length_take_le _ _
      refine ⟨hsize, hsequence ▸ hvalid.2.1, ?_, ?_⟩
      · rw [← hsequence]
        exact Nat.lt_of_lt_of_le hbound (Nat.pow_le_pow_right (by omega) htake)
      · rw [← hdata]
        exact Nat.le_trans (List.length_take_le _ _) hvalid.2.2.1
    · cases h

/-- A record of which only `k` bytes were programmed. -/
def tornRecord (k : Nat) (record : List UInt8) : List UInt8 :=
  record.take k ++ List.replicate (record.length - k) 255

theorem tornRecord_whole {k : Nat} (h : record.length = k) : tornRecord k record = record := by
  subst h
  simp [tornRecord]

/-- No CRC collision: a torn record that passes for one is the whole record. -/
def NoCollision (size : Nat) (record : List UInt8) : Prop :=
  ∀ k s d, classify size (tornRecord k record) = .record s d → tornRecord k record = record

theorem length_tornRecord (k : Nat) : (tornRecord k record).length = record.length := by
  simp only [tornRecord, List.length_append, List.length_take, List.length_replicate]
  omega

theorem getElem?_tornRecord {k i : Nat} (h : i < record.length) :
    (tornRecord k record)[i]? = if i < k then record[i]? else some 255 := by
  unfold tornRecord
  split
  · rename_i hik
    rw [List.getElem?_append_left (by rw [List.length_take]; omega), List.getElem?_take_of_lt hik]
  · rw [List.getElem?_append_right (by rw [List.length_take]; omega), List.getElem?_replicate,
      if_pos (by rw [List.length_take]; omega)]

theorem getElem?_encode {i : Nat} (hdata : 32 + data.length ≤ i) (hi : i < size - 4) :
    (encode size sequence data)[i]? = some 255 := by
  unfold encode
  rw [List.getElem?_append_left (by simp; omega), List.getElem?_append_right (by simp; omega),
    List.getElem?_replicate, if_pos (by simp; omega)]

theorem crc_of_classify {s : Nat} {d : List UInt8} (h : classify size record = .record s d) :
    get (record.drop (size - 4)) = crc32 (record.take (size - 4)) := by
  unfold classify at h
  split at h
  · cases h
  · dsimp only at h
    split at h
    · rename_i hvalid
      exact hvalid.2.2.2
    · cases h

/-- A collision is a torn prefix whose CRC is that of erased flash. -/
theorem noCollision_of (hfits : Fits size sequence data)
    (h : ∀ k, k < 32 + data.length →
      crc32 ((tornRecord k (encode size sequence data)).take (size - 4)) ≠ 0xffffffff) :
    NoCollision size (encode size sequence data) := by
  intro k s d hrecord
  have hsize : 256 ≤ size := by rcases hfits.supported with rfl | rfl <;> omega
  have hlength := hfits.length
  have hwhole := length_encode hfits
  have hcrc := crc_of_classify hrecord
  have hdropLength : ∀ {r : List UInt8}, r.length = size → (r.drop (size - 4)).length = 4 := by
    intro r hr
    rw [List.length_drop, hr]
    omega
  by_cases hshort : k < 32 + data.length
  · have hblank : (tornRecord k (encode size sequence data)).drop (size - 4) =
        [255, 255, 255, 255] := by
      refine List.ext_getElem? fun i => ?_
      rw [List.getElem?_drop]
      by_cases hi : i < 4
      · rw [getElem?_tornRecord (by omega), if_neg (by omega)]
        match i, hi with
        | 0, _ | 1, _ | 2, _ | 3, _ => rfl
      · rw [List.getElem?_eq_none (by rw [length_tornRecord, hwhole]; omega),
          List.getElem?_eq_none (by simp; omega)]
    rw [hblank] at hcrc
    exact absurd hcrc.symm (h k hshort)
  · have hbody : (tornRecord k (encode size sequence data)).take (size - 4) =
        (encode size sequence data).take (size - 4) := by
      refine List.ext_getElem? fun i => ?_
      by_cases hi : i < size - 4
      · rw [List.getElem?_take_of_lt hi, List.getElem?_take_of_lt hi,
          getElem?_tornRecord (by omega)]
        split
        · rfl
        · exact (getElem?_encode (by omega) hi).symm
      · rw [List.getElem?_eq_none (by rw [List.length_take]; omega),
          List.getElem?_eq_none (by rw [List.length_take]; omega)]
    have htail := (crc_of_classify (classify_encode hfits)).symm
    rw [← hbody] at htail
    have hdrop := get_injective
      ((hdropLength ((length_tornRecord k).trans hwhole)).trans (hdropLength hwhole).symm)
      (hcrc.trans htail)
    rw [← List.take_append_drop (size - 4) (tornRecord k (encode size sequence data)), hbody, hdrop,
      List.take_append_drop]

end Records

section Views

variable {base size : Nat} {bytes : Nat → UInt8}

/-- The slots of the flash, as `load` reads them. -/
def view (base size : Nat) (bytes : Nat → UInt8) (offset : Nat) : Slot :=
  classify size (Nor.slice bytes (base + offset) size)

/-- An offset that `load` reads. -/
def IsSlot (size offset : Nat) : Prop := ∃ n, n < 2 * sectorSize / size ∧ offset = n * size

theorem mem_offsets {offset : Nat} : offset ∈ Journal.offsets size ↔ IsSlot size offset := by
  simp only [Journal.offsets, List.mem_map, List.mem_range, IsSlot]
  exact exists_congr fun n => and_congr_right fun _ => eq_comm

theorem IsSlot.bank {offset sector : Nat} (hsize : size = 256 ∨ size = 2048)
    (h : IsSlot size offset) (hsector : sector = 0 ∨ sector = sectorSize) :
    (offset + size ≤ sector ∨ sector + sectorSize ≤ offset) ∨
      (sector ≤ offset ∧ offset + size ≤ sector + sectorSize) := by
  obtain ⟨n, hn, rfl⟩ := h
  unfold sectorSize at *
  rcases hsize with rfl | rfl <;> rcases hsector with rfl | rfl <;> omega

theorem IsSlot.apart {a b : Nat} (ha : IsSlot size a) (hb : IsSlot size b) (h : a ≠ b) :
    a + size ≤ b ∨ b + size ≤ a := by
  obtain ⟨n, -, rfl⟩ := ha
  obtain ⟨m, -, rfl⟩ := hb
  rcases Nat.lt_or_gt_of_ne (fun hnm => h (hnm ▸ rfl) : n ≠ m) with hlt | hlt
  · left
    rw [← Nat.succ_mul]
    exact Nat.mul_le_mul_right size hlt
  · right
    rw [← Nat.succ_mul]
    exact Nat.mul_le_mul_right size hlt

theorem view_congr {bytes' : Nat → UInt8} {offset : Nat}
    (h : ∀ i, i < size → bytes' (base + offset + i) = bytes (base + offset + i)) :
    view base size bytes' offset = view base size bytes offset :=
  congrArg (classify size) (Nor.slice_congr h)

theorem view_outside {w : Nor.Write} {k offset : Nat}
    (h : base + offset + size ≤ w.base ∨ w.base + k ≤ base + offset) :
    view base size (w.upTo k bytes) offset = view base size bytes offset :=
  view_congr fun i hi => Nor.Write.upTo_outside (by omega)

theorem view_blank_iff {offset : Nat} :
    view base size bytes offset = .blank ↔ ∀ i, i < size → bytes (base + offset + i) = 255 := by
  rw [← erased_slice]
  unfold view classify
  constructor
  · intro h
    split at h
    · assumption
    · dsimp only at h
      split at h <;> exact nomatch h
  · exact fun h => if_pos h

def Decayed (v v' : Slot) : Prop := v' = v ∨ v' = .blank ∨ v' = .torn

theorem Decayed.of_no_record {v v' : Slot} (h : ∀ s d, v' ≠ .record s d) : Decayed v v' := by
  cases v' with
  | blank => exact .inr (.inl rfl)
  | torn => exact .inr (.inr rfl)
  | record s d => exact absurd rfl (h s d)

/-- An erase cut short leaves every slot as it was, erased, or torn: the bytes of a
slot are erased from the first on. -/
theorem erase_decays {sector k offset : Nat} (hsize : size = 256 ∨ size = 2048)
    (hsector : sector = 0 ∨ sector = sectorSize) (hk : k ≤ sectorSize) (h : IsSlot size offset) :
    Decayed (view base size bytes offset)
      (view base size ((Nor.Write.erase (base + sector) sectorSize).upTo k bytes) offset) := by
  rcases h.bank hsize hsector with hout | hin
  · exact .inl (view_outside (by simp only [Nor.Write.base]; omega))
  · by_cases hfirst : sector + k ≤ offset
    · exact .inl (view_outside (by simp only [Nor.Write.base]; omega))
    · refine .of_no_record (classify_first ?_)
      rw [Nor.getElem?_slice (by omega)]
      simp only [Nor.Write.upTo]
      rw [if_pos (by omega)]

theorem erase_outside {sector k offset : Nat} (hk : k ≤ sectorSize)
    (h : offset + size ≤ sector ∨ sector + sectorSize ≤ offset) :
    view base size ((Nor.Write.erase (base + sector) sectorSize).upTo k bytes) offset =
      view base size bytes offset :=
  view_outside (by simp only [Nor.Write.base]; omega)

theorem erase_blank {sector offset : Nat} (h : sector ≤ offset ∧ offset + size ≤ sector + sectorSize) :
    view base size ((Nor.Write.erase (base + sector) sectorSize).upTo sectorSize bytes) offset =
      .blank := by
  refine view_blank_iff.mpr fun i hi => ?_
  exact if_pos (by omega)

theorem slice_program {offset k : Nat} (record : List UInt8) (hlength : record.length = size)
    (hblank : view base size bytes offset = .blank) (hk : k ≤ size) :
    Nor.slice ((Nor.Write.program (base + offset) record).upTo k bytes) (base + offset) size =
      tornRecord k record := by
  rw [Nor.Write.slice_program hlength (view_blank_iff.mp hblank) hk, tornRecord, hlength]

theorem program_done {offset sequence : Nat} {data : List UInt8} (hfits : Fits size sequence data)
    (hblank : view base size bytes offset = .blank) :
    view base size ((Nor.Write.program (base + offset) (encode size sequence data)).upTo size bytes)
      offset = .record sequence data := by
  have hlength := length_encode hfits
  unfold view
  rw [slice_program _ hlength hblank (Nat.le_refl size), tornRecord_whole hlength]
  exact classify_encode hfits

theorem program_cut {offset sequence k : Nat} {data : List UInt8} (hfits : Fits size sequence data)
    (hcrc : NoCollision size (encode size sequence data))
    (hblank : view base size bytes offset = .blank) (hk : k ≤ size) :
    view base size ((Nor.Write.program (base + offset) (encode size sequence data)).upTo k bytes)
      offset = .record sequence data ∨
    Decayed .blank (view base size
      ((Nor.Write.program (base + offset) (encode size sequence data)).upTo k bytes) offset) := by
  have hslice := slice_program (encode size sequence data) (length_encode hfits) hblank hk
  cases hview : view base size
      ((Nor.Write.program (base + offset) (encode size sequence data)).upTo k bytes) offset with
  | blank => exact .inr (.inl rfl)
  | torn => exact .inr (.inr (.inr rfl))
  | record s d =>
    left
    unfold view at hview
    rw [hslice] at hview
    have hwhole := hcrc k s d hview
    rw [hwhole, classify_encode hfits] at hview
    exact hview.symm

theorem program_outside {offset k : Nat} {record : List UInt8} (hk : k ≤ size) {other : Nat}
    (ho : IsSlot size offset) (hother : IsSlot size other)
    (h : other ≠ offset) :
    view base size ((Nor.Write.program (base + offset) record).upTo k bytes) other =
      view base size bytes other := by
  have hapart := hother.apart ho h
  exact view_outside (by simp only [Nor.Write.base]; omega)

end Views

end WsprryPico.Standalone
