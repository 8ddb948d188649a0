import WsprryPico.Standalone.Bytes
import WsprryPico.Wtp.Sha256

/-!
# Header and commit pages

The access journal and the profile journal write a slot alike: payload pages, then a
header page, then a commit page. Header and commit are fields, erased fill and a CRC
in the last four bytes.
-/

namespace WsprryPico.Provisioning

open Lib Standalone Wtp

def pageSize : Nat := 256

def sealedPage (fields : List UInt8) : List UInt8 :=
  let body := fields ++ List.replicate (252 - fields.length) 255
  body ++ put 4 (crc32 body)

/-- The last four bytes of a page are the CRC of the others. -/
def crcMatches (page : List UInt8) : Bool := get (subspan 252 4 page) = crc32 (page.take 252)

def headerFields (magic sequence size : Nat) (digest : PayloadDigest) : List UInt8 :=
  put 8 magic ++ (put 8 sequence ++ (put 4 size ++ (put 4 2 ++ digest.bytes)))

def commitFields (magic sequence : Nat) (digest : PayloadDigest) : List UInt8 :=
  put 8 magic ++ (put 8 sequence ++ digest.bytes)

section Sealed

variable {fields : List UInt8}

theorem length_sealedPage (h : fields.length ≤ 252) : (sealedPage fields).length = pageSize := by
  simp only [sealedPage, List.length_append, List.length_replicate, length_put, pageSize]
  omega

theorem crcMatches_sealedPage (h : fields.length ≤ 252) : crcMatches (sealedPage fields) = true := by
  have hbody : (fields ++ List.replicate (252 - fields.length) (255 : UInt8)).length = 252 := by
    simp only [List.length_append, List.length_replicate]
    omega
  unfold crcMatches sealedPage
  simp only
  rw [subspan_skip (by omega), hbody, Nat.sub_self, subspan_all (length_put ..),
    List.take_left' hbody, get_put (crc32_lt _)]
  exact decide_eq_true rfl

theorem subspan_sealedPage {offset count : Nat} (h : offset + count ≤ fields.length) :
    subspan offset count (sealedPage fields) = subspan offset count fields := by
  unfold subspan sealedPage
  rw [List.append_assoc, List.drop_append_of_le_length (by omega),
    List.take_append_of_le_length (by rw [List.length_drop]; omega)]

end Sealed

section Read

variable {magic sequence size : Nat} {digest : PayloadDigest}

theorem length_headerFields : (headerFields magic sequence size digest).length = 56 := by
  simp [headerFields, digest.size]

theorem length_commitFields : (commitFields magic sequence digest).length = 48 := by
  simp [commitFields, digest.size]

theorem headerFields_fit : (headerFields magic sequence size digest).length ≤ 252 := by
  simp [length_headerFields]

theorem commitFields_fit : (commitFields magic sequence digest).length ≤ 252 := by
  simp [length_commitFields]

/-- The fields of a header page. -/
structure HeaderRead (magic sequence size : Nat) (digest : PayloadDigest) (page : List UInt8) :
    Prop where
  magic : get (subspan 0 8 page) = magic
  sequence : get (subspan 8 8 page) = sequence
  size : get (subspan 16 4 page) = size
  version : get (subspan 20 4 page) = 2
  digest : subspan 24 32 page = digest.bytes
  crc : crcMatches page = true

variable (magic sequence size digest) in
theorem header_read (hmagic : magic < 256 ^ 8) (hsequence : sequence < 256 ^ 8)
    (hsize : size < 256 ^ 4) : HeaderRead magic sequence size digest
      (sealedPage (headerFields magic sequence size digest)) where
  magic := by
    rw [subspan_sealedPage (by simp [length_headerFields])]
    simp [headerFields, subspan_here, get_put hmagic]
  sequence := by
    rw [subspan_sealedPage (by simp [length_headerFields])]
    simp [headerFields, subspan_skip, subspan_here, get_put hsequence]
  size := by
    rw [subspan_sealedPage (by simp [length_headerFields])]
    simp [headerFields, subspan_skip, subspan_here, get_put hsize]
  version := by
    rw [subspan_sealedPage (by simp [length_headerFields])]
    simp [headerFields, subspan_skip, subspan_here, get_put (show 2 < 256 ^ 4 by decide)]
  digest := by
    rw [subspan_sealedPage (by simp [length_headerFields])]
    simp [headerFields, subspan_skip, subspan_all digest.size]
  crc := crcMatches_sealedPage headerFields_fit

/-- The fields of a commit page. -/
structure CommitRead (magic sequence : Nat) (digest : PayloadDigest) (page : List UInt8) : Prop where
  magic : get (subspan 0 8 page) = magic
  sequence : get (subspan 8 8 page) = sequence
  digest : subspan 16 32 page = digest.bytes
  crc : crcMatches page = true

variable (magic sequence digest) in
theorem commit_read (hmagic : magic < 256 ^ 8) (hsequence : sequence < 256 ^ 8) :
    CommitRead magic sequence digest (sealedPage (commitFields magic sequence digest)) where
  magic := by
    rw [subspan_sealedPage (by simp [length_commitFields])]
    simp [commitFields, subspan_here, get_put hmagic]
  sequence := by
    rw [subspan_sealedPage (by simp [length_commitFields])]
    simp [commitFields, subspan_skip, subspan_here, get_put hsequence]
  digest := by
    rw [subspan_sealedPage (by simp [length_commitFields])]
    simp [commitFields, subspan_skip, subspan_all digest.size]
  crc := crcMatches_sealedPage commitFields_fit

theorem magic_ne_of_first {page : List UInt8} (hfirst : page[0]? = some 255)
    (h : magic % 256 ≠ 255) : get (subspan 0 8 page) ≠ magic := by
  match page, hfirst with
  | byte :: rest, hfirst =>
    obtain rfl : byte = 255 := Option.some.inj hfirst
    rw [subspan, List.drop_zero, List.take_succ_cons, Standalone.get]
    have : (255 : UInt8).toNat = 255 := rfl
    omega

theorem not_erased_of_magic {page : List UInt8} (hlength : 0 < page.length)
    (hmagic : get (subspan 0 8 page) = magic) (h : magic % 256 ≠ 255) : erased page = false := by
  rw [Bool.eq_false_iff]
  exact fun herased => magic_ne_of_first (erased_iff.mp herased 0 hlength) h hmagic

end Read

/-- Where the pages of a slot are. -/
structure SlotLayout where
  base : Nat
  size : Nat
  payloadAt : Nat
  commitAt : Nat

/-- Payload, header and commit page, in the order they are programmed. -/
def SlotLayout.writes (l : SlotLayout) (payload header commit : List UInt8) : List Nor.Write :=
  [.program (l.base + l.payloadAt) payload, .program l.base header,
    .program (l.base + l.commitAt) commit]

section Slot

variable {l : SlotLayout} {payload header commit : List UInt8} {f f' : Nor} {ok : Bool}

/-- The pages fit into the slot, the commit page last. -/
structure SlotLayout.Fits (l : SlotLayout) (payload header commit : List UInt8) : Prop where
  header : header.length = pageSize
  commit : commit.length = pageSize
  behind : pageSize ≤ l.payloadAt
  before : l.payloadAt + payload.length ≤ l.commitAt
  within : l.commitAt + pageSize ≤ l.size

/-- A write to an erased slot ends without a commit page, or with header and payload
complete, and with all three where it succeeds. -/
theorem slot_written (h : Nor.WroteAll (l.writes payload header commit) f ok f')
    (hfits : l.Fits payload header commit) (hblank : ∀ i, i < l.size → f.bytes (l.base + i) = 255) :
    (ok = false ∧ erased (Nor.slice f'.bytes (l.base + l.commitAt) pageSize) = true) ∨
    (Nor.slice f'.bytes l.base pageSize = header ∧
      Nor.slice f'.bytes (l.base + l.payloadAt) payload.length = payload ∧
      (ok = true → Nor.slice f'.bytes (l.base + l.commitAt) pageSize = commit)) := by
  obtain ⟨hheader, hcommit, hbehind, hbefore, hwithin⟩ := hfits
  -- the bytes of the slot that a write to other pages leaves erased
  have hrest : ∀ {w : Nor.Write} {g g' : Nor} {ok : Bool} {at' count : Nat}, Nor.Wrote w g ok g' →
      (∀ i, i < count → g.bytes (l.base + at' + i) = 255) →
      (l.base + at' + count ≤ w.base ∨ w.base + w.size ≤ l.base + at') →
      ∀ i, i < count → g'.bytes (l.base + at' + i) = 255 := by
    intro w g g' ok at' count hwrote hg hdisjoint i hi
    rw [hwrote.outside (by omega)]
    exact hg i hi
  have hcommitBlank : ∀ i, i < pageSize → f.bytes (l.base + l.commitAt + i) = 255 := by
    intro i hi
    rw [Nat.add_assoc]
    exact hblank _ (by omega)
  have hheaderBlank : ∀ i, i < pageSize → f.bytes (l.base + 0 + i) = 255 := by
    intro i hi
    rw [Nat.add_zero]
    exact hblank _ (by omega)
  have hpayloadBlank : ∀ i, i < payload.length → f.bytes (l.base + l.payloadAt + i) = 255 := by
    intro i hi
    rw [Nat.add_assoc]
    exact hblank _ (by omega)
  cases h with
  | failed hpayload =>
    refine .inl ⟨rfl, erased_slice.mpr (hrest hpayload hcommitBlank (.inr ?_))⟩
    simp only [Nor.Write.base, Nor.Write.size]
    omega
  | step hpayload h =>
    rename_i g
    have hcommitBlank := hrest hpayload hcommitBlank (.inr (by
      simp only [Nor.Write.base, Nor.Write.size]
      omega))
    have hheaderBlank := hrest hpayload hheaderBlank (.inl (by
      simp only [Nor.Write.base]
      omega))
    have hpayloadRead : Nor.slice g.bytes (l.base + l.payloadAt) payload.length = payload := by
      rw [hpayload.done]
      exact Nor.Write.slice_programmed hpayloadBlank
    cases h with
    | failed hheaderWrite =>
      refine .inl ⟨rfl, erased_slice.mpr (hrest hheaderWrite hcommitBlank (.inr ?_))⟩
      simp only [Nor.Write.base, Nor.Write.size]
      omega
    | step hheaderWrite h =>
      rename_i g'
      have hcommitBlank := hrest hheaderWrite hcommitBlank (.inr (by
        simp only [Nor.Write.base, Nor.Write.size]
        omega))
      have hheaderRead : Nor.slice g'.bytes l.base pageSize = header := by
        rw [hheaderWrite.done, ← hheader]
        refine Nor.Write.slice_programmed fun i hi => ?_
        rw [hheader] at hi
        exact hheaderBlank i hi
      have hpayloadRead : Nor.slice g'.bytes (l.base + l.payloadAt) payload.length = payload := by
        refine (Nor.slice_congr fun i hi => hheaderWrite.outside ?_).trans hpayloadRead
        simp only [Nor.Write.base, Nor.Write.size]
        omega
      have hcommitWrite : ∃ ok', Nor.Wrote (.program (l.base + l.commitAt) commit) g' ok' f' ∧
          (ok = true → ok' = true) := by
        cases h with
        | failed hcommitWrite => exact ⟨false, hcommitWrite, id⟩
        | step hcommitWrite h =>
          cases h with
          | done => exact ⟨true, hcommitWrite, id⟩
      obtain ⟨ok', hcommitWrite, hok⟩ := hcommitWrite
      refine .inr ⟨?_, ?_, fun htrue => ?_⟩
      · refine (Nor.slice_congr fun i hi => hcommitWrite.outside ?_).trans hheaderRead
        simp only [Nor.Write.base]
        omega
      · refine (Nor.slice_congr fun i hi => hcommitWrite.outside ?_).trans hpayloadRead
        simp only [Nor.Write.base]
        omega
      · obtain rfl := hok htrue
        rw [hcommitWrite.done, ← hcommit]
        refine Nor.Write.slice_programmed fun i hi => ?_
        rw [hcommit] at hi
        exact hcommitBlank i hi

theorem slot_outside (h : Nor.WroteAll (l.writes payload header commit) f ok f')
    (hfits : l.Fits payload header commit) {a : Nat} (ha : a < l.base ∨ l.base + l.size ≤ a) :
    f'.bytes a = f.bytes a := by
  obtain ⟨hheader, hcommit, hbehind, hbefore, hwithin⟩ := hfits
  refine h.outside fun w hw => ?_
  simp only [SlotLayout.writes, List.mem_cons, List.not_mem_nil, or_false] at hw
  rcases hw with rfl | rfl | rfl <;> simp only [Nor.Write.base, Nor.Write.size] <;> omega

end Slot

end WsprryPico.Provisioning
