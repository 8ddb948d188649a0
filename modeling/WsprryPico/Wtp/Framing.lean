import WsprryPico.Lib.Scanner
import WsprryPico.Wtp.FrameParser

/-!
# The frame parser as a scanner

`framing` reads a stream of frames with two counters and no clock, memory or
buffer. It is local, and `FrameParser` refines it as long as its memory is
admitted and no receive timeout elapses; so the events of the parser depend on
the bytes only and not on how they are cut into calls, and encoded frames are
read back through any garbage without a magic.
-/

namespace WsprryPico.Wtp

open Lib

/-! ## Searching -/

theorem isPrefixOf_append {m xs ys : List UInt8} (h : m.length ≤ xs.length) :
    m.isPrefixOf (xs ++ ys) = m.isPrefixOf xs := by
  rw [Bool.eq_iff_iff, List.isPrefixOf_iff_prefix, List.isPrefixOf_iff_prefix]
  exact ⟨fun hp => List.prefix_of_prefix_length_le hp (List.prefix_append xs ys) h,
    fun hp => hp.trans (List.prefix_append xs ys)⟩

theorem search_le (m xs : List UInt8) : search m xs ≤ xs.length := by
  induction xs with
  | nil => simp [search]
  | cons b bs ih =>
    rw [search]
    split
    · exact Nat.zero_le _
    · exact Nat.succ_le_succ ih

/-- An occurrence lies within the bytes. -/
theorem search_room {m xs : List UInt8} (h : search m xs < xs.length) :
    search m xs + m.length ≤ xs.length := by
  induction xs with
  | nil => simp at h
  | cons b bs ih =>
    rw [search] at h ⊢
    split
    · rename_i hp
      rw [Nat.zero_add]
      exact (List.isPrefixOf_iff_prefix.1 hp).length_le
    · rename_i hp
      rw [if_neg hp, List.length_cons] at h
      rw [List.length_cons]
      omega

theorem search_append_found {m xs : List UInt8} (ys : List UInt8) (h : search m xs < xs.length) :
    search m (xs ++ ys) = search m xs := by
  induction xs with
  | nil => simp at h
  | cons b bs ih =>
    have hroom := search_room h
    rw [List.cons_append, search, search, ← List.cons_append, isPrefixOf_append (by omega)]
    split
    · rfl
    · rename_i hp
      rw [search, if_neg hp, List.length_cons] at h
      rw [ih (Nat.lt_of_succ_lt_succ h)]

/-- Without an occurrence, all but the last `m.length - 1` bytes can be passed over. -/
theorem search_append_none {m : List UInt8} (hm : 0 < m.length) (ys : List UInt8) {d : Nat}
    {xs : List UInt8} (h : search m xs = xs.length) (hd : d = 0 ∨ d + m.length ≤ xs.length + 1) :
    search m (xs ++ ys) = d + search m (xs.drop d ++ ys) := by
  induction d generalizing xs with
  | zero => simp
  | succ d ih =>
    have hlong : d + m.length ≤ xs.length := by omega
    cases xs with
    | nil =>
      rw [List.length_nil] at hlong
      omega
    | cons b bs =>
      rw [List.length_cons] at h hlong
      have hp : ¬ m.isPrefixOf (b :: bs) = true := by
        intro hp
        rw [search, if_pos hp] at h
        omega
      rw [search, if_neg hp] at h
      rw [List.cons_append, search, ← List.cons_append,
        isPrefixOf_append (by rw [List.length_cons]; omega), if_neg hp,
        ih (Nat.succ.inj h) (.inr hlong), List.drop_succ_cons]
      omega

/-! ## Headers -/

theorem readU32Be_append {xs : List UInt8} (ys : List UInt8) (h : 4 ≤ xs.length) :
    readU32Be (xs ++ ys) = readU32Be xs := by
  match xs, h with
  | a :: b :: c :: d :: rest, _ => rfl

theorem readU32Be_drop_append {xs : List UInt8} (ys : List UInt8) {k : Nat}
    (h : k + 4 ≤ xs.length) : readU32Be ((xs ++ ys).drop k) = readU32Be (xs.drop k) := by
  rw [List.drop_append_of_le_length (by omega), readU32Be_append]
  rw [List.length_drop]
  omega

theorem validHeader_append {xs : List UInt8} (ys : List UInt8) (h : frameHeaderBytes ≤ xs.length) :
    validHeader (xs ++ ys) = validHeader xs := by
  have hlength : 16 ≤ xs.length := h
  simp only [validHeader]
  rw [readU32Be_drop_append ys (by omega), List.getElem?_append_left (by omega),
    List.getElem?_append_left (by omega), List.getElem?_append_left (by omega),
    List.getElem?_append_left (by omega)]

/-! ## The scanner -/

structure Counters where
  invalid : Nat := 0
  discarded : Nat := 0
  deriving DecidableEq

/-- Dropping `count` bytes more reaches the limit. -/
def Counters.Overflows (count : Nat) (c : Counters) : Prop :=
  count ≠ 0 ∧ maximumResyncDiscardBytes ≤ c.discarded + count

instance (count : Nat) (c : Counters) : Decidable (c.Overflows count) :=
  inferInstanceAs (Decidable (_ ∧ _))

def Counters.spend (count : Nat) (c : Counters) : Counters :=
  { c with discarded := c.discarded + count }

def frameLength (bytes : List UInt8) : Nat :=
  frameHeaderBytes + (readU32Be (bytes.drop 8)).toNat

def framePayload (bytes : List UInt8) : List UInt8 :=
  (bytes.drop frameHeaderBytes).take (readU32Be (bytes.drop 8)).toNat

/-- An invalid frame, after which reading goes on `count` bytes further. -/
def invalidRound (c : Counters) (bytes : List UInt8) (count : Nat) :
    Round Counters UInt8 FrameEvent :=
  if maximumInvalidFrames ≤ c.invalid + 1 then .halt [.invalidFrame, .closed]
  else .next { c with invalid := c.invalid + 1 } (bytes.drop count) [.invalidFrame]

/-- A round with the magic at the front. -/
def frameRound (c : Counters) (bytes : List UInt8) : Round Counters UInt8 FrameEvent :=
  if bytes.length < frameHeaderBytes then .wait c bytes
  else if !validHeader bytes then
    if c.invalid + 1 < maximumInvalidFrames ∧ c.Overflows 1 then .halt [.invalidFrame, .closed]
    else invalidRound (c.spend 1) bytes 1
  else if bytes.length < frameLength bytes then .wait c bytes
  else if crc32c (framePayload bytes) ≠ readU32Be (bytes.drop 12) then
    invalidRound c bytes (frameLength bytes)
  else .next {} (bytes.drop (frameLength bytes)) [.payload (framePayload bytes)]

/-- A round: the bytes before the magic are dropped, the last three kept where there is none. -/
def streamRound (c : Counters) (bytes : List UInt8) : Round Counters UInt8 FrameEvent :=
  let found := search magic bytes
  if found = bytes.length then
    let count := bytes.length - min 3 bytes.length
    if c.Overflows count then .halt [.closed] else .wait (c.spend count) (bytes.drop count)
  else if c.Overflows found then .halt [.closed]
  else frameRound (c.spend found) (bytes.drop found)

theorem invalidRound_shrinks {c c' : Counters} {bytes rest : List UInt8} {count : Nat} {events}
    (hcount : 0 < count) (hbytes : bytes ≠ [])
    (h : invalidRound c bytes count = .next c' rest events) : rest.length < bytes.length := by
  unfold invalidRound at h
  split at h
  · cases h
  · injection h with _ hrest
    have hlength := List.length_pos_iff.2 hbytes
    rw [← hrest, List.length_drop]
    omega

theorem frameRound_shrinks {c c' : Counters} {bytes rest : List UInt8} {events}
    (h : frameRound c bytes = .next c' rest events) : rest.length < bytes.length := by
  unfold frameRound at h
  split at h
  · cases h
  rename_i hheader
  have hlength : 16 ≤ bytes.length := Nat.le_of_not_lt hheader
  have hbytes : bytes ≠ [] := by
    rintro rfl
    simp at hlength
  split at h
  · split at h
    · cases h
    · exact invalidRound_shrinks (by decide) hbytes h
  split at h
  · cases h
  split at h
  · exact invalidRound_shrinks (Nat.add_pos_left (by decide) _) hbytes h
  · injection h with _ hrest
    rw [← hrest, List.length_drop, frameLength, frameHeaderBytes]
    omega

theorem streamRound_shrinks {c c' : Counters} {bytes rest : List UInt8} {events}
    (h : streamRound c bytes = .next c' rest events) : rest.length < bytes.length := by
  unfold streamRound at h
  simp only at h
  split at h
  · split at h <;> exact nomatch h
  split at h
  · cases h
  · have hshrinks := frameRound_shrinks h
    rw [List.length_drop] at hshrinks
    omega

def framing : Scanner Counters UInt8 FrameEvent where
  round := streamRound
  shrinks := streamRound_shrinks

/-! ## The scanner is local -/

theorem invalidRound_extend {c : Counters} {bytes : List UInt8} {count : Nat}
    (h : count ≤ bytes.length) (ys : List UInt8) :
    invalidRound c (bytes ++ ys) count = (invalidRound c bytes count).extend ys := by
  unfold invalidRound
  rw [List.drop_append_of_le_length h]
  split <;> rfl

theorem invalidRound_ne_wait {c c' : Counters} {bytes held : List UInt8} {count : Nat} :
    invalidRound c bytes count ≠ .wait c' held := by
  unfold invalidRound
  split <;> exact nofun

/-- A round at a magic waits for the rest of the frame, or does not depend on what follows. -/
theorem frameRound_cases (c : Counters) (bytes : List UInt8) :
    frameRound c bytes = .wait c bytes ∨
      (∀ c' held, frameRound c bytes ≠ .wait c' held) ∧
        ∀ ys, frameRound c (bytes ++ ys) = (frameRound c bytes).extend ys := by
  by_cases hheader : bytes.length < frameHeaderBytes
  · exact .inl (by simp [frameRound, hheader])
  have hlength : 16 ≤ bytes.length := Nat.le_of_not_lt hheader
  have hheader' : ∀ ys : List UInt8, ¬ (bytes ++ ys).length < frameHeaderBytes := by
    intro ys
    rw [List.length_append]
    omega
  have hvalid' : ∀ ys, validHeader (bytes ++ ys) = validHeader bytes :=
    fun ys => validHeader_append ys hlength
  cases hvalid : validHeader bytes with
  | false =>
    refine .inr ?_
    simp only [frameRound, hheader, hheader', hvalid', hvalid, Bool.not_false, if_true, if_false]
    split
    · exact ⟨nofun, fun _ => rfl⟩
    · exact ⟨fun _ _ => invalidRound_ne_wait, fun ys => invalidRound_extend (by omega) ys⟩
  | true =>
    have hframe : ∀ ys, frameLength (bytes ++ ys) = frameLength bytes := by
      intro ys
      rw [frameLength, readU32Be_drop_append ys (by omega), frameLength]
    by_cases hshort : bytes.length < frameLength bytes
    · exact .inl (by simp [frameRound, hheader, hvalid, hshort])
    refine .inr ?_
    have hshort' : ∀ ys : List UInt8, ¬ (bytes ++ ys).length < frameLength bytes := by
      intro ys
      rw [List.length_append]
      omega
    have hpayload : ∀ ys, framePayload (bytes ++ ys) = framePayload bytes := by
      intro ys
      have hroom : (readU32Be (bytes.drop 8)).toNat ≤ (bytes.drop frameHeaderBytes).length := by
        rw [frameLength] at hshort
        rw [List.length_drop]
        omega
      have hheader : frameHeaderBytes ≤ bytes.length := hlength
      rw [framePayload, readU32Be_drop_append ys (by omega), List.drop_append_of_le_length hheader,
        List.take_append_of_le_length hroom, framePayload]
    have hcrc : ∀ ys, readU32Be ((bytes ++ ys).drop 12) = readU32Be (bytes.drop 12) :=
      fun ys => readU32Be_drop_append ys (by omega)
    simp only [frameRound, hheader, hheader', hvalid', hvalid, hframe, hshort, hshort', hpayload,
      hcrc, Bool.not_true, Bool.false_eq_true, if_false]
    split
    · exact ⟨fun _ _ => invalidRound_ne_wait, fun ys => invalidRound_extend (by omega) ys⟩
    · refine ⟨nofun, fun ys => ?_⟩
      rw [List.drop_append_of_le_length (by omega)]
      rfl

theorem search_drop {m xs : List UInt8} (h : search m xs < xs.length) :
    search m (xs.drop (search m xs)) = 0 := by
  induction xs with
  | nil => simp at h
  | cons b bs ih =>
    rw [search] at h ⊢
    split
    · rename_i hp
      rw [List.drop_zero, search, if_pos hp]
    · rename_i hp
      rw [if_neg hp, List.length_cons] at h
      exact ih (Nat.lt_of_succ_lt_succ h)

theorem Counters.overflows_spend {c : Counters} {d k : Nat} (h : ¬ c.Overflows d) :
    (c.spend d).Overflows k ↔ c.Overflows (d + k) := by
  simp only [Counters.Overflows, Counters.spend] at h ⊢
  omega

theorem Counters.spend_spend (c : Counters) (d k : Nat) :
    (c.spend d).spend k = c.spend (d + k) := by
  simp [Counters.spend, Nat.add_assoc]

theorem Counters.Overflows.mono {c : Counters} {d k : Nat} (h : c.Overflows d) (hk : d ≤ k) :
    c.Overflows k := by
  simp only [Counters.Overflows] at h ⊢
  omega

/-- Bytes that were passed over, without a magic or before one, may as well not have been there. -/
theorem streamRound_spend {c : Counters} {bytes bytes' : List UInt8} {d : Nat}
    (hoverflows : ¬ c.Overflows d) (hbytes' : bytes' = bytes.drop d) (hd : d ≤ bytes.length)
    (hsearch : search magic bytes = d + search magic bytes')
    (htail : bytes.length - min 3 bytes.length = d + (bytes'.length - min 3 bytes'.length) ∨
      search magic bytes' < bytes'.length) :
    streamRound c bytes = streamRound (c.spend d) bytes' := by
  have hlength : bytes.length = d + bytes'.length := by
    rw [hbytes', List.length_drop]
    omega
  unfold streamRound
  simp only [Counters.overflows_spend hoverflows, Counters.spend_spend, hsearch, hlength]
  by_cases hnone : search magic bytes' = bytes'.length
  · have htail' : d + bytes'.length - min 3 (d + bytes'.length) =
        d + (bytes'.length - min 3 bytes'.length) := by
      rw [← hlength]
      omega
    rw [if_pos (by omega), if_pos hnone, htail', hbytes', List.drop_drop, ← hbytes']
  · rw [if_neg (by omega), if_neg hnone, hbytes', List.drop_drop, ← hbytes']

/-- With the magic at the front, or nothing at all, no bytes are dropped. -/
theorem streamRound_front {c : Counters} {bytes : List UInt8} (h : search magic bytes = 0) :
    streamRound c bytes = frameRound c bytes := by
  by_cases hempty : bytes = []
  · subst hempty
    simp [streamRound, frameRound, search, Counters.Overflows, Counters.spend, frameHeaderBytes]
  · have hlength := List.length_pos_iff.2 hempty
    simp only [streamRound, h]
    rw [if_neg (by omega), if_neg (by simp [Counters.Overflows]), List.drop_zero]
    rfl

theorem framing_local : framing.Local := by
  constructor
  · intro c bytes c' held h ys
    show streamRound c (bytes ++ ys) = streamRound c' (held ++ ys)
    change streamRound c bytes = _ at h
    unfold streamRound at h
    simp only at h
    split at h
    · rename_i hnone
      split at h
      · cases h
      rename_i hoverflows
      obtain ⟨rfl, rfl⟩ : c.spend (bytes.length - min 3 bytes.length) = c' ∧
          bytes.drop (bytes.length - min 3 bytes.length) = held := by
        injection h with hc hheld
        exact ⟨hc, hheld⟩
      refine streamRound_spend hoverflows (List.drop_append_of_le_length (by omega)).symm ?_
        (search_append_none (by decide) ys hnone ?_) (.inl ?_)
      · rw [List.length_append]
        omega
      · show _ ∨ _ + 4 ≤ _
        omega
      · simp only [List.length_append, List.length_drop]
        omega
    · rename_i hsome
      split at h
      · cases h
      rename_i hoverflows
      have hfound : search magic bytes < bytes.length :=
        Nat.lt_of_le_of_ne (search_le magic bytes) hsome
      obtain hwait | ⟨hne, -⟩ := frameRound_cases (c.spend (search magic bytes))
        (bytes.drop (search magic bytes))
      · obtain ⟨rfl, rfl⟩ : c.spend (search magic bytes) = c' ∧
            bytes.drop (search magic bytes) = held := by
          injection hwait.symm.trans h with hc hheld
          exact ⟨hc, hheld⟩
        have hfront : search magic (bytes.drop (search magic bytes) ++ ys) = 0 := by
          have hdrop := search_drop hfound
          rw [search_append_found ys, hdrop]
          rw [hdrop, List.length_drop]
          omega
        refine streamRound_spend hoverflows (List.drop_append_of_le_length (by omega)).symm ?_ ?_
          (.inr ?_)
        · rw [List.length_append]
          omega
        · rw [hfront, search_append_found ys hfound, Nat.add_zero]
        · rw [hfront, List.length_append, List.length_drop]
          omega
      · exact absurd h (hne _ _)
  · intro c bytes h ys
    change ∀ c' held, streamRound c bytes ≠ .wait c' held at h
    show streamRound c (bytes ++ ys) = (streamRound c bytes).extend ys
    unfold streamRound at h ⊢
    simp only at h ⊢
    by_cases hnone : search magic bytes = bytes.length
    · rw [if_pos hnone] at h ⊢
      by_cases hoverflows : c.Overflows (bytes.length - min 3 bytes.length)
      case neg => exact absurd (if_neg hoverflows) (h _ _)
      rw [if_pos hoverflows]
      have hpassed := search_append_none (d := bytes.length - min 3 bytes.length)
        (show 0 < magic.length by decide) ys hnone (by
          show _ ∨ _ + 4 ≤ _
          omega)
      split
      · rw [if_pos (hoverflows.mono (by rw [List.length_append]; omega))]
        rfl
      · rw [if_pos (hoverflows.mono (by omega))]
        rfl
    · rw [if_neg hnone] at h ⊢
      have hfound : search magic bytes < bytes.length :=
        Nat.lt_of_le_of_ne (search_le magic bytes) hnone
      rw [search_append_found ys hfound, if_neg (by rw [List.length_append]; omega)]
      split
      · rfl
      · rename_i hoverflows
        rw [if_neg hoverflows] at h
        obtain hwait | ⟨-, hextend⟩ := frameRound_cases (c.spend (search magic bytes))
          (bytes.drop (search magic bytes))
        · exact absurd hwait (h _ _)
        · rw [List.drop_append_of_le_length (by omega), hextend]

/-! ## The parser refines the scanner -/

/-- The heap admits every buffer the parser may ask for. -/
def InputMemory.Ample (memory : InputMemory) : Prop :=
  ∀ bytes ≤ FrameBuffer.maximumBytes,
    memory.admitted bytes = true ∧ memory.allocated bytes = true

namespace FrameParser

variable {memory : InputMemory} {p : FrameParser}

def counters (p : FrameParser) : Counters := ⟨p.consecutiveInvalidFrames, p.resyncDiscardBytes⟩

/-- The state of the scanner that a parser stands for. -/
def scan (p : FrameParser) : Option (Counters × List UInt8) :=
  if p.closed then none else some (p.counters, p.buffer.bytes)

theorem scan_open (h : p.closed = false) : p.scan = some (p.counters, p.buffer.bytes) := by
  simp [scan, h]

theorem Ended.scan (h : Ended p) : p.scan = none := by
  simp [FrameParser.scan, h.closed]

/-- A turn does what the round of the scanner says. -/
def Turn.Takes (t : Turn) : Round Counters UInt8 FrameEvent → Prop
  | .wait c held => t.again = false ∧ t.events = [] ∧ t.parser.scan = some (c, held)
  | .next c rest events => t.again = true ∧ t.events = events ∧ t.parser.scan = some (c, rest)
  | .halt events => t.events = events ∧ t.parser.scan = none

theorem reserve_ample {bytes : Nat} {b : FrameBuffer} (hmemory : memory.Ample)
    (hbytes : bytes ≤ FrameBuffer.maximumBytes) :
    ∃ capacity, b.reserve memory bytes = some { b with capacity := capacity } := by
  unfold FrameBuffer.reserve
  split
  · exact ⟨b.capacity, rfl⟩
  · rw [if_neg (by omega), if_pos (hmemory bytes hbytes).2]
    exact ⟨bytes, rfl⟩

theorem validHeader_length {bytes : List UInt8} (h : validHeader bytes = true) :
    (readU32Be (bytes.drop 8)).toNat ≤ maximumPayloadBytes := by
  simp only [validHeader, Bool.and_eq_true, decide_eq_true_eq] at h
  exact h.2

theorem readFrame_takes (hmemory : memory.Ample) (h : p.closed = false) :
    (p.readFrame memory).Takes (frameRound p.counters p.buffer.bytes) := by
  unfold readFrame frameRound
  by_cases hheader : p.buffer.bytes.length < frameHeaderBytes
  · simp only [FrameBuffer.size, hheader, if_true]
    exact ⟨rfl, rfl, scan_open h⟩
  simp only [FrameBuffer.size, hheader, if_false]
  cases hvalid : validHeader p.buffer.bytes with
  | false =>
    simp only [Bool.not_false, if_true]
    obtain ⟨hlimit, hended, hevents⟩ | ⟨hlimit, heq⟩ := invalidFrame_cases h
    · have hround : maximumInvalidFrames ≤ (p.counters.spend 1).invalid + 1 := hlimit
      rw [if_pos hended.closed, if_neg (by simp only [counters]; omega), invalidRound,
        if_pos hround]
      exact ⟨hevents, hended.scan⟩
    · have hround : ¬ maximumInvalidFrames ≤ (p.counters.spend 1).invalid + 1 := hlimit
      rw [heq, if_neg (by simp [h])]
      obtain ⟨hone, hfull, hended, hevents⟩ | ⟨hroom, hdiscard⟩ := discardPrefix_cases 1
        (p := { p with consecutiveInvalidFrames := p.consecutiveInvalidFrames + 1 }) h
      · rw [if_pos ⟨Nat.lt_of_not_le hlimit, hone, hfull⟩]
        exact ⟨by simp [hevents], hended.scan⟩
      · rw [if_neg (fun hboth => hroom hboth.2), invalidRound, if_neg hround, hdiscard]
        exact ⟨rfl, rfl, scan_open h⟩
  | true =>
    simp only [Bool.not_true, Bool.false_eq_true, if_false]
    by_cases hshort : p.buffer.bytes.length < frameLength p.buffer.bytes
    · rw [if_pos hshort, if_pos (by exact hshort)]
      exact ⟨rfl, rfl, scan_open h⟩
    have hpayload : (p.buffer.bytes.drop frameHeaderBytes).take
        (readU32Be (p.buffer.bytes.drop 8)).toNat = framePayload p.buffer.bytes := rfl
    rw [if_neg hshort, if_neg (by exact hshort), pagedChecksum_eq, hpayload]
    by_cases hchecksum : crc32c (framePayload p.buffer.bytes) = readU32Be (p.buffer.bytes.drop 12)
    · rw [if_neg (not_not_intro hchecksum), if_neg (not_not_intro hchecksum)]
      unfold deliver
      simp only
      split
      · rename_i hwhole
        have hrest : p.buffer.bytes.drop (frameLength p.buffer.bytes) = [] :=
          List.drop_eq_nil_of_le (Nat.le_of_eq hwhole)
        rw [hrest]
        exact ⟨rfl, rfl, scan_open h⟩
      · have hlength := validHeader_length hvalid
        have hroom : (readU32Be (p.buffer.bytes.drop 8)).toNat ≤ FrameBuffer.maximumBytes :=
          Nat.le_trans hlength (by decide)
        obtain ⟨capacity, hreserve⟩ := reserve_ample (b := {}) hmemory hroom
        rw [if_neg (by simp [hreserve, (hmemory _ hroom).1])]
        exact ⟨rfl, rfl, scan_open h⟩
    · rw [if_pos hchecksum, if_pos hchecksum]
      obtain ⟨hlimit, hended, hevents⟩ | ⟨hlimit, heq⟩ := invalidFrame_cases h
      · have hround : maximumInvalidFrames ≤ p.counters.invalid + 1 := hlimit
        rw [if_pos hended.closed, invalidRound, if_pos hround]
        exact ⟨hevents, hended.scan⟩
      · have hround : ¬ maximumInvalidFrames ≤ p.counters.invalid + 1 := hlimit
        rw [heq, if_neg (by simp [h]), invalidRound, if_neg hround]
        exact ⟨rfl, rfl, scan_open h⟩

theorem turn_takes (hmemory : memory.Ample) (h : p.closed = false) :
    (p.turn memory).Takes (streamRound p.counters p.buffer.bytes) := by
  by_cases hfront : search magic p.buffer.bytes = 0
  · rw [streamRound_front hfront, turn, if_pos hfront]
    exact readFrame_takes hmemory h
  unfold turn streamRound
  simp only [FrameBuffer.size, hfront, if_false]
  by_cases hnone : search magic p.buffer.bytes = p.buffer.bytes.length
  · rw [if_pos hnone, if_pos hnone]
    obtain ⟨hzero, hfull, hended, hevents⟩ | ⟨hroom, heq⟩ :=
      discardPrefix_cases (p.buffer.bytes.length - min 3 p.buffer.bytes.length) h
    · have hoverflows : p.counters.Overflows _ := ⟨hzero, hfull⟩
      rw [if_pos hoverflows]
      exact ⟨hevents, Ended.scan ⟨hended.closed, hended.bytes⟩⟩
    · have hoverflows : ¬ p.counters.Overflows _ := hroom
      rw [if_neg hoverflows, heq]
      exact ⟨rfl, rfl, scan_open h⟩
  · rw [if_neg hnone, if_neg hnone]
    obtain ⟨hzero, hfull, hended, hevents⟩ | ⟨hroom, heq⟩ :=
      discardPrefix_cases (search magic p.buffer.bytes) h
    · have hoverflows : p.counters.Overflows _ := ⟨hzero, hfull⟩
      rw [if_pos hoverflows, if_pos hended.closed]
      exact ⟨hevents, hended.scan⟩
    · have hoverflows : ¬ p.counters.Overflows _ := hroom
      rw [if_neg hoverflows, heq, if_neg (by simp [h])]
      exact readFrame_takes (p := { p with
        buffer := p.buffer.discard (search magic p.buffer.bytes)
        resyncDiscardBytes := p.resyncDiscardBytes + search magic p.buffer.bytes }) hmemory h

theorem process_closed (h : p.closed = true) : p.process memory = (p, []) := by
  rw [process, dif_pos h]

theorem process_again (h : p.closed = false) (hagain : (p.turn memory).again = true) :
    p.process memory = (((p.turn memory).parser.process memory).1,
      (p.turn memory).events ++ ((p.turn memory).parser.process memory).2) := by
  rw [process, dif_neg (by simp [h])]
  simp only [hagain, dite_true]

theorem process_stop (h : p.closed = false) (hagain : (p.turn memory).again = false) :
    p.process memory = ((p.turn memory).parser, (p.turn memory).events) := by
  rw [process, dif_neg (by simp [h])]
  simp [hagain]

theorem closed_of_scan_none (h : p.scan = none) : p.closed = true := by
  by_contra hopen
  simp [scan, hopen] at h

theorem scan_some {c : Counters} {held : List UInt8} (h : p.scan = some (c, held)) :
    p.closed = false ∧ p.counters = c ∧ p.buffer.bytes = held := by
  cases hclosed : p.closed with
  | true => simp [scan, hclosed] at h
  | false => simpa [scan, hclosed] using h

theorem turn_takes_round (hmemory : memory.Ample) {c : Counters} {bytes : List UInt8}
    (h : p.scan = some (c, bytes)) :
    p.closed = false ∧ (p.turn memory).Takes (framing.round c bytes) := by
  obtain ⟨hopen, rfl, rfl⟩ := scan_some h
  exact ⟨hopen, turn_takes hmemory hopen⟩

/-- The loop runs the scanner. -/
theorem process_run (hmemory : memory.Ample) {c : Counters} {bytes : List UInt8}
    (h : p.scan = some (c, bytes)) :
    (p.process memory).2 = (framing.run c bytes).2 ∧
      (p.process memory).1.scan = (framing.run c bytes).1 := by
  refine Scanner.run_induct framing (P := fun c bytes => ∀ p : FrameParser,
    p.scan = some (c, bytes) → (p.process memory).2 = (framing.run c bytes).2 ∧
      (p.process memory).1.scan = (framing.run c bytes).1) ?_ ?_ ?_ c bytes p h
  · intro c bytes c' held hround p hscan
    obtain ⟨hopen, htakes⟩ := turn_takes_round hmemory hscan
    rw [hround] at htakes
    obtain ⟨hagain, hevents, hscan'⟩ := htakes
    rw [process_stop hopen hagain, Scanner.run_wait hround]
    exact ⟨hevents, hscan'⟩
  · intro c bytes c' rest events hround ih p hscan
    obtain ⟨hopen, htakes⟩ := turn_takes_round hmemory hscan
    rw [hround] at htakes
    obtain ⟨hagain, hevents, hscan'⟩ := htakes
    obtain ⟨hrest, hlast⟩ := ih _ hscan'
    rw [process_again hopen hagain, Scanner.run_next hround, hevents, hrest]
    exact ⟨rfl, hlast⟩
  · intro c bytes events hround p hscan
    obtain ⟨hopen, htakes⟩ := turn_takes_round hmemory hscan
    rw [hround] at htakes
    obtain ⟨hevents, hscan'⟩ := htakes
    rw [Scanner.run_halt hround]
    cases hagain : (p.turn memory).again with
    | true =>
      rw [process_again hopen hagain, process_closed (closed_of_scan_none hscan'), hevents]
      exact ⟨List.append_nil _, hscan'⟩
    | false =>
      rw [process_stop hopen hagain]
      exact ⟨hevents, hscan'⟩

theorem settled_short {c : Counters} {bytes : List UInt8}
    (h : framing.Settled (some (c, bytes))) :
    bytes.length < frameHeaderBytes ∨
      validHeader bytes = true ∧ bytes.length < frameLength bytes := by
  change streamRound c bytes = .wait c bytes at h
  unfold streamRound at h
  simp only at h
  split at h
  · split at h
    · cases h
    · injection h with _ hbytes
      have hlength := congrArg List.length hbytes
      rw [List.length_drop] at hlength
      rw [frameHeaderBytes]
      omega
  · split at h
    · cases h
    · obtain hwait | ⟨hne, -⟩ := frameRound_cases (c.spend (search magic bytes))
        (bytes.drop (search magic bytes))
      · injection hwait.symm.trans h with _ hbytes
        rw [hbytes] at h
        unfold frameRound at h
        split at h
        · rename_i hshort
          exact .inl hshort
        cases hvalid : validHeader bytes with
        | false =>
          simp only [hvalid, Bool.not_false, if_true] at h
          split at h
          · cases h
          · exact absurd h invalidRound_ne_wait
        | true =>
          simp only [hvalid, Bool.not_true, Bool.false_eq_true, if_false] at h
          split at h
          · rename_i hshort
            exact .inr ⟨rfl, hshort⟩
          split at h
          · exact absurd h invalidRound_ne_wait
          · cases h
      · exact absurd h (hne _ _)

/-- A settled parser finds room for a chunk. -/
theorem grow_ample (hmemory : memory.Ample) (h : p.closed = false)
    (hsettled : framing.Settled p.scan) {count : Nat} (hcount : count ≤ chunkBytes) :
    ∃ capacity, p.grow memory count =
      some { p with buffer := { p.buffer with capacity := capacity } } := by
  rw [scan_open h] at hsettled
  have hshort := settled_short hsettled
  unfold grow
  split
  case isFalse => exact ⟨p.buffer.capacity, rfl⟩
  simp only
  have hroom : ∀ capacity ≤ FrameBuffer.maximumBytes, ∃ capacity',
      (if (!memory.admitted capacity) = true then none
        else (p.buffer.reserve memory capacity).map fun buffer => { p with buffer := buffer }) =
      some { p with buffer := { p.buffer with capacity := capacity' } } := by
    intro capacity hcapacity
    obtain ⟨capacity', hreserve⟩ := reserve_ample (b := p.buffer) hmemory hcapacity
    exact ⟨capacity', by simp [hreserve, (hmemory _ hcapacity).1]⟩
  apply hroom
  have hmaximum : FrameBuffer.maximumBytes = 69648 := rfl
  have hchunk : count ≤ 4096 := hcount
  split
  · rename_i hheader
    rcases hshort with hlength | ⟨hvalid, hlength⟩
    · exact absurd hlength (Nat.not_lt.2 hheader)
    · have hpayload : (readU32Be (p.buffer.bytes.drop 8)).toNat ≤ 65536 :=
        validHeader_length hvalid
      simp only [frameLength, frameHeaderBytes] at hlength
      simp only [FrameBuffer.size, frameHeaderBytes, hmaximum]
      omega
  · simp only [maximumPayloadBytes, frameHeaderBytes, chunkBytes, hmaximum]
    omega

theorem feedChunks_feed (hmemory : memory.Ample) (nowMs : UInt64) (bytes : List UInt8)
    (hsettled : framing.Settled p.scan) :
    (p.feedChunks memory nowMs bytes).2 = (framing.feed p.scan bytes).2 ∧
      (p.feedChunks memory nowMs bytes).1.scan = (framing.feed p.scan bytes).1 := by
  induction hlength : bytes.length using Nat.strongRecOn generalizing p bytes with
  | ind n ih =>
    cases bytes with
    | nil =>
      rw [feedChunks, hsettled.feed_nil]
      exact ⟨rfl, rfl⟩
    | cons byte rest =>
      rw [feedChunks]
      cases hclosed : p.closed with
      | true =>
        have hscan : p.scan = none := by simp [scan, hclosed]
        rw [if_pos rfl, hscan]
        exact ⟨rfl, rfl⟩
      | false =>
        obtain ⟨capacity, hgrow⟩ := grow_ample hmemory hclosed hsettled
          (Nat.min_le_left chunkBytes (byte :: rest).length)
        rw [if_neg (by simp)]
        simp only [hgrow]
        have hscan : ({ p with
            buffer := FrameBuffer.append ((byte :: rest).take chunkBytes)
              { p.buffer with capacity := capacity }
            lastProgressMs := nowMs } : FrameParser).scan =
              some (p.counters, p.buffer.bytes ++ (byte :: rest).take chunkBytes) := scan_open hclosed
        obtain ⟨hevents, hlast⟩ := process_run hmemory hscan
        have hfeed : framing.run p.counters (p.buffer.bytes ++ (byte :: rest).take chunkBytes) =
            framing.feed p.scan ((byte :: rest).take chunkBytes) := by
          rw [scan_open hclosed]
          rfl
        rw [hfeed] at hevents hlast
        have hdrop : ((byte :: rest).drop chunkBytes).length < n := by
          rw [List.length_drop, ← hlength, List.length_cons, chunkBytes]
          omega
        obtain ⟨hevents', hlast'⟩ := ih _ hdrop _
          (hlast ▸ Scanner.settled_feed framing_local p.scan ((byte :: rest).take chunkBytes)) rfl
        rw [hlast] at hevents' hlast'
        rw [← List.take_append_drop chunkBytes (byte :: rest), Scanner.feed_append framing_local,
          List.take_append_drop chunkBytes (byte :: rest)]
        exact ⟨by rw [hevents, hevents'], hlast'⟩

end FrameParser

/-! ## Calls -/

/-- A call of `feed`, with the heap it finds. -/
structure FeedCall where
  bytes : List UInt8
  nowMs : UInt64
  memory : InputMemory

def FrameParser.feedAll (p : FrameParser) : List FeedCall → FrameParser × List FrameEvent
  | [] => (p, [])
  | call :: rest =>
    let fed := p.feed call.memory call.bytes call.nowMs
    ((fed.1.feedAll rest).1, fed.2 ++ (fed.1.feedAll rest).2)

/-- The memory of every call is admitted and none finds the receive timeout elapsed. -/
def FrameParser.Undisturbed (p : FrameParser) : List FeedCall → Prop
  | [] => True
  | call :: rest =>
    call.memory.Ample ∧ (call.bytes = [] → p.timedOut call.nowMs = false) ∧
      (p.feed call.memory call.bytes call.nowMs).1.Undisturbed rest

def streamOf (calls : List FeedCall) : List UInt8 := (calls.map (·.bytes)).flatten

namespace FrameParser

variable {p : FrameParser}

theorem feed_scan {call : FeedCall} (hmemory : call.memory.Ample)
    (htimeout : call.bytes = [] → p.timedOut call.nowMs = false)
    (hsettled : framing.Settled p.scan) :
    (p.feed call.memory call.bytes call.nowMs).2 = (framing.feed p.scan call.bytes).2 ∧
      (p.feed call.memory call.bytes call.nowMs).1.scan = (framing.feed p.scan call.bytes).1 := by
  unfold feed
  cases hclosed : p.closed with
  | true =>
    have hscan : p.scan = none := by simp [scan, hclosed]
    rw [if_pos rfl, hscan]
    exact ⟨rfl, rfl⟩
  | false =>
    rw [if_neg (by simp)]
    have hfed := feedChunks_feed hmemory call.nowMs call.bytes hsettled
    by_cases hempty : call.bytes = []
    · rw [hempty] at hfed ⊢
      rw [feedChunks] at hfed ⊢
      simp only [checkTimeout, htimeout hempty, Bool.false_eq_true, if_false]
      exact hfed
    · have hnonempty : call.bytes.isEmpty = false := by simpa using hempty
      simp only [hnonempty, Bool.false_eq_true, if_false]
      exact hfed

theorem feedAll_scan (calls : List FeedCall) (h : p.Undisturbed calls)
    (hsettled : framing.Settled p.scan) :
    (p.feedAll calls).2 = (framing.feed p.scan (streamOf calls)).2 ∧
      (p.feedAll calls).1.scan = (framing.feed p.scan (streamOf calls)).1 := by
  induction calls generalizing p with
  | nil =>
    show [] = _ ∧ p.scan = _
    rw [streamOf, List.map_nil, List.flatten_nil, hsettled.feed_nil]
    exact ⟨rfl, rfl⟩
  | cons call rest ih =>
    obtain ⟨hmemory, htimeout, hrest⟩ := h
    obtain ⟨hevents, hlast⟩ := feed_scan hmemory htimeout hsettled
    obtain ⟨hevents', hlast'⟩ := ih hrest
      (hlast ▸ Scanner.settled_feed framing_local p.scan call.bytes)
    rw [hlast] at hevents' hlast'
    have hstream : streamOf (call :: rest) = call.bytes ++ streamOf rest := rfl
    rw [hstream, Scanner.feed_append framing_local]
    refine ⟨?_, hlast'⟩
    show (p.feed call.memory call.bytes call.nowMs).2 ++ _ = _
    rw [hevents, hevents']

theorem closed_eq (p : FrameParser) : p.closed = p.scan.isNone := by
  cases h : p.closed <;> simp [scan, h]

theorem settled_fresh : framing.Settled ({} : FrameParser).scan := by
  show streamRound {} [] = .wait {} []
  rw [streamRound_front rfl]
  rfl

theorem undisturbed_append {calls calls' : List FeedCall}
    (h : p.Undisturbed (calls ++ calls')) :
    p.Undisturbed calls ∧ (p.feedAll calls).1.Undisturbed calls' := by
  induction calls generalizing p with
  | nil => exact ⟨trivial, h⟩
  | cons call rest ih =>
    obtain ⟨hmemory, htimeout, hrest⟩ := h
    obtain ⟨hfirst, hlast⟩ := ih hrest
    exact ⟨⟨hmemory, htimeout, hfirst⟩, hlast⟩

end FrameParser

/-! ## Chunking -/

/-- The events and the close of a parser depend on the bytes it is fed, not on
how they are cut into calls; and so does what it does after any of them. -/
theorem feed_chunking (before before' after after' : List FeedCall)
    (hbefore : streamOf before = streamOf before') (hafter : streamOf after = streamOf after')
    (h : ({} : FrameParser).Undisturbed (before ++ after))
    (h' : ({} : FrameParser).Undisturbed (before' ++ after')) :
    let p := FrameParser.feedAll {} before
    let p' := FrameParser.feedAll {} before'
    p.2 = p'.2 ∧ p.1.closed = p'.1.closed ∧
      (p.1.feedAll after).2 = (p'.1.feedAll after').2 ∧
      (p.1.feedAll after).1.closed = (p'.1.feedAll after').1.closed := by
  obtain ⟨hfirst, hrest⟩ := FrameParser.undisturbed_append h
  obtain ⟨hfirst', hrest'⟩ := FrameParser.undisturbed_append h'
  obtain ⟨hevents, hscan⟩ := FrameParser.feedAll_scan before hfirst FrameParser.settled_fresh
  obtain ⟨hevents', hscan'⟩ := FrameParser.feedAll_scan before' hfirst' FrameParser.settled_fresh
  have hsettled := Scanner.settled_feed framing_local ({} : FrameParser).scan (streamOf before)
  obtain ⟨hlater, hlast⟩ := FrameParser.feedAll_scan after hrest (hscan ▸ hsettled)
  obtain ⟨hlater', hlast'⟩ := FrameParser.feedAll_scan after' hrest' (by
    rw [hscan', ← hbefore]
    exact hsettled)
  rw [← hbefore] at hevents' hscan'
  rw [hscan] at hlater hlast
  rw [hscan', ← hafter] at hlater' hlast'
  refine ⟨hevents.trans hevents'.symm, ?_, hlater.trans hlater'.symm, ?_⟩
  · rw [FrameParser.closed_eq, FrameParser.closed_eq, hscan, hscan']
  · rw [FrameParser.closed_eq, FrameParser.closed_eq, hlast, hlast']

/-- A heap that admits everything. -/
def roomy : InputMemory := ⟨fun _ => true, fun _ => true⟩

/-- Calls with bytes, on a heap with room. -/
def roomyCalls (pieces : List (List UInt8)) : List FeedCall := pieces.map fun piece => ⟨piece, 0, roomy⟩

theorem undisturbed_roomy {p : FrameParser} (pieces : List (List UInt8))
    (h : ∀ piece ∈ pieces, piece ≠ []) : p.Undisturbed (roomyCalls pieces) := by
  induction pieces generalizing p with
  | nil => trivial
  | cons piece rest ih =>
    exact ⟨fun _ _ => ⟨rfl, rfl⟩, fun hempty => absurd hempty (h piece List.mem_cons_self),
      ih fun piece' hmem => h piece' (List.mem_cons_of_mem _ hmem)⟩

/-- A broken frame and a whole one, cut within the magic, a header and a payload. -/
theorem feed_chunking_bench :
    let cut := FrameParser.feedAll {} (roomyCalls [[0x57], magic ++ [1, 1, 0]])
    let whole := FrameParser.feedAll {} (roomyCalls [0x57 :: magic ++ [1, 1, 0]])
    let rest := List.replicate 9 0 ++ encodeFrame [0x7b, 0x7d]
    (cut.1.feedAll (roomyCalls [rest.take 20, rest.drop 20])).2 =
      (whole.1.feedAll (roomyCalls [rest])).2 := by
  have hchunking := feed_chunking (roomyCalls [[0x57], magic ++ [1, 1, 0]])
    (roomyCalls [0x57 :: magic ++ [1, 1, 0]])
    (roomyCalls [(List.replicate 9 0 ++ encodeFrame [0x7b, 0x7d]).take 20,
      (List.replicate 9 0 ++ encodeFrame [0x7b, 0x7d]).drop 20])
    (roomyCalls [List.replicate 9 0 ++ encodeFrame [0x7b, 0x7d]])
    (by decide) (by decide +kernel)
    (undisturbed_roomy [[0x57], magic ++ [1, 1, 0],
      (List.replicate 9 0 ++ encodeFrame [0x7b, 0x7d]).take 20,
      (List.replicate 9 0 ++ encodeFrame [0x7b, 0x7d]).drop 20] (by decide +kernel))
    (undisturbed_roomy [0x57 :: magic ++ [1, 1, 0],
      List.replicate 9 0 ++ encodeFrame [0x7b, 0x7d]] (by decide +kernel))
  exact hchunking.2.2.1

/-! ## Round trip -/

/-- No magic lies within `gap`. -/
def MagicFree (gap : List UInt8) : Prop := ¬ magic <:+: gap

/-- Bytes between frames that the parser passes over. -/
structure Skippable (gap : List UInt8) : Prop where
  free : MagicFree gap
  short : gap.length < maximumResyncDiscardBytes

/-- A magic has no border: an earlier one cannot run into it. -/
theorem search_gap {gap : List UInt8} (h : MagicFree gap) (rest : List UInt8) :
    search magic (gap ++ (magic ++ rest)) = gap.length := by
  induction gap with
  | nil => rfl
  | cons b bs ih =>
    have hbs : MagicFree bs := fun hmagic => h (hmagic.trans (List.suffix_cons b bs).isInfix)
    have hp : ¬ magic.isPrefixOf (b :: bs ++ (magic ++ rest)) = true := by
      intro hp
      match bs with
      | [] => simp [magic, List.isPrefixOf] at hp
      | [b₁] => simp [magic, List.isPrefixOf] at hp
      | [b₁, b₂] => simp [magic, List.isPrefixOf] at hp
      | b₁ :: b₂ :: b₃ :: more =>
        rw [isPrefixOf_append (by simp [magic])] at hp
        exact h (List.isPrefixOf_iff_prefix.1 hp).isInfix
    rw [List.cons_append, search, ← List.cons_append, if_neg hp, ih hbs]
    rfl

/-- A payload that can be framed. -/
structure Framable (payload : List UInt8) : Prop where
  nonempty : payload ≠ []
  bounded : payload.length ≤ maximumPayloadBytes

theorem encodeFrame_eq {payload : List UInt8} (h : Framable payload) :
    encodeFrame payload = magic ++ ([1, 1, 0, 0] ++ (writeU32Be payload.length.toUInt32 ++
      (writeU32Be (crc32c payload) ++ payload))) := by
  have hempty : ¬ (payload.isEmpty = true ∨ payload.length > maximumPayloadBytes) := by
    have hnonempty := h.nonempty
    have hbounded := h.bounded
    simp [hnonempty, hbounded]
  have hlength : ¬ (payload.length = 0 ∨ payload.length > maximumPayloadBytes) := by
    have hnonempty := List.length_pos_iff.2 h.nonempty
    have hbounded := h.bounded
    omega
  rw [encodeFrame, if_neg hempty, encodeFrameHeader, if_neg hlength]
  simp only [List.append_assoc]

theorem frameRound_encodeFrame {payload : List UInt8} (h : Framable payload) (c : Counters)
    (rest : List UInt8) :
    frameRound c (encodeFrame payload ++ rest) = .next {} rest [.payload payload] := by
  have hbounded : payload.length ≤ 65536 := h.bounded
  have hnonempty := List.length_pos_iff.2 h.nonempty
  have htoNat : payload.length.toUInt32.toNat = payload.length := by
    rw [Nat.toUInt32, UInt32.toNat_ofNat']
    omega
  have hbytes : encodeFrame payload ++ rest = magic ++ ([1, 1, 0, 0] ++
      (writeU32Be payload.length.toUInt32 ++ (writeU32Be (crc32c payload) ++ (payload ++ rest)))) := by
    rw [encodeFrame_eq h]
    simp only [List.append_assoc]
  have hlength : (encodeFrame payload ++ rest).length = 16 + payload.length + rest.length := by
    rw [hbytes]
    simp [magic, writeU32Be]
    omega
  have hsize : readU32Be ((encodeFrame payload ++ rest).drop 8) = payload.length.toUInt32 := by
    rw [hbytes]
    exact readU32Be_writeU32Be _ _
  have hcrc : readU32Be ((encodeFrame payload ++ rest).drop 12) = crc32c payload := by
    rw [hbytes]
    exact readU32Be_writeU32Be _ _
  have hdrop : (encodeFrame payload ++ rest).drop frameHeaderBytes = payload ++ rest := by
    rw [hbytes]
    rfl
  have hpayload : framePayload (encodeFrame payload ++ rest) = payload := by
    rw [framePayload, hdrop, hsize, htoNat, List.take_left']
    rfl
  have hframe : frameLength (encodeFrame payload ++ rest) = frameHeaderBytes + payload.length := by
    rw [frameLength, hsize, htoNat]
  have hvalid : validHeader (encodeFrame payload ++ rest) = true := by
    have hone : 1 ≤ payload.length.toUInt32 := by
      rw [UInt32.le_iff_toNat_le, htoNat]
      exact hnonempty
    simp only [validHeader, hsize, htoNat]
    rw [hbytes]
    simp [magic, hone, maximumPayloadBytes, hbounded]
  have hrest : (encodeFrame payload ++ rest).drop (frameHeaderBytes + payload.length) = rest := by
    rw [← List.drop_drop, hdrop, List.drop_left']
    rfl
  unfold frameRound
  rw [if_neg (by rw [hlength, frameHeaderBytes]; omega), hvalid, hframe,
    if_neg (by decide), if_neg (by rw [hlength, frameHeaderBytes]; omega), hpayload, hcrc,
    if_neg (fun hne => hne rfl), hrest]

theorem round_frame {gap payload : List UInt8} (hgap : Skippable gap) (h : Framable payload)
    (rest : List UInt8) :
    framing.round {} (gap ++ (encodeFrame payload ++ rest)) = .next {} rest [.payload payload] := by
  have hsearch : search magic (gap ++ (encodeFrame payload ++ rest)) = gap.length := by
    rw [encodeFrame_eq h, List.append_assoc, search_gap hgap.free]
  have hlength : gap.length < (gap ++ (encodeFrame payload ++ rest)).length := by
    rw [encodeFrame_eq h]
    simp [magic]
  have hoverflows : ¬ ({} : Counters).Overflows gap.length := by
    have hshort := hgap.short
    simp only [Counters.Overflows]
    omega
  show streamRound {} _ = _
  rw [streamRound, hsearch]
  rw [if_neg (by omega), if_neg hoverflows, List.drop_left', frameRound_encodeFrame h]
  rfl

theorem search_free {gap : List UInt8} (h : MagicFree gap) : search magic gap = gap.length := by
  induction gap with
  | nil => rfl
  | cons b bs ih =>
    have hp : ¬ magic.isPrefixOf (b :: bs) = true := fun hp =>
      h (List.isPrefixOf_iff_prefix.1 hp).isInfix
    rw [search, if_neg hp, ih fun hmagic => h (hmagic.trans (List.suffix_cons b bs).isInfix)]
    rfl

def framesOf (frames : List (List UInt8 × List UInt8)) : List UInt8 :=
  (frames.map fun frame => frame.1 ++ encodeFrame frame.2).flatten

theorem run_frames (frames : List (List UInt8 × List UInt8)) {tail : List UInt8}
    (hframes : ∀ frame ∈ frames, Skippable frame.1 ∧ Framable frame.2) (htail : Skippable tail) :
    (framing.run {} (framesOf frames ++ tail)).2 = frames.map (fun frame => .payload frame.2) ∧
      (framing.run {} (framesOf frames ++ tail)).1.isSome := by
  induction frames with
  | nil =>
    have hoverflows : ¬ ({} : Counters).Overflows (tail.length - min 3 tail.length) := by
      have hshort := htail.short
      simp only [Counters.Overflows]
      omega
    have hround : framing.round {} tail =
        .wait (Counters.spend (tail.length - min 3 tail.length) {})
          (tail.drop (tail.length - min 3 tail.length)) := by
      show streamRound {} tail = _
      rw [streamRound]
      simp only [search_free htail.free, if_true]
      exact if_neg hoverflows
    have hstream : framesOf [] ++ tail = tail := rfl
    rw [hstream, Scanner.run_wait hround]
    exact ⟨rfl, rfl⟩
  | cons frame rest ih =>
    obtain ⟨hgap, hpayload⟩ := hframes frame List.mem_cons_self
    obtain ⟨hevents, hopen⟩ := ih (List.forall_mem_cons.1 hframes).2
    have hstream : framesOf (frame :: rest) ++ tail =
        frame.1 ++ (encodeFrame frame.2 ++ (framesOf rest ++ tail)) := by
      simp [framesOf, List.append_assoc]
    rw [hstream, Scanner.run_next (round_frame hgap hpayload _)]
    exact ⟨by rw [hevents]; rfl, hopen⟩

/-- Encoded frames, with skippable bytes around them, are read back from any chunks. -/
theorem frames_read_back (frames : List (List UInt8 × List UInt8)) (tail : List UInt8)
    (calls : List FeedCall)
    (hframes : ∀ frame ∈ frames, Skippable frame.1 ∧ Framable frame.2) (htail : Skippable tail)
    (hstream : streamOf calls = framesOf frames ++ tail)
    (h : ({} : FrameParser).Undisturbed calls) :
    (FrameParser.feedAll {} calls).2 = frames.map (fun frame => .payload frame.2) ∧
      (FrameParser.feedAll {} calls).1.closed = false := by
  obtain ⟨hevents, hscan⟩ := FrameParser.feedAll_scan calls h FrameParser.settled_fresh
  have hfeed : framing.feed ({} : FrameParser).scan (streamOf calls) =
      framing.run {} (framesOf frames ++ tail) := by
    rw [hstream]
    rfl
  rw [hfeed] at hevents hscan
  obtain ⟨hpayloads, hopen⟩ := run_frames frames hframes htail
  refine ⟨hevents.trans hpayloads, ?_⟩
  rw [FrameParser.closed_eq, hscan]
  simpa using hopen

theorem streamOf_bytes (bytes : List UInt8) :
    streamOf (roomyCalls (bytes.map fun byte => [byte])) = bytes := by
  induction bytes with
  | nil => rfl
  | cons byte rest ih => exact congrArg (byte :: ·) ih

/-- A frame after a lone W, byte by byte, with garbage behind it. -/
theorem frames_read_back_bench :
    (FrameParser.feedAll {} (roomyCalls
      ((framesOf [([0x57], [0x7b, 0x7d])] ++ [0x54]).map fun byte => [byte]))).2 =
        [.payload [0x7b, 0x7d]] := by
  have hskippable : ∀ byte : UInt8, Skippable [byte] := by
    intro byte
    refine ⟨fun hmagic => ?_, by simp [maximumResyncDiscardBytes]⟩
    have hlength := hmagic.length_le
    simp [magic] at hlength
  have hread := frames_read_back [([0x57], [0x7b, 0x7d])] [0x54]
    (roomyCalls ((framesOf [([0x57], [0x7b, 0x7d])] ++ [0x54]).map fun byte => [byte]))
    (by
      intro frame hframe
      obtain rfl := List.mem_singleton.1 hframe
      exact ⟨hskippable 0x57, ⟨by decide, by decide⟩⟩)
    (hskippable 0x54)
    (streamOf_bytes _) (undisturbed_roomy _ (by
      intro piece hpiece
      obtain ⟨byte, -, rfl⟩ := List.mem_map.1 hpiece
      exact List.cons_ne_nil byte []))
  exact hread.1

end WsprryPico.Wtp
