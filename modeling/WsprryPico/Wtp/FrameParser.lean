import Mathlib.Data.List.Basic

/-!
# Frames

The encoder and the incremental parser of `src/wtp/frame_parser.cpp`. A buffer
is the list of its bytes with the capacity it has reserved; the heap of a call is
what it answers to the two questions the parser asks it.
-/

namespace WsprryPico.Wtp

def magic : List UInt8 := [0x57, 0x54, 0x50, 0x46]

def chunkBytes : Nat := 4096
def maximumResyncDiscardBytes : Nat := 131072
def maximumInvalidFrames : Nat := 3
def partialFrameTimeoutMs : UInt64 := 5000
def frameHeaderBytes : Nat := 16
def maximumPayloadBytes : Nat := 65536

/-! ## Words and checksums -/

def readU32Be : List UInt8 → UInt32
  | a :: b :: c :: d :: _ =>
    (a.toUInt32 <<< 24) ||| (b.toUInt32 <<< 16) ||| (c.toUInt32 <<< 8) ||| d.toUInt32
  | _ => 0

def writeU32Be (value : UInt32) : List UInt8 :=
  [(value >>> 24).toUInt8, (value >>> 16).toUInt8, (value >>> 8).toUInt8, value.toUInt8]

def crcBit (crc : UInt32) : UInt32 :=
  (crc >>> 1) ^^^ (if crc &&& 1 ≠ 0 then 0x82f63b78 else 0)

def crcByte (crc : UInt32) (byte : UInt8) : UInt32 :=
  Nat.repeat crcBit 8 (crc ^^^ byte.toUInt32)

def crc32c (bytes : List UInt8) (previous : UInt32 := 0) : UInt32 :=
  bytes.foldl crcByte (previous ^^^ 0xffffffff) ^^^ 0xffffffff

theorem crc32c_append (xs ys : List UInt8) (previous : UInt32) :
    crc32c (xs ++ ys) previous = crc32c ys (crc32c xs previous) := by
  simp only [crc32c, List.foldl_append]
  rw [UInt32.xor_assoc _ 0xffffffff, UInt32.xor_self, UInt32.xor_zero]

/-- Eight bits of a word, read back at their place. -/
theorem byte_bit (v s : UInt32) {k i : Nat} (hk : k < 32) (hs : s.toNat = k) (hi : i < 32) :
    ((v >>> s).toUInt8.toUInt32 <<< s).toBitVec[i] =
      (decide (k ≤ i ∧ i < k + 8) && v.toBitVec.getLsbD i) := by
  have hmod : (s.toBitVec % 32).toNat = k := by
    rw [BitVec.toNat_umod]
    show s.toNat % 32 = k
    omega
  simp only [UInt32.toBitVec_shiftLeft, UInt32.toBitVec_shiftRight, UInt8.toBitVec_toUInt32,
    UInt32.toBitVec_toUInt8, BitVec.shiftLeft_eq', BitVec.ushiftRight_eq', hmod,
    BitVec.getElem_shiftLeft, BitVec.getElem_setWidth, BitVec.getLsbD_setWidth,
    BitVec.getLsbD_ushiftRight]
  by_cases h : k ≤ i
  · by_cases h' : i < k + 8
    · simp [h, h', show ¬ i < k by omega, show i - k < 8 by omega, show k + (i - k) = i by omega]
    · simp [h, h', show ¬ i < k by omega, show ¬ i - k < 8 by omega]
  · simp [h, show i < k by omega]

theorem readU32Be_writeU32Be (value : UInt32) (rest : List UInt8) :
    readU32Be (writeU32Be value ++ rest) = value := by
  show (value >>> 24).toUInt8.toUInt32 <<< 24 ||| (value >>> 16).toUInt8.toUInt32 <<< 16 |||
    (value >>> 8).toUInt8.toUInt32 <<< 8 ||| value.toUInt8.toUInt32 = value
  have hlow : value.toUInt8.toUInt32 = (value >>> 0).toUInt8.toUInt32 <<< 0 := by simp
  rw [hlow]
  apply UInt32.toBitVec_inj.1
  ext i hi
  simp only [UInt32.toBitVec_or, BitVec.getElem_or]
  rw [byte_bit value 24 (by decide) rfl hi, byte_bit value 16 (by decide) rfl hi,
    byte_bit value 8 (by decide) rfl hi, byte_bit value 0 (by decide) rfl hi,
    ← BitVec.getLsbD_eq_getElem]
  have hcover : (24 ≤ i ∧ i < 24 + 8) ∨ (16 ≤ i ∧ i < 16 + 8) ∨ (8 ≤ i ∧ i < 8 + 8) ∨
      (0 ≤ i ∧ i < 0 + 8) := by
    omega
  cases value.toBitVec.getLsbD i with
  | false => simp
  | true =>
    rcases hcover with h | h | h | h <;> simp [h]

/-! ## Encoding -/

def encodeFrameHeader (payloadBytes : Nat) (checksum : UInt32) : List UInt8 :=
  if payloadBytes = 0 ∨ payloadBytes > maximumPayloadBytes then List.replicate frameHeaderBytes 0
  else magic ++ [1, 1, 0, 0] ++ writeU32Be payloadBytes.toUInt32 ++ writeU32Be checksum

def encodeFrame (payload : List UInt8) : List UInt8 :=
  if payload.isEmpty ∨ payload.length > maximumPayloadBytes then []
  else encodeFrameHeader payload.length (crc32c payload) ++ payload

/-! ## Buffers -/

/-- The answers of the heap in a call: of `authoritative_input_memory_admitted`, and
whether the pages of a buffer of that size are allocated. -/
structure InputMemory where
  admitted : Nat → Bool
  allocated : Nat → Bool

structure FrameBuffer where
  bytes : List UInt8 := []
  capacity : Nat := 0
  deriving DecidableEq

namespace FrameBuffer

def maximumBytes : Nat := 65536 + 16 + 4096
def pageBytes : Nat := 4096

def size (b : FrameBuffer) : Nat := b.bytes.length

/-- `reserve`, with no buffer where it fails. -/
def reserve (memory : InputMemory) (bytes : Nat) (b : FrameBuffer) : Option FrameBuffer :=
  if bytes ≤ b.capacity then some b
  else if bytes > maximumBytes then none
  else if memory.allocated bytes then some { b with capacity := bytes }
  else none

def append (bytes : List UInt8) (b : FrameBuffer) : FrameBuffer :=
  { b with bytes := b.bytes ++ bytes }

def discard (count : Nat) (b : FrameBuffer) : FrameBuffer :=
  { b with bytes := b.bytes.drop count }

end FrameBuffer

/-- The checksum of `bytes`, which start at `offset` of their buffer, page by page. -/
def pagedChecksum (offset : Nat) : List UInt8 → UInt32 → UInt32
  | [], checksum => checksum
  | byte :: rest, checksum =>
    let bytes := byte :: rest
    let count := min bytes.length (FrameBuffer.pageBytes - offset % FrameBuffer.pageBytes)
    pagedChecksum (offset + count) (bytes.drop count) (crc32c (bytes.take count) checksum)
termination_by bytes => bytes.length
decreasing_by
  have hpage : offset % FrameBuffer.pageBytes < FrameBuffer.pageBytes := Nat.mod_lt _ (by decide)
  simp only [List.length_drop, List.length_cons]
  omega

theorem pagedChecksum_eq (offset : Nat) (bytes : List UInt8) (checksum : UInt32) :
    pagedChecksum offset bytes checksum = crc32c bytes checksum := by
  induction offset, bytes, checksum using pagedChecksum.induct with
  | case1 offset checksum =>
    rw [pagedChecksum, crc32c, List.foldl_nil, UInt32.xor_assoc, UInt32.xor_self, UInt32.xor_zero]
  | case2 offset checksum byte rest bytes count ih =>
    rw [pagedChecksum, ih, ← crc32c_append, List.take_append_drop]

/-! ## The parser -/

inductive FrameEvent where
  | payload (bytes : List UInt8)
  | invalidFrame
  | closed
  deriving DecidableEq

structure FrameParser where
  buffer : FrameBuffer := {}
  consecutiveInvalidFrames : Nat := 0
  resyncDiscardBytes : Nat := 0
  lastProgressMs : UInt64 := 0
  partialFrame : Bool := false
  closed : Bool := false
  deriving DecidableEq

/-- The index of the first occurrence of `pattern`, or the length. -/
def search (pattern : List UInt8) : List UInt8 → Nat
  | [] => 0
  | b :: bs => if pattern.isPrefixOf (b :: bs) then 0 else search pattern bs + 1

def validHeader (bytes : List UInt8) : Bool :=
  let length := readU32Be (bytes.drop 8)
  bytes[4]? = some 1 && bytes[5]? = some 1 && bytes[6]? = some 0 && bytes[7]? = some 0 &&
    length ≥ 1 && length.toNat ≤ maximumPayloadBytes

namespace FrameParser

def close (p : FrameParser) : FrameParser × List FrameEvent :=
  if p.closed then (p, [])
  else ({ p with closed := true, buffer := {}, partialFrame := false }, [.closed])

def discardPrefix (count : Nat) (p : FrameParser) : FrameParser × List FrameEvent :=
  if count = 0 then (p, [])
  else
    let discarded :=
      if count > maximumResyncDiscardBytes - min p.resyncDiscardBytes maximumResyncDiscardBytes then
        maximumResyncDiscardBytes
      else p.resyncDiscardBytes + count
    let p := { p with buffer := p.buffer.discard count, resyncDiscardBytes := discarded }
    if discarded ≥ maximumResyncDiscardBytes then p.close else (p, [])

def invalidFrame (p : FrameParser) : FrameParser × List FrameEvent :=
  let p := { p with consecutiveInvalidFrames := p.consecutiveInvalidFrames + 1 }
  if p.consecutiveInvalidFrames ≥ maximumInvalidFrames then
    (p.close.1, .invalidFrame :: p.close.2)
  else (p, [.invalidFrame])

def timedOut (nowMs : UInt64) (p : FrameParser) : Bool :=
  !p.closed && p.partialFrame && nowMs ≥ p.lastProgressMs &&
    nowMs - p.lastProgressMs ≥ partialFrameTimeoutMs

def checkTimeout (nowMs : UInt64) (p : FrameParser) : FrameParser × List FrameEvent :=
  if p.timedOut nowMs then p.close else (p, [])

/-- A turn of the loop in `process`: the parser, its events, and whether to go on. -/
structure Turn where
  parser : FrameParser
  events : List FrameEvent := []
  again : Bool := true

/-- The delivery of a payload of `length` bytes. -/
def deliver (memory : InputMemory) (length : Nat) (p : FrameParser) : Turn :=
  let frameSize := frameHeaderBytes + length
  let delivered := ((p.buffer.bytes.drop frameHeaderBytes).take length)
  let accept (buffer : FrameBuffer) : Turn :=
    { parser := { p with
        buffer := buffer, consecutiveInvalidFrames := 0, resyncDiscardBytes := 0
        partialFrame := false }
      events := [.payload delivered] }
  if p.buffer.size = frameSize then accept {}
  else if !memory.admitted length || (FrameBuffer.reserve memory length {}).isNone then
    { parser := p.close.1, events := p.close.2, again := false }
  else accept (p.buffer.discard frameSize)

/-- The rest of a turn, with the magic at the front of the buffer. -/
def readFrame (memory : InputMemory) (p : FrameParser) : Turn :=
  let bytes := p.buffer.bytes
  if p.buffer.size < frameHeaderBytes then
    { parser := { p with partialFrame := !bytes.isEmpty }, again := false }
  else if !validHeader bytes then
    let invalid := p.invalidFrame
    if invalid.1.closed then { parser := invalid.1, events := invalid.2 }
    else
      let discarded := invalid.1.discardPrefix 1
      { parser := discarded.1, events := invalid.2 ++ discarded.2 }
  else
    let length := (readU32Be (bytes.drop 8)).toNat
    let frameSize := frameHeaderBytes + length
    if p.buffer.size < frameSize then
      { parser := { p with partialFrame := true }, again := false }
    else if pagedChecksum frameHeaderBytes ((bytes.drop frameHeaderBytes).take length) 0 ≠
        readU32Be (bytes.drop 12) then
      let invalid := p.invalidFrame
      if invalid.1.closed then { parser := invalid.1, events := invalid.2 }
      else
        { parser := { invalid.1 with buffer := invalid.1.buffer.discard frameSize }
          events := invalid.2 }
    else p.deliver memory length

def turn (memory : InputMemory) (p : FrameParser) : Turn :=
  let found := search magic p.buffer.bytes
  if found = 0 then p.readFrame memory
  else if found = p.buffer.size then
    let discarded := p.discardPrefix (p.buffer.size - min 3 p.buffer.size)
    { parser := { discarded.1 with partialFrame := !discarded.1.buffer.bytes.isEmpty }
      events := discarded.2, again := false }
  else
    let discarded := p.discardPrefix found
    if discarded.1.closed then { parser := discarded.1, events := discarded.2, again := false }
    else
      let rest := discarded.1.readFrame memory
      { rest with events := discarded.2 ++ rest.events }

/-! ### Every turn that goes on uses bytes -/

/-- `p` has closed, with nothing left to read. -/
structure Ended (p : FrameParser) : Prop where
  closed : p.closed = true
  bytes : p.buffer.bytes = []

theorem close_ends {p : FrameParser} (h : p.closed = false) :
    Ended p.close.1 ∧ p.close.2 = [.closed] := by
  have heq : p.close = ({ p with closed := true, buffer := {}, partialFrame := false }, [.closed]) := by
    simp [close, h]
  rw [heq]
  exact ⟨⟨rfl, rfl⟩, rfl⟩

/-- `discard_prefix` reaches the limit and closes, or counts the bytes it drops. -/
theorem discardPrefix_cases (count : Nat) {p : FrameParser} (h : p.closed = false) :
    count ≠ 0 ∧ maximumResyncDiscardBytes ≤ p.resyncDiscardBytes + count ∧
        Ended (p.discardPrefix count).1 ∧ (p.discardPrefix count).2 = [.closed] ∨
      ¬ (count ≠ 0 ∧ maximumResyncDiscardBytes ≤ p.resyncDiscardBytes + count) ∧
        p.discardPrefix count = ({ p with
          buffer := p.buffer.discard count
          resyncDiscardBytes := p.resyncDiscardBytes + count }, []) := by
  unfold discardPrefix
  by_cases hzero : count = 0
  · refine .inr ⟨fun hlimit => hlimit.1 hzero, ?_⟩
    rw [if_pos hzero, hzero]
    rfl
  rw [if_neg hzero]
  by_cases hlimit : maximumResyncDiscardBytes ≤ p.resyncDiscardBytes + count
  · refine .inl ⟨hzero, hlimit, ?_⟩
    have hreached : maximumResyncDiscardBytes ≤
        if count > maximumResyncDiscardBytes - min p.resyncDiscardBytes maximumResyncDiscardBytes then
          maximumResyncDiscardBytes
        else p.resyncDiscardBytes + count := by
      split <;> omega
    rw [if_pos hreached]
    exact close_ends h
  · refine .inr ⟨fun hboth => hlimit hboth.2, ?_⟩
    have hroom : ¬ count > maximumResyncDiscardBytes -
        min p.resyncDiscardBytes maximumResyncDiscardBytes := by
      omega
    rw [if_neg hroom, if_neg (by omega)]

/-- `invalid_frame` closes at the limit, or counts the frame. -/
theorem invalidFrame_cases {p : FrameParser} (h : p.closed = false) :
    maximumInvalidFrames ≤ p.consecutiveInvalidFrames + 1 ∧ Ended p.invalidFrame.1 ∧
        p.invalidFrame.2 = [.invalidFrame, .closed] ∨
      ¬ maximumInvalidFrames ≤ p.consecutiveInvalidFrames + 1 ∧
        p.invalidFrame = ({ p with
          consecutiveInvalidFrames := p.consecutiveInvalidFrames + 1 }, [.invalidFrame]) := by
  unfold invalidFrame
  simp only
  by_cases hlimit : maximumInvalidFrames ≤ p.consecutiveInvalidFrames + 1
  · rw [if_pos hlimit]
    obtain ⟨hended, hevents⟩ :=
      close_ends (p := { p with consecutiveInvalidFrames := p.consecutiveInvalidFrames + 1 }) h
    exact .inl ⟨hlimit, hended, by rw [hevents]⟩
  · rw [if_neg hlimit]
    exact .inr ⟨hlimit, rfl⟩

theorem readFrame_shrinks {memory : InputMemory} {p : FrameParser} (h : p.closed = false)
    (hagain : (p.readFrame memory).again = true) :
    (p.readFrame memory).parser.buffer.bytes.length < p.buffer.bytes.length := by
  have hheader : ¬ p.buffer.size < frameHeaderBytes := by
    intro hshort
    simp [readFrame, hshort] at hagain
  have hsize : 16 ≤ p.buffer.bytes.length := Nat.le_of_not_lt hheader
  unfold readFrame at hagain ⊢
  simp only [hheader, if_false] at hagain ⊢
  split
  · obtain ⟨-, hended, -⟩ | ⟨-, heq⟩ := invalidFrame_cases h
    · rw [if_pos hended.closed]
      simp only [hended.bytes, List.length_nil]
      omega
    · rw [heq, if_neg (by simp [h])]
      obtain ⟨-, -, hended, -⟩ | ⟨-, hdiscard⟩ := discardPrefix_cases 1
        (p := { p with consecutiveInvalidFrames := p.consecutiveInvalidFrames + 1 }) h
      · simp only [hended.bytes, List.length_nil]
        omega
      · simp only [hdiscard, FrameBuffer.discard, List.length_drop]
        omega
  · rename_i hvalid
    simp only [hvalid] at hagain
    split
    · rename_i hshort
      simp [hshort] at hagain
    · rename_i hlong
      simp only [hlong, if_false] at hagain
      split
      · obtain ⟨-, hended, -⟩ | ⟨-, heq⟩ := invalidFrame_cases h
        · rw [if_pos hended.closed]
          simp only [hended.bytes, List.length_nil]
          omega
        · rw [heq, if_neg (by simp [h])]
          simp only [FrameBuffer.discard, List.length_drop, frameHeaderBytes]
          omega
      · rename_i hchecksum
        simp only [hchecksum, if_false] at hagain
        unfold deliver at hagain ⊢
        simp only at hagain ⊢
        split
        · simp only [List.length_nil]
          omega
        · rename_i hmore
          simp only [hmore, if_false] at hagain
          split
          · rename_i hrefused
            simp [hrefused] at hagain
          · simp only [FrameBuffer.discard, List.length_drop, frameHeaderBytes]
            omega

theorem turn_shrinks {memory : InputMemory} {p : FrameParser} (h : p.closed = false)
    (hagain : (p.turn memory).again = true) :
    (p.turn memory).parser.buffer.bytes.length < p.buffer.bytes.length := by
  unfold turn at hagain ⊢
  simp only at hagain ⊢
  split
  · rename_i hfront
    simp only [hfront, if_true] at hagain
    exact readFrame_shrinks h hagain
  · rename_i hfront
    simp only [hfront, if_false] at hagain
    split
    · rename_i hnone
      simp [hnone] at hagain
    · rename_i hfound
      simp only [hfound, if_false] at hagain
      obtain ⟨-, -, hended, -⟩ | ⟨-, heq⟩ :=
        discardPrefix_cases (search magic p.buffer.bytes) h
      · simp [hended.closed] at hagain
      · simp only [heq, h, Bool.false_eq_true, if_false] at hagain ⊢
        refine Nat.lt_of_lt_of_le (readFrame_shrinks rfl hagain) ?_
        simp [FrameBuffer.discard]

/-- The loop of `process`. -/
def process (memory : InputMemory) (p : FrameParser) : FrameParser × List FrameEvent :=
  if _ : p.closed = true then (p, [])
  else
    let turn := p.turn memory
    if _ : turn.again = true then
      ((process memory turn.parser).1, turn.events ++ (process memory turn.parser).2)
    else (turn.parser, turn.events)
termination_by p.buffer.bytes.length
decreasing_by exact turn_shrinks (by simpa using ‹¬ p.closed = true›) ‹_›

/-- Room for `count` more bytes, with no parser where the memory is refused. -/
def grow (memory : InputMemory) (count : Nat) (p : FrameParser) : Option FrameParser :=
  if p.buffer.size + count > p.buffer.capacity then
    let capacity :=
      if p.buffer.size ≥ frameHeaderBytes then
        max (p.buffer.size + count)
          (frameHeaderBytes + (readU32Be (p.buffer.bytes.drop 8)).toNat)
      else
        min (maximumPayloadBytes + frameHeaderBytes + chunkBytes)
          (max (p.buffer.size + count) (p.buffer.capacity * 2))
    if !memory.admitted capacity then none
    else (p.buffer.reserve memory capacity).map fun buffer => { p with buffer := buffer }
  else some p

/-- The loop of `feed` over the chunks of its input. -/
def feedChunks (memory : InputMemory) (nowMs : UInt64) (p : FrameParser) :
    List UInt8 → FrameParser × List FrameEvent
  | [] => (p, [])
  | byte :: rest =>
    if p.closed then (p, [])
    else
      let bytes := byte :: rest
      match p.grow memory (min chunkBytes bytes.length) with
      | none => p.close
      | some p =>
        let chunk := bytes.take chunkBytes
        let processed := process memory
          { p with buffer := p.buffer.append chunk, lastProgressMs := nowMs }
        let fed := feedChunks memory nowMs processed.1 (bytes.drop chunkBytes)
        (fed.1, processed.2 ++ fed.2)
termination_by bytes => bytes.length
decreasing_by
  simp only [chunkBytes, List.length_drop, List.length_cons]
  omega

def feed (memory : InputMemory) (bytes : List UInt8) (nowMs : UInt64) (p : FrameParser) :
    FrameParser × List FrameEvent :=
  if p.closed then (p, [])
  else
    let fed := feedChunks memory nowMs p bytes
    if bytes.isEmpty then
      let timeout := fed.1.checkTimeout nowMs
      (timeout.1, fed.2 ++ timeout.2)
    else fed

end FrameParser

end WsprryPico.Wtp
