import WsprryPico.Wtp.Encode
import WsprryPico.Wtp.FrameParser
import WsprryPico.Wtp.ResponseSource

/-!
# The document of a LOAD reply

The pieces a LOAD reply is made of are those of `encode_response`, the declared size counts
their bytes, and the browser's source copies slices of them.
-/

/-!
## Replies to LOAD

A LOAD may adjust hundreds of frequencies, so its reply is not only encoded as one text but
paged, streamed and copied from any place. The pieces of the reply, the size they declare and
the four encoders of `wtp/codec.cpp`. What the allocator grants is a parameter.
-/

namespace WsprryPico.Wtp

open Lib Json

/-! ## Pieces -/

def loadFields (s : Response) : Bytes :=
  ascii "\x7b\"job_id\":" ++ quoted s.jobId ++ ascii ",\"state\":\"loaded\",\"adjustments\":["

/-- What `encode_response` and the stream put before the adjustments. -/
def loadFront (r : Codec.Request) (s : Response) : Bytes :=
  responsePrefix r s ++ (ascii ",\"body\":" ++ loadFields s)

def browserFront (r : Codec.Request) (s : Response) : Bytes :=
  ascii "\x7b\"ok\":true,\"request_id\":" ++ quote r.requestId ++ ascii ",\"result\":" ++
    loadFields s

/-- The text that `append_load_adjustments` appends for an adjustment. -/
def adjustmentPart (index : Nat) (a : FrequencyAdjustment) : Bytes :=
  (if index = 0 then [] else ascii ",") ++ adjustmentJson a

def loadEnd : Bytes := ascii "]\x7d\x7d"

/-- The texts `append_load_adjustments` appends, one after the other. -/
def loadParts (s : Response) : List Bytes := s.adjustments.mapIdx adjustmentPart ++ [loadEnd]

def decimalWidth (value : Nat) : Nat :=
  if value < 10 then 1 else decimalWidth (value / 10) + 1
termination_by value

def punctuation : Bytes :=
  ascii "\x7b\"event_index\":,\"requested_frequency_nhz\":\"\",\"realized_frequency_nhz\":\"\"\x7d"

/-- The bytes an adjustment takes, counted and not written. -/
def adjustmentBytes (index : Nat) (a : FrequencyAdjustment) : Nat :=
  (if index = 0 then 0 else 1) + punctuation.length + decimalWidth a.eventIndex +
    decimalWidth a.requestedFrequencyNhz.toNat + decimalWidth a.realizedFrequencyNhz.toNat

def loadResponseBytes (front : Nat) (s : Response) : Nat :=
  (s.adjustments.mapIdx adjustmentBytes).foldl (· + ·) (front + 3)

/-! ## The paged buffer -/

/-- What the allocator grants to an encoder. -/
structure Grants where
  /-- `memory_admitted`. -/
  memory : Bool := true
  /-- The allocation of the encoder itself. -/
  reserved : Bool := true

/-- The conditions under which a LOAD is encoded in pieces. -/
def loadEncodable (g : Grants) (r : Codec.Request) (s : Response) : Bool :=
  ¬ (¬ s.ok ∨ r.operation ≠ ascii "LOAD" ∨ s.adjustments.length > 512 ∨ ¬ g.memory)

/-- The buffer refuses what exceeds its reserve, and its reserve is the declared size. -/
def encodeLoadResponseBuffer (g : Grants) (r : Codec.Request) (s : Response)
    (browser : Bool := false) : Bytes :=
  if ¬ s.ok ∨ r.operation ≠ ascii "LOAD" ∨ s.adjustments.length > 512 then []
  else
    let front := if browser then browserFront r s else loadFront r s
    let bytes := loadResponseBytes front.length s
    if bytes > 65536 ∨ ¬ g.memory ∨ ¬ g.reserved then []
    else
      let result := front ++ (loadParts s).flatten
      if result.length ≠ bytes then [] else result

/-! ## The browser's source -/

structure BrowserLoadSource where
  front : Bytes
  adjustments : List FrequencyAdjustment
  offsets : List Nat
  size : Nat

namespace BrowserLoadSource

/-- The loop of the constructor: where each adjustment begins, and where the last one ends. -/
def place (size index : Nat) : List FrequencyAdjustment → List Nat × Nat
  | [] => ([size], size)
  | a :: rest =>
    let later := place (size + adjustmentBytes index a) (index + 1) rest
    (size :: later.1, later.2)

def make (r : Codec.Request) (s : Response) : BrowserLoadSource :=
  let front := browserFront r s
  let placed := place front.length 0 s.adjustments
  { front, adjustments := s.adjustments, offsets := placed.1, size := placed.2 + 3 }

/-- An adjustment in a text of 192 bytes; one that does not fit is empty. -/
def format (index : Nat) (a : FrequencyAdjustment) : Bytes :=
  let text := (if index = 0 then [] else ascii ",") ++ ascii "\x7b\"event_index\":" ++
    decimal a.eventIndex ++ ascii ",\"requested_frequency_nhz\":\"" ++
    decimal a.requestedFrequencyNhz.toNat ++ ascii "\",\"realized_frequency_nhz\":\"" ++
    decimal a.realizedFrequencyNhz.toNat ++ ascii "\"\x7d"
  if text.length ≤ 192 then text else []

/-- The loop of `copy` over the adjustments from `index` on: the next offset and the copy. -/
def copyList (s : BrowserLoadSource) (out : Nat) :
    Nat → List FrequencyAdjustment → Nat × Bytes → Nat × Bytes
  | _, [], st => st
  | index, a :: rest, st =>
    if ¬ st.2.length < out then st
    else
      let copied := copyText (format index a) (st.1 - s.offsets.getD index 0) (out - st.2.length)
      let st := (st.1 + copied.length, st.2 ++ copied)
      if st.1 ≠ s.offsets.getD (index + 1) 0 then st else copyList s out (index + 1) rest st

/-- The last adjustment that begins at the offset or before it. -/
def upperBound (s : BrowserLoadSource) (offset : Nat) : Nat :=
  (s.offsets.takeWhile (· ≤ offset)).length

def last (s : BrowserLoadSource) : Nat := s.offsets.getLastD 0

def copy (s : BrowserLoadSource) (offset out : Nat) : Bytes :=
  let head := if offset < s.front.length then copyText s.front offset out else []
  let offset := offset + head.length
  let st :=
    if offset < s.last ∧ 0 < s.upperBound offset then
      let index := s.upperBound offset - 1
      s.copyList out index (s.adjustments.drop index) (offset, head)
    else (offset, head)
  st.2 ++
    if st.2.length < out ∧ st.1 ≥ s.last then
      copyText loadEnd (st.1 - s.last) (out - st.2.length)
    else []

def source (s : BrowserLoadSource) : ResponseSource where
  size := s.size
  jsonDocument := true
  copy := s.copy

end BrowserLoadSource

def loadResponseSource (g : Grants) (r : Codec.Request) (s : Response) :
    Option BrowserLoadSource :=
  if ¬ loadEncodable g r s then none
  else
    let source := BrowserLoadSource.make r s
    if ¬ g.reserved ∨ source.size > 65536 then none else some source

/-! ## The stream -/

structure LoadResponseStream where
  adjustments : List FrequencyAdjustment := []
  page : Bytes := []
  piece : Bytes := []
  pageStart : Nat := 0
  pieceOffset : Nat := 0
  nextAdjustment : Nat := 0
  closing : Bool := false
  size : Nat := 0
  checksum : UInt32 := 0

namespace LoadResponseStream

def pageBytes : Nat := 4096

def make (g : Grants) (r : Codec.Request) (s : Response) : LoadResponseStream :=
  if ¬ loadEncodable g r s then {}
  else
    let piece := loadFront r s
    let bytes := loadResponseBytes piece.length s
    if bytes > 65536 ∨ ¬ g.reserved then {}
    else
      { adjustments := s.adjustments
        piece
        size := bytes
        checksum := (loadParts s).foldl (fun sum part => crc32c part sum) (crc32c piece) }

/-- The next piece, once the last one is on a page. -/
def refill (s : LoadResponseStream) : LoadResponseStream :=
  if s.pieceOffset ≠ s.piece.length then s
  else
    let s := { s with piece := [], pieceOffset := 0 }
    match s.adjustments[s.nextAdjustment]? with
    | some a =>
      { s with
        nextAdjustment := s.nextAdjustment + 1
        piece := adjustmentPart s.nextAdjustment a }
    | none => if ¬ s.closing then { s with piece := loadEnd, closing := true } else s

/-- The loop that fills a page. A round puts a byte on it or is the last. -/
def fill : Nat → LoadResponseStream → LoadResponseStream
  | 0, s => s
  | fuel + 1, s =>
    if s.page.length < pageBytes then
      let s := s.refill
      if s.pieceOffset = s.piece.length then s
      else
        let count := min (pageBytes - s.page.length) (s.piece.length - s.pieceOffset)
        fill fuel
          { s with
            page := s.page ++ (s.piece.drop s.pieceOffset).take count
            pieceOffset := s.pieceOffset + count }
    else s

/-- `at`: the transport may retry or advance, never skip bytes. -/
def window (s : LoadResponseStream) (offset : Nat) : Bytes × LoadResponseStream :=
  if offset ≥ s.size ∨ offset < s.pageStart then ([], s)
  else if offset ≥ s.pageStart + s.page.length then
    if offset ≠ s.pageStart + s.page.length then ([], s)
    else
      let s := fill (pageBytes + 1) { s with pageStart := offset, page := [] }
      (s.page.drop (offset - s.pageStart), s)
  else (s.page.drop (offset - s.pageStart), s)

end LoadResponseStream

variable {r : Codec.Request} {s : Response} {l : List FrequencyAdjustment} {index size : Nat}

/-! ## Numbers -/

theorem decimalWidth_length (n : Nat) : decimalWidth n = (decimal n).length := by
  fun_induction decimalWidth n with
  | case1 n h => rw [decimal_small h, List.length_singleton]
  | case2 n h ih => rw [decimal_large (by omega), ih, List.length_append, List.length_singleton]

theorem quoteByte_digit {c : UInt8} (h : Lib.isDigit c = true) : quoteByte c = [c] := by
  rw [isDigit_iff] at h
  have hquote : ¬ (c = 34 ∨ c = 92) := by
    rintro (rfl | rfl) <;> revert h <;> decide
  have hcontrol : ¬ c < 32 := by
    rw [UInt8.lt_iff_toNat_lt]
    have : (32 : UInt8).toNat = 32 := rfl
    omega
  unfold quoteByte
  simp only [hquote, hcontrol, if_false]

theorem quote_decimal (n : Nat) : quote (decimal n) = 34 :: decimal n ++ [34] := by
  have hdigits : ∀ text : Bytes, (∀ c ∈ text, Lib.isDigit c = true) →
      text.flatMap quoteByte = text := by
    intro text
    induction text with
    | nil => intro _; rfl
    | cons c text ih =>
      intro h
      rw [List.flatMap_cons, quoteByte_digit (h c List.mem_cons_self),
        ih (List.forall_mem_cons.1 h).2]
      rfl
  rw [quote, hdigits _ (decimal_digits n)]

/-! ## Pieces -/

theorem ns_decimal (n : UInt64) : ns n = 34 :: decimal n.toNat ++ [34] := quote_decimal n.toNat

theorem adjustmentPart_length (index : Nat) (a : FrequencyAdjustment) :
    (adjustmentPart index a).length = adjustmentBytes index a := by
  have hcomma : (if index = 0 then [] else ascii ",").length = if index = 0 then 0 else 1 := by
    split_ifs <;> rfl
  have htexts : (ascii "\x7b\"event_index\":").length +
      (ascii ",\"requested_frequency_nhz\":").length +
      (ascii ",\"realized_frequency_nhz\":").length + (ascii "\x7d").length + 4 =
        punctuation.length := by decide
  unfold adjustmentPart adjustmentBytes adjustmentJson
  rw [ns_decimal, ns_decimal, decimalWidth_length, decimalWidth_length, decimalWidth_length]
  simp only [List.length_append, List.length_cons, List.length_nil, hcomma]
  omega

def partsFrom (index : Nat) : List FrequencyAdjustment → List Bytes
  | [] => []
  | a :: rest => adjustmentPart index a :: partsFrom (index + 1) rest

theorem mapIdx_partsFrom (index : Nat) (l : List FrequencyAdjustment) :
    l.mapIdx (fun i a => adjustmentPart (index + i) a) = partsFrom index l := by
  induction l generalizing index with
  | nil => rfl
  | cons a l ih =>
    rw [List.mapIdx_cons, partsFrom, ← ih (index + 1)]
    simp only [Nat.add_zero, Nat.add_assoc, Nat.add_comm 1]

theorem loadParts_eq (s : Response) :
    (loadParts s).flatten = (partsFrom 0 s.adjustments).flatten ++ loadEnd := by
  have hparts := mapIdx_partsFrom 0 s.adjustments
  simp only [Nat.zero_add] at hparts
  rw [loadParts, hparts, List.flatten_append, List.flatten_singleton]

/-- Behind a first adjustment each one follows a comma. -/
theorem commas_parts (index : Nat) (a : FrequencyAdjustment) (l : List FrequencyAdjustment) :
    commas ((a :: l).map adjustmentJson) =
      adjustmentJson a ++ (partsFrom (index + 1) l).flatten := by
  induction l generalizing index a with
  | nil => simp [commas, partsFrom]
  | cons b l ih =>
    have hrest := ih (index + 1) b
    have hcommas : commas ((a :: b :: l).map adjustmentJson) =
        adjustmentJson a ++ ascii "," ++ commas ((b :: l).map adjustmentJson) := rfl
    rw [hcommas, hrest, partsFrom, List.flatten_cons, adjustmentPart, if_neg (Nat.succ_ne_zero _)]
    simp only [List.append_assoc]

theorem commas_partsFrom (l : List FrequencyAdjustment) :
    commas (l.map adjustmentJson) = (partsFrom 0 l).flatten := by
  cases l with
  | nil => rfl
  | cons a l =>
    rw [commas_parts 0, partsFrom, List.flatten_cons, adjustmentPart, if_pos rfl, List.nil_append]

/-- The pieces of a LOAD put together are the text of `encode_response`. -/
theorem encodeResponse_load (hok : s.ok = true) (hload : r.operation = ascii "LOAD")
    (config : ServiceConfig) (device firmware : Bytes) :
    encodeResponse r s config device firmware = loadFront r s ++ (loadParts s).flatten := by
  unfold encodeResponse
  dsimp only
  rw [hok, if_neg (by decide), if_pos hload, loadParts_eq, ← commas_partsFrom]
  unfold loadBody loadFront loadFields loadEnd
  have htexts : ascii ",\"body\":" ++ ascii "\x7b\"job_id\":" =
      ascii ",\"body\":\x7b\"job_id\":" := by decide
  rw [← htexts]
  simp only [List.append_assoc]

theorem mapIdx_bytes (index front : Nat) (l : List FrequencyAdjustment) :
    (l.mapIdx fun i a => adjustmentBytes (index + i) a).foldl (· + ·) front =
      front + (partsFrom index l).flatten.length := by
  induction l generalizing index front with
  | nil => rfl
  | cons a l ih =>
    have hrest := ih (index + 1) (front + adjustmentBytes index a)
    rw [List.mapIdx_cons, List.foldl_cons, partsFrom, List.flatten_cons, List.length_append,
      adjustmentPart_length, ← Nat.add_assoc, ← hrest]
    simp only [Nat.add_zero, Nat.add_assoc, Nat.add_comm 1]

theorem loadResponseBytes_length (front : Bytes) (s : Response) :
    loadResponseBytes front.length s = (front ++ (loadParts s).flatten).length := by
  have hbytes := mapIdx_bytes 0 (front.length + 3) s.adjustments
  simp only [Nat.zero_add] at hbytes
  have hend : loadEnd.length = 3 := rfl
  rw [loadResponseBytes, hbytes, loadParts_eq, List.length_append, List.length_append, hend]
  omega

end WsprryPico.Wtp
