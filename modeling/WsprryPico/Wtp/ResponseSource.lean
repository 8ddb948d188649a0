import WsprryPico.Lib.Slices
import WsprryPico.Wtp.Json

/-!
# Response sources

`wtp/response_source.hpp`: a response that is copied out piece by piece, from any place of
it. A source is its size and its copy function; the sources made of others keep theirs.
`bits` is the width of `size_t`, in which the offset of a slice wraps.
-/

namespace WsprryPico.Wtp

open Lib Json

structure ResponseSource where
  replayable : Bool := true
  size : Nat
  jsonDocument : Bool := false
  /-- What is copied from an offset into a span of a length. -/
  copy : Nat → Nat → Bytes

namespace ResponseSource

def windowBytes : Nat := 1024

end ResponseSource

def copyText (text : Bytes) (offset out : Nat) : Bytes :=
  if offset ≥ text.length then [] else (text.drop offset).take (min out (text.length - offset))

def textSource (text : Bytes) : ResponseSource where
  size := text.length
  copy := copyText text

/-- `JoinedResponseSource`. -/
def joinedSource (front : Bytes) (body : ResponseSource) (back : Bytes) (json : Bool := false) :
    ResponseSource where
  replayable := body.replayable
  size := front.length + body.size + back.length
  jsonDocument := json
  copy offset out :=
    let head := if offset < front.length then copyText front offset out else []
    let offset := offset + head.length
    let middle :=
      if head.length < out ∧ offset ≥ front.length ∧ offset - front.length < body.size then
        body.copy (offset - front.length) (out - head.length)
      else []
    let offset := offset + middle.length
    let done := head ++ middle
    done ++
      if done.length < out ∧ offset ≥ front.length + body.size then
        copyText back (offset - front.length - body.size) (out - done.length)
      else []

/-- `SlicedResponseSource`. -/
def slicedSource (bits : Nat) (source : ResponseSource) (start : Nat) : ResponseSource where
  replayable := source.replayable
  size := if start ≤ source.size then source.size - start else 0
  copy offset out := source.copy ((offset + start) % 2 ^ bits) out

def responseEscape (c : UInt8) : Bytes :=
  let hex := ascii "0123456789abcdef"
  if c = 34 then ascii "\\\""
  else if c = 92 then ascii "\\\\"
  else if c < 32 then
    ascii "\\u00" ++ [hex.getD (c >>> 4).toNat 0, hex.getD (c &&& 15).toNat 0]
  else [c]

/-- `EscapedResponseSource`: a checkpoint is a place of the body and its place escaped. -/
structure EscapedSource where
  body : ResponseSource
  checkpoints : List (Nat × Nat) := []
  counted : Nat := 0
  size : Nat := 0
  valid : Bool := true

namespace EscapedSource

def checkpointLimit : Nat := 64

def ready (s : EscapedSource) : Bool := s.counted = s.body.size

def countStep (s : EscapedSource) : EscapedSource :=
  if ¬ s.valid ∨ s.ready then s
  else if s.checkpoints.length = checkpointLimit then { s with valid := false }
  else
    let s := { s with checkpoints := s.checkpoints ++ [(s.counted, s.size)] }
    let bytes := s.body.copy s.counted ResponseSource.windowBytes
    if bytes.length = 0 then { s with valid := false }
    else
      { s with
        size := bytes.foldl (fun size c => size + (responseEscape c).length) s.size
        counted := s.counted + bytes.length }

/-- The loop of the constructor. A step adds a checkpoint or is the last. -/
def countAll : Nat → EscapedSource → EscapedSource
  | 0, s => s
  | fuel + 1, s => if s.valid ∧ ¬ s.ready then countAll fuel s.countStep else s

def make (body : ResponseSource) (incremental : Bool := false) : EscapedSource :=
  if ¬ body.replayable then { body, valid := false }
  else if incremental then { body }
  else countAll (checkpointLimit + 1) { body }

/-- A byte of the escaped text passes: it is copied from `offset` on, while there is room. -/
def emit (offset out : Nat) (st : Nat × Bytes) (b : UInt8) : Nat × Bytes :=
  (st.1 + 1, if st.1 ≥ offset ∧ st.2.length < out then st.2 ++ [b] else st.2)

def emitAll (offset out : Nat) : Bytes → Nat × Bytes → Nat × Bytes
  | [], st => st
  | c :: bytes, st =>
    let st := (responseEscape c).foldl (emit offset out) st
    if st.2.length = out then st else emitAll offset out bytes st

/-- The loop of `copy` over the windows of the body. -/
def copyFrom (body : ResponseSource) (offset out : Nat) : Nat → Nat → Nat × Bytes → Bytes
  | 0, _, st => st.2
  | fuel + 1, input, st =>
    if input < body.size ∧ st.2.length < out then
      let bytes := body.copy input ResponseSource.windowBytes
      if bytes.length = 0 then st.2
      else copyFrom body offset out fuel (input + bytes.length) (emitAll offset out bytes st)
    else st.2

/-- The last checkpoint before the first one past the offset. -/
def point (s : EscapedSource) (offset : Nat) : Nat × Nat :=
  (s.checkpoints.takeWhile fun p => p.2 ≤ offset).getLast?.getD (s.checkpoints.headD (0, 0))

def copy (s : EscapedSource) (offset out : Nat) : Bytes :=
  if ¬ s.ready ∨ offset ≥ s.size then []
  else
    let point := s.point offset
    copyFrom s.body offset out (s.body.size + 1) point.1 (point.2, [])

def source (s : EscapedSource) : ResponseSource where
  size := s.size
  copy := s.copy

end EscapedSource

/-! ## The law -/

/-- The source stands for the document. It reads up to `shift` past the offsets it is given. -/
structure Lawful (bits shift : Nat) (source : ResponseSource) (document : Bytes) : Prop where
  size : source.size = document.length
  copy : ∀ offset out, offset + shift < 2 ^ bits →
    source.copy offset out = slice document offset out
  counts : ∀ offset, offset < document.length → offset + shift < 2 ^ bits

theorem copyText_slice (text : Bytes) (offset out : Nat) :
    copyText text offset out = slice text offset out := by
  unfold copyText
  split_ifs with h
  · exact (slice_beyond h).symm
  · rw [slice, List.take_eq_take_iff, List.length_drop]
    omega

variable {bits shift : Nat} {source body : ResponseSource} {document : Bytes}

theorem textSource_lawful {text : Bytes} (h : text.length < 2 ^ bits) :
    Lawful bits 0 (textSource text) text :=
  ⟨rfl, fun offset out _ => copyText_slice text offset out, fun offset ho => by omega⟩

theorem slicedSource_lawful (h : Lawful bits shift source document) (start : Nat) :
    Lawful bits (start + shift) (slicedSource bits source start) (document.drop start) := by
  refine ⟨?_, ?_, ?_⟩
  · dsimp only [slicedSource]
    rw [List.length_drop, h.size]
    split_ifs <;> omega
  · intro offset out hoffset
    dsimp only [slicedSource]
    rw [Nat.mod_eq_of_lt (by omega), h.copy _ _ (by omega), slice_drop]
  · intro offset hoffset
    rw [List.length_drop] at hoffset
    have hinside := h.counts (offset + start) (by omega)
    omega

theorem joinedSource_lawful {front back : Bytes} {json : Bool}
    (h : Lawful bits shift body document)
    (hcounted : (front ++ (document ++ back)).length < 2 ^ bits) :
    Lawful bits 0 (joinedSource front body back json) (front ++ (document ++ back)) := by
  refine ⟨?_, ?_, fun offset hoffset => by omega⟩
  · simp only [joinedSource, h.size, List.length_append]
    omega
  · intro offset out _
    have hhead : (if offset < front.length then copyText front offset out else []) =
        slice front offset out := by
      split_ifs with hfront
      · exact copyText_slice front offset out
      · exact (slice_beyond (by omega)).symm
    have hlength : (slice front offset out).length = min out (front.length - offset) := slice_length
    dsimp only [joinedSource]
    rw [slice_append, slice_append, hhead]
    set head := slice front offset out with hheadDef
    -- What the body copies is its slice behind the front part.
    have hmiddle : (if head.length < out ∧ offset + head.length ≥ front.length ∧
          offset + head.length - front.length < body.size then
          body.copy (offset + head.length - front.length) (out - head.length) else []) =
        slice document (offset - front.length) (out - head.length) := by
      rw [h.size]
      split_ifs with hbody
      · have hplace : offset + head.length - front.length = offset - front.length := by omega
        rw [hplace, h.copy _ _ (h.counts _ (by omega))]
      · by_cases hroom : head.length < out
        · exact (slice_beyond (by omega)).symm
        · rw [show out - head.length = 0 by omega, slice_none]
    rw [hmiddle, h.size, List.append_assoc]
    congr 2
    have hbodyLength : (slice document (offset - front.length) (out - head.length)).length =
        min (out - head.length) (document.length - (offset - front.length)) := slice_length
    rw [List.length_append]
    split_ifs with hback
    · rw [copyText_slice]
      congr 1 <;> omega
    · by_cases hroom : out - head.length -
          (slice document (offset - front.length) (out - head.length)).length = 0
      · rw [hroom, slice_none]
      · omega

end WsprryPico.Wtp
