import WsprryPico.Standalone.Bytes

/-!
# The two-bank journal

`Journal` of `standalone/storage.cpp` over flash that may lose its power. A record
is a slot of a bank; the journal appends to the erased slots of the bank of its
latest record and erases the other bank when it has none left.
-/

namespace WsprryPico.Standalone

open Lib

def journalMagic : Nat := 0x32524f5453505757

def sectorSize : Nat := 4096

/-- What the scan of `load` tells about a slot. -/
inductive Slot where
  | blank
  | torn
  | record (sequence : Nat) (data : List UInt8)
  deriving DecidableEq

def encode (size sequence : Nat) (data : List UInt8) : List UInt8 :=
  let body := put 8 journalMagic ++ put 8 sequence ++ put 4 data.length ++ List.replicate 12 255 ++
    data ++ List.replicate (size - 36 - data.length) 255
  body ++ put 4 (crc32 body)

def classify (size : Nat) (record : List UInt8) : Slot :=
  if erased record then .blank
  else
    let checksum := crc32 (record.take (size - 4))
    let sequence := get ((record.drop 8).take 8)
    let length := get ((record.drop 16).take 4)
    if get (record.take 8) = journalMagic ∧ sequence > 0 ∧ length ≤ size - 64 ∧
        get (record.drop (size - 4)) = checksum then
      .record sequence ((record.drop 32).take length)
    else .torn

structure Journal where
  base : Nat
  size : Nat
  healthy : Bool := false
  sequence : Nat := 0
  latest : Nat := 0
  data : List UInt8 := []

namespace Journal

def maxSequence : Nat := 2 ^ 64 - 1

/-- The slots that `load` reads, in its order. -/
def offsets (size : Nat) : List Nat := (List.range (2 * sectorSize / size)).map (· * size)

/-- The loop of `load`; the flag is `ignored_torn_record`. -/
def scan (resetRecovery : Bool) (f : Nor) : List Nat → Journal × Bool → Bool × Journal × Bool
  | [], s => (true, s)
  | offset :: rest, (j, ignored) =>
    match f.read (j.base + offset) j.size with
    | none => (false, j, ignored)
    | some record =>
      match classify j.size record with
      | .blank => scan resetRecovery f rest (j, ignored)
      | .torn => if resetRecovery then scan resetRecovery f rest (j, true) else (false, j, ignored)
      | .record sequence data =>
        if sequence = j.sequence then (false, j, ignored)
        else if sequence > j.sequence then
          scan resetRecovery f rest
            ({ j with sequence := sequence, latest := offset, data := data }, ignored)
        else scan resetRecovery f rest (j, ignored)

def load (resetRecovery : Bool) (j : Journal) (f : Nor) : Bool × Journal :=
  let j := { j with healthy := false, sequence := 0, data := [] }
  if (j.size ≠ 256 ∧ j.size ≠ 2048) ∨ j.base % sectorSize ≠ 0 ∨ j.base > 8192 then (false, j)
  else
    match scan resetRecovery f (offsets j.size) (j, false) with
    | (false, j, _) => (false, j)
    | (true, j, ignored) =>
      if ignored && j.sequence = 0 then (false, j) else (true, { j with healthy := true })

def bank (j : Journal) : Nat := if j.sequence = 0 then 0 else j.latest / sectorSize

/-- The first erased one of `count` slots from `offset` on; `none` when a read fails. -/
def findErased (j : Journal) (f : Nor) : Nat → Nat → Option (Option Nat)
  | 0, _ => some none
  | count + 1, offset =>
    match f.read (j.base + offset) j.size with
    | none => none
    | some record =>
      if erased record then some (some offset) else findErased j f count (offset + j.size)

def programRecord (j : Journal) (data : List UInt8) (offset : Nat) (f : Nor) : Bool × Nor :=
  f.programPages 256 (j.size / 256) (j.base + offset) (encode j.size (j.sequence + 1) data)

/-- The record at `offset` reads back as it was programmed. -/
def verified (j : Journal) (data : List UInt8) (offset : Nat) (f : Nor) : Bool :=
  f.read (j.base + offset) j.size = some (encode j.size (j.sequence + 1) data)

/-- `append` from the choice of the slot on. -/
def writeRecord (j : Journal) (data : List UInt8) (offset : Nat) (f : Nor) : Bool × Journal × Nor :=
  match j.programRecord data offset f with
  | (false, f) => (false, { j with healthy := false }, f)
  | (true, f) =>
    if j.verified data offset f then
      (true, { j with latest := offset, sequence := j.sequence + 1, data := data }, f)
    else (false, { j with healthy := false }, f)

def append (j : Journal) (data : List UInt8) (f : Nor) : Bool × Journal × Nor :=
  if !j.healthy || data.length > j.size - 64 || j.sequence = maxSequence then (false, j, f)
  else
    let start := if j.sequence = 0 then 0 else j.latest + j.size
    match j.findErased f (((j.bank + 1) * sectorSize - start) / j.size) start with
    | none => (false, { j with healthy := false }, f)
    | some (some offset) => j.writeRecord data offset f
    | some none =>
      let offset := (1 - j.bank) * sectorSize
      match f.erase (j.base + offset) sectorSize with
      | (false, f) => (false, { j with healthy := false }, f)
      | (true, f) => j.writeRecord data offset f

/-- The pages of an erased sector read back as erased. -/
def blankPages (f : Nor) (base : Nat) : Bool :=
  (List.range (sectorSize / 256)).all fun page =>
    match f.read (base + page * 256) 256 with
    | some bytes => erased bytes
    | none => false

/-- `purge_history` once the new record is verified: the bank of the old one. -/
def eraseOriginal (j : Journal) (original : Nat) (f : Nor) : Bool × Journal × Nor :=
  match f.erase (j.base + original * sectorSize) sectorSize with
  | (false, f) => (false, j, f)
  | (true, f) =>
    if !blankPages f (j.base + original * sectorSize) then (false, j, f)
    else ((j.load false f).1, (j.load false f).2, f)

def purgeHistory (j : Journal) (f : Nor) : Bool × Journal × Nor :=
  if !j.healthy || j.sequence = 0 || j.sequence = maxSequence then (false, j, f)
  else
    let original := j.latest / sectorSize
    let offset := (1 - original) * sectorSize
    match f.erase (j.base + offset) sectorSize with
    | (false, f) => (false, j, f)
    | (true, f) =>
      match j.programRecord j.data offset f with
      | (false, f) => (false, j, f)
      | (true, f) =>
        if !j.verified j.data offset f then (false, j, f)
        else eraseOriginal { j with latest := offset, sequence := j.sequence + 1 } original f

end Journal

end WsprryPico.Standalone
