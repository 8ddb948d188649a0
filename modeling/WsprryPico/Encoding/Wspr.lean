import Mathlib.Algebra.Group.Nat.Defs
import Mathlib.Data.List.Basic

/-!
# WSPR messages

`encoding/wspr.cpp` and `encoding/wspr_plan.cpp`: the checks of a station, the
packing of its messages into fifty bits, and the channel symbols of a payload.
Strings are their bytes. The packings stay far below the width of their
integers, which are `Nat` here; the hash is of words.
-/

namespace WsprryPico.Encoding

def digit (c : UInt8) : Bool := 48 ≤ c && c ≤ 57
def letter (c : UInt8) : Bool := 65 ≤ c && c ≤ 90

def code (c : UInt8) : Nat :=
  if digit c then c.toNat - 48 else if letter c then c.toNat - 65 + 10 else 36

def powers : List Nat :=
  [0, 3, 7, 10, 13, 17, 20, 23, 27, 30, 33, 37, 40, 43, 47, 50, 53, 57, 60]

def maxStationToken : Nat := 12

abbrev Symbols := List UInt8

def sync : Symbols :=
  [1, 1, 0, 0, 0, 0, 0, 0, 1, 0, 0, 0, 1, 1, 1, 0, 0, 0, 1, 0, 0, 1, 0, 1,
   1, 1, 1, 0, 0, 0, 0, 0, 0, 0, 1, 0, 0, 1, 0, 1, 0, 0, 0, 0, 0, 0, 1, 0,
   1, 1, 0, 0, 1, 1, 0, 1, 0, 0, 0, 1, 1, 0, 1, 0, 0, 0, 0, 1, 1, 0, 1, 0,
   1, 0, 1, 0, 1, 0, 0, 1, 0, 0, 1, 0, 1, 1, 0, 0, 0, 1, 1, 0, 1, 0, 1, 0,
   0, 0, 1, 0, 0, 0, 0, 0, 1, 0, 0, 1, 0, 0, 1, 1, 1, 0, 1, 1, 0, 0, 1, 1,
   0, 1, 0, 0, 0, 1, 1, 1, 0, 0, 0, 0, 0, 1, 0, 1, 0, 0, 1, 1, 0, 0, 0, 0,
   0, 0, 0, 1, 1, 0, 1, 0, 1, 1, 0, 0, 0, 1, 1, 0, 0, 0]

/-- The parity of the bits of a word under a mask. -/
def parityOf (word mask : UInt32) : UInt8 :=
  (List.range 32).foldl (fun p bit => p ^^^ ((word &&& mask) >>> UInt32.ofNat bit).toUInt8 &&& 1) 0

/-- The convolutional code: two parities for each of 81 shifts. -/
def convolve (payload : Nat) : List UInt8 :=
  ((List.range 81).foldl (fun (state : UInt32 × List UInt8) i =>
    let bit : UInt32 := if i < 50 ∧ payload.testBit (49 - i) then 1 else 0
    let shift := (state.1 <<< 1) ||| bit
    (shift, state.2 ++ [parityOf shift 0xf2d05351, parityOf shift 0xe4613c47])) (0, [])).2

def reversed (i : Nat) : Nat :=
  (List.range 8).foldl (fun r bit => r * 2 + i / 2 ^ bit % 2) 0

def wsprChannel (payload : Nat) : Symbols :=
  let coded := convolve payload
  ((List.range 256).foldl (fun (state : Nat × Symbols) i =>
    if reversed i < 162 then
      (state.1 + 1, state.2.modify (reversed i) (· + 2 * coded.getD state.1 0))
    else state) (0, sync)).2

/-! ## Stations -/

/-- The character at a place. -/
def charAt (text : List UInt8) (i : Nat) : UInt8 := text.getD i 0

def inRange (low high c : UInt8) : Bool := low ≤ c && c ≤ high

def locatorSquare (locator : List UInt8) : Bool :=
  inRange 65 82 (charAt locator 0) && inRange 65 82 (charAt locator 1) && digit (charAt locator 2) &&
    digit (charAt locator 3)

def validStationLocator (locator : List UInt8) : Bool :=
  (locator.length = 4 || locator.length = 6) && locatorSquare locator &&
    (locator.length = 4 ||
      (inRange 65 88 (charAt locator 4) && inRange 65 88 (charAt locator 5)))

def validStationPower (dbm : Nat) : Bool := powers.contains dbm

/-- `N0CALL` -/
def noCall : List UInt8 := [78, 48, 67, 65, 76, 76]

def slash : UInt8 := 47

/-- The call within brackets, when it has them. -/
def unbracketed (call : List UInt8) : List UInt8 :=
  if call.head? = some 60 ∧ call.getLast? = some 62 then call.tail.dropLast else call

/-- The loop over the characters: no other ones, no two slashes in a row. -/
def stationText : Bool → List UInt8 → Bool
  | _, [] => true
  | afterSlash, c :: rest =>
    (letter c || digit c || c = slash) && !(c = slash && afterSlash) && stationText (c = slash) rest

def validStationCallsign (call : List UInt8) : Bool :=
  if call.length < 3 || call.length > maxStationToken then false
  else
    let call := unbracketed call
    if call = noCall || call.length < 3 || call.head? = some slash ||
        call.getLast? = some slash then false
    else stationText false call && call.any letter && call.any digit

def validStationDetails (call locator : List UInt8) (dbm : Nat) : Bool :=
  validStationCallsign call && validStationLocator locator && validStationPower dbm

/-! ## Packing -/

/-- The call with its digit at the third place. -/
def padded (call : List UInt8) : List UInt8 :=
  let offset := if digit (charAt call 2) then 0 else 1
  List.replicate offset 32 ++ call ++ List.replicate (6 - offset - call.length) 32

def packedSix (call : List UInt8) : Nat :=
  let n := (code (charAt call 0) * 36 + code (charAt call 1)) * 10 + code (charAt call 2)
  let n := n * 27 + code (charAt call 3) - 10
  let n := n * 27 + code (charAt call 4) - 10
  n * 27 + code (charAt call 5) - 10

/-- What `wspr_type1` asks of the padded call. -/
def paddedCall (call : List UInt8) : Bool :=
  (letter (charAt call 0) || digit (charAt call 0) || charAt call 0 = 32) &&
    (letter (charAt call 1) || digit (charAt call 1)) && digit (charAt call 2) && letter (charAt call 3) &&
    (letter (charAt call 4) || charAt call 4 = 32) && (letter (charAt call 5) || charAt call 5 = 32)

/-- The call is one that Type 1 has a place for. -/
def ordinaryCall (call : List UInt8) : Bool :=
  !(call = noCall) && 3 ≤ call.length && call.length ≤ 6 &&
    (if digit (charAt call 2) then 0 else 1) + call.length ≤ 6 && paddedCall (padded call) &&
    call.all fun c => letter c || digit c

def squarePower (grid : List UInt8) (dbm : Nat) : Nat :=
  ((179 - 10 * ((charAt grid 0).toNat - 65) - ((charAt grid 2).toNat - 48)) * 180 +
    10 * ((charAt grid 1).toNat - 65) + ((charAt grid 3).toNat - 48)) * 128 + dbm + 64

/-- The payload of a call number and 22 bits. -/
def payloadOf (n m : Nat) : Nat := n <<< 22 ||| m

def wsprType1 (call grid : List UInt8) (dbm : Nat) : Option Symbols :=
  if ordinaryCall call && grid.length = 4 && locatorSquare grid && validStationPower dbm then
    some (wsprChannel (payloadOf (packedSix (padded call)) (squarePower grid dbm)))
  else none

def wsprType1FromStation (call locator : List UInt8) (dbm : Nat) : Option Symbols :=
  if validStationDetails call locator dbm then wsprType1 call (locator.take 4) dbm else none

def baseCall (call : List UInt8) : Option Nat :=
  if (wsprType1 call [65, 65, 48, 48] 0).isSome then some (packedSix (padded call)) else none

inductive WsprType where
  | type1 | type2 | type3
  deriving DecidableEq

structure WsprFrame where
  type : WsprType := .type1
  payload : Nat := 0
  symbols : Symbols := []

/-- `count` is the number of frames, `alternate_length` the length of the call. -/
structure WsprPlan where
  frames : List WsprFrame
  type2Ambiguous : Bool := false
  alternateCall : List UInt8 := []

def frame (type : WsprType) (n m : Nat) : WsprFrame :=
  let payload := payloadOf n (m &&& 0x3fffff)
  { type, payload, symbols := wsprChannel payload }

/-- One digit or letter, or two digits. -/
def suffixed (right : List UInt8) : Bool :=
  (right.length = 1 && (digit (charAt right 0) || letter (charAt right 0))) ||
    (right.length = 2 && digit (charAt right 0) && digit (charAt right 1))

def suffixExtension (right : List UInt8) : Nat :=
  if right.length = 1 then 60000 + code (charAt right 0)
  else 60026 + 10 * ((charAt right 0).toNat - 48) + ((charAt right 1).toNat - 48)

/-- The characters of a prefix to base 37, with padding before them. -/
def leadExtension (left : List UInt8) : Nat :=
  left.foldl (fun extension c => extension * 37 + code c)
    ((List.range (3 - left.length)).foldl (fun extension _ => extension * 37 + 36) 0)

/-- The two parts of a call with one slash. -/
def halves (call : List UInt8) : Option (List UInt8 × List UInt8) :=
  match call.dropWhile (· ≠ slash) with
  | [] => none
  | _ :: right => if right.contains slash then none else some (call.takeWhile (· ≠ slash), right)

def compound (call : List UInt8) (dbm : Nat) : Option WsprFrame :=
  match halves call with
  | none => none
  | some (left, right) =>
    match (baseCall left).filter fun _ => suffixed right with
    | some n => some (frame .type2 n (suffixExtension right % 32768 * 128 + dbm + 66))
    | none =>
      match baseCall right with
      | none => none
      | some n =>
        if left.isEmpty || left.length > 3 || !left.all fun c => letter c || digit c then none
        else
          let extension := leadExtension left
          some (frame .type2 n
            (extension % 32768 * 128 + dbm + if extension ≥ 32768 then 66 else 65))

/-! ## The hash -/

def rotl (word : UInt32) (count : UInt32) : UInt32 := (word <<< count) ||| (word >>> (32 - count))

structure HashState where
  a : UInt32
  b : UInt32
  c : UInt32

def mix (s : HashState) : HashState :=
  let ⟨a, b, c⟩ := s
  let a := (a - c) ^^^ rotl c 4
  let c := c + b
  let b := (b - a) ^^^ rotl a 6
  let a := a + c
  let c := (c - b) ^^^ rotl b 8
  let b := b + a
  let a := (a - c) ^^^ rotl c 16
  let c := c + b
  let b := (b - a) ^^^ rotl a 19
  let a := a + c
  let c := (c - b) ^^^ rotl b 4
  let b := b + a
  ⟨a, b, c⟩

/-- Twelve bytes, or the last ones, are added to the words. -/
def addBytes (bytes : List UInt8) (s : HashState) : HashState :=
  bytes.zipIdx.foldl (fun s (byte, i) =>
    let value := byte.toUInt32 <<< UInt32.ofNat (8 * (i % 4))
    if i < 4 then { s with a := s.a + value }
    else if i < 8 then { s with b := s.b + value }
    else { s with c := s.c + value }) s

def finish (s : HashState) : HashState :=
  let ⟨a, b, c⟩ := s
  let c := (c ^^^ b) - rotl b 14
  let a := (a ^^^ c) - rotl c 11
  let b := (b ^^^ a) - rotl a 25
  let c := (c ^^^ b) - rotl b 16
  let a := (a ^^^ c) - rotl c 4
  let b := (b ^^^ a) - rotl a 14
  let c := (c ^^^ b) - rotl b 24
  ⟨a, b, c⟩

/-- The loop over blocks of twelve; a round takes a byte at least. -/
def hashBlocks : Nat → List UInt8 → HashState → HashState
  | rounds + 1, bytes, s =>
    if bytes.length > 12 then hashBlocks rounds (bytes.drop 12) (mix (addBytes (bytes.take 12) s))
    else if bytes.isEmpty then s
    else finish (addBytes bytes s)
  | 0, _, s => s

def wsprHash (call : List UInt8) : Nat :=
  let start := 0xdeadbeef + UInt32.ofNat call.length + 146
  ((hashBlocks (call.length + 1) call ⟨start, start, start⟩).c &&& 32767).toNat

def hashed (call grid : List UInt8) (dbm : Nat) : WsprFrame :=
  let rotated := (List.range 6).map fun i => charAt grid ((i + 1) % 6)
  frame .type3 (packedSix rotated) (wsprHash call * 128 + 63 - dbm)

/-! ## The plan -/

/-- A suffix that shares its extension with another one. -/
def letterOverlap (suffix : List UInt8) : Bool :=
  suffix.length = 1 && inRange 81 90 (charAt suffix 0)

def numericOverlap (suffix : List UInt8) : Bool :=
  suffix.length = 2 && charAt suffix 0 = 48 && digit (charAt suffix 1)

/-- The call with the suffix that the extension also stands for. -/
def alternateOf (left suffix : List UInt8) : List UInt8 :=
  if letterOverlap suffix then left ++ [slash, 48, 48 + (charAt suffix 0 - 81)]
  else left ++ [slash, 81 + (charAt suffix 1 - 48)]

def wsprPlan (call locator : List UInt8) (dbm : Nat) : Option WsprPlan :=
  if !validStationDetails call locator dbm then none
  else if call.head? = some 60 then
    let inner := call.tail.dropLast
    if locator.length ≠ 6 then none
    else if (baseCall inner).isNone && (compound inner dbm).isNone then none
    else some { frames := [hashed inner locator dbm] }
  else
    match wsprType1FromStation call locator dbm with
    | some single =>
      some { frames :=
        [{ type := .type1
           payload := payloadOf ((baseCall call).getD 0) (squarePower locator dbm)
           symbols := single }] }
    | none =>
      match compound call dbm with
      | some type2 =>
        let left := call.takeWhile (· ≠ slash)
        let suffix := (call.dropWhile (· ≠ slash)).tail
        let overlap := letterOverlap suffix || numericOverlap suffix
        some
          { frames := if locator.length = 6 then [type2, hashed call locator dbm] else [type2]
            type2Ambiguous := overlap
            alternateCall := if overlap then alternateOf left suffix else [] }
      | none => none

end WsprryPico.Encoding
