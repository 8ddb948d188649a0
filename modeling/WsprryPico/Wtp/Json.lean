import WsprryPico.Lib.Text
import Mathlib.Data.List.Sort

/-!
# JSON values

`wtp/json.cpp`: the parser, whose values are views into the text it accepted,
and what reads a value. A view is the list of its bytes and a cursor is the text
from it on. Loops over a text are bounded by its length. The memory an object
asks for its keys is granted.
-/

namespace WsprryPico.Wtp.Json

open Lib

scoped instance lawfulBEq_bytes : LawfulBEq (List UInt8) := inferInstance

abbrev Bytes := List UInt8

/-! ## Characters -/

def space (c : UInt8) : Bool := c = 32 || c = 10 || c = 13 || c = 9

def whitespace (s : Bytes) : Bytes := s.dropWhile space

def hex (c : UInt8) : Option Nat :=
  if 48 ≤ c ∧ c ≤ 57 then some (c.toNat - 48)
  else if 97 ≤ c ∧ c ≤ 102 then some (c.toNat - 97 + 10)
  else if 65 ≤ c ∧ c ≤ 70 then some (c.toNat - 65 + 10)
  else none

/-- The rounds of `codepoint` still to go. -/
def codepointFrom (cp : Nat) : Nat → Bytes → Option (Nat × Bytes)
  | 0, s => some (cp, s)
  | _ + 1, [] => none
  | n + 1, c :: s =>
    match hex c with
    | none => none
    | some d => codepointFrom (cp * 16 + d) n s

def codepoint (s : Bytes) : Option (Nat × Bytes) := codepointFrom 0 4 s

def appendUtf8 (cp : Nat) : Bytes :=
  if cp < 0x80 then [UInt8.ofNat cp]
  else if cp < 0x800 then
    [UInt8.ofNat (0xc0 ||| (cp >>> 6)), UInt8.ofNat (0x80 ||| (cp &&& 63))]
  else if cp < 0x10000 then
    [UInt8.ofNat (0xe0 ||| (cp >>> 12)), UInt8.ofNat (0x80 ||| ((cp >>> 6) &&& 63)),
      UInt8.ofNat (0x80 ||| (cp &&& 63))]
  else
    [UInt8.ofNat (0xf0 ||| (cp >>> 18)), UInt8.ofNat (0x80 ||| ((cp >>> 12) &&& 63)),
      UInt8.ofNat (0x80 ||| ((cp >>> 6) &&& 63)), UInt8.ofNat (0x80 ||| (cp &&& 63))]

/-! ## Strings -/

def shortEscape (escape : UInt8) : Option UInt8 :=
  if escape = 34 ∨ escape = 92 ∨ escape = 47 then some escape
  else if escape = 98 then some 8
  else if escape = 102 then some 12
  else if escape = 110 then some 10
  else if escape = 114 then some 13
  else if escape = 116 then some 9
  else none

/-- The escape behind `\u`, which a high surrogate continues. -/
def unicodeEscape (s : Bytes) : Option (Bytes × Bytes) :=
  match codepoint s with
  | none => none
  | some (cp, s) =>
    if 0xd800 ≤ cp ∧ cp ≤ 0xdbff then
      if s.take 2 = [92, 117] then
        match codepoint (s.drop 2) with
        | none => none
        | some (low, s) =>
          if low < 0xdc00 ∨ 0xdfff < low then none
          else some (appendUtf8 (0x10000 + ((cp - 0xd800) <<< 10) + low - 0xdc00), s)
      else none
    else if 0xdc00 ≤ cp ∧ cp ≤ 0xdfff then none
    else some (appendUtf8 cp, s)

/-- The escape behind a backslash: what it decodes to and the text behind it. -/
def escape : Bytes → Option (Bytes × Bytes)
  | [] => none
  | e :: s => if e = 117 then unicodeEscape s else (shortEscape e).map fun c => ([c], s)

/-- The loop of `string_token`, behind the opening quote. -/
def stringBody : Nat → Bytes → Option (Bytes × Bytes)
  | 0, _ => none
  | _ + 1, [] => none
  | fuel + 1, c :: s =>
    if c = 34 then some ([], s)
    else if c < 32 then none
    else if c ≠ 92 then (stringBody fuel s).map fun d => (c :: d.1, d.2)
    else
      match escape s with
      | none => none
      | some (out, s) => (stringBody fuel s).map fun d => (out ++ d.1, d.2)

/-- `string_token`: the decoded string and the text behind the token. -/
def stringToken : Bytes → Option (Bytes × Bytes)
  | [] => none
  | c :: s => if c ≠ 34 then none else stringBody s.length s

/-! ## UTF-8 -/

/-- The continuation bytes of a sequence, whose leading bits are `cp`. -/
def continuation : Nat → Nat → Bytes → Option (Nat × Bytes)
  | 0, cp, s => some (cp, s)
  | _ + 1, _, [] => none
  | remaining + 1, cp, c :: s =>
    if c.toNat &&& 0xc0 ≠ 0x80 then none
    else continuation remaining ((cp <<< 6) ||| (c.toNat &&& 63)) s

/-- What a leading byte says: the bytes to come, its own bits, the least scalar of that length. -/
def leading (c : UInt8) : Option (Nat × Nat × Nat) :=
  if 0xc2 ≤ c ∧ c ≤ 0xdf then some (1, c.toNat &&& 31, 0x80)
  else if 0xe0 ≤ c ∧ c ≤ 0xef then some (2, c.toNat &&& 15, 0x800)
  else if 0xf0 ≤ c ∧ c ≤ 0xf4 then some (3, c.toNat &&& 7, 0x10000)
  else none

def utf8From : Nat → Bytes → Bool
  | _, [] => true
  | 0, _ :: _ => false
  | fuel + 1, c :: s =>
    if c < 0x80 then utf8From fuel s
    else
      match leading c with
      | none => false
      | some (remaining, bits, minimum) =>
        match continuation remaining bits s with
        | none => false
        | some (cp, s) =>
          if cp < minimum ∨ 0x10ffff < cp ∨ (0xd800 ≤ cp ∧ cp ≤ 0xdfff) then false
          else utf8From fuel s

def utf8 (s : Bytes) : Bool := utf8From s.length s

/-! ## Numbers -/

/-- `std::from_chars` in base ten: the number at the front, when it is in range. -/
def fromChars (least greatest : Int) (text : Bytes) : Option (Int × Bytes) :=
  let negative := decide (least < 0) && text.head? == some 45
  let rest := if negative then text.tail else text
  let digits := rest.takeWhile isDigit
  let n : Int := if negative then -(numeral digits : Int) else numeral digits
  if digits.isEmpty || n < least || greatest < n then none
  else some (n, rest.dropWhile isDigit)

def int32Min : Int := -2147483648
def int32Max : Int := 2147483647

def integerToken (bytes : Bytes) : Option Int :=
  if bytes.isEmpty || bytes.length > 11 then none
  else
    match fromChars int32Min int32Max bytes with
    | some (n, []) => some n
    | _ => none

/-! ## Values -/

/-- The token between a cursor and a later one. -/
def token (s rest : Bytes) : Bytes := s.take (s.length - rest.length)

/-- A view of a validated value. -/
structure Value where
  raw : Bytes := []
  deriving DecidableEq

namespace Value

def type (v : Value) : UInt8 := v.raw.headD 63

/-- What the token of a string decodes to, as far as it goes. -/
def string (v : Value) : Bytes := ((stringToken v.raw).map Prod.fst).getD []

def integer (v : Value) : Int := (integerToken v.raw).getD 0

def boolean (v : Value) : Bool := v.raw = ascii "true"

end Value

/-- Two of the keys decode to one name: neighbours, once they are sorted. -/
def repeatedName (keys : List Value) : Bool :=
  let sorted := keys.insertionSort fun a b => ¬ b.string < a.string
  (sorted.zip sorted.tail).any fun pair => pair.1.string = pair.2.string

/-- A literal or a number at the cursor. -/
def scalar (s : Bytes) : Option Bytes :=
  match [ascii "true", ascii "false", ascii "null"].find? fun l => s.take l.length = l with
  | some l => some (s.drop l.length)
  | none =>
    match if s.head? = some 45 then s.tail else s with
    | [] => none
    | c :: rest =>
      if ¬ isDigit c then none
      else
        let behind := if c = 48 then rest else rest.dropWhile isDigit
        (integerToken (token s behind)).map fun _ => behind

/-- One round of the loop: the member of an object, whose key is kept, or the element of an array. -/
def entry (object : Bool) (inner : Bytes → Option Bytes) (keys : List Value) (s : Bytes) :
    Option (List Value × Bytes) :=
  if object then
    match stringToken s with
    | none => none
    | some (_, rest) =>
      match whitespace rest with
      | [] => none
      | c :: behind =>
        if c ≠ 58 then none else (inner behind).map fun s' => (keys ++ [⟨token s rest⟩], s')
  else (inner s).map fun s' => (keys, s')

/-- The loop over the members or the elements, which `inner` reads. -/
def container (object validate : Bool) (inner : Bytes → Option Bytes) :
    Nat → List Value → Bytes → Option Bytes
  | 0, _, _ => none
  | fuel + 1, keys, s =>
    match entry object inner keys s with
    | none => none
    | some (keys, s) =>
      match whitespace s with
      | [] => none
      | c :: s =>
        if c = (if object then 125 else 93) then
          if validate && object && repeatedName keys then none else some s
        else if c ≠ 44 then none
        else container object validate inner fuel keys (whitespace s)

/-- `value`, with the levels of nesting still allowed at the cursor. -/
def value (validate : Bool) : Nat → Bytes → Option Bytes
  | levels, s =>
    match whitespace s with
    | [] => none
    | c :: rest =>
      if c = 34 then (stringToken (c :: rest)).map Prod.snd
      else if c = 123 ∨ c = 91 then
        match levels with
        | 0 => none
        | levels + 1 =>
          let s := whitespace rest
          if s.head? = some (if c = 123 then 125 else 93) then some s.tail
          else container (c = 123) validate (value validate levels) s.length [] s
      else scalar (c :: rest)

/-- The levels a cursor at depth one has, for the traversals of a validated value. -/
def defaultDepth : Nat := 16

def parse (payload : Bytes) (maximumDepth : Nat := 16) : Option Value :=
  if maximumDepth = 0 ∨ 16 < maximumDepth ∨ payload.isEmpty ∨ 65536 < payload.length ∨
      ¬ utf8 payload then none
  else
    let start := whitespace payload
    if start.head? ≠ some 123 then none
    else
      match value true maximumDepth start with
      | none => none
      | some behind => if whitespace behind ≠ [] then none else some ⟨token start behind⟩

/-! ## Traversals -/

namespace Value

/-- `next_element`: the element at the cursor and the cursor behind it. -/
def nextElement (v : Value) (cursor : Nat) : Option (Value × Nat) :=
  if v.type ≠ 91 then none
  else
    let start := whitespace (v.raw.drop (if cursor = 0 then 1 else cursor))
    if start.head? = none ∨ start.head? = some 93 then none
    else
      match value false defaultDepth start with
      | none => none
      | some behind =>
        match whitespace behind with
        | [] => none
        | c :: rest =>
          if c ≠ 44 ∧ c ≠ 93 then none
          else
            let cursor := if c = 44 then rest else c :: rest
            some (⟨token start behind⟩, v.raw.length - cursor.length)

/-- The loop of `elements`, which stops behind the first element past the limit. -/
def elementsFrom (limit : Nat) : Nat → List Value → Bytes → List Value
  | 0, out, _ => out
  | fuel + 1, out, s =>
    if s.head? = none ∨ s.head? = some 93 then out
    else
      match value false defaultDepth s with
      | none => []
      | some behind =>
        let out := out ++ [⟨token s behind⟩]
        let next := whitespace behind
        if out.length > limit ∨ next.head? = some 93 then out
        else elementsFrom limit fuel out (whitespace next.tail)

def elements (v : Value) (limit : Nat := 512) : List Value :=
  if v.type ≠ 91 then []
  else
    let s := whitespace v.raw.tail
    elementsFrom limit (s.length + 1) [] s

/-- The loop of `get`. -/
def getFrom (key : Bytes) : Nat → Bytes → Option Value
  | 0, _ => none
  | fuel + 1, s =>
    if s.head? = none ∨ s.head? = some 125 then none
    else
      match stringToken s with
      | none => none
      | some (name, s) =>
        let start := whitespace (whitespace s).tail
        match value false defaultDepth start with
        | none => none
        | some behind =>
          if name = key then some ⟨token start behind⟩
          else
            let next := whitespace behind
            if next.head? = some 125 then none
            else getFrom key fuel (whitespace next.tail)

def get (v : Value) (key : Bytes) : Option Value :=
  if v.type ≠ 123 then none
  else
    let s := whitespace v.raw.tail
    getFrom key (s.length + 1) s

end Value

/-! ## Helpers of the readers -/

def quoteByte (c : UInt8) : Bytes :=
  let digits := ascii "0123456789abcdef"
  if c = 34 ∨ c = 92 then [92, c]
  else if c < 32 then
    ascii "\\u00" ++ [digits.getD (c >>> 4).toNat 0, digits.getD (c &&& 15).toNat 0]
  else [c]

def quote (s : Bytes) : Bytes := 34 :: s.flatMap quoteByte ++ [34]

def u64Max : Int := 18446744073709551615

def decimal (v : Value) (nonzero : Bool := false) : Option UInt64 :=
  if v.type ≠ 34 ∨ 20 * 6 + 2 < v.raw.length then none
  else
    let s := v.string
    if s.isEmpty ∨ (1 < s.length ∧ s.head? = some 48) ∨ (nonzero ∧ s = ascii "0") then none
    else if ¬ s.all isDigit then none
    else
      match fromChars 0 u64Max s with
      | some (n, []) => some (UInt64.ofNat n.toNat)
      | _ => none

def identifier (v : Value) : Bool :=
  if v.type ≠ 34 ∨ 32 * 6 + 2 < v.raw.length then false
  else
    v.string.length = 32 && v.string.all fun c => isDigit c || (97 ≤ c && c ≤ 102)

/-- The loop of `fields` over the members. -/
def fieldsFrom (required optional : List Bytes) : Nat → Bytes → Bool
  | 0, _ => true
  | fuel + 1, s =>
    if s.head? = none ∨ s.head? = some 125 then true
    else
      match stringToken s with
      | none => false
      | some (key, s) =>
        if key ∉ required ∧ key ∉ optional then false
        else
          match value false defaultDepth (whitespace s).tail with
          | none => false
          | some behind =>
            let next := whitespace behind
            if next.head? = some 125 then true
            else fieldsFrom required optional fuel (whitespace next.tail)

def fields (v : Value) (required : List Bytes) (optional : List Bytes := []) : Bool :=
  if v.type ≠ 123 then false
  else if required.any fun key => (v.get key).isNone then false
  else
    let s := whitespace v.raw.tail
    fieldsFrom required optional (s.length + 1) s

end WsprryPico.Wtp.Json
