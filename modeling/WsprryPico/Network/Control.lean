import WsprryPico.Network.Http

/-!
# The control contract

`control_payload` and `control_response` of `network/control.hpp`: the member `contract` is
taken out of a request and put into a response.
-/

namespace WsprryPico.Network

open Lib Wtp.Json

def controlContract : Bytes := ascii "Wsprry-Control/1"

def controlWorkspaceBytes (bytes : Bytes) : Nat :=
  let trimmed := ((bytes.dropWhile space).reverse.dropWhile space).reverse
  trimmed.length * 2 + 16384

/-- What is left of an object from the value of a member on, which `get` finds. -/
def memberFrom (key : Bytes) : Nat → Bytes → Option Bytes
  | 0, _ => none
  | fuel + 1, s =>
    if s.head? = none ∨ s.head? = some 125 then none
    else
      match stringToken s with
      | none => none
      | some (name, s) =>
        let start := whitespace (whitespace s).tail
        match value false defaultDepth start with
        | none => none
        | some behind =>
          if name = key then some start
          else
            let next := whitespace behind
            if next.head? = some 125 then none
            else memberFrom key fuel (whitespace next.tail)

/-- Where the value of a member begins in an object. -/
def memberPosition (root : Value) (key : Bytes) : Option Nat :=
  let s := whitespace root.raw.tail
  (memberFrom key (s.length + 1) s).map fun start => root.raw.length - start.length

/-- `raw.erase`. -/
def eraseBytes (raw : Bytes) (start count : Nat) : Bytes :=
  raw.take start ++ raw.drop (start + count)

/-- Where the loop of `control_payload` stands: the member it is in, the depth, and whether it
is in a string, behind a backslash. -/
structure MemberScan where
  start : Nat := 1
  depth : Nat := 1
  quoted : Bool := false
  escaped : Bool := false

/-- A byte outside strings. -/
def MemberScan.nest (scan : MemberScan) (c : UInt8) : MemberScan :=
  if c = 123 ∨ c = 91 then { scan with depth := scan.depth + 1 }
  else if c = 125 ∨ c = 93 then { scan with depth := scan.depth - 1 }
  else scan

/-- The loop: the object without the member whose value begins at a position. -/
def withoutMember (raw : Bytes) (position : Nat) : Nat → MemberScan → Bytes → Option Bytes
  | _, _, [] => none
  | at_, scan, c :: rest =>
    if scan.quoted then
      let scan :=
        if scan.escaped then { scan with escaped := false }
        else if c = 92 then { scan with escaped := true }
        else if c = 34 then { scan with quoted := false }
        else scan
      withoutMember raw position (at_ + 1) scan rest
    else if c = 34 then withoutMember raw position (at_ + 1) { scan with quoted := true } rest
    else
      let scan := scan.nest c
      if (c = 44 ∧ scan.depth = 1) ∨ scan.depth = 0 then
        if scan.start ≤ position ∧ position < at_ then
          some
            (if c = 44 then eraseBytes raw scan.start (at_ - scan.start + 1)
              else if 1 < scan.start then eraseBytes raw (scan.start - 1) (at_ - scan.start + 1)
              else eraseBytes raw scan.start (at_ - scan.start))
        else withoutMember raw position (at_ + 1) { scan with start := at_ + 1 } rest
      else withoutMember raw position (at_ + 1) scan rest

def controlPayload (memoryAdmitted : Nat → Bool) (bytes : Bytes) : Option Bytes :=
  if maxHttpBody < bytes.length ∨ !memoryAdmitted (controlWorkspaceBytes bytes) then none
  else
    match parse bytes with
    | none => none
    | some root =>
      match root.get (ascii "contract"), memberPosition root (ascii "contract") with
      | some contract, some position =>
        if contract.type ≠ 34 ∨ contract.string ≠ controlContract then none
        else withoutMember root.raw position 1 {} root.raw.tail
      | _, _ => none

def contractMember : Bytes := ascii "\"contract\":\"Wsprry-Control/1\","

/-- `control_response`, with the answers of the memory. -/
def controlResponse (memory : Bool) (response : HttpResponse) : HttpResponse :=
  if response.controlWrapped then response
  else
    match response.body with
    | .generated bytes jsonDocument =>
      if !jsonDocument ∨ !memory then httpError 503 "resource_exhausted"
      else
        { response with
          body := .generated (123 :: contractMember ++ 32 :: bytes.tail) true }
    | .buffered bytes =>
      if bytes.head? ≠ some 123 ∨ !memory then httpError 503 "resource_exhausted"
      else { response with body := .buffered (123 :: contractMember ++ 32 :: bytes.tail) }
    | .text bytes =>
      if bytes.head? = some 123 then
        { response with body := .text (123 :: contractMember ++ bytes.tail) }
      else response
    | .fixed _ | .parts _ => response

end WsprryPico.Network
