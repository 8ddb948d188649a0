import WsprryPico.Lib.Text

/-!
# Wi-Fi credentials and time servers

The checks of `standalone/config.cpp` on a network name, a password and the name or
address of a time server.
-/

namespace WsprryPico.Standalone

open Lib

def printable (text : List UInt8) (minimum maximum : Nat) : Bool :=
  minimum ≤ text.length && text.length ≤ maximum && text.all fun c => 32 ≤ c && c < 127

/-- The text up to the next dot, and what follows the dot if there is one. -/
def untilDot (text : List UInt8) : List UInt8 × Option (List UInt8) :=
  let part := text.takeWhile (· ≠ 46)
  (part, (text.drop part.length).head?.map fun _ => text.drop (part.length + 1))

/-- One part of an address, canonical and below 256. -/
def octet (part : List UInt8) : Option Nat :=
  if part.isEmpty ∨ 3 < part.length ∨ (1 < part.length ∧ part.head? = some 48) ∨
      !part.all isDigit ∨ 255 < numeral part then none
  else some (numeral part)

/-- The parts from number `i` on, whose first is returned. -/
def ipv4Parts : Nat → List UInt8 → Option Nat
  | 0, _ => none
  | remaining + 1, text =>
    match octet (untilDot text).1, (untilDot text).2 with
    | none, _ => none
    | some n, none => if remaining = 0 then some n else none
    | some n, some rest =>
      if remaining = 0 then none else (ipv4Parts remaining rest).map fun _ => n

def ipv4 (text : List UInt8) : Bool :=
  match ipv4Parts 4 text with
  | none => false
  | some first => 0 < first && first < 224 && first ≠ 127

/-- A label of one of the address spellings that are not canonical. -/
def numericLabel (label : List UInt8) : Bool :=
  let hex := label.take 2 = ascii "0x" || label.take 2 = ascii "0X"
  let label := if hex then label.drop 2 else label
  !label.isEmpty &&
    label.all fun c => isDigit c || (hex && ((97 ≤ c && c ≤ 102) || (65 ≤ c && c ≤ 70)))

/-- Each label of a text looks like a number; the fuel is the number of labels at most. -/
def numericLabels : Nat → List UInt8 → Bool
  | 0, _ => true
  | fuel + 1, rest =>
    if rest.isEmpty then true
    else
      numericLabel (untilDot rest).1 &&
        match (untilDot rest).2 with
        | none => true
        | some rest => numericLabels fuel rest

def hostLabel (label : List UInt8) : Bool :=
  !label.isEmpty && label.length ≤ 63 && label.head? ≠ some 45 && label.getLast? ≠ some 45 &&
    label.all fun c => (97 ≤ c && c ≤ 122) || (65 ≤ c && c ≤ 90) || isDigit c || c = 45

def hostLabels : Nat → List UInt8 → Bool
  | 0, _ => false
  | fuel + 1, text =>
    if text.isEmpty then false
    else
      hostLabel (untilDot text).1 &&
        match (untilDot text).2 with
        | none => true
        | some rest => hostLabels fuel rest

def validTimeServer (text : List UInt8) : Bool :=
  if ipv4 text then true
  else if text.isEmpty ∨ 253 < text.length ∨ numericLabels (text.length + 1) text then false
  else
    let text := if text.getLast? = some 46 then text.dropLast else text
    hostLabels (text.length + 1) text

def validWifiCredentials (ssid password timeServer : List UInt8) : Bool :=
  printable ssid 1 32 && printable password 8 63 && validTimeServer timeServer

end WsprryPico.Standalone
