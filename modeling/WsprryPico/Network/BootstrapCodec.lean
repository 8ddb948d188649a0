import WsprryPico.Wtp.Json

/-!
# Bytes as text

`bootstrap_hex`, `bootstrap_b64url` and what reads them back, of `network/bootstrap_codec.cpp`.
-/

namespace WsprryPico.Network

open Lib Wtp.Json

def hexDigits : Bytes := ascii "0123456789abcdef"
def b64Digits : Bytes := ascii "ABCDEFGHIJKLMNOPQRSTUVWXYZabcdefghijklmnopqrstuvwxyz0123456789-_"

def hexValue (c : UInt8) : Option UInt8 :=
  if 48 ≤ c ∧ c ≤ 57 then some (c - 48) else if 97 ≤ c ∧ c ≤ 102 then some (c - 87) else none

def b64Value (c : UInt8) : Option Nat := b64Digits.idxOf? c

def bootstrapHex (bytes : Bytes) : Bytes :=
  bytes.flatMap fun byte : UInt8 =>
    [hexDigits.getD (byte >>> 4).toNat 0, hexDigits.getD (byte &&& 15).toNat 0]

def unhexFrom : Bytes → Option Bytes
  | [] => some []
  | high :: low :: rest =>
    match hexValue high, hexValue low, unhexFrom rest with
    | some high, some low, some bytes => some ((high * 16 + low) :: bytes)
    | _, _, _ => none
  | [_] => none

def bootstrapUnhex (size : Nat) (text : Bytes) : Option Bytes :=
  if text.length ≠ size * 2 then none else unhexFrom text

def bootstrapB64url : Bytes → Bytes
  | [] => []
  | [a] => [digit (a >>> 2).toNat, digit ((a &&& 3) <<< 4).toNat]
  | [a, b] =>
    [digit (a >>> 2).toNat, digit (((a &&& 3) <<< 4) ||| (b >>> 4)).toNat,
      digit ((b &&& 15) <<< 2).toNat]
  | a :: b :: c :: rest =>
    digit (a >>> 2).toNat :: digit (((a &&& 3) <<< 4) ||| (b >>> 4)).toNat ::
      digit (((b &&& 15) <<< 2) ||| (c >>> 6)).toNat :: digit (c &&& 63).toNat ::
      bootstrapB64url rest
where
  digit (value : Nat) : UInt8 := b64Digits.getD value 0

/-- The loop of `bootstrap_unb64url`, with the bits it holds. -/
def unb64From (bits held : Nat) : Bytes → Option (Nat × Bytes)
  | [] => some (held, [])
  | c :: rest =>
    match b64Value c with
    | none => none
    | some value =>
      let held := (held <<< 6) ||| value
      let bits := bits + 6
      if 8 ≤ bits then
        let bits := bits - 8
        (unb64From bits (held % 2 ^ bits) rest).map fun (left, bytes) =>
          (left, UInt8.ofNat (held >>> bits) :: bytes)
      else unb64From bits held rest

def bootstrapUnb64url (minimum maximum : Nat) (text : Bytes) : Option Bytes :=
  if text.isEmpty ∨ text.length % 4 = 1 ∨ text.length * 3 / 4 < minimum ∨
      maximum < text.length * 3 / 4 then none
  else
    match unb64From 0 0 text with
    | none => none
    | some (held, bytes) =>
      if held ≠ 0 ∨ bytes.length < minimum ∨ maximum < bytes.length ∨
          bootstrapB64url bytes ≠ text then none
      else some bytes

end WsprryPico.Network
