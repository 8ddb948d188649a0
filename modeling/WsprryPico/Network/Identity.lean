import WsprryPico.Lib.Text

/-!
# Identities on the network

`network/identity.hpp`: the device id and the `.local` name of a device.
-/

namespace WsprryPico.Network

open Lib

def validDeviceId (device : List UInt8) : Bool :=
  device.length = 32 && device.all fun c => isDigit c || (97 ≤ c && c ≤ 102)

def lowered (c : UInt8) : UInt8 := if 65 ≤ c && c ≤ 90 then c + 32 else c

def canonicalLocalHostname (input : List UInt8) : Option (List UInt8) :=
  let input := if input.getLast? = some 46 then input.dropLast else input
  if input.length < 7 ∨ 69 < input.length then none
  else
    let name := input.map lowered
    if !(ascii ".local").isSuffixOf name then none
    else
      let label := name.take (name.length - 6)
      if label.isEmpty ∨ 63 < label.length ∨ label.head? = some 45 ∨ label.getLast? = some 45 then
        none
      else if label.all fun c => (97 ≤ c && c ≤ 122) || isDigit c || c = 45 then some name
      else none

def canonicalIpv4 (address : List UInt8) : Bool :=
  let octets := address.splitOn 46
  octets.length = 4 &&
    octets.all fun part =>
      !part.isEmpty && part.length ≤ 3 && (part.length ≤ 1 || part.head? ≠ some 48) &&
        part.all isDigit && numeral part ≤ 255

end WsprryPico.Network
