import Subnet.Address.Basic
import Subnet.Radix

/-!
# Octets and words — an address as it travels on the wire

    `octets` and `ofOctets` convert between an address and its big-endian
    octets; `words` pairs the octets into 16-bit words, the groups of the IPv6
    notation.
-/

namespace Subnet.Address

/-- The big-endian octets: four for IPv4, sixteen for IPv6. -/
def octets (a : Address) : List UInt8 :=
  (Radix.digits 256 a.family.octetCount a.value).map UInt8.ofNat

/-- The address of big-endian octets; of more octets than an address has the
    last ones count. -/
def ofOctets (f : Family) (os : List UInt8) : Address :=
  ofNat f (Radix.value 256 (os.map UInt8.toNat))

/-- Two octets at a time, the first the more significant. -/
def pairOctets : List UInt8 → List UInt16
  | high :: low :: rest => UInt16.ofNat (high.toNat * 256 + low.toNat) :: pairOctets rest
  | _ => []

/-- The big-endian 16-bit words: two for IPv4, eight for IPv6. -/
def words (a : Address) : List UInt16 :=
  pairOctets a.octets

/-- The IPv6 address of big-endian 16-bit words. -/
def ofWords (ws : List UInt16) : Address :=
  ofNat .v6 (Radix.value 65536 (ws.map UInt16.toNat))

/-- An address has as many octets as its family says. -/
@[simp] theorem length_octets (a : Address) : a.octets.length = a.family.octetCount := by
  simp [octets]

end Subnet.Address
