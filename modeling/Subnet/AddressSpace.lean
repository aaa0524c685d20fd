import Subnet.Address.Octets

/-!
# Address spaces — what an address is set aside for

    Each family has a table of rules.  A rule tests the leading octets of an
    address from left to right, one by one or two at a time as a word; the first
    rule that matches gives the label, so the order matters where blocks overlap.
-/

namespace Subnet.AddressSpace

/-- A test of the next octets of an address. -/
inductive OctetTest where
  /-- The bits of an octet under the mask have the given value. -/
  | octet (mask value : UInt8)
  /-- An octet lies in a range, both ends included. -/
  | range (low high : UInt8)
  /-- The bits of a big-endian word under the mask have the given value. -/
  | word (mask value : UInt16)

/-- A rule: the label of the addresses whose leading octets pass the tests. -/
structure Rule where
  label : String
  tests : List OctetTest

namespace OctetTest

/-- How many octets the test reads. -/
def size : OctetTest → Nat
  | octet _ _ => 1
  | range _ _ => 1
  | word _ _ => 2

/-- The octets that the test reads pass it. -/
def passes : OctetTest → List UInt8 → Bool
  | octet mask value, [o] => o &&& mask = value
  | range low high, [o] => low ≤ o ∧ o ≤ high
  | word mask value, [o, p] => UInt16.ofNat (o.toNat * 256 + p.toNat) &&& mask = value
  | _, _ => false

end OctetTest

/-- The leading octets pass their tests. -/
def passAll : List OctetTest → List UInt8 → Bool
  | [], _ => true
  | t :: ts, os => t.passes (os.take t.size) && passAll ts (os.drop t.size)

/-- The rule matches the address. -/
def Rule.matchesAddress (r : Rule) (a : Address) : Bool :=
  passAll r.tests a.octets

/-- Octets to be met exactly. -/
def exactly (os : List UInt8) : List OctetTest :=
  os.map (.octet 0xff)

/-- Zero octets to be met exactly. -/
def zeros (count : Nat) : List UInt8 :=
  List.replicate count 0

/-- The IPv4 rules. -/
def rules4 : List Rule :=
  [ ⟨"This host on this network", exactly [0]⟩,
    ⟨"Private Use", exactly [10]⟩,
    ⟨"Shared Address Space", exactly [100] ++ [.octet 0xc0 64]⟩,
    ⟨"Loopback", exactly [127]⟩,
    ⟨"Link Local", exactly [169, 254]⟩,
    ⟨"Private Use", exactly [172] ++ [.octet 0xf0 16]⟩,
    ⟨"IETF Protocol Assignments", exactly [192, 0, 0]⟩,
    ⟨"Documentation (TEST-NET-1)", exactly [192, 0, 2]⟩,
    ⟨"Documentation (TEST-NET-2)", exactly [198, 51, 100]⟩,
    ⟨"Documentation (TEST-NET-3)", exactly [203, 0, 113]⟩,
    ⟨"6 to 4 Relay Anycast (Deprecated)", exactly [192, 88, 99]⟩,
    ⟨"AMT", exactly [192, 52, 193]⟩,
    ⟨"Private Use", exactly [192, 168]⟩,
    ⟨"Limited Broadcast", exactly [255, 255, 255, 255]⟩,
    ⟨"Private Use", exactly [192] ++ [.octet 0xfe 18]⟩,
    ⟨"Multicast", [.range 224 239]⟩,
    ⟨"Reserved", [.octet 0xf0 240]⟩ ]

/-- The IPv6 rules.  The last one is shadowed by `Global Unicast`. -/
def rules6 : List Rule :=
  [ ⟨"Loopback Address", exactly (zeros 15 ++ [1])⟩,
    ⟨"Unspecified Address", exactly (zeros 16)⟩,
    ⟨"IPv4-mapped Address", exactly (zeros 10 ++ [0xff, 0xff])⟩,
    ⟨"IPv4-IPv6 Translat.", exactly ([0x00, 0x64, 0xff, 0x9b] ++ zeros 8)⟩,
    ⟨"Discard-Only Address Block", exactly ([0x01] ++ zeros 7)⟩,
    ⟨"IETF Protocol Assignments", [.word 0xffff 0x2001, .word 0xffff 0]⟩,
    ⟨"Global Unicast", [.octet 0xe0 0x20]⟩,
    ⟨"Unique Local Unicast", [.octet 0xfe 0xfc]⟩,
    ⟨"Link-Scoped Unicast", [.word 0xffc0 0xfe80]⟩,
    ⟨"Multicast", exactly [0xff]⟩,
    ⟨"6to4", [.word 0xffff 0x2002]⟩ ]

/-- The rules of a family. -/
def rules : Family → List Rule
  | .v4 => rules4
  | .v6 => rules6

/-- The label of an address that no rule matches. -/
def defaultLabel : Family → String
  | .v4 => "Internet or Reserved for Future use"
  | .v6 => "Reserved"

/-- The labels of all rules that match, in table order. -/
def matching (a : Address) : List String :=
  ((rules a.family).filter fun r => r.matchesAddress a).map Rule.label

/-- The label of the first rule that matches. -/
def classify (a : Address) : String :=
  match (rules a.family).find? fun r => r.matchesAddress a with
  | some r => r.label
  | none => defaultLabel a.family

/-- Every label of a family, the default one last. -/
def labels (f : Family) : List String :=
  (rules f).map Rule.label ++ [defaultLabel f]

end Subnet.AddressSpace
