/-!
# Address families — the two widths an address can have

    Everything that depends on the family alone: how many bits an address has,
    how many octets it is written in, its name in messages, and the shortest
    prefix length a network of that family may have.
-/

namespace Subnet

/-- The two address families. -/
inductive Family where
  | v4
  | v6
  deriving DecidableEq

namespace Family

/-- Number of bits of an address. -/
def width : Family → Nat
  | v4 => 32
  | v6 => 128

/-- Number of addresses: two to the power of the width. -/
def size (f : Family) : Nat :=
  Nat.pow 2 f.width

/-- The value with every bit set. -/
def allOnes (f : Family) : Nat :=
  f.size - 1

/-- Number of octets of an address. -/
def octetCount : Family → Nat
  | v4 => 4
  | v6 => 16

/-- The family's name in messages. -/
def name : Family → String
  | v4 => "IPv4"
  | v6 => "IPv6"

/-- The shortest accepted prefix length: an IPv4 network may be the whole
    space, an IPv6 network may not. -/
def minPrefixLength : Family → Nat
  | v4 => 0
  | v6 => 1

/-- The family a text must be read in: a colon occurs in IPv6 texts only. -/
def detect (text : String) : Family :=
  if ':' ∈ text.toList then v6 else v4

/-- No family is empty. -/
theorem size_pos (f : Family) : 0 < f.size := by
  cases f <;> decide

end Family

end Subnet
