import Subnet.Address.Parser
import Subnet.Address.Printer
import Subnet.QueryError

/-!
# Netmasks — a run of leading ones, and its length

    A prefix length in range and the mask with that many leading ones determine
    each other, except that the all-zero mask is not read back.
-/

namespace Subnet.Netmask

/-- The mask of `n` leading ones. -/
def ofLength (f : Family) (n : Nat) : Address :=
  Address.ofNat f (f.allOnes <<< (f.width - n))

/-- A number as a prefix length: an integer from the family's least length to
    its width. -/
def checkLength (f : Family) (x : Binary64) : Except QueryError Nat :=
  match x.toNat? with
  | some n =>
      if f.minPrefixLength ≤ n ∧ n ≤ f.width then .ok n else .error (.invalidLength f x)
  | none => .error (.invalidLength f x)

/-- The mask of a number that is a prefix length. -/
def ofNumber (f : Family) (x : Binary64) : Except QueryError Address :=
  (checkLength f x).map (ofLength f)

/-- How many of the lowest `count` bits of `v` are set before the first clear
    one, from the top. -/
def leadingOnes : (count v : Nat) → Nat
  | 0, _ => 0
  | count + 1, v => if v.testBit count then leadingOnes count v + 1 else 0

/-- The prefix length of a mask; the all-zero mask, and any mask with a set bit
    after a clear one, is refused. -/
def length (m : Address) : Except QueryError Nat :=
  let n := leadingOnes m.family.width m.value
  if n = 0 ∨ m ≠ ofLength m.family n then .error (.nonContiguous m.text) else .ok n

/-- The prefix length of a netmask text. -/
def lengthOfText (text : String) (f : Family) : Except QueryError Nat :=
  match Address.parse? text f with
  | some m => length m
  | none => .error (.malformedNetmask text)

/-- The prefix length of the address class: A, B or C by the octet above the
    lowest 24 bits. -/
def classfulLength (a : Address) : Nat :=
  let octet := (a.value >>> 24) % 256
  if octet ≤ 127 then 8 else if octet ≤ 191 then 16 else 24

end Subnet.Netmask
