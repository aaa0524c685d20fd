import Subnet.Netmask

/-!
# Networks — the block of an address, its hosts and their number

    IPv4 sets the first and the last address of a block aside up to length 30;
    a block of one or two addresses, and every IPv6 block, sets none aside.
-/

namespace Subnet

/-- A block of addresses with its hosts. -/
structure Network where
  mask : Address
  base : Address
  /-- The last address, where the family has a broadcast address. -/
  broadcast : Option Address
  firstHost : Address
  lastHost : Address
  deriving DecidableEq

namespace Network

/-- The block of prefix length `n` that an address lies in.  The one host of an
    IPv6 block of full length is taken from its base. -/
def containing (a : Address) (n : Nat) : Network :=
  let mask := Netmask.ofLength a.family n
  let base := a.land mask
  let last := base.lor mask.complement
  match a.family with
  | .v6 => ⟨mask, base, none, base, if n < 128 then last else base⟩
  | .v4 =>
      if n ≤ 30 then ⟨mask, base, some last, base.offset 1, last.offset (-1)⟩
      else ⟨mask, base, some last, base, last⟩

/-- The block of an address and a number that is a prefix length. -/
def ofNumber (a : Address) (x : Binary64) : Except QueryError Network :=
  (Netmask.checkLength a.family x).map (containing a)

/-! ## Number of hosts -/

/-- The number of hosts of a block of prefix length `n`. -/
def hostCount (f : Family) (n : Nat) : Nat :=
  let total := 1 <<< (f.width - n)
  if f = .v4 ∧ n ≤ 30 then total - 2 else total

/-- From this exponent on an IPv6 host count is written as a power of two. -/
def exactBits : Nat := 64

/-- The text of the number of hosts of a block of prefix length `n`. -/
def hostCountText (f : Family) (n : Nat) : String :=
  let exponent := f.width - n
  if f = .v6 ∧ exactBits ≤ exponent then "2^(" ++ toString exponent ++ ")"
  else toString (hostCount f n)

/-! ## Unchecked numbers

The same counts for a number that need not be a prefix length. -/

/-- Why a number has no host count: the exponent is not an integer, or the
    power is too large to be held. -/
inductive CountError where
  | notAnInteger
  | tooLarge
  deriving DecidableEq

/-- Powers of two from this exponent on are too large to be held. -/
def exponentLimit : Int := 1073741824

/-- The host count of an arbitrary number: a negative exponent gives no
    addresses at all. -/
def hostCountOfNumber (f : Family) (x : Binary64) : Except CountError Int :=
  match (x.subFrom f.width).toInt? with
  | none => .error .notAnInteger
  | some exponent =>
      if exponentLimit ≤ exponent then .error .tooLarge
      else
        let total : Int := if exponent < 0 then 0 else ((1 <<< exponent.toNat : Nat) : Int)
        .ok (if f = .v4 ∧ x.atMost 30 then total - 2 else total)

/-- The text of the host count of an arbitrary number. -/
def hostCountTextOfNumber (f : Family) (x : Binary64) : Except CountError String :=
  let exponent := x.subFrom f.width
  if f = .v6 ∧ exponent.atLeast exactBits then .ok ("2^(" ++ exponent.text ++ ")")
  else (hostCountOfNumber f x).map toString

end Network

end Subnet
