import Subnet.AddressSpace
import Subnet.Cidr
import Subnet.Network
import Subnet.Record

/-!
# Queries — from an address text to a complete record or one error

    A query names an address and at most one of a prefix length and a netmask.
    `calculate` answers it alone; `answer` also asks for the hostname where the
    fields want it.  Log messages are collected, never written here.
-/

namespace Subnet

/-- A question about an address. -/
structure Query where
  address : String
  /-- Overrides the family that the text suggests. -/
  family : Option Family
  prefixLength : Option Binary64
  netmask : Option String
  fields : List Field
  /-- The prefix length of an IPv4 address defaults to that of its class. -/
  classful : Bool
  /-- Errors are not logged. -/
  silent : Bool

/-- What a hostname lookup came to: the name, if there is one, the texts put to
    a resolver, and log messages. -/
structure Reply where
  name : Option String
  asked : List String
  logs : List String
  deriving DecidableEq

/-- A way to find the hostname of an address. -/
abbrev Lookup := Address → Reply

/-- What a query came to: its result, the addresses a lookup was called with,
    the texts put to a resolver, and log messages. -/
structure Answer where
  result : Except QueryError Record
  calls : List Address
  asked : List String
  logs : List String

namespace Query

/-- The family the address text is read in. -/
def effectiveFamily (q : Query) : Family :=
  q.family.getD (Family.detect q.address)

/-- A prefix length or a netmask was given. -/
def hasMask (q : Query) : Bool :=
  q.prefixLength.isSome || q.netmask.isSome

/-- The field means nothing for an implied block of one IPv4 address. -/
def needsMask : Field → Bool
  | .broadcast => true
  | .network => true
  | .prefixLength => true
  | _ => false

/-- The text that is parsed: an IPv4 shorthand is completed if a mask was
    given. -/
def addressText (q : Query) : String :=
  if q.effectiveFamily = .v4 ∧ q.hasMask then Cidr.padShorthand q.address else q.address

/-- The prefix length of a query: that of the netmask, the given one, that of
    the address class, or the whole width. -/
def resolveLength (q : Query) (a : Address) : Except QueryError Nat :=
  match q.netmask, q.prefixLength with
  | some mask, _ => Netmask.lengthOfText mask a.family
  | none, some number => Netmask.checkLength a.family number
  | none, none =>
      if a.family = .v4 ∧ q.classful then .ok (Netmask.classfulLength a) else .ok a.family.width

/-- The record of an address, a prefix length and the block of that length. -/
def record (q : Query) (a : Address) (n : Nat) (block : Network) : Record :=
  let sixOnly (text : String) : Option String := if a.family = .v6 then some text else none
  { family := a.family
    address := q.address
    expandedAddress := sixOnly a.expanded
    netmask := block.mask.text
    prefixLength := n
    network := block.base.text
    expandedNetwork := sixOnly block.base.expanded
    broadcast := block.broadcast.map Address.text
    hostMin := block.firstHost.text
    hostMax := block.lastHost.text
    hostCount := Network.hostCountText a.family n
    addressSpace := AddressSpace.classify block.base
    hostname := none }

/-- The parsed address and its record, or the first error in a fixed order:
    both masks, no mask where one is needed, the address, the mask.  The block
    checks the resolved length once more. -/
def assemble (q : Query) : Except QueryError (Address × Record) :=
  let f := q.effectiveFamily
  if q.prefixLength.isSome ∧ q.netmask.isSome then .error .ambiguous
  else if f = .v4 ∧ !q.hasMask ∧ !q.classful ∧ q.fields.any needsMask then
    .error .missingLength
  else
    match Address.parse q.addressText f with
    | .error e => .error e
    | .ok a =>
        match q.resolveLength a with
        | .error e => .error e
        | .ok n => (Network.ofNumber a (.ofNat n)).map fun block => (a, q.record a n block)

/-- The record of a query, without a hostname. -/
def calculate (q : Query) : Except QueryError Record :=
  q.assemble.map Prod.snd

/-- The log messages of a failure. -/
def report (q : Query) (e : QueryError) : List String :=
  if q.silent then [] else [q.address ++ ": " ++ e.message]

/-- The answer of a query that asks for no hostname. -/
def answerAlone (q : Query) : Answer :=
  match q.calculate with
  | .ok r => ⟨.ok r, [], [], []⟩
  | .error e => ⟨.error e, [], [], q.report e⟩

/-- The answer of a query.  When the fields want the hostname, the lookup is
    called once; without a lookup, or with an empty name, the query fails. -/
def answer (q : Query) (lookup : Option Lookup) : Answer :=
  match q.assemble with
  | .error e => ⟨.error e, [], [], q.report e⟩
  | .ok (a, r) =>
      if .hostname ∉ q.fields then ⟨.ok r, [], [], []⟩
      else
        let calls := if lookup.isSome then [a] else []
        let reply := match lookup with
          | some find => find a
          | none => ⟨none, [], []⟩
        match reply.name with
        | some name =>
            if name = "" then
              let e := QueryError.hostnameUnavailable q.address
              ⟨.error e, calls, reply.asked, reply.logs ++ q.report e⟩
            else ⟨.ok { r with hostname := some name }, calls, reply.asked, reply.logs⟩
        | none =>
            let e := QueryError.hostnameUnavailable q.address
            ⟨.error e, calls, reply.asked, reply.logs ++ q.report e⟩

end Query

end Subnet
