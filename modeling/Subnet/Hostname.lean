import Subnet.Nameserver
import Subnet.Query
import Subnet.Text.Lowercase

/-!
# Hostnames — reverse lookup through a resolver

    A resolver is asked for the names of an address text.  The first name, in
    lower case, is the hostname; a failure is logged and means that there is
    none.
-/

namespace Subnet

/-- What a resolver says about an address text. -/
inductive Resolution where
  | names (names : List String)
  | failed (reason : String)

/-- A resolver: the names of an address text. -/
abbrev Resolver := String → Resolution

/-- A nameserver that a resolver does not take. -/
structure RefusedServer where
  text : String
  deriving DecidableEq

namespace Hostname

/-- Asks the resolver once for the address as it is written canonically. -/
def reverse (resolve : Resolver) : Lookup := fun a =>
  let text := a.text
  match resolve text with
  | .names names => ⟨names.head?.map Text.lower, [text], []⟩
  | .failed reason =>
      ⟨none, [text], ["Reverse lookup for " ++ text ++ " failed: " ++ reason]⟩

/-- The lists of nameservers handed to a resolver before it is asked: an empty
    list leaves it as it is. -/
def serverLists (servers : List String) : List (List String) :=
  if servers = [] then [] else [servers]

/-- The lookup through a resolver that is told the nameservers first. -/
def viaServers (servers : List String) (resolve : Resolver) : Except RefusedServer Lookup :=
  match servers.find? fun s => !Nameserver.isUsable s with
  | some s => .error ⟨s⟩
  | none => .ok (reverse resolve)

end Hostname

end Subnet
