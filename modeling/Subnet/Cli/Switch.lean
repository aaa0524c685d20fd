/-!
# Switches — the options of the command line and their order

    No option takes a value.  The listing order is that of the help text.
-/

namespace Subnet.Cli

/-- A switch of the command line. -/
inductive Switch where
  | version
  | check
  | info
  | ipv4
  | ipv6
  | broadcast
  | hostname
  | netmask
  | network
  | prefixLength
  | minaddr
  | maxaddr
  | addrspace
  | classful
  | silent
  deriving DecidableEq

/-- A switch with its one-letter name, its long name and its description. -/
structure SwitchSpec where
  switch : Switch
  short : Option Char
  long : String
  description : String

/-- The switches in listing order. -/
def switchSpecs : List SwitchSpec :=
  [ ⟨.version, some 'V', "version", "output the version number"⟩,
    ⟨.check, some 'c', "check", "Validate IP address"⟩,
    ⟨.info, some 'i', "info", "Print information on the provided IP address"⟩,
    ⟨.ipv4, some '4', "ipv4", "Treat the address as IPv4"⟩,
    ⟨.ipv6, some '6', "ipv6", "Treat the address as IPv6"⟩,
    ⟨.broadcast, some 'b', "broadcast", "Display calculated broadcast address"⟩,
    ⟨.hostname, some 'h', "hostname", "Show hostname determined via DNS"⟩,
    ⟨.netmask, some 'm', "netmask", "Display netmask for IP"⟩,
    ⟨.network, some 'n', "network", "Display network address"⟩,
    ⟨.prefixLength, some 'p', "prefix", "Display network prefix"⟩,
    ⟨.minaddr, none, "minaddr", "Display the minimum address in the network"⟩,
    ⟨.maxaddr, none, "maxaddr", "Display the maximum address in the network"⟩,
    ⟨.addrspace, none, "addrspace", "Display the address space the network resides on"⟩,
    ⟨.classful, none, "classful",
      "Default an IPv4 prefix from the address class (A, B or C)"⟩,
    ⟨.silent, some 's', "silent", "Don't ever display error messages"⟩ ]

/-- The long name of the request for help, which is no switch. -/
def helpName : String :=
  "help"

/-- The switch with a one-letter name. -/
def shortSwitch? (c : Char) : Option Switch :=
  (switchSpecs.find? fun s => s.short = some c).map SwitchSpec.switch

/-- The switch with a long name. -/
def longSwitch? (name : List Char) : Option Switch :=
  (switchSpecs.find? fun s => s.long.toList = name).map SwitchSpec.switch

/-- The switch that an argument spells exactly. -/
def exactSwitch? : List Char → Option Switch
  | ['-', c] => shortSwitch? c
  | '-' :: '-' :: name => longSwitch? name
  | _ => none

end Subnet.Cli
