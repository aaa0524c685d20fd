import Subnet.Cidr
import Subnet.Cli.Scan
import Subnet.Cli.UsageError
import Subnet.Config
import Subnet.Query
import Subnet.Report

/-!
# Requests — the query of a command line, and how its answer is shown

    The first operand is the address.  A second one is a netmask where switches
    give a netmask a meaning; any other operand is an error.
-/

namespace Subnet.Cli

/-- What a run depends on besides its arguments and the lookup. -/
structure Settings where
  config : Config
  /-- The texts go to a terminal. -/
  interactive : Bool
  /-- The configuration file, as help names it. -/
  configFile : String

/-- Output is coloured. -/
def Settings.colour (s : Settings) : Bool :=
  match s.config.color with
  | .always => true
  | .never => false
  | .auto => s.interactive

/-- A query that remains to be answered, and how its answer is shown. -/
structure Request where
  query : Query
  /-- Only the exit code is wanted. -/
  checkOnly : Bool
  /-- The information block is wanted whatever the fields are. -/
  wantsInfo : Bool
  colour : Bool

namespace Request

/-! ## From switches and operands -/

/-- The switches that ask for a field, in the order of the field lines. -/
def fieldSwitches : List (Switch × Field) :=
  [ (.netmask, .netmask), (.prefixLength, .prefixLength), (.broadcast, .broadcast),
    (.network, .network), (.minaddr, .hostMin), (.maxaddr, .hostMax),
    (.addrspace, .addressSpace), (.hostname, .hostname) ]

/-- The fields that switches ask for. -/
def fieldsOf (switches : List Switch) : List Field :=
  (fieldSwitches.filter fun (s, _) => s ∈ switches).map Prod.snd

/-- The family that switches and the address suggest. -/
def familyOf (switches : List Switch) (address : String) : Family :=
  if .ipv6 ∈ switches then .v6
  else if .ipv4 ∈ switches then .v4
  else Family.detect address

/-- A netmask may stand as an operand of its own. -/
def takesNetmask (f : Family) (switches : List Switch) : Bool :=
  f = .v4 ∧ (.broadcast ∈ switches ∨ .network ∈ switches ∨ .prefixLength ∈ switches)

/-- The netmask that counts, of the suffix of the address and the operands after
    it. -/
def netmaskOf (takes : Bool) (suffix : Option String) :
    List String → Except UsageError (Option String)
  | [] => .ok suffix
  | operand :: rest =>
      if !takes then .error (.unexpectedOperand operand)
      else if suffix.isSome then .error .secondNetmask
      else
        match rest with
        | [] => .ok (some operand)
        | extra :: _ => .error (.unexpectedOperand extra)

/-- The request of an address, switches and the operands after the address. -/
def ofAddress (s : Settings) (silent : Bool) (switches : List Switch) (address : String)
    (rest : List String) : Except UsageError Request :=
  let f := familyOf switches address
  match Cidr.split address f with
  | .error cause => .error (.unreadableSuffix cause)
  | .ok parts =>
      (netmaskOf (takesNetmask f switches) parts.suffix.netmask? rest).map fun netmask =>
        { query := {
            address := parts.address
            family := some f
            prefixLength := parts.suffix.length?
            netmask := netmask
            fields := fieldsOf switches
            classful := decide (.classful ∈ switches) || s.config.classful
            silent := silent }
          checkOnly := .check ∈ switches
          wantsInfo := .info ∈ switches
          colour := s.colour }

/-- The request of switches and operands. -/
def ofOperands (s : Settings) (silent : Bool) (switches : List Switch) :
    List String → Except UsageError Request
  | [] => .error .missingAddress
  | address :: rest =>
      if address = "" then .error .missingAddress
      else if .ipv4 ∈ switches ∧ .ipv6 ∈ switches then .error .conflictingFamilies
      else ofAddress s silent switches address rest

/-! ## Showing the answer -/

/-- The request wants a hostname. -/
def wantsHostname (r : Request) : Bool :=
  .hostname ∈ r.query.fields

/-- The lines that show a record. -/
def lines (r : Request) (record : Record) : List String :=
  if r.wantsInfo ∨ r.query.fields = [] then record.infoLines r.colour
  else record.fieldLines r.query.fields

/-- The text that shows a record. -/
def resultText (r : Request) (record : Record) : String :=
  match r.lines record with
  | [] => ""
  | lines => "\n".intercalate lines ++ "\n"

end Request

end Subnet.Cli
