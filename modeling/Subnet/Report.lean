import Subnet.Record
import Subnet.Text.Style

/-!
# Reports — a record as lines of text

    The information block is for reading: a label, a tab and a value a line.
    Field lines are for scripts: `KEY=value`, in a fixed order.  An optional
    text that is empty counts as missing.
-/

namespace Subnet.Record

/-- An optional text, unless it is empty. -/
def present? : Option String → Option String
  | some text => if text = "" then none else some text
  | none => none

/-- The record stands for a single address. -/
def isSingleHost (r : Record) : Bool :=
  r.prefixLength == r.family.width

/-- A label and a value. -/
def infoLine (colour : Bool) (label value : String) : String :=
  Text.Style.bold.paint colour (label ++ ":") ++ "\t" ++ value

/-- A label and a value, unless the value is missing. -/
def infoLine? (colour : Bool) (label : String) (value : Option String) : List String :=
  ((present? value).map (infoLine colour label)).toList

/-- The information block. -/
def infoLines (r : Record) (colour : Bool) : List String :=
  let line := infoLine colour
  let line? := infoLine? colour
  let length := toString r.prefixLength
  line? "Full Address" r.expandedAddress ++
  [line "Address" r.address] ++
  line? "Hostname" r.hostname ++
  if r.isSingleHost then [line "Address space" r.addressSpace]
  else
    [line "Netmask" (r.netmask ++ " = " ++ length)] ++
    line? "Full Network" r.expandedNetwork ++
    [ line "Network" (r.network ++ "/" ++ length),
      line "Address space" r.addressSpace ] ++
    line? "Broadcast" r.broadcast ++
    [ "",
      line "HostMin" r.hostMin,
      line "HostMax" r.hostMax,
      line "Hosts/Net" r.hostCount ]

/-- The fields in the order of their lines. -/
def fieldOrder : List Field :=
  [ .netmask, .prefixLength, .broadcast, .network, .hostMin, .hostMax, .addressSpace,
    .hostname ]

/-- The line of a field, unless the record does not have it. -/
def fieldLine? (r : Record) : Field → Option String
  | .netmask => some ("NETMASK=" ++ r.netmask)
  | .prefixLength => some ("PREFIX=" ++ toString r.prefixLength)
  | .broadcast => (present? r.broadcast).map ("BROADCAST=" ++ ·)
  | .network => some ("NETWORK=" ++ r.network)
  | .hostMin => some ("MINADDR=" ++ r.hostMin)
  | .hostMax => some ("MAXADDR=" ++ r.hostMax)
  | .addressSpace => some ("ADDRSPACE=\"" ++ r.addressSpace ++ "\"")
  | .hostname => (present? r.hostname).map ("HOSTNAME=" ++ ·)

/-- The lines of the wanted fields. -/
def fieldLines (r : Record) (wanted : List Field) : List String :=
  (fieldOrder.filter (· ∈ wanted)).filterMap r.fieldLine?

end Subnet.Record
