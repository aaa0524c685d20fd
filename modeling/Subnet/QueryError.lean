import Subnet.Binary64.Shortest
import Subnet.Family

/-!
# Query errors — the reasons a question about an address has no answer

    Each constructor is one cause.  Its wording, its kind and the piece of
    input it quotes are functions of the cause.
-/

namespace Subnet

/-- Why a question has no answer. -/
inductive QueryError where
  /-- A text is no address of its family. -/
  | malformedAddress (family : Family) (text : String)
  /-- A netmask text is no address of its family. -/
  | malformedNetmask (text : String)
  /-- A number is no prefix length of the family. -/
  | invalidLength (family : Family) (number : Binary64)
  /-- What follows the slash is neither a prefix length nor a netmask. -/
  | malformedSuffix (text : String)
  /-- A netmask is not a run of leading ones; its canonical text is kept. -/
  | nonContiguous (text : String)
  /-- Both a prefix length and a netmask were given. -/
  | ambiguous
  /-- Neither was given where one is needed. -/
  | missingLength
  /-- No hostname was found for the address text. -/
  | hostnameUnavailable (text : String)
  deriving DecidableEq

/-- The classes under which causes are reported. -/
inductive QueryErrorKind where
  | malformedAddress
  | invalidLength
  | nonContiguousMask
  | ambiguousInput
  | missingLength
  | hostnameUnavailable
  deriving DecidableEq

namespace QueryError

/-- The class a cause is reported under. -/
def kind : QueryError → QueryErrorKind
  | malformedAddress .. => .malformedAddress
  | malformedNetmask _ => .malformedAddress
  | invalidLength .. => .invalidLength
  | malformedSuffix _ => .invalidLength
  | nonContiguous _ => .nonContiguousMask
  | ambiguous => .ambiguousInput
  | missingLength => .missingLength
  | hostnameUnavailable _ => .hostnameUnavailable

/-- The piece of input a cause quotes. -/
def input? : QueryError → Option String
  | malformedAddress _ text => some text
  | malformedNetmask text => some text
  | invalidLength _ number => some number.text
  | malformedSuffix text => some text
  | nonContiguous text => some text
  | ambiguous => none
  | missingLength => none
  | hostnameUnavailable text => some text

/-- The wording of a cause. -/
def message : QueryError → String
  | malformedAddress f text => "bad " ++ f.name ++ " address: " ++ text
  | malformedNetmask text => "bad netmask: " ++ text
  | invalidLength f number => "bad " ++ f.name ++ " prefix: " ++ number.text
  | malformedSuffix text => "bad prefix: " ++ text
  | nonContiguous text => "bad netmask: " ++ text ++ " is not contiguous"
  | ambiguous => "both netmask and prefix specified"
  | missingLength => "netmask or prefix expected"
  | hostnameUnavailable text => "cannot find hostname for " ++ text

end QueryError

end Subnet
