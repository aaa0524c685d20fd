import Subnet.QueryError

/-!
# Usage errors — operands and switches that make no query
-/

namespace Subnet.Cli

/-- Why switches and operands make no query. -/
inductive UsageError where
  /-- No operand, or an empty one, stands where the address belongs. -/
  | missingAddress
  /-- Both families were asked for. -/
  | conflictingFamilies
  /-- What follows the slash of the address cannot be read. -/
  | unreadableSuffix (cause : QueryError)
  /-- A netmask follows an address that already has one. -/
  | secondNetmask
  /-- An operand means nothing. -/
  | unexpectedOperand (text : String)
  deriving DecidableEq

namespace UsageError

/-- The wording of a cause. -/
def message : UsageError → String
  | missingAddress => "ip address expected"
  | conflictingFamilies => "cannot combine --ipv4 and --ipv6"
  | unreadableSuffix cause => cause.message
  | secondNetmask => QueryError.ambiguous.message
  | unexpectedOperand text => "unexpected argument: " ++ text

/-- The usage text follows the message. -/
def showsHelp : UsageError → Bool
  | missingAddress => true
  | conflictingFamilies => false
  | unreadableSuffix _ => false
  | secondNetmask => true
  | unexpectedOperand _ => true

end UsageError

end Subnet.Cli
