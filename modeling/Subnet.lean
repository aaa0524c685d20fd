import Subnet.Address.Basic
import Subnet.Address.Octets
import Subnet.Address.Parser
import Subnet.Address.Printer
import Subnet.AddressSpace
import Subnet.Binary64.Basic
import Subnet.Binary64.Decimal
import Subnet.Binary64.Shortest
import Subnet.Cidr
import Subnet.Cli.Help
import Subnet.Cli.Program
import Subnet.Cli.Request
import Subnet.Cli.Run
import Subnet.Cli.Scan
import Subnet.Cli.Suggestion
import Subnet.Cli.Switch
import Subnet.Cli.UsageError
import Subnet.Config
import Subnet.Diagnostics
import Subnet.Environment
import Subnet.Family
import Subnet.Hostname
import Subnet.Json.Basic
import Subnet.Json.Key
import Subnet.Json.Printer
import Subnet.Json.Reader
import Subnet.Main
import Subnet.Nameserver
import Subnet.Netmask
import Subnet.Network
import Subnet.Numeral
import Subnet.Path
import Subnet.Proofs.AddressGrammar
import Subnet.Proofs.AddressRoundTrip
import Subnet.Proofs.Assignments
import Subnet.Proofs.BlockMembers
import Subnet.Proofs.Blocks
import Subnet.Proofs.CanonicalText
import Subnet.Proofs.Digits
import Subnet.Proofs.Documents
import Subnet.Proofs.Entries
import Subnet.Proofs.Interchange
import Subnet.Proofs.Masks
import Subnet.Proofs.Numbers
import Subnet.Proofs.Numerals
import Subnet.Proofs.Outcomes
import Subnet.Proofs.Precedence
import Subnet.Proofs.Readings
import Subnet.Proofs.Records
import Subnet.Proofs.SameBlock
import Subnet.Proofs.ZeroRuns
import Subnet.Query
import Subnet.QueryError
import Subnet.Radix
import Subnet.Record
import Subnet.Report
import Subnet.Text.Blank
import Subnet.Text.Cased
import Subnet.Text.Lowercase
import Subnet.Text.Style
import Subnet.Text.Units
import Subnet.Text.Utf8
import Subnet.Proofs.Arguments
import Subnet.Proofs.Endings
import Subnet.Proofs.Silence
import Subnet.Proofs.Answers
import Subnet.Proofs.Nameservers
import Subnet.Proofs.NameserverAddresses
import Subnet.Proofs.ServerSettings
import Subnet.Proofs.Lookups
import Subnet.Proofs.ArgumentOrder
import Subnet.Proofs.Suffixes
import Subnet.Proofs.Requests
import Subnet.Proofs.FamilySwitches
import Subnet.Proofs.MaskSpellings
import Subnet.Proofs.Feedback
import Subnet.Proofs.Nesting
import Subnet.Proofs.MaskedTests
import Subnet.Proofs.Registry
import Subnet.Proofs.Specificity
import Subnet.Proofs.HostLabels
import Subnet.Proofs.ContiguousMasks
import Subnet.Proofs.DottedTexts
import Subnet.Proofs.NameserverPatterns
import Subnet.Proofs.WrittenLengths
import Subnet.Proofs.SettingsFiles
import Subnet.Proofs.QuotedSettings
import Subnet.Proofs.TrailingBlanks
import Subnet.Proofs.ServerLists
import Subnet.Proofs.MappedAddresses
import Subnet.Proofs.TextUnits
import Subnet.Proofs.DocumentTexts
import Subnet.Proofs.DocumentFaults
import Subnet.Proofs.FixedWidth
import Subnet.Proofs.AddressClasses
import Subnet.Proofs.Operands
import Subnet.Proofs.Hostnames
import Subnet.Proofs.FieldEntries
import Subnet.Proofs.Octets
import Subnet.Proofs.Colour
