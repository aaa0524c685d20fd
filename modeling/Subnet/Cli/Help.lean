import Subnet.Cli.Switch
import Subnet.Diagnostics

/-!
# Help — the usage text

    Options are listed in two columns, the second one starting two blanks after
    the longest entry of the first.
-/

namespace Subnet.Cli

/-- The program's version. -/
def programVersion : String :=
  "0.1.0"

/-- A term and its description. -/
structure HelpItem where
  term : String
  description : String

/-- A switch as a help item. -/
def SwitchSpec.helpItem (s : SwitchSpec) : HelpItem :=
  match s.short with
  | some c => ⟨"-" ++ String.singleton c ++ ", --" ++ s.long, s.description⟩
  | none => ⟨"--" ++ s.long, s.description⟩

/-- The operands. -/
def argumentItems : List HelpItem :=
  [ ⟨"address", "address, optionally followed by /prefix or /netmask"⟩,
    ⟨"args", "IPv4 netmask (with -b, -n or -p)"⟩ ]

/-- The options, the request for help last. -/
def optionItems : List HelpItem :=
  switchSpecs.map SwitchSpec.helpItem ++ [⟨"-?, --" ++ helpName, "Show this help message"⟩]

/-- The width of the longest term. -/
def termWidth : Nat :=
  (argumentItems ++ optionItems).foldl
    (fun widest item => if widest < item.term.length then item.term.length else widest) 0

/-- An item in two columns. -/
def HelpItem.line (item : HelpItem) : String :=
  let gap := String.ofList (List.replicate (termWidth + 2 - item.term.length) ' ')
  "  " ++ item.term ++ gap ++ item.description

/-- The lines of the usage text. -/
def helpLines : List String :=
  [ "Usage: " ++ programName ++ " [options] [address] [args...]",
    "",
    "Calculate netmask, network, broadcast and host range of an IPv4 or IPv6 address",
    "",
    "Arguments:" ] ++
  argumentItems.map HelpItem.line ++
  [ "", "Options:" ] ++
  optionItems.map HelpItem.line

/-- The usage text. -/
def helpText : String :=
  "\n".intercalate helpLines ++ "\n"

/-- The closing remark of a help request. -/
def helpRemark (configFile : String) : String :=
  "\nDefaults are read from " ++ configFile ++ " and IPCALC_* environment variables.\n"

end Subnet.Cli
