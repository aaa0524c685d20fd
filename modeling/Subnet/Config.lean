import Subnet.Environment
import Subnet.Json.Reader
import Subnet.Nameserver
import Subnet.Path

/-!
# Configuration — settings from a JSON file, overridden by the environment

    The file holds an object with four optional members.  The first fault of it
    is reported, then the first fault of the variables that override it.
-/

namespace Subnet

/-- When output is coloured. -/
inductive ColorMode where
  | auto
  | always
  | never
  deriving DecidableEq

namespace ColorMode

/-- The colour modes as messages list them. -/
def all : List ColorMode :=
  [auto, always, never]

/-- The name of a colour mode. -/
def name : ColorMode → String
  | auto => "auto"
  | always => "always"
  | never => "never"

/-- The colour mode a text names. -/
def ofName? (text : String) : Option ColorMode :=
  all.find? fun mode => mode.name = text

end ColorMode

/-- The settings of a run. -/
structure Config where
  silent : Bool
  color : ColorMode
  classful : Bool
  dnsServers : List String
  deriving DecidableEq

/-- What reading a configuration file came to. -/
inductive FileContents where
  | missing
  | unreadable (reason : String)
  | text (contents : String)

/-- What is wrong with a configuration document. -/
inductive ConfigIssue where
  /-- A value has the wrong type; the path leads to it. -/
  | wrongType (path : List String) (expected received : String)
  /-- A colour mode that does not exist. -/
  | unknownColor (text : String)
  /-- The nameserver at an index is no address. -/
  | badServer (index : Nat)
  /-- Keys that mean nothing. -/
  | unknownKeys (keys : List String)
  deriving DecidableEq

/-- Why no configuration could be loaded. -/
inductive ConfigError where
  | unreadable (file reason : String)
  | malformedJson (file : String)
  | invalid (file : String) (issue : ConfigIssue)
  | badVariable (name value : String)
  deriving DecidableEq

/-! ## Wording -/

namespace ConfigIssue

/-- The names of the colour modes as they are listed in messages. -/
def colorList : String :=
  " | ".intercalate (ColorMode.all.map fun mode => "'" ++ mode.name ++ "'")

/-- The path of an issue; the document itself has none. -/
def path : ConfigIssue → List String
  | wrongType path _ _ => path
  | unknownColor _ => ["color"]
  | badServer index => ["dnsServers", toString index]
  | unknownKeys _ => []

/-- What is wrong, without the place. -/
def detail : ConfigIssue → String
  | wrongType _ expected received => "Expected " ++ expected ++ ", received " ++ received
  | unknownColor text =>
      "Invalid enum value. Expected " ++ colorList ++ ", received '" ++ text ++ "'"
  | badServer _ => "Invalid ip"
  | unknownKeys keys =>
      "Unrecognized key(s) in object: " ++ ", ".intercalate (keys.map fun k => "'" ++ k ++ "'")

/-- What is wrong, and where. -/
def message (issue : ConfigIssue) : String :=
  let place := if issue.path = [] then "config" else ".".intercalate issue.path
  place ++ ": " ++ issue.detail

end ConfigIssue

namespace ConfigError

/-- The file or the variable at fault. -/
def source : ConfigError → String
  | unreadable file _ => file
  | malformedJson file => file
  | invalid file _ => file
  | badVariable name _ => name

/-- The wording of an error. -/
def message : ConfigError → String
  | unreadable file reason => "cannot read " ++ file ++ ": " ++ reason
  | malformedJson file => "invalid JSON in " ++ file ++ ": the text is no JSON document"
  | invalid file issue => "invalid config in " ++ file ++ ": " ++ issue.message
  | badVariable name value => "invalid value for " ++ name ++ ": " ++ value

end ConfigError

/-- What reading a directory as a file comes to. -/
def FileContents.directory : FileContents :=
  .unreadable "EISDIR: illegal operation on a directory, read"

namespace Config

/-- The settings when nothing is set. -/
def defaults : Config :=
  ⟨false, .auto, false, []⟩

/-! ## Location -/

/-- The variable that names the configuration directory. -/
def directoryVariable : String :=
  "IPCALC_CONFIG_DIR"

/-- The variable that names the home directory. -/
def homeVariable : String :=
  "HOME"

/-- The configuration directory: the variable's value as it stands, or a
    directory below the home directory. -/
def directory (env : Environment) (home : String) : String :=
  (env.nonempty? directoryVariable).getD (Path.join home ".ipcalc")

/-- The configuration file. -/
def file (env : Environment) (home : String) : String :=
  Path.join (directory env home) "config.json"

/-! ## Document -/

/-- A truth value, a missing one being false. -/
def readBool (key : String) : Option Json → Except ConfigIssue Bool
  | none => .ok false
  | some (.bool b) => .ok b
  | some v => .error (.wrongType [key] "boolean" v.typeName)

/-- A colour mode, a missing one being automatic. -/
def readColor : Option Json → Except ConfigIssue ColorMode
  | none => .ok .auto
  | some (.string text) =>
      match ColorMode.ofName? text with
      | some mode => .ok mode
      | none => .error (.unknownColor text)
  | some v => .error (.wrongType ["color"] ConfigIssue.colorList v.typeName)

/-- Nameservers, the first one at the given index. -/
def readServerList : (index : Nat) → List Json → Except ConfigIssue (List String)
  | _, [] => .ok []
  | index, .string text :: rest =>
      if Nameserver.isAccepted text then
        (readServerList (index + 1) rest).map (text :: ·)
      else .error (.badServer index)
  | index, v :: _ => .error (.wrongType ["dnsServers", toString index] "string" v.typeName)

/-- A list of nameservers, a missing one being empty. -/
def readServers : Option Json → Except ConfigIssue (List String)
  | none => .ok []
  | some (.array items) => readServerList 0 items
  | some v => .error (.wrongType ["dnsServers"] "array" v.typeName)

/-- The keys that mean something. -/
def knownKeys : List String :=
  ["silent", "color", "classful", "dnsServers"]

/-- The last value written at the key with a given text. -/
def member? (members : List (Json.Key × Json)) (name : String) : Option Json :=
  Json.lookup? members (.ofText name)

/-- The settings of a document, or its first issue: the known members in their
    order, then unknown keys. -/
def ofJson : Json → Except ConfigIssue Config
  | .object members => do
      let silent ← readBool "silent" (member? members "silent")
      let color ← readColor (member? members "color")
      let classful ← readBool "classful" (member? members "classful")
      let dnsServers ← readServers (member? members "dnsServers")
      match ((Json.keys members).map Json.Key.text).filter (· ∉ knownKeys) with
      | [] => .ok ⟨silent, color, classful, dnsServers⟩
      | unknown => .error (.unknownKeys unknown)
  | v => .error (.wrongType [] "object" v.typeName)

/-- The document that holds settings. -/
def toJson (c : Config) : Json :=
  .object [
    (.ofText "silent", .bool c.silent),
    (.ofText "color", .string c.color.name),
    (.ofText "classful", .bool c.classful),
    (.ofText "dnsServers", .array (c.dnsServers.map .string)) ]

/-- The settings of a configuration file. -/
def ofFile (file : String) : FileContents → Except ConfigError Config
  | .missing => .ok defaults
  | .unreadable reason => .error (.unreadable file reason)
  | .text contents =>
      match Json.parse? contents with
      | none => .error (.malformedJson file)
      | some v => (ofJson v).mapError (.invalid file)

/-! ## Variables -/

/-- A variable's value through a reader; a missing or empty one is none. -/
def readVariable {α : Type} (env : Environment) (name : String) (read : String → Option α) :
    Except ConfigError (Option α) :=
  match env.nonempty? name with
  | none => .ok none
  | some raw =>
      match read raw with
      | some v => .ok (some v)
      | none => .error (.badVariable name raw)

/-- A truth value in one of four spellings. -/
def bool? (text : String) : Option Bool :=
  if text = "1" ∨ text = "true" then some true
  else if text = "0" ∨ text = "false" then some false
  else none

/-- The entries of a comma-separated list, trimmed, blank ones dropped. -/
def listEntries (text : String) : List String :=
  (((text.toList.splitOn ',').map Text.trim).filter (· ≠ [])).map String.ofList

/-- A comma-separated list of nameservers. -/
def servers? (text : String) : Option (List String) :=
  if (listEntries text).all Nameserver.isAccepted then some (listEntries text) else none

/-- The settings with the variables that override them. -/
def override (c : Config) (env : Environment) : Except ConfigError Config := do
  let dnsServers ← readVariable env "IPCALC_DNS_SERVERS" servers?
  let silent ← readVariable env "IPCALC_SILENT" bool?
  let color ← readVariable env "IPCALC_COLOR" ColorMode.ofName?
  let classful ← readVariable env "IPCALC_CLASSFUL" bool?
  return {
    silent := silent.getD c.silent
    color := color.getD c.color
    classful := classful.getD c.classful
    dnsServers := match dnsServers with
      | some (s :: ss) => s :: ss
      | _ => c.dnsServers }

/-- The settings of a configuration file and an environment. -/
def load (file : String) (contents : FileContents) (env : Environment) :
    Except ConfigError Config := do
  let c ← ofFile file contents
  c.override env

end Config

end Subnet
