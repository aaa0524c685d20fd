import Subnet.Cli.Help
import Subnet.Cli.Request
import Subnet.Cli.Suggestion
import Subnet.Hostname

/-!
# Running — from arguments to an exit code and two texts

    Arguments are interpreted first: the run is over at once, or a request
    remains to be answered.  Results go to the output text, errors to the error
    text, and a silent run has no errors.
-/

namespace Subnet.Cli

/-- What a run came to: its exit code, the texts written, the addresses a lookup
    was called with, and log messages. -/
structure Outcome where
  code : Nat
  out : String
  err : String
  calls : List Address
  logs : List String
  deriving DecidableEq

namespace Outcome

/-- A run that only writes its result. -/
def success (out : String) : Outcome :=
  ⟨0, out, "", [], []⟩

/-- A run that only writes an error. -/
def failure (err : String) : Outcome :=
  ⟨1, "", err, [], []⟩

end Outcome

/-! ## Errors -/

/-- The error text of a failure, with the usage text on demand. -/
def errorText (silent colour : Bool) (message : String) (showsHelp : Bool) : String :=
  if silent then ""
  else
    Text.Style.red.paint colour (programName ++ ":") ++ " " ++ message ++ "\n" ++
      if showsHelp then helpText else ""

/-- The error text about an unknown option. -/
def unknownOptionText (silent colour : Bool) (arg : String) : String :=
  if silent then ""
  else
    Text.Style.red.paint colour
      ("error: unknown option '" ++ arg ++ "'" ++ suggestion arg ++ "\n")

/-! ## Interpretation -/

/-- What the arguments ask for. -/
inductive Interpretation where
  | finished (outcome : Outcome)
  | pending (request : Request)

/-- The argument asks for help. -/
def asksForHelp (arg : String) : Bool :=
  arg = "-?" || arg = "--" ++ helpName

/-- What the arguments ask for: the version, help, an error about an unknown
    option, or a query.  Silence on sight hides every error; the switch hides
    those that come after scanning. -/
def interpret (args : List String) (s : Settings) : Interpretation :=
  let scanned := scan args
  let onSight := s.config.silent || args.any asksForSilence
  let silent := onSight || decide (.silent ∈ scanned.switches)
  if .version ∈ scanned.switches then .finished (.success (programVersion ++ "\n"))
  else if scanned.unknown.any asksForHelp then
    .finished (.success (helpText ++ helpRemark s.configFile))
  else
    match scanned.unknown with
    | arg :: _ => .finished (.failure (unknownOptionText onSight s.colour arg))
    | [] =>
        match Request.ofOperands s silent scanned.switches scanned.operands with
        | .error e => .finished (.failure (errorText silent s.colour e.message e.showsHelp))
        | .ok request => .pending request

/-! ## Completion -/

/-- Answers the query of a request and shows the answer. -/
def Request.complete (r : Request) (lookup : Lookup) : Outcome :=
  let answer := r.query.answer (some lookup)
  match answer.result with
  | .error e =>
      ⟨1, "", errorText r.query.silent r.colour e.message false, answer.calls, answer.logs⟩
  | .ok record =>
      ⟨0, if r.checkOnly then "" else r.resultText record, "", answer.calls, answer.logs⟩

/-- A run with a lookup. -/
def run (args : List String) (s : Settings) (lookup : Lookup) : Outcome :=
  match interpret args s with
  | .finished outcome => outcome
  | .pending request => request.complete lookup

/-- A run whose lookup goes through a resolver.  The resolver is told the
    configured nameservers when a hostname is wanted, and it may refuse one. -/
def runWithResolver (args : List String) (s : Settings) (resolve : Resolver) :
    Except RefusedServer Outcome :=
  match interpret args s with
  | .finished outcome => .ok outcome
  | .pending request =>
      if request.wantsHostname then
        (Hostname.viaServers s.config.dnsServers resolve).map request.complete
      else .ok (request.complete (Hostname.reverse resolve))

end Subnet.Cli
