import Subnet.Cli.Run
import Subnet.Diagnostics

/-!
# The program — a run with its surroundings

    The settings file of the working directory is added to the environment, the
    configuration is loaded, and the arguments are run.  Log messages are
    written only when the environment asks for them, before the error text.
-/

namespace Subnet

/-- What surrounds a run of the program. -/
structure Surroundings where
  environment : Environment
  /-- The home directory of a user whose environment names none. -/
  home : String
  /-- The text of the settings file of the working directory. -/
  settingsFile : Option String
  contentsOf : String → FileContents
  interactive : Bool
  resolve : Resolver

namespace Surroundings

/-- The environment with the assignments of the settings file. -/
def loaded (s : Surroundings) : Environment :=
  s.environment.loadProcessFile s.settingsFile

/-- The configuration file, below the home directory that the environment names
    unless a directory of its own is set. -/
def configFile (s : Surroundings) : String :=
  Config.file s.loaded ((s.loaded.get? Config.homeVariable).getD s.home)

end Surroundings

namespace Cli

/-- How the program ended. -/
inductive Ending where
  | misconfigured (error : ConfigError)
  | refused (server : RefusedServer)
  | ran (debug : Bool) (outcome : Outcome)

namespace Ending

/-- The exit code. -/
def code : Ending → Nat
  | misconfigured _ => 1
  | refused _ => 1
  | ran _ outcome => outcome.code

/-- The text on standard output. -/
def out : Ending → String
  | ran _ outcome => outcome.out
  | _ => ""

/-- The text on standard error. -/
def err : Ending → String
  | misconfigured e => programName ++ ": " ++ e.message ++ "\n"
  | refused server =>
      programName ++ ": unexpected failure: the resolver refuses the nameserver " ++
        server.text ++ "\n"
  | ran debug outcome =>
      String.join ((Diagnostics.lines debug outcome.logs).map (· ++ "\n")) ++ outcome.err

end Ending

/-- Runs the program. -/
def program (args : List String) (s : Surroundings) : Ending :=
  let file := s.configFile
  match Config.load file (s.contentsOf file) s.loaded with
  | .error e => .misconfigured e
  | .ok config =>
      match runWithResolver args ⟨config, s.interactive, file⟩ s.resolve with
      | .error server => .refused server
      | .ok outcome => .ran (Diagnostics.wanted s.loaded) outcome

end Cli

end Subnet
