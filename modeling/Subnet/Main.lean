import Subnet.Cli.Program
import Subnet.Text.Utf8

/-!
# The command line — the outer layer that reads files and writes texts

    Nothing is decided here.  There is no resolver on this side, so a request
    for a hostname always fails.
-/

namespace Subnet.Cli

/-- The variables that the program reads. -/
def environmentNames : List String :=
  [ Config.homeVariable, Config.directoryVariable, Diagnostics.debugVariable,
    "IPCALC_DNS_SERVERS", "IPCALC_SILENT", "IPCALC_COLOR", "IPCALC_CLASSFUL" ]

/-- Reads a file as lenient UTF-8. -/
def readContents (path : String) : IO FileContents := do
  try
    let bytes ← IO.FS.readBinFile path
    return .text (Text.Utf8.decode bytes.toList)
  catch e =>
    match e with
    | .noFileOrDirectory _ _ _ => return .missing
    | .inappropriateType _ _ _ => return .directory
    | e => return .unreadable (toString e)

/-- The variables that are set. -/
def readEnvironment : IO Environment := do
  let mut env := Environment.empty
  for name in environmentNames do
    if let some value ← IO.getEnv name then
      env := env.set name value
  return env

end Subnet.Cli

open Subnet in
/-- Runs the program on the arguments of the command line. -/
def main (args : List String) : IO UInt32 := do
  let stdout ← IO.getStdout
  let stderr ← IO.getStderr
  let environment ← Cli.readEnvironment
  let settingsFile := match ← Cli.readContents ".env" with
    | .text contents => some contents
    | _ => none
  let surroundings : Surroundings := {
    environment, settingsFile
    home := "/"
    contentsOf := fun _ => .missing
    interactive := (← stdout.isTty) && (← stderr.isTty)
    resolve := fun _ => .failed "no resolver is available" }
  let contents ← Cli.readContents surroundings.configFile
  let ending := Cli.program args { surroundings with contentsOf := fun _ => contents }
  stdout.putStr ending.out
  stderr.putStr ending.err
  return ending.code.toUInt32
