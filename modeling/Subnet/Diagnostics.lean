import Subnet.Environment

/-!
# Diagnostics — log messages, and when they are written

    Log messages are collected wherever they arise.  They are written only if
    the environment asks for them, each on a line that names the program.
-/

namespace Subnet

/-- The program's name. -/
def programName : String :=
  "ipcalc"

namespace Diagnostics

/-- The variable that switches log messages on. -/
def debugVariable : String :=
  "IPCALC_DEBUG"

/-- Log messages are wanted. -/
def wanted (env : Environment) : Bool :=
  (env.nonempty? debugVariable).isSome

/-- Log messages as they are written, if they are wanted. -/
def lines (debug : Bool) (messages : List String) : List String :=
  if debug then messages.map fun m => "[" ++ programName ++ "] " ++ m else []

end Diagnostics

end Subnet
