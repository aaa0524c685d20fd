import Subnet.Cli.Switch

/-!
# Scanning arguments — switches, operands and unknown options

    Arguments are read from left to right.  One-letter switches are peeled off
    a cluster one by one; what remains of it is read like an argument of its
    own.  After an unknown option everything that is no switch is unknown too,
    and after `--` nothing is a switch.
-/

namespace Subnet.Cli

/-- What a list of arguments consists of. -/
structure Scan where
  switches : List Switch
  operands : List String
  unknown : List String

namespace Scan

/-- Nothing at all. -/
def empty : Scan :=
  ⟨[], [], []⟩

/-- More switches in front. -/
def addSwitches (s : Scan) (more : List Switch) : Scan :=
  { s with switches := more ++ s.switches }

/-- More operands, or more unknown arguments, in front. -/
def addPlain (s : Scan) (unknown : Bool) (more : List String) : Scan :=
  if unknown then { s with unknown := more ++ s.unknown }
  else { s with operands := more ++ s.operands }

end Scan

/-- Peels switches off a cluster, given without its dash: the switches, and what
    remains as an argument.  The last letter stays. -/
def peelCluster : List Char → List Switch × List Char
  | c :: d :: rest =>
      match if c = '-' then none else shortSwitch? c with
      | some s =>
          let (more, remaining) := peelCluster (d :: rest)
          (s :: more, remaining)
      | none => ([], '-' :: c :: d :: rest)
  | cs => ([], '-' :: cs)

/-- Peels switches off an argument. -/
def peel : List Char → List Switch × List Char
  | '-' :: cs => peelCluster cs
  | cs => ([], cs)

/-- An argument that looks like an option. -/
def looksLikeOption : List Char → Bool
  | '-' :: _ :: _ => true
  | _ => false

/-- Reads arguments; `unknown` tells that an unknown option came before. -/
def scanFrom (unknown : Bool) : List String → Scan
  | [] => Scan.empty
  | arg :: rest =>
      let (peeled, cs) := peel arg.toList
      let text := String.ofList cs
      if cs = ['-', '-'] then
        ((Scan.empty.addPlain unknown (if unknown then text :: rest else rest))).addSwitches peeled
      else
        match exactSwitch? cs with
        | some s => (scanFrom unknown rest).addSwitches (peeled ++ [s])
        | none =>
            let unknown := unknown || looksLikeOption cs
            ((scanFrom unknown rest).addPlain unknown [text]).addSwitches peeled

/-- Reads the arguments of the command line. -/
def scan (args : List String) : Scan :=
  scanFrom false args

/-- An argument that asks for silence on sight, before any argument is read. -/
def asksForSilence (arg : String) : Bool :=
  arg = "--silent" ||
    match arg.toList with
    | '-' :: cs => (cs.takeWhile (· ≠ '-')).contains 's'
    | _ => false

end Subnet.Cli
