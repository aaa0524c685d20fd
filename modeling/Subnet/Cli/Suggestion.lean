import Subnet.Cli.Switch
import Subnet.Text.Units

/-!
# Suggestions — the long names closest to a mistyped one

    The distance of two words is the least number of insertions, deletions,
    substitutions and swaps of neighbours that lead from one to the other, no
    unit being touched twice.  Words are measured in UTF-16 units.
-/

namespace Subnet.Cli

/-- Distances above this one suggest nothing. -/
def maxDistance : Nat :=
  3

/-- The entry of a row, or zero outside it. -/
def entry (row : List Nat) (i : Nat) : Nat :=
  row[i]?.getD 0

/-- The row of distances after one more unit of the first word: `previous` is
    the row before it, `swapped` the one before that together with the unit
    between the two. -/
def nextRow (b : List Nat) (unit : Nat) (previous : List Nat)
    (swapped : Option (Nat × List Nat)) : List Nat :=
  (List.range b.length).foldl
    (fun row j =>
      let x := entry b j
      let cost := if unit = x then 0 else 1
      let removed := entry previous (j + 1) + 1
      let inserted := entry row j + 1
      let plain := min (min removed inserted) (entry previous j + cost)
      let best := match swapped with
        | some (earlier, before) =>
            if 0 < j ∧ unit = entry b (j - 1) ∧ earlier = x then
              min plain (entry before (j - 1) + 1)
            else plain
        | none => plain
      row ++ [best])
    [entry previous 0 + 1]

/-- The last row of distances, the rows before the units `a` being given. -/
def lastRow (b : List Nat) :
    (a : List Nat) → (previous : List Nat) → Option (Nat × List Nat) → List Nat
  | [], previous, _ => previous
  | unit :: a, previous, swapped =>
      lastRow b a (nextRow b unit previous swapped) (some (unit, previous))

/-- The distance of two words; words whose lengths differ by more than the
    limit are as far apart as the longer one is long. -/
def distance (a b : List Nat) : Nat :=
  if maxDistance < a.length - b.length ∨ maxDistance < b.length - a.length then
    max a.length b.length
  else entry (lastRow b a (List.range (b.length + 1)) none) b.length

/-- Two words of the given distance are similar: more than two fifths of the
    longer one agree. -/
def similar (a b : List Nat) (d : Nat) : Bool :=
  let length := max a.length b.length
  2 * length < 5 * (length - d)

/-- The long names, the request for help included. -/
def longNames : List String :=
  switchSpecs.map SwitchSpec.long ++ [helpName]

/-- The closest similar long names, in alphabetical order. -/
def closest (word : List Char) : List String :=
  let units := Text.units word
  let candidates := longNames.filterMap fun name =>
    let other := Text.units name.toList
    let d := distance units other
    if d ≤ maxDistance ∧ similar units other d then some (d, name) else none
  let best := candidates.foldl (fun least c => min least c.1) maxDistance
  ((candidates.filter fun c => c.1 = best).map Prod.snd).mergeSort fun a b => a ≤ b

/-- The hint that closes the error about an unknown option. -/
def suggestion (arg : String) : String :=
  match arg.toList with
  | '-' :: '-' :: word =>
      match closest word with
      | [] => ""
      | [name] => "\n(Did you mean --" ++ name ++ "?)"
      | names => "\n(Did you mean one of " ++ ", ".intercalate (names.map ("--" ++ ·)) ++ "?)"
  | _ => ""

end Subnet.Cli
