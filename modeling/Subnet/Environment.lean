import Subnet.Text.Blank
import Subnet.Text.Units

/-!
# Environments — named settings, and the file of assignments that adds to them

    An environment holds one value for each of its names.  A settings file has
    one assignment `NAME=value` a line; it gives values to names that have none
    yet, the empty text counting as none.
-/

namespace Subnet

/-- Names with their values, each name once. -/
structure Environment where
  entries : List (String × String)
  nodup_names : (entries.map Prod.fst).Nodup

namespace Environment

/-- The environment without names. -/
def empty : Environment :=
  ⟨[], by simp⟩

/-- The value of a name. -/
def get? (env : Environment) (name : String) : Option String :=
  env.entries.lookup name

/-- Removes a name. -/
def unset (env : Environment) (name : String) : Environment :=
  ⟨env.entries.filter fun e => e.1 ≠ name,
    env.nodup_names.sublist (List.filter_sublist.map Prod.fst)⟩

/-- A removed name is gone. -/
theorem not_mem_names_unset (env : Environment) (name : String) :
    name ∉ (env.unset name).entries.map Prod.fst := by
  simp [unset]

/-- Gives a name a value. -/
def set (env : Environment) (name value : String) : Environment :=
  ⟨(name, value) :: (env.unset name).entries,
    List.nodup_cons.mpr ⟨env.not_mem_names_unset name, (env.unset name).nodup_names⟩⟩

@[simp] theorem get?_empty (name : String) : empty.get? name = none := rfl

/-- A removed name has no value. -/
@[simp] theorem get?_unset_self (env : Environment) (name : String) :
    (env.unset name).get? name = none := by
  rw [get?, List.lookup_eq_none_iff]
  intro e he
  simp only [unset, List.mem_filter, decide_eq_true_eq] at he
  simpa using fun h => he.2 h.symm

/-- Removing a name changes no other one. -/
theorem get?_unset_of_ne (env : Environment) {name other : String} (h : other ≠ name) :
    (env.unset name).get? other = env.get? other := by
  simp only [get?, unset]
  induction env.entries with
  | nil => rfl
  | cons e es ih =>
      by_cases hk : e.1 = name
      · have hne : (other == e.1) = false := by simpa [hk] using h
        rw [List.filter_cons_of_neg (by simpa using hk), List.lookup_cons, hne]
        exact ih
      · rw [List.filter_cons_of_pos (by simpa using hk), List.lookup_cons, List.lookup_cons, ih]

/-- A name has the value it was given last. -/
@[simp] theorem get?_set_self (env : Environment) (name value : String) :
    (env.set name value).get? name = some value := by
  simp [get?, set]

/-- Giving a name a value changes no other one. -/
theorem get?_set_of_ne (env : Environment) {name other : String} (h : other ≠ name)
    (value : String) : (env.set name value).get? other = env.get? other := by
  have hne : (other == name) = false := by simpa using h
  rw [← get?_unset_of_ne env h, get?, set, List.lookup_cons, hne]
  rfl

/-- The environment of a list of names and values, the last value counting. -/
def ofList (entries : List (String × String)) : Environment :=
  entries.foldl (fun env e => env.set e.1 e.2) empty

/-- The value of a name, unless it is empty. -/
def nonempty? (env : Environment) (name : String) : Option String :=
  match env.get? name with
  | some value => if value = "" then none else some value
  | none => none

/-- The names and values in the order of the UTF-16 units of the names. -/
def sorted (env : Environment) : List (String × String) :=
  env.entries.mergeSort fun a b =>
    Text.unitsLe (Text.units a.1.toList) (Text.units b.1.toList)

/-! ## Assignments -/

/-- Assigns a value unless the name has a non-empty one. -/
def assign (env : Environment) (name value : String) : Environment :=
  match env.nonempty? name with
  | some _ => env
  | none => env.set name value

/-- Makes assignments in order. -/
def assignAll (env : Environment) (list : List (String × String)) : Environment :=
  list.foldl (fun env e => env.assign e.1 e.2) env

/-- The characters that end a line in running text. -/
def isLineTerminator (c : Char) : Bool :=
  c = '\n' || c = '\r' || c = '\u2028' || c = '\u2029'

/-- A text without the double quotes that enclose it. -/
def unquote (cs : List Char) : List Char :=
  match cs with
  | '"' :: rest => if rest.getLast? = some '"' then rest.dropLast else cs
  | _ => cs

/-- The assignment on a line: a non-empty name before the first `=`, and a value
    without line terminators.  Both are trimmed, and quotes around the value are
    dropped.  A line that starts with `#` is a comment. -/
def assignment? (line : List Char) : Option (String × String) :=
  if (Text.trim line).head? = some '#' then none
  else
    let name := line.takeWhile (· ≠ '=')
    match line.dropWhile (· ≠ '=') with
    | [] => none
    | _ :: value =>
        if name = [] ∨ value.any isLineTerminator then none
        else some (String.ofList (Text.trim name), String.ofList (unquote (Text.trim value)))

/-- The assignments of a settings file, in order. -/
def assignments (text : String) : List (String × String) :=
  (text.toList.splitOn '\n').filterMap assignment?

/-- Adds the assignments of a settings file. -/
def load (env : Environment) (text : String) : Environment :=
  env.assignAll (assignments text)

/-- Adds the assignments of a settings file, if there is one. -/
def loadFile (env : Environment) : Option String → Environment
  | some text => env.load text
  | none => env

/-! ## The environment of a process

    A process holds names and values as texts that a NUL character ends, and no
    empty name. -/

/-- A text up to its first NUL character. -/
def untilNul (text : String) : String :=
  String.ofList (text.toList.takeWhile (· ≠ '\x00'))

/-- An assignment as a process takes it, if it does. -/
def processAssignment? (assignment : String × String) : Option (String × String) :=
  let name := untilNul assignment.1
  if name = "" then none else some (name, untilNul assignment.2)

/-- The environment of a process that is given names and values. -/
def ofProcess (entries : List (String × String)) : Environment :=
  ofList (entries.filterMap processAssignment?)

/-- Adds the assignments of a settings file to the environment of a process, if
    there is such a file. -/
def loadProcessFile (env : Environment) : Option String → Environment
  | some text => env.assignAll ((assignments text).filterMap processAssignment?)
  | none => env

end Environment

end Subnet
