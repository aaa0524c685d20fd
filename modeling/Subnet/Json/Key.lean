import Subnet.Text.Units

/-!
# Keys — the names of an object's members

    A key is a sequence of UTF-16 units.  An escape may leave a surrogate
    unpaired, so a key is more than a text: two keys are the same only if their
    units are.
-/

namespace Subnet.Json

/-- A key of an object. -/
structure Key where
  units : List Nat
  deriving DecidableEq

namespace Key

/-- The key with a given text. -/
def ofText (text : String) : Key :=
  ⟨Text.units text.toList⟩

/-- The text of a key, every unpaired surrogate replaced by `U+FFFD`. -/
def text (key : Key) : String :=
  String.ofList (Text.ofUnits key.units)

/-- Array indices lie below this bound. -/
def indexBound : Nat :=
  4294967295

/-- The array index a key spells, without superfluous zeros. -/
def arrayIndex? (key : Key) : Option Nat :=
  let cs := key.text.toList
  if cs ≠ [] ∧ cs.all Char.isDigit then
    let n := Nat.ofDigitChars 10 cs 0
    if Nat.toDigits 10 n = cs ∧ n < indexBound then some n else none
  else none

/-- A key comes before another if both are array indices in that order, or
    only the first one is an index. -/
def le (a b : Key) : Bool :=
  match a.arrayIndex?, b.arrayIndex? with
  | some m, some n => m ≤ n
  | some _, none => true
  | none, some _ => false
  | none, none => true

end Key

end Subnet.Json
