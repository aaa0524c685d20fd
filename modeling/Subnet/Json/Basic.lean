import Subnet.Json.Key

/-!
# JSON values — documents, and the order of their keys

    An object keeps its members as they were written, repetitions included.
    Its value at a key is the last one written; its keys are listed once each,
    array indices in ascending order first and the others as they first appear.
-/

namespace Subnet

/-- A JSON value; a number keeps its spelling, and a string its text. -/
inductive Json where
  | null
  | bool (value : Bool)
  | number (spelling : String)
  | string (text : String)
  | array (items : List Json)
  | object (members : List (Json.Key × Json))

namespace Json

/-- The name of a value's type. -/
def typeName : Json → String
  | null => "null"
  | bool _ => "boolean"
  | number _ => "number"
  | string _ => "string"
  | array _ => "array"
  | object _ => "object"

/-- The last value written at a key. -/
def lookup? (members : List (Key × Json)) (key : Key) : Option Json :=
  (members.reverse.find? fun m => m.1 = key).map Prod.snd

/-- The keys of an object, each once. -/
def keys (members : List (Key × Json)) : List Key :=
  let firsts := members.foldl
    (fun seen m => if m.1 ∈ seen then seen else seen ++ [m.1]) ([] : List Key)
  firsts.mergeSort Key.le

end Json

end Subnet
