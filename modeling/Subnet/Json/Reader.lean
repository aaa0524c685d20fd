import Subnet.Json.Basic
import Subnet.Numeral
import Subnet.Text.Units

/-!
# Reading JSON — the grammar of RFC 8259, nothing more

    Blanks are the space, the tab and the two line breaks; comments, trailing
    commas and a byte-order mark are refused.  Each reader returns what it read
    and the rest of the text.
-/

namespace Subnet.Json

/-- The blanks between tokens. -/
def isSpace (c : Char) : Bool :=
  c = ' ' || c = '\t' || c = '\n' || c = '\r'

/-- A text without the blanks at its start. -/
def skipSpace (cs : List Char) : List Char :=
  cs.dropWhile isSpace

/-! ## Numbers -/

/-- A run of digits, possibly empty, and the rest. -/
def digitRun (cs : List Char) : List Char × List Char :=
  (cs.takeWhile Char.isDigit, cs.dropWhile Char.isDigit)

/-- The whole part of a number: zero, or digits that do not start with it. -/
def wholePart? : List Char → Option (List Char × List Char)
  | '0' :: rest => some (['0'], rest)
  | cs => match digitRun cs with
    | ([], _) => none
    | found => some found

/-- The fraction of a number; a point must be followed by a digit. -/
def fractionPart? : List Char → Option (List Char × List Char)
  | '.' :: rest => match digitRun rest with
    | ([], _) => none
    | (ds, rest) => some ('.' :: ds, rest)
  | cs => some ([], cs)

/-- A sign and the rest. -/
def signPart : List Char → List Char × List Char
  | '+' :: rest => (['+'], rest)
  | '-' :: rest => (['-'], rest)
  | cs => ([], cs)

/-- The exponent of a number; its mark must be followed by a digit, after an
    optional sign. -/
def exponentPart? : List Char → Option (List Char × List Char)
  | [] => some ([], [])
  | c :: rest =>
      if c = 'e' ∨ c = 'E' then
        let (sign, rest) := signPart rest
        match digitRun rest with
        | ([], _) => none
        | (ds, rest) => some (c :: (sign ++ ds), rest)
      else some ([], c :: rest)

/-- A number without its sign. -/
def unsigned? (cs : List Char) : Option (List Char × List Char) :=
  match wholePart? cs with
  | none => none
  | some (whole, rest) => match fractionPart? rest with
    | none => none
    | some (fraction, rest) => match exponentPart? rest with
      | none => none
      | some (exponent, rest) => some (whole ++ fraction ++ exponent, rest)

/-- A number as it is spelled. -/
def number? : List Char → Option (Json × List Char)
  | '-' :: rest => (unsigned? rest).map fun (ds, rest) => (number (String.ofList ('-' :: ds)), rest)
  | cs => (unsigned? cs).map fun (ds, rest) => (number (String.ofList ds), rest)

/-! ## Strings -/

/-- The character an escape of one letter stands for. -/
def escaped? (c : Char) : Option Char :=
  match c with
  | '"' => some '"'
  | '\\' => some '\\'
  | '/' => some '/'
  | 'b' => some '\x08'
  | 'f' => some '\x0c'
  | 'n' => some '\n'
  | 'r' => some '\r'
  | 't' => some '\t'
  | _ => none

/-- The units of a string after its opening quote. -/
def stringUnits? : List Char → Option (List Nat × List Char)
  | [] => none
  | '"' :: rest => some ([], rest)
  | '\\' :: 'u' :: a :: b :: c :: d :: rest =>
      match [a, b, c, d].mapM Numeral.hexDigit? with
      | some ds => (stringUnits? rest).map fun (us, rest) => (Radix.value 16 ds :: us, rest)
      | none => none
  | '\\' :: c :: rest =>
      match escaped? c with
      | some e => (stringUnits? rest).map fun (us, rest) => (Text.charUnits e ++ us, rest)
      | none => none
  | c :: rest =>
      if c < ' ' then none
      else (stringUnits? rest).map fun (us, rest) => (Text.charUnits c ++ us, rest)

/-- The text of a string after its opening quote, every unpaired surrogate
    replaced. -/
def string? (cs : List Char) : Option (String × List Char) :=
  (stringUnits? cs).map fun (us, rest) => (String.ofList (Text.ofUnits us), rest)

/-- A key after its opening quote. -/
def key? (cs : List Char) : Option (Key × List Char) :=
  (stringUnits? cs).map fun (us, rest) => (⟨us⟩, rest)

/-! ## Values -/

/-- A fixed word with the value it stands for. -/
def word? (word : String) (value : Json) (cs : List Char) : Option (Json × List Char) :=
  if word.toList.isPrefixOf cs then some (value, cs.drop word.length) else none

mutual

/-- A value; the bound limits the depth of the descent. -/
def value? : (bound : Nat) → List Char → Option (Json × List Char)
  | 0, _ => none
  | bound + 1, cs => match skipSpace cs with
    | [] => none
    | '{' :: rest => match skipSpace rest with
      | '}' :: rest => some (object [], rest)
      | rest => (members? bound rest).map fun (ms, rest) => (object ms, rest)
    | '[' :: rest => match skipSpace rest with
      | ']' :: rest => some (array [], rest)
      | rest => (items? bound rest).map fun (vs, rest) => (array vs, rest)
    | '"' :: rest => (string? rest).map fun (text, rest) => (string text, rest)
    | 't' :: rest => word? "rue" (bool true) rest
    | 'f' :: rest => word? "alse" (bool false) rest
    | 'n' :: rest => word? "ull" null rest
    | rest => number? rest

/-- The items of an array up to its closing bracket. -/
def items? : (bound : Nat) → List Char → Option (List Json × List Char)
  | 0, _ => none
  | bound + 1, cs => match value? bound cs with
    | none => none
    | some (v, rest) => match skipSpace rest with
      | ',' :: rest => (items? bound rest).map fun (vs, rest) => (v :: vs, rest)
      | ']' :: rest => some ([v], rest)
      | _ => none

/-- The members of an object up to its closing brace. -/
def members? : (bound : Nat) → List Char → Option (List (Key × Json) × List Char)
  | 0, _ => none
  | bound + 1, cs => match skipSpace cs with
    | '"' :: rest => match key? rest with
      | none => none
      | some (key, rest) => match skipSpace rest with
        | ':' :: rest => match value? bound rest with
          | none => none
          | some (v, rest) => match skipSpace rest with
            | ',' :: rest => (members? bound rest).map fun (ms, rest) => ((key, v) :: ms, rest)
            | '}' :: rest => some ([(key, v)], rest)
            | _ => none
        | _ => none
    | _ => none

end

/-- The value a text denotes.  Every two steps of the descent take a character
    at least, so twice the length bounds it. -/
def parse? (text : String) : Option Json :=
  let cs := text.toList
  match value? (2 * cs.length + 2) cs with
  | some (v, rest) => if skipSpace rest = [] then some v else none
  | none => none

end Subnet.Json
