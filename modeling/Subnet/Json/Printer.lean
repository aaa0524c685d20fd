import Subnet.Json.Basic

/-!
# Writing JSON — one compact text for each value

    No blanks stand between tokens.  In a string the quote, the backslash and
    the control characters are escaped, and nothing else is; in a key surrogates
    are escaped too.
-/

namespace Subnet.Json

/-- A unit escaped by its number. -/
def escapeUnit (n : Nat) : List Char :=
  "\\u".toList ++ (Nat.toDigits 16 n).leftpad 4 '0'

/-- A character as it stands inside a string. -/
def escape (c : Char) : List Char :=
  if c = '"' ∨ c = '\\' then ['\\', c]
  else if c < ' ' then escapeUnit c.toNat
  else [c]

/-- A string with its quotes. -/
def quoted (text : String) : List Char :=
  '"' :: text.toList.flatMap escape ++ ['"']

/-- A unit as it stands inside a key. -/
def keyUnit (n : Nat) : List Char :=
  if Text.isHighSurrogate n || Text.isLowSurrogate n then escapeUnit n
  else escape (Char.ofNat n)

/-- A key with its quotes. -/
def quotedKey (key : Key) : List Char :=
  '"' :: key.units.flatMap keyUnit ++ ['"']

mutual

/-- The text of a value. -/
def chars : Json → List Char
  | null => "null".toList
  | bool true => "true".toList
  | bool false => "false".toList
  | number spelling => spelling.toList
  | string text => quoted text
  | array items => '[' :: itemChars items ++ [']']
  | object members => '{' :: memberChars members ++ ['}']

/-- The texts of items, separated by commas. -/
def itemChars : List Json → List Char
  | [] => []
  | [v] => v.chars
  | v :: rest => v.chars ++ ',' :: itemChars rest

/-- The texts of members, separated by commas. -/
def memberChars : List (Key × Json) → List Char
  | [] => []
  | [(key, v)] => quotedKey key ++ ':' :: v.chars
  | (key, v) :: rest => quotedKey key ++ ':' :: v.chars ++ ',' :: memberChars rest

end

/-- The text of a value. -/
def text (v : Json) : String :=
  String.ofList v.chars

end Subnet.Json
