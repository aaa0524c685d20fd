/-!
# UTF-8 — lenient decoding of octets

    Well-formed sequences decode to their characters.  Every maximal prefix of
    a well-formed sequence that is not completed, and every octet that starts
    none, becomes one `U+FFFD`.
-/

namespace Subnet.Text.Utf8

/-- Where a decoder stands between octets: at a boundary, or inside a sequence
    of which some octets are still owed, the next one within bounds. -/
inductive State where
  | boundary
  | inside (owed low high value : Nat)

/-- The characters and the state after an octet at a boundary. -/
def first (b : Nat) : List Char × State :=
  if b ≤ 0x7f then ([Char.ofNat b], .boundary)
  else if 0xc2 ≤ b ∧ b ≤ 0xdf then ([], .inside 1 0x80 0xbf (b - 0xc0))
  else if b = 0xe0 then ([], .inside 2 0xa0 0xbf 0)
  else if b = 0xed then ([], .inside 2 0x80 0x9f 0xd)
  else if 0xe1 ≤ b ∧ b ≤ 0xef then ([], .inside 2 0x80 0xbf (b - 0xe0))
  else if b = 0xf0 then ([], .inside 3 0x90 0xbf 0)
  else if 0xf1 ≤ b ∧ b ≤ 0xf3 then ([], .inside 3 0x80 0xbf (b - 0xf0))
  else if b = 0xf4 then ([], .inside 3 0x80 0x8f 4)
  else (['\ufffd'], .boundary)

/-- The characters and the state after an octet. -/
def step : State → Nat → List Char × State
  | .boundary, b => first b
  | .inside owed low high value, b =>
      if low ≤ b ∧ b ≤ high then
        let value := value * 64 + (b - 0x80)
        if owed ≤ 1 then ([Char.ofNat value], .boundary)
        else ([], .inside (owed - 1) 0x80 0xbf value)
      else
        let (cs, s) := first b
        ('\ufffd' :: cs, s)

/-- The characters of the octets that follow a state. -/
def decodeFrom : State → List UInt8 → List Char
  | .boundary, [] => []
  | .inside .., [] => ['\ufffd']
  | s, b :: bs =>
      let (cs, s') := step s b.toNat
      cs ++ decodeFrom s' bs

/-- The text of octets. -/
def decode (bs : List UInt8) : String :=
  String.ofList (decodeFrom .boundary bs)

end Subnet.Text.Utf8
