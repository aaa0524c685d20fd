/-!
# UTF-16 units — the order of keys and the length of words

    A character up to `U+FFFF` is one unit, any other a pair of surrogates.
    Keys are sorted by their units, so a surrogate pair comes before the
    private-use and presentation characters that end the first plane.
-/

namespace Subnet.Text

/-- The units of a character. -/
def charUnits (c : Char) : List Nat :=
  let n := c.toNat
  if n < 0x10000 then [n]
  else [0xd800 + (n - 0x10000) / 0x400, 0xdc00 + (n - 0x10000) % 0x400]

/-- The units of a text. -/
def units (cs : List Char) : List Nat :=
  cs.flatMap charUnits

/-- The first list of units comes before the second one or equals it. -/
def unitsLe : List Nat → List Nat → Bool
  | [], _ => true
  | _ :: _, [] => false
  | a :: as, b :: bs => a < b || (a == b && unitsLe as bs)

/-- The units whose pairing makes a character: high surrogates. -/
def isHighSurrogate (n : Nat) : Bool :=
  0xd800 ≤ n && n < 0xdc00

/-- The units that close a pair: low surrogates. -/
def isLowSurrogate (n : Nat) : Bool :=
  0xdc00 ≤ n && n < 0xe000

/-- The text of code points and units: a high surrogate pairs with a low one
    right after it, and an unpaired surrogate is replaced by `U+FFFD`. -/
def ofUnits : List Nat → List Char
  | [] => []
  | [n] => [if isHighSurrogate n || isLowSurrogate n then '\ufffd' else Char.ofNat n]
  | n :: m :: rest =>
      if isHighSurrogate n && isLowSurrogate m then
        Char.ofNat (0x10000 + (n - 0xd800) * 0x400 + (m - 0xdc00)) :: ofUnits rest
      else if isHighSurrogate n || isLowSurrogate n then '\ufffd' :: ofUnits (m :: rest)
      else Char.ofNat n :: ofUnits (m :: rest)

end Subnet.Text
