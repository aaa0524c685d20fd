import Subnet.Address.Octets

/-!
# Writing addresses — one canonical text for each

    IPv4 addresses are dotted quads.  IPv6 addresses are lowercase groups in
    which `::` stands for the leftmost longest run of at least two zero words;
    an IPv4-mapped address keeps its dotted tail.
-/

namespace Subnet.Address

/-- Octets as a dotted quad. -/
def dotted (os : List UInt8) : List Char :=
  ['.'].intercalate (os.map fun o => Nat.toDigits 10 o.toNat)

/-- Words as lowercase groups joined by colons. -/
def colonGroups (ws : List UInt16) : List Char :=
  [':'].intercalate (ws.map fun w => Nat.toDigits 16 w.toNat)

/-- Start and length of the leftmost longest run of zero words. -/
def longestZeroRun : List UInt16 → Nat × Nat
  | [] => (0, 0)
  | w :: ws =>
      let here := ((w :: ws).takeWhile (· = 0)).length
      let (start, length) := longestZeroRun ws
      if length ≤ here then (0, here) else (start + 1, length)

/-- IPv6 text of words and of the dotted quad of the last two of them. -/
def compressed (ws : List UInt16) (quad : List Char) : List Char :=
  let (start, length) := longestZeroRun ws
  if length < 2 then colonGroups ws
  else if start = 0 ∧ length = 5 ∧ ws[5]? = some 0xffff then "::ffff:".toList ++ quad
  else colonGroups (ws.take start) ++ "::".toList ++ colonGroups (ws.drop (start + length))

/-- The canonical text. -/
def chars (a : Address) : List Char :=
  match a.family with
  | .v4 => dotted a.octets
  | .v6 => compressed a.words (dotted (ofNat .v4 a.value).octets)

/-- The canonical text. -/
def text (a : Address) : String :=
  String.ofList a.chars

/-- Every word with four hexadecimal digits, without compression. -/
def expandedChars (a : Address) : List Char :=
  [':'].intercalate (a.words.map fun w => (Nat.toDigits 16 w.toNat).leftpad 4 '0')

/-- Every word with four hexadecimal digits, without compression. -/
def expanded (a : Address) : String :=
  String.ofList a.expandedChars

end Subnet.Address
