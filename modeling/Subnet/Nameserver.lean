import Subnet.Address.Parser

/-!
# Nameservers — the texts accepted as a nameserver's address

    Two tests stand in a row.  The settings accept dotted quads, IPv6 groups
    and a few forms around them (`isAccepted`); a resolver takes an address,
    possibly with a zone and a service number (`isUsable`).  Neither implies the other.
-/

namespace Subnet.Nameserver

/-! ## Settings -/

/-- A decimal octet that may have a leading zero if it has two digits. -/
def looseOctet (cs : List Char) : Bool :=
  match Numeral.decimal? cs with
  | some n => n < 256 && (cs.length < 3 || (cs.length == 3 && 100 ≤ n))
  | none => false

/-- Four loose octets joined by dots. -/
def looseQuad (cs : List Char) : Bool :=
  let pieces := cs.splitOn '.'
  pieces.length == 4 && pieces.all looseOctet

/-- Eight groups, or two lists of at most seven around `::`. -/
def plainGroups (cs : List Char) : Bool :=
  match Address.cutGap? cs with
  | some (left, right) =>
      match Address.groups? left, Address.groups? right with
      | some ls, some rs => ls.length + rs.length ≤ 7
      | _, _ => false
  | none =>
      match Address.groups? cs with
      | some ws => ws.length == 8
      | none => false

/-- What follows a given start of a text. -/
def after? (start cs : List Char) : Option (List Char) :=
  if start.isPrefixOf cs then some (cs.drop start.length) else none

/-- At most four hexadecimal digits, possibly none. -/
def shortGroup (cs : List Char) : Bool :=
  cs.length ≤ 4 && cs.all fun c => (Numeral.hexDigit? c).isSome

/-- `fe80:`, up to four short groups that each follow a colon, and a zone of
    letters and digits after a percent sign. -/
def linkLocal (cs : List Char) : Bool :=
  match after? "fe80:".toList cs with
  | none => false
  | some rest =>
      match (rest.takeWhile (· ≠ '%')).splitOn ':', rest.dropWhile (· ≠ '%') with
      | [] :: groups, _ :: zone =>
          groups.length ≤ 4 && groups.all shortGroup && zone ≠ [] && zone.all Char.isAlphanum
      | _, _ => false

/-- `::` and a loose quad, with `ffff:` or `ffff:` and a zero group between. -/
def mappedQuad (cs : List Char) : Bool :=
  match after? "::".toList cs with
  | none => false
  | some rest =>
      match rest.splitOn ':' with
      | [quad] => looseQuad quad
      | [mark, quad] => mark = "ffff".toList && looseQuad quad
      | [mark, zero, quad] =>
          mark = "ffff".toList && zero ≠ [] && zero.length ≤ 4 && zero.all (· = '0') &&
            looseQuad quad
      | _ => false

/-- One to four groups, `::` and a loose quad. -/
def embeddedQuad (cs : List Char) : Bool :=
  match Address.cutGap? cs with
  | some (left, right) =>
      match Address.groups? left with
      | some ls => 1 ≤ ls.length && ls.length ≤ 4 && looseQuad right
      | none => false
  | none => false

/-- The settings accept the text. -/
def isAccepted (text : String) : Bool :=
  let cs := text.toList
  (Address.quad? cs).isSome || plainGroups cs || linkLocal cs || mappedQuad cs ||
    embeddedQuad cs

/-! ## Resolvers -/

/-- The characters of a zone. -/
def isZoneChar (c : Char) : Bool :=
  c.isAlphanum || c = '-' || c = '.' || c = ':'

/-- An address of either family, an IPv6 one possibly with a zone. -/
def isZonedAddress (cs : List Char) : Bool :=
  let address := cs.takeWhile (· ≠ '%')
  (Address.quad? cs).isSome || (Address.wordsOfText? address).isSome &&
    match cs.dropWhile (· ≠ '%') with
    | [] => true
    | _ :: zone => zone ≠ [] && zone.all isZoneChar

/-- A text without the service number after its last colon. -/
def withoutService (cs : List Char) : List Char :=
  let number := cs.reverse.takeWhile Char.isDigit
  match cs.reverse.drop number.length with
  | ':' :: host => if number = [] ∨ host = [] then cs else host.reverse
  | _ => cs

/-- What stands between brackets at the start of a text. -/
def bracketed? : List Char → Option (List Char)
  | '[' :: rest =>
      let inner := rest.takeWhile fun c => c ≠ '[' && c ≠ ']'
      if (rest.drop inner.length).head? = some ']' then some inner else none
  | _ => none

/-- A resolver takes the text: an address, one in brackets, or one with a
    service number. -/
def isUsable (text : String) : Bool :=
  let cs := text.toList
  isZonedAddress cs || (bracketed? cs).any isZonedAddress || isZonedAddress (withoutService cs)

end Subnet.Nameserver
