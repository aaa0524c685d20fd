import Subnet.Address.Octets
import Subnet.Numeral
import Subnet.QueryError

/-!
# Reading addresses — dotted quads and colon-separated groups

    An IPv4 text is four canonical decimal octets.  An IPv6 text is a list of
    groups worth eight words, or two lists around one `::` that stands for the
    missing zero words; a dotted quad, worth two words, may close the text.
-/

namespace Subnet.Address

/-! ## Dotted quads -/

/-- A canonical decimal numeral up to 255. -/
def octet? (cs : List Char) : Option UInt8 :=
  match Numeral.canonicalDecimal? cs with
  | some n => if n < 256 then some (UInt8.ofNat n) else none
  | none => none

/-- The four octets of a dotted quad. -/
def quad? (cs : List Char) : Option (List UInt8) :=
  match (cs.splitOn '.').mapM octet? with
  | some os => if os.length = 4 then some os else none
  | none => none

/-! ## Groups -/

/-- A group: one to four hexadecimal digits of either case. -/
def group? (cs : List Char) : Option UInt16 :=
  if cs.length ≤ 4 then (Numeral.hexadecimal? cs).map UInt16.ofNat else none

/-- The words of colon-separated pieces of which the last may be a dotted
    quad. -/
def pieceWords? : List (List Char) → Option (List UInt16)
  | [] => some []
  | [piece] =>
      match group? piece with
      | some w => some [w]
      | none => (quad? piece).map pairOctets
  | piece :: rest =>
      match group? piece, pieceWords? rest with
      | some w, some ws => some (w :: ws)
      | _, _ => none

/-- The words of a possibly empty list of groups. -/
def groups? (cs : List Char) : Option (List UInt16) :=
  if cs = [] then some [] else (cs.splitOn ':').mapM group?

/-- The words of a possibly empty list of groups that a dotted quad may
    close. -/
def groupsOrQuad? (cs : List Char) : Option (List UInt16) :=
  if cs = [] then some [] else pieceWords? (cs.splitOn ':')

/-- What stands before and after the first `::`. -/
def cutGap? : List Char → Option (List Char × List Char)
  | ':' :: ':' :: rest => some ([], rest)
  | c :: rest => (cutGap? rest).map fun (left, right) => (c :: left, right)
  | [] => none

/-- The eight words of an IPv6 text. -/
def wordsOfText? (cs : List Char) : Option (List UInt16) :=
  match cutGap? cs with
  | some (left, right) =>
      match groups? left, groupsOrQuad? right with
      | some ls, some rs =>
          if ls.length + rs.length < 8 then
            some (ls ++ List.replicate (8 - (ls.length + rs.length)) 0 ++ rs)
          else none
      | _, _ => none
  | none =>
      match groupsOrQuad? cs with
      | some ws => if ws.length = 8 then some ws else none
      | none => none

/-! ## Addresses -/

/-- The address a text denotes in a family. -/
def ofChars? : Family → List Char → Option Address
  | .v4, cs => (quad? cs).map (ofOctets .v4)
  | .v6, cs => (wordsOfText? cs).map ofWords

/-- The address a text denotes in a family. -/
def parse? (text : String) (f : Family) : Option Address :=
  ofChars? f text.toList

/-- The address a text denotes in a family, or the text as the cause of an
    error. -/
def parse (text : String) (f : Family) : Except QueryError Address :=
  match parse? text f with
  | some a => .ok a
  | none => .error (.malformedAddress f text)

/-- A text is read exactly if the reader finds its address. -/
theorem parse_eq_ok_iff {text : String} {f : Family} {a : Address} :
    parse text f = .ok a ↔ parse? text f = some a := by
  unfold parse
  cases parse? text f with
  | some b => exact ⟨fun h => by rw [Except.ok.inj h], fun h => by rw [Option.some.inj h]⟩
  | none => exact ⟨nofun, nofun⟩

/-- The one error of reading quotes the text as it stands. -/
theorem parse_eq_error_iff {text : String} {f : Family} {e : QueryError} :
    parse text f = .error e ↔ e = .malformedAddress f text ∧ parse? text f = none := by
  unfold parse
  cases parse? text f with
  | some b => exact ⟨nofun, fun h => nomatch h.2⟩
  | none => exact ⟨fun h => ⟨(Except.error.inj h).symm, rfl⟩, fun h => by rw [h.1]⟩

end Subnet.Address
