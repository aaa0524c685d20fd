import Subnet.Netmask

/-!
# CIDR texts — an address with a prefix length or a netmask after a slash

    The suffix is a run of digits, read as a number however long it is, or for
    IPv4 the text of a netmask.  An IPv4 address may leave out its low octets.
-/

namespace Subnet.Cidr

/-- What follows the slash. -/
inductive Suffix where
  | absent
  | length (number : Binary64)
  | netmask (text : String)

namespace Suffix

/-- The number of a suffix that is one. -/
def length? : Suffix → Option Binary64
  | length number => some number
  | _ => none

/-- The netmask text of a suffix that is one. -/
def netmask? : Suffix → Option String
  | netmask text => some text
  | _ => none

end Suffix

/-- A text cut at its first slash. -/
structure Parts where
  address : String
  suffix : Suffix

/-- Cuts a text at its first slash and reads the suffix. -/
def split (text : String) (f : Family) : Except QueryError Parts :=
  let address := text.toList.takeWhile (· ≠ '/')
  match text.toList.dropWhile (· ≠ '/') with
  | [] => .ok ⟨text, .absent⟩
  | _ :: suffix =>
      match Numeral.decimal? suffix with
      | some n => .ok ⟨String.ofList address, .length (Binary64.ofNat n)⟩
      | none =>
          if f = .v4 ∧ '.' ∈ suffix then
            .ok ⟨String.ofList address, .netmask (String.ofList suffix)⟩
          else .error (.malformedSuffix (String.ofList suffix))

/-- Appends zero octets until the text has three dots. -/
def padShorthand (text : String) : String :=
  let missing := 3 - text.toList.count '.'
  text ++ String.ofList (List.replicate missing ".0".toList).flatten

end Subnet.Cidr
