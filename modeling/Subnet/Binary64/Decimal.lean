import Subnet.Binary64.Basic

/-!
# Decimal literals — reading a binary64 number from text

    A literal is an optional sign, digits with an optional point, and an
    optional exponent; `NaN` and the signed `Infinity` are literals too.  The
    result is the number nearest to the decimal value.
-/

namespace Subnet.Binary64

/-- The number nearest to `m * 10 ^ e`.  The bounds on the decimal exponent
    lie outside the range of the format, so they change no result and keep the
    powers small. -/
def ofDecimal (negative : Bool) (m : Nat) (e : Int) : Binary64 :=
  let places : Int := (Nat.toDigits 10 m).length + e
  if m = 0 ∨ places < -330 then finite 0
  else if 310 < places then infinite negative
  else ofFraction negative (m * Nat.pow 10 e.toNat) (Nat.pow 10 (-e).toNat)

/-- A sign and what follows it. -/
def cutSign : List Char → Bool × List Char
  | '-' :: rest => (true, rest)
  | '+' :: rest => (false, rest)
  | cs => (false, cs)

/-- The value of a run of digits, zero when it is empty. -/
def digitsValue (cs : List Char) : Nat :=
  Nat.ofDigitChars 10 cs 0

/-- The decimal exponent that closes a literal. -/
def exponent? : List Char → Option Int
  | [] => some 0
  | c :: rest =>
      let (negative, ds) := cutSign rest
      if (c = 'e' ∨ c = 'E') ∧ ds ≠ [] ∧ ds.all Char.isDigit then
        some (if negative then -(digitsValue ds : Int) else digitsValue ds)
      else none

/-- Digits with an optional point, and an optional exponent. -/
def magnitude? (negative : Bool) (cs : List Char) : Option Binary64 :=
  let whole := cs.takeWhile Char.isDigit
  let rest := cs.dropWhile Char.isDigit
  let (fraction, tail) := match rest with
    | '.' :: more => (more.takeWhile Char.isDigit, more.dropWhile Char.isDigit)
    | _ => ([], rest)
  if whole = [] ∧ fraction = [] then none
  else (exponent? tail).map fun e =>
    ofDecimal negative (digitsValue (whole ++ fraction)) (e - fraction.length)

/-- The number a literal denotes. -/
def parse? (text : String) : Option Binary64 :=
  if text = "NaN" then some nan
  else
    let (negative, cs) := cutSign text.toList
    if cs = "Infinity".toList then some (infinite negative) else magnitude? negative cs

end Subnet.Binary64
