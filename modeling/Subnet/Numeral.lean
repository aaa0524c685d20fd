import Subnet.Radix

/-!
# Numerals — natural numbers in decimal and hexadecimal digits

    Only the ASCII digits count as digits.  A decimal numeral is canonical when
    it has no superfluous leading zero, so that each number has one.
-/

namespace Subnet.Numeral

/-- The value of a hexadecimal digit of either case. -/
def hexDigit? (c : Char) : Option Nat :=
  if c.isDigit then some (c.toNat - '0'.toNat)
  else if 'a' ≤ c ∧ c ≤ 'f' then some (c.toNat - 'a'.toNat + 10)
  else if 'A' ≤ c ∧ c ≤ 'F' then some (c.toNat - 'A'.toNat + 10)
  else none

/-- The number a non-empty run of decimal digits denotes. -/
def decimal? (cs : List Char) : Option Nat :=
  if cs ≠ [] ∧ cs.all Char.isDigit then some (Nat.ofDigitChars 10 cs 0) else none

/-- The number a decimal numeral without superfluous zeros denotes. -/
def canonicalDecimal? (cs : List Char) : Option Nat :=
  if cs.head? = some '0' ∧ cs ≠ ['0'] then none else decimal? cs

/-- The number a non-empty run of hexadecimal digits denotes. -/
def hexadecimal? (cs : List Char) : Option Nat :=
  if cs = [] then none else (cs.mapM hexDigit?).map (Radix.value 16)

end Subnet.Numeral
