import Subnet.Binary64.Basic

/-!
# Shortest text — the fewest digits that read back

    A finite number is written with the fewest decimal digits from which it can
    be read back, the nearest such decimal where there are several.  Digits
    stand in positional notation from a millionth up to below `10 ^ 21`, and
    with an exponent outside that range.
-/

namespace Subnet.Binary64

/-! ## Digits -/

/-- The exponent `e` with `10 ^ (e - 1) ≤ n / d < 10 ^ e`, for positive `n` and
    `d`. -/
def decimalPlaces (n d : Nat) : Int :=
  if d ≤ n then ((Nat.toDigits 10 (n / d)).length : Int)
  else 1 - ((Nat.toDigits 10 ((d - 1) / n)).length : Int)

/-- The decimal `c * 10 ^ e` reads back as the fraction `n / d` does. -/
def readsBack (n d c : Nat) (e : Int) : Bool :=
  ofFraction false (c * Nat.pow 10 e.toNat) (Nat.pow 10 (-e).toNat) = ofFraction false n d

/-- The multiple of `10 ^ e` nearest to `n / d` that reads back, if one of the
    two neighbours does. -/
def neighbour? (n d : Nat) (e : Int) : Option Nat :=
  let n' := n * Nat.pow 10 (-e).toNat
  let d' := d * Nat.pow 10 e.toNat
  let near := roundQuotient n' d'
  let below := n' / d'
  let far := if near = below then below + 1 else below
  if readsBack n d near e then some near
  else if readsBack n d far e then some far
  else none

/-- A coefficient and a decimal exponent of the shortest decimal that reads
    back as `n / d`; seventeen digits always suffice. -/
def shortestDecimal (n d : Nat) : Nat × Int :=
  let places := decimalPlaces n d
  let found := (List.range 17).findSome? fun (i : Nat) =>
    let e := places - (i : Int) - 1
    (neighbour? n d e).map fun c => (c, e)
  found.getD (0, 0)

/-! ## Layout -/

/-- Digits with the point after the first `point` of them. -/
def layout (ds : List Char) (point : Int) : List Char :=
  let k : Int := ds.length
  if k ≤ point ∧ point ≤ 21 then ds ++ List.replicate (point - k).toNat '0'
  else if 0 < point ∧ point ≤ 21 then ds.take point.toNat ++ ['.'] ++ ds.drop point.toNat
  else if -6 < point ∧ point ≤ 0 then "0.".toList ++ List.replicate (-point).toNat '0' ++ ds
  else
    let e := point - 1
    let sign := if e < 0 then '-' else '+'
    let fraction := if ds.length = 1 then [] else '.' :: ds.drop 1
    ds.take 1 ++ fraction ++ ['e', sign] ++ Nat.toDigits 10 e.natAbs

/-- The text of the positive fraction `n / d`. -/
def fractionChars (n d : Nat) : List Char :=
  let (c, e) := shortestDecimal n d
  let ds := Nat.toDigits 10 c
  layout (ds.reverse.dropWhile (· = '0')).reverse (ds.length + e)

/-- The text of a number. -/
def text : Binary64 → String
  | nan => "NaN"
  | infinite negative => if negative then "-Infinity" else "Infinity"
  | finite q =>
      if q.num = 0 then "0"
      else
        let sign := if q.num < 0 then ['-'] else []
        String.ofList (sign ++ fractionChars q.num.natAbs q.den)

end Subnet.Binary64
