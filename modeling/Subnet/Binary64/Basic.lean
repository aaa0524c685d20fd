/-!
# Binary64 — numbers of 53 significant bits

    A prefix length may be given as any number of the IEEE 754 binary64 format,
    so that fractions, huge values and infinities can be refused by name.  A
    finite number is held as the exact rational it stands for; both zeros are
    the rational zero.  Arithmetic is exact, followed by one rounding to the
    nearest representable number, a tie going to the even significand.
-/

namespace Subnet

/-- A number of the binary64 format. -/
inductive Binary64 where
  | nan
  | infinite (negative : Bool)
  | finite (value : Rat)
  deriving DecidableEq

namespace Binary64

/-! ## Rounding -/

/-- The natural number nearest to `n / d`, a tie going to the even one. -/
def roundQuotient (n d : Nat) : Nat :=
  let quotient := n / d
  let rest := n % d
  if 2 * rest < d then quotient
  else if d < 2 * rest then quotient + 1
  else if quotient % 2 = 0 then quotient
  else quotient + 1

/-- The exponent of the greatest power of two that is at most `n / d`, for
    positive `n` and `d`. -/
def binaryExponent (n d : Nat) : Int :=
  let e : Int := (Nat.log2 n : Int) - (Nat.log2 d : Int)
  if d <<< e.toNat ≤ n <<< (-e).toNat then e else e - 1

/-- The exponent of the last place of the significand of `n / d`: 53 bits are
    kept, fewer below the least normal number. -/
def lastPlace (n d : Nat) : Int :=
  let e := binaryExponent n d
  if e < -1022 then -1074 else e - 52

/-- The number nearest to `n / d`, negated on demand. -/
def ofFraction (negative : Bool) (n d : Nat) : Binary64 :=
  if n = 0 then finite 0
  else
    let u := lastPlace n d
    let significand := roundQuotient (n <<< (-u).toNat) (d <<< u.toNat)
    let magnitude := significand <<< u.toNat
    if 1 <<< 1024 ≤ magnitude then infinite negative
    else finite (mkRat (if negative then -(magnitude : Int) else magnitude) (1 <<< (-u).toNat))

/-- The number nearest to a rational. -/
def ofRat (q : Rat) : Binary64 :=
  ofFraction (decide (q.num < 0)) q.num.natAbs q.den

/-- The number nearest to a natural number. -/
def ofNat (n : Nat) : Binary64 :=
  ofFraction false n 1

/-- The number nearest to an integer. -/
def ofInt (n : Int) : Binary64 :=
  ofFraction (decide (n < 0)) n.natAbs 1

/-! ## Reading off -/

/-- The integer a number is, if it is one. -/
def toInt? : Binary64 → Option Int
  | finite q => if q.den = 1 then some q.num else none
  | _ => none

/-- The natural number a number is, if it is one. -/
def toNat? (x : Binary64) : Option Nat :=
  match x.toInt? with
  | some (.ofNat n) => some n
  | _ => none

/-- The number is at most `n`; NaN is not. -/
def atMost (n : Nat) : Binary64 → Bool
  | nan => false
  | infinite negative => negative
  | finite q => decide (q ≤ (n : Rat))

/-- The number is at least `n`; NaN is not. -/
def atLeast (n : Nat) : Binary64 → Bool
  | nan => false
  | infinite negative => !negative
  | finite q => decide ((n : Rat) ≤ q)

/-- The difference `n - x`, rounded once. -/
def subFrom (n : Nat) : Binary64 → Binary64
  | nan => nan
  | infinite negative => infinite (!negative)
  | finite q => ofRat ((n : Rat) - q)

end Binary64

end Subnet
