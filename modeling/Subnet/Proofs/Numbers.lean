import Mathlib.Algebra.Order.Field.Rat
import Mathlib.Data.Nat.Log
import Mathlib.Data.Rat.Lemmas
import Subnet.Proofs.Blocks

/-!
# Numbers — a checked prefix length behaves as the integer it is

    Small integers are binary64 numbers and subtracting them is exact
    (`ofNat_eq_finite`, `subFrom_finite`), so a number that passed the check of
    a prefix length passes it again, and the functions on arbitrary numbers
    give what the functions on lengths give: no fraction, no huge power and no
    second refusal is left.
-/

namespace Subnet

namespace Binary64

/-! ## Integers -/

/-- A double is an integer exactly if it is finite with that value. -/
theorem toInt?_eq_some_iff {x : Binary64} {z : Int} : x.toInt? = some z ↔ x = finite z := by
  constructor
  · intro h
    unfold toInt? at h
    split at h
    · rename_i q
      split at h
      · rename_i hden
        obtain rfl := Option.some.inj h
        exact congrArg finite (Rat.den_eq_one_iff q |>.mp hden).symm
      · exact nomatch h
    · exact nomatch h
  · rintro rfl
    rfl

/-- A double is a natural number exactly if it is finite with that value. -/
theorem toNat?_eq_some_iff {x : Binary64} {n : Nat} :
    x.toNat? = some n ↔ x = finite (n : Rat) := by
  constructor
  · intro h
    unfold toNat? at h
    split at h
    · rename_i m hm
      obtain rfl := Option.some.inj h
      exact toInt?_eq_some_iff.mp hm
    · exact nomatch h
  · rintro rfl
    rfl

/-! ## Exactness -/

/-- A whole quotient needs no rounding. -/
theorem roundQuotient_one (n : Nat) : roundQuotient n 1 = n := by
  simp [roundQuotient, Nat.mod_one]

/-- The exponent of a whole number is its binary logarithm. -/
theorem binaryExponent_one {n : Nat} (h : n ≠ 0) : binaryExponent n 1 = Nat.log2 n := by
  have hlog : Nat.log2 1 = 0 := rfl
  have hle := Nat.log2_self_le h
  unfold binaryExponent
  simp only [hlog, Int.ofNat_zero, Int.sub_zero, Int.toNat_natCast, Nat.one_shiftLeft]
  rw [if_pos]
  simpa using hle

/-- The last of the 53 places of an integer. -/
theorem lastPlace_one {n : Nat} (h : n ≠ 0) : lastPlace n 1 = (Nat.log2 n : Int) - 52 := by
  unfold lastPlace
  rw [binaryExponent_one h]
  exact if_neg (by omega)

/-- A power of two cancels from numerator and denominator. -/
theorem mkRat_shiftLeft (n places : Nat) :
    mkRat ((n <<< places : Nat) : Int) (1 <<< places) = (n : Rat) := by
  have hpos : 2 ^ places ≠ 0 := (Nat.two_pow_pos places).ne'
  rw [Nat.shiftLeft_eq, Nat.shiftLeft_eq, Int.natCast_mul, Rat.mkRat_mul_right hpos, Rat.mkRat_one]
  rfl

/-- Integers of at most 53 bits are not rounded. -/
theorem ofNat_eq_finite {n : Nat} (h : n < 2 ^ 53) : ofNat n = finite (n : Rat) := by
  unfold ofNat ofFraction
  by_cases hn : n = 0
  · rw [if_pos hn, hn]
    rfl
  · have hlog : Nat.log2 n < 53 := (Nat.log2_lt hn).mpr h
    -- the last place is worth at most one, so nothing is rounded off
    have hup : ((Nat.log2 n : Int) - 52).toNat = 0 := by omega
    have hsmall : n <<< (-((Nat.log2 n : Int) - 52)).toNat < 1 <<< 1024 := by
      have hplaces : (-((Nat.log2 n : Int) - 52)).toNat ≤ 52 := by omega
      calc n <<< (-((Nat.log2 n : Int) - 52)).toNat
          = n * 2 ^ (-((Nat.log2 n : Int) - 52)).toNat := Nat.shiftLeft_eq _ _
        _ ≤ 2 ^ 53 * 2 ^ 52 :=
            Nat.mul_le_mul (Nat.le_of_lt h) (Nat.pow_le_pow_right Nat.two_pos hplaces)
        _ < 1 <<< 1024 := by decide +kernel
    rw [if_neg hn]
    dsimp only
    rw [lastPlace_one hn, hup, Nat.shiftLeft_zero, Nat.shiftLeft_zero, roundQuotient_one,
      if_neg (Nat.not_le_of_lt hsmall), if_neg Bool.false_ne_true, mkRat_shiftLeft]

/-- Subtracting from an integer of at most 53 bits is exact. -/
theorem subFrom_finite {m n : Nat} (hm : m < 2 ^ 53) (h : n ≤ m) :
    subFrom m (finite (n : Rat)) = finite ((m - n : Nat) : Rat) := by
  have hsub : (m : Rat) - (n : Rat) = ((m - n : Nat) : Rat) := (Nat.cast_sub h).symm
  show ofRat ((m : Rat) - (n : Rat)) = _
  rw [hsub]
  exact ofNat_eq_finite (Nat.lt_of_le_of_lt (Nat.sub_le m n) hm)

/-! ## Texts -/

/-- Numbers of the size of an exponent are written as they are. -/
theorem fractionChars_one : ∀ k ∈ List.range 128, fractionChars (k + 1) 1 = Nat.toDigits 10 (k + 1) := by
  decide +kernel

/-- Numbers up to the width of IPv6 are written in decimal. -/
theorem text_finite {k : Nat} (h : k ≤ 128) : (finite (k : Rat)).text = toString k := by
  cases k with
  | zero => rfl
  | succ k =>
      have hchars := fractionChars_one k (List.mem_range.mpr h)
      show String.ofList ([] ++ fractionChars (k + 1) 1) = _
      rw [List.nil_append, hchars]
      rfl

/-- Whole doubles are compared as natural numbers are, from above. -/
theorem atMost_finite {n k : Nat} : (finite (k : Rat)).atMost n = decide (k ≤ n) :=
  decide_eq_decide.mpr Nat.cast_le

/-- Whole doubles are compared as natural numbers are, from below. -/
theorem atLeast_finite {n k : Nat} : (finite (k : Rat)).atLeast n = decide (n ≤ k) :=
  decide_eq_decide.mpr Nat.cast_le

end Binary64

/-! ## Prefix lengths -/

/-- The integers that are prefix lengths of a family. -/
def Family.Admits (f : Family) (n : Nat) : Prop :=
  f.minPrefixLength ≤ n ∧ n ≤ f.width

/-- No address has more than 128 bits. -/
theorem Family.width_le (f : Family) : f.width ≤ 128 := by
  cases f <;> decide

/-- A length in range is one of the numbers that are not rounded. -/
theorem ofNat_of_admits {f : Family} {n : Nat} (h : f.Admits n) :
    Binary64.ofNat n = .finite (n : Rat) :=
  Binary64.ofNat_eq_finite (Nat.lt_of_le_of_lt (Nat.le_trans h.2 f.width_le) (by decide))

namespace Netmask

/-- A number is accepted exactly when it is an integer in range. -/
theorem checkLength_eq_ok_iff {f : Family} {x : Binary64} {n : Nat} :
    checkLength f x = .ok n ↔ x = .finite (n : Rat) ∧ f.Admits n := by
  unfold checkLength
  constructor
  · intro h
    split at h
    · rename_i m hm
      split at h
      · rename_i hrange
        obtain rfl := Except.ok.inj h
        exact ⟨Binary64.toNat?_eq_some_iff.mp hm, hrange⟩
      · exact nomatch h
    · exact nomatch h
  · rintro ⟨rfl, hrange⟩
    exact if_pos hrange

/-- A length in range passes the check. -/
theorem checkLength_ofNat {f : Family} {n : Nat} (h : f.Admits n) :
    checkLength f (.ofNat n) = .ok n :=
  checkLength_eq_ok_iff.mpr ⟨ofNat_of_admits h, h⟩

/-- A number that fails the check is quoted with its family. -/
theorem checkLength_error {f : Family} {x : Binary64} {e : QueryError}
    (h : checkLength f x = .error e) : e = .invalidLength f x := by
  unfold checkLength at h
  split at h
  · split at h
    · exact nomatch h
    · exact (Except.error.inj h).symm
  · exact (Except.error.inj h).symm

/-- Every other number is refused. -/
theorem checkLength_eq_error_iff {f : Family} {x : Binary64} {e : QueryError} :
    checkLength f x = .error e ↔
      e = .invalidLength f x ∧ ¬∃ n : Nat, x = .finite (n : Rat) ∧ f.Admits n :=
  eq_error_iff_of_ok_iff (fun _ => checkLength_eq_ok_iff) (fun _ => checkLength_error) e

end Netmask

namespace Network

variable {f : Family} {n : Nat}

/-- The block of a length is also that of the number. -/
theorem ofNumber_finite {a : Address} (h : a.family.Admits n) :
    ofNumber a (.finite (n : Rat)) = .ok (containing a n) := by
  rw [ofNumber, Netmask.checkLength_eq_ok_iff.mpr ⟨rfl, h⟩]
  rfl

/-- A length in range gives the block of that length. -/
theorem ofNumber_ofNat {a : Address} (h : a.family.Admits n) :
    ofNumber a (.ofNat n) = .ok (containing a n) := by
  rw [ofNat_of_admits h]
  exact ofNumber_finite h

/-- The open bits of a length in range are counted without rounding. -/
theorem subFrom_width (h : f.Admits n) :
    (Binary64.finite (n : Rat)).subFrom f.width = .finite ((f.width - n : Nat) : Rat) :=
  Binary64.subFrom_finite (Nat.lt_of_le_of_lt f.width_le (by decide)) h.2

/-- Two addresses can only be set aside where there are two. -/
theorem natCast_hostCount (f : Family) (n : Nat) :
    (hostCount f n : Int) =
      if f = .v4 ∧ n ≤ 30 then ((1 <<< (f.width - n) : Nat) : Int) - 2
      else ((1 <<< (f.width - n) : Nat) : Int) := by
  unfold hostCount
  dsimp only
  split
  · rename_i hreserved
    have hfour := four_le_of_reserves hreserved
    rw [Nat.one_shiftLeft]
    omega
  · rfl

/-- The host count of a length is also that of the number: the exponent is an
    integer and the power can be held. -/
theorem hostCountOfNumber_finite (h : f.Admits n) :
    hostCountOfNumber f (.finite (n : Rat)) = .ok (hostCount f n : Int) := by
  have hexponent : (Binary64.finite ((f.width - n : Nat) : Rat)).toInt? =
      some ((f.width - n : Nat) : Int) := Binary64.toInt?_eq_some_iff.mpr rfl
  have hlimit : ¬exponentLimit ≤ ((f.width - n : Nat) : Int) := by
    have hwidth := f.width_le
    unfold exponentLimit
    omega
  have hsign : ¬((f.width - n : Nat) : Int) < 0 := by omega
  unfold hostCountOfNumber
  rw [subFrom_width h, hexponent]
  dsimp only
  rw [if_neg hlimit, if_neg hsign, Int.toNat_natCast, Binary64.atMost_finite, natCast_hostCount]
  simp only [decide_eq_true_eq]

/-- For a length in range the text of the number of hosts exists. -/
theorem hostCountTextOfNumber_finite (h : f.Admits n) :
    hostCountTextOfNumber f (.finite (n : Rat)) = .ok (hostCountText f n) := by
  have hle : f.width - n ≤ 128 := Nat.le_trans (Nat.sub_le _ _) f.width_le
  unfold hostCountTextOfNumber hostCountText
  dsimp only
  rw [subFrom_width h, Binary64.atLeast_finite, Binary64.text_finite hle,
    hostCountOfNumber_finite h]
  simp only [decide_eq_true_eq]
  split
  · rfl
  · rfl

end Network

end Subnet
