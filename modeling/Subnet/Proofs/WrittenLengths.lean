import Subnet.Proofs.ContiguousMasks
import Subnet.Proofs.Suffixes

/-!
# Written lengths — a prefix length is the number that its digits denote

    Any number of digits may stand behind a slash, and what they are read as is
    rounded to 53 bits, or infinite.  Rounding cannot bring a number down into
    the range of a prefix length: beyond 53 bits the last place is worth two or
    more, and the places above it are kept, so the number stays where it is not
    a length (`ofNat_of_large`).  Hence a written length passes the check exactly
    if the digits denote a length, zeros in front or not.
-/

namespace Subnet

/-! ## Rounding -/

namespace Binary64

variable {n : Nat}

/-- Rounding a quotient never falls below its whole part. -/
theorem div_le_roundQuotient (n d : Nat) : n / d ≤ roundQuotient n d := by
  unfold roundQuotient
  dsimp only
  split_ifs
  all_goals omega

/-- A number of more than 53 bits is rounded to one that has as many, or to
    infinity. -/
theorem ofNat_of_large (h : 2 ^ 53 ≤ n) :
    ofNat n = infinite false ∨ ∃ m : Nat, 2 ^ 53 ≤ m ∧ ofNat n = finite (m : Rat) := by
  have hn : n ≠ 0 := by omega
  have hlog : 53 ≤ Nat.log2 n := (Nat.le_log2 hn).mpr h
  obtain ⟨places, hplaces⟩ : ∃ places, Nat.log2 n = 52 + (places + 1) :=
    ⟨Nat.log2 n - 53, by omega⟩
  have hlast : lastPlace n 1 = ((places + 1 : Nat) : Int) := by
    rw [lastPlace_one hn, hplaces]
    omega
  have hdown : (-((places + 1 : Nat) : Int)).toNat = 0 := by omega
  -- the quotient by the last place keeps 53 bits, and the last place is even
  have hquotient : 2 ^ 52 ≤ roundQuotient n (1 <<< (places + 1)) := by
    refine Nat.le_trans ?_ (div_le_roundQuotient n _)
    rw [Nat.one_shiftLeft, Nat.le_div_iff_mul_le (Nat.two_pow_pos _), ← pow_add, ← hplaces]
    exact Nat.log2_self_le hn
  have hlarge : 2 ^ 53 ≤ roundQuotient n (1 <<< (places + 1)) <<< (places + 1) := by
    calc 2 ^ 53 = 2 ^ 52 * 2 ^ 1 := by decide
      _ ≤ roundQuotient n (1 <<< (places + 1)) * 2 ^ (places + 1) :=
          Nat.mul_le_mul hquotient (Nat.pow_le_pow_right Nat.two_pos (Nat.le_add_left 1 places))
      _ = roundQuotient n (1 <<< (places + 1)) <<< (places + 1) := (Nat.shiftLeft_eq _ _).symm
  unfold ofNat ofFraction
  rw [if_neg hn]
  dsimp only
  rw [hlast, hdown, Int.toNat_natCast, Nat.shiftLeft_zero, if_neg Bool.false_ne_true]
  by_cases hoverflow : 1 <<< 1024 ≤ roundQuotient n (1 <<< (places + 1)) <<< (places + 1)
  · rw [if_pos hoverflow]
    exact Or.inl rfl
  · rw [if_neg hoverflow]
    exact Or.inr ⟨_, hlarge, congrArg finite (mkRat_shiftLeft _ 0)⟩

end Binary64

/-! ## Lengths -/

namespace Netmask

variable {f : Family} {m : Address} {n k : Nat}

/-- The check sees through the rounding. -/
theorem checkLength_ofNat_iff : checkLength f (.ofNat n) = .ok k ↔ k = n ∧ f.Admits n := by
  constructor
  · intro h
    obtain ⟨hfinite, hrange⟩ := checkLength_eq_ok_iff.mp h
    have hk : k = n := by
      rcases Nat.lt_or_ge n (2 ^ 53) with hsmall | hlarge
      · rw [Binary64.ofNat_eq_finite hsmall] at hfinite
        exact Nat.cast_injective (Binary64.finite.inj hfinite).symm
      · rcases Binary64.ofNat_of_large hlarge with hinfinite | ⟨rounded, hle, hrounded⟩
        · exact nomatch hfinite.symm.trans hinfinite
        · have heq : k = rounded :=
            Nat.cast_injective (Binary64.finite.inj (hfinite.symm.trans hrounded))
          have hwidth := f.width_le
          have hmax := hrange.2
          omega
    exact ⟨hk, hk ▸ hrange⟩
  · rintro ⟨rfl, hrange⟩
    exact checkLength_ofNat hrange

/-- A number that is written has a mask exactly if it is a prefix length, and the
    mask is its run. -/
theorem ofNumber_ofNat_iff :
    ofNumber f (.ofNat n) = .ok m ↔ f.Admits n ∧ m.family = f ∧ IsRun m n := by
  constructor
  · intro h
    obtain ⟨k, hk, rfl⟩ := exists_of_ofNumber h
    obtain ⟨rfl, hrange⟩ := checkLength_ofNat_iff.mp hk
    exact ⟨hrange, rfl, isRun_ofLength f k⟩
  · rintro ⟨hrange, rfl, hrun⟩
    exact (ofNumber_eq_ok_iff hrange).mpr (eq_ofLength_iff.mpr hrun)

end Netmask

/-! ## Texts -/

namespace Cidr

/-- **WRITTEN LENGTHS**: a text is cut exactly as it is written, and one that is
    not cut is refused with its suffix.  Digits behind the slash, however many,
    are the length they denote: they give a mask in a family exactly if that
    number is a length there, and then the mask of as many leading ones. -/
theorem split_written (text : String) (f : Family) :
    (∀ parts, split text f = .ok parts ↔ Splits f text parts) ∧
    (∀ e, split text f = .error e ↔ ∃ suffix, Unsplit f text suffix ∧
      e = .malformedSuffix suffix ∧ e.kind = .invalidLength ∧ e.input? = some suffix) ∧
    ∀ (address digits : String) (n : Nat), '/' ∉ address.toList →
      Grammar.Digits 10 digits.toList n → text = address ++ "/" ++ digits →
        ∃ number, split text f = .ok ⟨address, .length number⟩ ∧
          ∀ g m, Netmask.ofNumber g number = .ok m ↔
            g.Admits n ∧ m.family = g ∧ Netmask.IsRun m n := by
  refine ⟨fun _ => split_eq_ok_iff, ?_, ?_⟩
  · intro e
    rw [split_eq_error_iff]
    constructor
    · rintro ⟨suffix, hunsplit, rfl⟩
      exact ⟨suffix, hunsplit, rfl, rfl, rfl⟩
    · rintro ⟨suffix, hunsplit, he, -⟩
      exact ⟨suffix, hunsplit, he⟩
  · rintro address digits n haddress hdigits rfl
    exact ⟨.ofNat n, (Splits.length haddress hdigits).split_eq,
      fun _ _ => Netmask.ofNumber_ofNat_iff⟩

end Cidr

end Subnet
