import Subnet.Proofs.Nameservers
import Subnet.Proofs.Patterns

/-!
# Quad patterns — four numbers up to 255 as a regular expression

    A pattern cannot compare a number with 255; it goes by the digits instead.
    `ByDigits` lists the octets in the same way, and the only thought is that
    the list is complete (`byDigits_of_octet`).  The loose pattern makes most of
    its parts optional, which is what lets a superfluous zero in
    (`mem_looseOctet_iff`).
-/

namespace Subnet.Pattern

open RegularExpression
open Grammar

variable {cs : List Char}

/-! ## The patterns -/

/-- A decimal digit. -/
def digit : RegularExpression Char :=
  oneOf "0123456789"

/-- A number up to 255 without superfluous zeros, by its number of digits. -/
def octet : RegularExpression Char :=
  literal "25" * oneOf "012345" + char '2' * oneOf "01234" * digit + char '1' * digit * digit +
    oneOf "123456789" * digit + digit

/-- An IPv4 nameserver. -/
def v4 : RegularExpression Char :=
  repeated 3 3 (octet * char '.') * octet

/-- A number up to 255 that may have a zero in front of a single digit. -/
def looseOctet : RegularExpression Char :=
  literal "25" * oneOf "012345" +
    repeated 0 1 (char '2' * oneOf "01234" + repeated 0 1 (char '1') * digit) * digit

/-- Four loose octets joined by dots. -/
def looseQuad : RegularExpression Char :=
  repeated 3 3 (looseOctet * char '.') * looseOctet

/-! ## Digits -/

/-- A class of neighbouring digits. -/
theorem mem_digits_iff (chars : String) (low high : Nat) {c : Char} (hhigh : high < 10)
    (hchars : chars.toList = (List.range' low (high + 1 - low)).map Nat.digitChar) :
    c ∈ chars.toList ↔ ∃ d, low ≤ d ∧ d ≤ high ∧ Digit 10 c d := by
  rw [hchars, List.mem_map]
  simp only [List.mem_range'_1]
  constructor
  · rintro ⟨d, hd, rfl⟩
    exact ⟨d, hd.1, by omega, digit_digitChar (by decide) (by omega)⟩
  · rintro ⟨d, hlow, hle, hdigit⟩
    exact ⟨d, ⟨hlow, by omega⟩, (hdigit.eq_digitChar (Or.inl (Nat.le_refl 10))).symm⟩

/-- The class of digits has exactly the decimal digits. -/
theorem mem_decimal_iff {c : Char} :
    c ∈ "0123456789".toList ↔ ∃ d, Digit 10 c d := by
  rw [mem_digits_iff _ 0 9 (by decide) rfl]
  constructor
  · rintro ⟨d, -, -, hdigit⟩
    exact ⟨d, hdigit⟩
  · rintro ⟨d, hdigit⟩
    exact ⟨d, Nat.zero_le d, Nat.le_of_lt_succ hdigit.1, hdigit⟩

/-! ## Octets -/

/-- The octets by their digits: any single one, two of which the first is
    positive, and three that stay within the bound. -/
inductive ByDigits : List Char → Prop where
  | one {c : Char} {z : Nat} : Digit 10 c z → ByDigits [c]
  | two {b c : Char} {y z : Nat} : Digit 10 b y → 1 ≤ y → Digit 10 c z → ByDigits [b, c]
  | hundred {b c : Char} {y z : Nat} : Digit 10 b y → Digit 10 c z → ByDigits ['1', b, c]
  | twoHundred {b c : Char} {y z : Nat} : Digit 10 b y → y ≤ 4 → Digit 10 c z →
      ByDigits ['2', b, c]
  | twoHundredFifty {c : Char} {z : Nat} : Digit 10 c z → z ≤ 5 → ByDigits ['2', '5', c]

/-- A positive digit in front leaves no superfluous zero. -/
theorem octet_cons {c : Char} {rest : List Char} {x n : Nat} (hc : Digit 10 c x) (hpos : 1 ≤ x)
    (h : Digits 10 rest n) (hle : x * 10 ^ rest.length + n ≤ 255) :
    Octet (c :: rest) (x * 10 ^ rest.length + n) := by
  refine ⟨h.cons hc, ?_, hle⟩
  intro hhead
  obtain rfl := Option.some.inj hhead
  have hzero : x = 0 := (digit_ten_iff.mp hc).2
  omega

/-- A number of one of the listed shapes is an octet. -/
theorem ByDigits.exists_octet (h : ByDigits cs) : ∃ n, Octet cs n := by
  have hone : Digit 10 '1' 1 := digit_digitChar (by decide) (by decide)
  have htwo : Digit 10 '2' 2 := digit_digitChar (by decide) (by decide)
  have hfive : Digit 10 '5' 5 := digit_digitChar (by decide) (by decide)
  cases h with
  | @one c z hc =>
      refine ⟨z, digits_singleton hc, ?_, Nat.le_trans (Nat.le_of_lt hc.1) (by decide)⟩
      intro hhead
      rw [Option.some.inj hhead]
  | @two b c y z hb hpos hc =>
      have hvalue : y * 10 + z ≤ 255 := by
        have hy := hb.1
        have hz := hc.1
        omega
      exact ⟨_, octet_cons hb hpos (digits_singleton hc) hvalue⟩
  | @hundred b c y z hb hc =>
      have hvalue : 1 * 100 + (y * 10 + z) ≤ 255 := by
        have hy := hb.1
        have hz := hc.1
        omega
      exact ⟨_, octet_cons hone (by decide) ((digits_singleton hc).cons hb) hvalue⟩
  | @twoHundred b c y z hb hle hc =>
      have hvalue : 2 * 100 + (y * 10 + z) ≤ 255 := by
        have hz := hc.1
        omega
      exact ⟨_, octet_cons htwo (by decide) ((digits_singleton hc).cons hb) hvalue⟩
  | @twoHundredFifty c z hc hle =>
      have hvalue : 2 * 100 + (5 * 10 + z) ≤ 255 := by omega
      exact ⟨_, octet_cons htwo (by decide) ((digits_singleton hc).cons hfive) hvalue⟩

/-- An octet has one of the listed shapes. -/
theorem byDigits_of_octet {n : Nat} (h : Octet cs n) : ByDigits cs := by
  obtain ⟨-, ds, hds, hn⟩ := h.digits
  have hlength := h.length_le
  have hpos : ∀ c rest x, cs = c :: rest → rest ≠ [] → Digit 10 c x → 1 ≤ x := by
    rintro c rest x rfl hrest hc
    by_contra hzero
    obtain rfl : x = 0 := by omega
    have hcanonical := h.canonical (congrArg some (hc.eq_digitChar (Or.inl (Nat.le_refl 10))))
    exact hrest (List.cons.inj hcanonical).2
  match cs, ds, hds with
  | [], _, _ => exact absurd rfl h.digits.1
  | [c], [z], .cons hc .nil => exact ByDigits.one hc
  | [b, c], [y, z], .cons hb (.cons hc .nil) =>
      exact ByDigits.two hb (hpos b [c] y rfl (List.cons_ne_nil _ _) hb) hc
  | [a, b, c], [x, y, z], .cons ha (.cons hb (.cons hc .nil)) =>
      have hx := hpos a [b, c] x rfl (List.cons_ne_nil _ _) ha
      have hvalue : n = 100 * x + 10 * y + z := by
        rw [hn]
        simp [Radix.value]
        omega
      have hle := h.le
      have hcases : x = 1 ∨ x = 2 ∧ y ≤ 4 ∨ x = 2 ∧ y = 5 ∧ z ≤ 5 := by omega
      obtain rfl := ha.eq_digitChar (Or.inl (Nat.le_refl 10))
      rcases hcases with rfl | ⟨rfl, hy⟩ | ⟨rfl, rfl, hz⟩
      · exact ByDigits.hundred hb hc
      · exact ByDigits.twoHundred hb hy hc
      · obtain rfl := hb.eq_digitChar (Or.inl (Nat.le_refl 10))
        exact ByDigits.twoHundredFifty hc hz
  | a :: b :: c :: d :: rest, _, _ =>
      simp only [List.length_cons] at hlength
      omega

/-- The pattern of an octet matches exactly the octets of the grammar. -/
theorem mem_octet_iff : cs ∈ octet.matches' ↔ ∃ n, Octet cs n := by
  simp only [octet, digit, matches'_add, Language.mem_add, mem_mul_oneOf_iff, mem_oneOf_iff,
    mem_literal_iff, mem_char_iff, mem_decimal_iff, mem_digits_iff "012345" 0 5 (by decide) rfl,
    mem_digits_iff "01234" 0 4 (by decide) rfl, mem_digits_iff "123456789" 1 9 (by decide) rfl]
  constructor
  · rintro ((((h | h) | h) | h) | h)
    · obtain ⟨_, rfl, c, ⟨z, -, hz, hc⟩, rfl⟩ := h
      exact (ByDigits.twoHundredFifty hc hz).exists_octet
    · obtain ⟨_, ⟨_, rfl, b, ⟨y, -, hy, hb⟩, rfl⟩, c, ⟨z, hc⟩, rfl⟩ := h
      exact (ByDigits.twoHundred hb hy hc).exists_octet
    · obtain ⟨_, ⟨_, rfl, b, ⟨y, hb⟩, rfl⟩, c, ⟨z, hc⟩, rfl⟩ := h
      exact (ByDigits.hundred hb hc).exists_octet
    · obtain ⟨_, ⟨b, ⟨y, hy, -, hb⟩, rfl⟩, c, ⟨z, hc⟩, rfl⟩ := h
      exact (ByDigits.two hb hy hc).exists_octet
    · obtain ⟨c, ⟨z, hc⟩, rfl⟩ := h
      exact (ByDigits.one hc).exists_octet
  · rintro ⟨n, h⟩
    cases byDigits_of_octet h with
    | one hc =>
        right
        exact ⟨_, ⟨_, hc⟩, rfl⟩
    | two hb hpos hc =>
        left; right
        exact ⟨_, ⟨_, ⟨_, hpos, Nat.le_of_lt_succ hb.1, hb⟩, rfl⟩, _, ⟨_, hc⟩, rfl⟩
    | hundred hb hc =>
        left; left; right
        exact ⟨_, ⟨_, rfl, _, ⟨_, hb⟩, rfl⟩, _, ⟨_, hc⟩, rfl⟩
    | twoHundred hb hle hc =>
        left; left; left; right
        exact ⟨_, ⟨_, rfl, _, ⟨_, Nat.zero_le _, hle, hb⟩, rfl⟩, _, ⟨_, hc⟩, rfl⟩
    | twoHundredFifty hc hle =>
        left; left; left; left
        exact ⟨_, rfl, _, ⟨_, Nat.zero_le _, hle, hc⟩, rfl⟩

/-- The strict shapes are among the loose ones. -/
theorem ByDigits.looseOctet (h : ByDigits cs) : LooseOctet cs := by
  obtain ⟨n, hn⟩ := h.exists_octet
  exact LooseOctet.canonical hn

/-- The loose pattern of an octet matches exactly what the matcher takes for one. -/
theorem mem_looseOctet_iff : cs ∈ looseOctet.matches' ↔ LooseOctet cs := by
  simp only [looseOctet, digit, matches'_add, Language.mem_add, mem_optional_iff,
    mem_mul_oneOf_iff, mem_literal_iff, mem_char_iff, mem_decimal_iff,
    mem_digits_iff "012345" 0 5 (by decide) rfl, mem_digits_iff "01234" 0 4 (by decide) rfl]
  constructor
  · rintro (⟨_, rfl, c, ⟨z, -, hz, hc⟩, rfl⟩ | ⟨_, hfront, c, ⟨z, hc⟩, rfl⟩)
    · exact (ByDigits.twoHundredFifty hc hz).looseOctet
    · rcases hfront with rfl | ⟨_, rfl, b, ⟨y, -, hy, hb⟩, rfl⟩ | ⟨_, rfl | rfl, b, ⟨y, hb⟩, rfl⟩
      · exact (ByDigits.one hc).looseOctet
      · exact (ByDigits.twoHundred hb hy hc).looseOctet
      · -- nothing keeps the first of two digits from being a zero
        rcases Nat.eq_zero_or_pos y with rfl | hy
        · obtain rfl := hb.eq_digitChar (Or.inl (Nat.le_refl 10))
          exact LooseOctet.padded hc
        · exact (ByDigits.two hb hy hc).looseOctet
      · exact (ByDigits.hundred hb hc).looseOctet
  · intro h
    cases h with
    | padded hc =>
        have hzero : Digit 10 '0' 0 := digit_digitChar (by decide) (by decide)
        right
        exact ⟨_, Or.inr (Or.inr ⟨[], Or.inl rfl, _, ⟨_, hzero⟩, rfl⟩), _, ⟨_, hc⟩, rfl⟩
    | canonical h =>
        cases byDigits_of_octet h with
        | one hc =>
            right
            exact ⟨[], Or.inl rfl, _, ⟨_, hc⟩, rfl⟩
        | two hb hpos hc =>
            right
            exact ⟨_, Or.inr (Or.inr ⟨[], Or.inl rfl, _, ⟨_, hb⟩, rfl⟩), _, ⟨_, hc⟩, rfl⟩
        | hundred hb hc =>
            right
            exact ⟨_, Or.inr (Or.inr ⟨_, Or.inr rfl, _, ⟨_, hb⟩, rfl⟩), _, ⟨_, hc⟩, rfl⟩
        | twoHundred hb hle hc =>
            right
            exact ⟨_, Or.inr (Or.inl ⟨_, rfl, _, ⟨_, Nat.zero_le _, hle, hb⟩, rfl⟩),
              _, ⟨_, hc⟩, rfl⟩
        | twoHundredFifty hc hle =>
            left
            exact ⟨_, rfl, _, ⟨_, Nat.zero_le _, hle, hc⟩, rfl⟩

/-! ## Quads -/

/-- Three parts that a dot follows and one more are four parts joined by dots. -/
theorem mem_quad_iff {P : RegularExpression Char} :
    cs ∈ (repeated 3 3 (P * char '.') * P).matches' ↔
      ∃ p q r s, p ∈ P.matches' ∧ q ∈ P.matches' ∧ r ∈ P.matches' ∧ s ∈ P.matches' ∧
        cs = p ++ '.' :: (q ++ '.' :: (r ++ '.' :: s)) := by
  rw [matches'_mul, Language.mem_mul]
  simp only [mem_repeated_iff fun _ => mem_mul_char_iff]
  constructor
  · rintro ⟨_, ⟨parts, hlow, hhigh, hparts, rfl⟩, s, hs, rfl⟩
    match parts, Nat.le_antisymm hhigh hlow with
    | [p, q, r], _ =>
        obtain ⟨hp, hq, hr⟩ : p ∈ P.matches' ∧ q ∈ P.matches' ∧ r ∈ P.matches' := by
          simpa using hparts
        exact ⟨p, q, r, s, hp, hq, hr, hs, by simp⟩
  · rintro ⟨p, q, r, s, hp, hq, hr, hs, rfl⟩
    refine ⟨_, ⟨[p, q, r], Nat.le_refl 3, Nat.le_refl 3, ?_, rfl⟩, s, hs, by simp⟩
    simp [hp, hq, hr]

/-- The IPv4 pattern matches exactly the quads of the grammar. -/
theorem mem_v4_iff : cs ∈ v4.matches' ↔ ∃ os, Quad cs os := by
  rw [v4, mem_quad_iff]
  simp only [mem_octet_iff]
  constructor
  · rintro ⟨p, q, r, s, ⟨_, hp⟩, ⟨_, hq⟩, ⟨_, hr⟩, ⟨_, hs⟩, rfl⟩
    exact ⟨_, Quad.mk hp hq hr hs⟩
  · rintro ⟨_, hp, hq, hr, hs⟩
    exact ⟨_, _, _, _, ⟨_, hp⟩, ⟨_, hq⟩, ⟨_, hr⟩, ⟨_, hs⟩, rfl⟩

/-- The loose pattern of a quad matches exactly the loose quads. -/
theorem mem_looseQuad_iff : cs ∈ looseQuad.matches' ↔ LooseQuad cs := by
  rw [looseQuad, mem_quad_iff]
  simp only [mem_looseOctet_iff]
  constructor
  · rintro ⟨p, q, r, s, hp, hq, hr, hs, rfl⟩
    exact LooseQuad.mk hp hq hr hs
  · rintro ⟨hp, hq, hr, hs⟩
    exact ⟨_, _, _, _, hp, hq, hr, hs, rfl⟩

end Subnet.Pattern
