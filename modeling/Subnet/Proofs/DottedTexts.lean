import Mathlib.Algebra.BigOperators.Fin
import Subnet.Proofs.CanonicalText
import Subnet.Proofs.Readings

/-!
# Dotted texts — IPv4 addresses, and networks with their low octets left out

    An IPv4 address is written in one way only: four decimal octets joined by
    dots, no zero in front (`parse_v4_canonical`).  A network may be written
    with fewer, and `.0` is appended until there are three dots, whatever stands
    between them.  That a malformed text stays malformed is seen on the pieces
    between the dots: each `.0` adds one piece at the end and touches no other
    (`octets_append_zero_iff`).
-/

namespace Subnet

open Cidr (padShorthand padShorthand_of_enough toList_padShorthand)

/-! ## Places -/

/-- Digits with further places behind them count by the place each is in. -/
theorem Radix.value_mul_pow_eq_sum (base : Nat) (ds : List Nat) (places : Nat) :
    value base ds * base ^ places =
      ∑ i : Fin ds.length, ds[i] * base ^ (ds.length + places - 1 - i) := by
  induction ds with
  | nil => simp
  | cons d ds ih =>
      have hfirst : ds.length + 1 + places - 1 - 0 = ds.length + places := by omega
      have hnext : ∀ i : Fin ds.length,
          ds.length + 1 + places - 1 - (i.val + 1) = ds.length + places - 1 - i := by
        intro i
        omega
      calc value base (d :: ds) * base ^ places
          = d * base ^ (ds.length + places) + value base ds * base ^ places := by
            rw [value_cons, Nat.add_mul, Nat.mul_assoc, ← pow_add]
        _ = d * base ^ (ds.length + 1 + places - 1 - 0) +
              ∑ i : Fin ds.length, ds[i] * base ^ (ds.length + 1 + places - 1 - (i.val + 1)) := by
            simp only [hfirst, hnext, ih]
        _ = ∑ i : Fin (ds.length + 1),
              (d :: ds)[i] * base ^ (ds.length + 1 + places - 1 - i) := by
            rw [Fin.sum_univ_succ]
            rfl

namespace Grammar

variable {text : String} {cs : List Char} {ns : List Nat} {a : Address}

/-- Decimal octets joined by single dots, as many as there are. -/
inductive Octets : List Char → List Nat → Prop where
  | last {cs : List Char} {n : Nat} : Octet cs n → Octets cs [n]
  | cons {cs rest : List Char} {n : Nat} {ns : List Nat} : Octet cs n → Octets rest ns →
      Octets (cs ++ '.' :: rest) (n :: ns)

/-! ## Octets -/

/-- Octets joined by dots are one at least. -/
theorem Octets.length_pos (h : Octets cs ns) : 1 ≤ ns.length := by
  cases h with
  | last => exact Nat.le_refl 1
  | cons => exact Nat.le_add_left 1 _

/-- There is one dot less than there are octets. -/
theorem Octets.count_dot (h : Octets cs ns) : cs.count '.' + 1 = ns.length := by
  induction h with
  | last hoctet => rw [List.count_eq_zero.mpr (hoctet.not_mem rfl)]; rfl
  | cons hoctet _ ih =>
      rw [List.count_append, List.count_eq_zero.mpr (hoctet.not_mem rfl), List.count_cons_self,
        Nat.zero_add, ih, List.length_cons]

/-- Octets are joined by putting a dot between any two of them. -/
theorem octets_of_pieces {pieces : List (List Char)} (h : List.Forall₂ Octet pieces ns)
    (hne : pieces ≠ []) : Octets (['.'].intercalate pieces) ns := by
  induction h with
  | nil => exact absurd rfl hne
  | @cons piece n rest ns hoctet hrest ih =>
      cases hrest with
      | nil =>
          rw [List.intercalate_singleton]
          exact Octets.last hoctet
      | cons hnext hrest =>
          have hoctets := Octets.cons hoctet (ih (List.cons_ne_nil _ _))
          rw [List.intercalate_cons_cons]
          simpa using hoctets

/-- A text is cut at its dots into as many octets as it joins. -/
theorem octets_iff_pieces : Octets cs ns ↔ List.Forall₂ Octet (cs.splitOn '.') ns := by
  constructor
  · intro h
    induction h with
    | last hoctet =>
        rw [List.splitOn_eq_singleton (hoctet.not_mem rfl)]
        exact .cons hoctet .nil
    | cons hoctet _ ih =>
        rw [List.splitOn_append_cons_self_of_not_mem (hoctet.not_mem rfl)]
        exact .cons hoctet ih
  · intro h
    have hoctets := octets_of_pieces h (List.splitOn_ne_nil '.' cs)
    rwa [List.intercalate_splitOn] at hoctets

/-- A quad is four octets joined by dots. -/
theorem quad_iff_octets : Quad cs ns ↔ Octets cs ns ∧ ns.length = 4 := by
  constructor
  · intro h
    refine ⟨?_, h.length_eq⟩
    cases h with
    | mk hp hq hr hs => exact .cons hp (.cons hq (.cons hr (.last hs)))
  · rintro ⟨hoctets, hlength⟩
    match ns, hlength with
    | [_, _, _, _], _ =>
        cases hoctets with
        | cons hp hoctets => cases hoctets with
          | cons hq hoctets => cases hoctets with
            | cons hr hoctets => cases hoctets with
              | last hs => exact Quad.mk hp hq hr hs
              | cons _ hnone => exact nomatch hnone

/-! ## Zero octets -/

/-- The text of a zero octet denotes nothing but zero. -/
theorem octet_zero_iff {n : Nat} : Octet ['0'] n ↔ n = 0 := by
  constructor
  · intro h
    have hread := canonicalDecimal?_eq_some_iff.mpr ⟨h.digits, h.canonical⟩
    exact (Option.some.inj hread).symm
  · rintro rfl
    exact octet_toDigits 0

/-- One more zero octet is one more piece, and changes none of the others. -/
theorem octets_append_zero_iff :
    Octets (cs ++ ".0".toList) ns ↔ ∃ os, Octets cs os ∧ ns = os ++ [0] := by
  have hsplit : (cs ++ ".0".toList).splitOn '.' = cs.splitOn '.' ++ [['0']] :=
    List.splitOn_append_cons_self cs ['0']
  simp only [octets_iff_pieces, hsplit]
  constructor
  · intro h
    have hinit := List.forall₂_take_append ns _ _ h.flip
    have hlast := List.forall₂_drop_append ns _ _ h.flip
    obtain ⟨n, rest, hn, hrest, hdrop⟩ := List.forall₂_cons_right_iff.mp hlast
    obtain rfl := List.forall₂_nil_right_iff.mp hrest
    obtain rfl := octet_zero_iff.mp hn
    refine ⟨_, hinit.flip, ?_⟩
    rw [← hdrop, List.take_append_drop]
  · rintro ⟨os, hos, rfl⟩
    exact List.rel_append hos (.cons (octet_zero_iff.mpr rfl) .nil)

/-- Zero octets at the end are pieces of their own, however many. -/
theorem octets_append_zeros_iff (count : Nat) :
    Octets (cs ++ (List.replicate count ".0".toList).flatten) ns ↔
      ∃ os, Octets cs os ∧ ns = os ++ List.replicate count 0 := by
  induction count generalizing ns with
  | zero => simp
  | succ count ih =>
      rw [List.replicate_succ', List.flatten_append, List.flatten_singleton, ← List.append_assoc,
        octets_append_zero_iff]
      simp only [ih]
      constructor
      · rintro ⟨_, ⟨os, hos, rfl⟩, rfl⟩
        exact ⟨os, hos, by rw [List.replicate_succ', List.append_assoc]⟩
      · rintro ⟨os, hos, rfl⟩
        exact ⟨_, ⟨os, hos, rfl⟩, by rw [List.replicate_succ', List.append_assoc]⟩

/-! ## Reading quads -/

/-- Four octets make the address with their value. -/
theorem value_ofOctets {os : List UInt8} (h : os.length = 4) :
    (Address.ofOctets .v4 os).value = Radix.value 256 (os.map UInt8.toNat) := by
  have hlt := Radix.value_lt (Address.lt_of_mem_map_toNat_octets os)
  rw [List.length_map, h] at hlt
  exact Nat.mod_eq_of_lt hlt

/-- The IPv4 addresses that are read are those of the grammar's octets. -/
theorem parse?_v4_eq_some_iff :
    Address.parse? text .v4 = some a ↔
      a.family = .v4 ∧ ∃ ns, Quad text.toList ns ∧ a.value = Radix.value 256 ns := by
  show (Address.quad? text.toList).map (Address.ofOctets .v4) = some a ↔ _
  rw [Option.map_eq_some_iff]
  constructor
  · rintro ⟨os, hread, rfl⟩
    have hquad := quad?_eq_some_iff.mp hread
    exact ⟨rfl, _, hquad, value_ofOctets hquad.length_octets⟩
  · rintro ⟨hfamily, ns, hquad, hvalue⟩
    obtain ⟨os, rfl, hread⟩ := hquad.read
    refine ⟨os, hread, Address.ext hfamily.symm ?_⟩
    exact (value_ofOctets hquad.length_octets).trans hvalue.symm

/-- A text is refused exactly if it is no quad, and the error quotes it. -/
theorem parse_v4_eq_error_iff {e : QueryError} :
    Address.parse text .v4 = .error e ↔
      e = .malformedAddress .v4 text ∧ ¬∃ ns, Quad text.toList ns := by
  rw [Address.parse_eq_error_iff, Option.eq_none_iff_forall_ne_some]
  refine and_congr_right fun _ => ⟨?_, ?_⟩
  · rintro hnone ⟨ns, hquad⟩
    obtain ⟨os, rfl, hread⟩ := hquad.read
    exact hnone (Address.ofOctets .v4 os) (congrArg (Option.map _) hread)
  · intro hno a ha
    obtain ⟨-, ns, hquad, -⟩ := parse?_v4_eq_some_iff.mp ha
    exact hno ⟨ns, hquad⟩

/-- What is read is what is written. -/
theorem parse?_v4_iff_text :
    Address.parse? text .v4 = some a ↔ a.family = .v4 ∧ a.text = text := by
  constructor
  · intro h
    exact ⟨(parse?_v4_eq_some_iff.mp h).1, text_of_parse?_v4 h⟩
  · rintro ⟨hfamily, rfl⟩
    have hread := parse?_text a
    rwa [hfamily] at hread

/-- **IPv4 TEXTS ARE CANONICAL**: the texts that are read are four octets joined
    by dots, and each is the text that is written for what was read; so no two
    texts are the same address. -/
theorem parse_v4_canonical (text : String) :
    (∀ a, Address.parse text .v4 = .ok a ↔
      a.family = .v4 ∧ ∃ ns, Quad text.toList ns ∧ a.value = Radix.value 256 ns) ∧
    (∀ e, Address.parse text .v4 = .error e ↔
      e = .malformedAddress .v4 text ∧ ¬∃ ns, Quad text.toList ns) ∧
    (∀ a, Address.parse text .v4 = .ok a ↔ a.family = .v4 ∧ a.text = text) ∧
    ∀ other, (∃ a, Address.parse text .v4 = .ok a ∧ Address.parse other .v4 = .ok a) ↔
      other = text ∧ ∃ a, Address.parse text .v4 = .ok a := by
  simp only [Address.parse_eq_ok_iff]
  refine ⟨fun _ => parse?_v4_eq_some_iff, fun _ => parse_v4_eq_error_iff,
    fun _ => parse?_v4_iff_text, ?_⟩
  intro other
  constructor
  · rintro ⟨a, htext, hother⟩
    obtain ⟨-, hwritten⟩ := parse?_v4_iff_text.mp htext
    obtain ⟨-, rfl⟩ := parse?_v4_iff_text.mp hother
    exact ⟨hwritten, a, htext⟩
  · rintro ⟨rfl, a, ha⟩
    exact ⟨a, ha, ha⟩

/-! ## Shorthands -/

/-- Each zero octet that is appended has one dot. -/
theorem count_dot_zeros (count : Nat) :
    (List.replicate count ".0".toList).flatten.count '.' = count := by
  induction count with
  | zero => rfl
  | succ count ih =>
      have hdot : ".0".toList.count '.' = 1 := rfl
      rw [List.replicate_succ, List.flatten_cons, List.count_append, ih, hdot, Nat.add_comm]

/-- Padding reaches three dots and does not go beyond. -/
theorem count_dot_padShorthand (text : String) :
    (padShorthand text).toList.count '.' = max 3 (text.toList.count '.') := by
  rw [toList_padShorthand, List.count_append, count_dot_zeros]
  omega

/-- Exactly the texts with three dots are left as they are. -/
theorem padShorthand_eq_self_iff : padShorthand text = text ↔ 3 ≤ text.toList.count '.' := by
  constructor
  · intro h
    rw [← h, count_dot_padShorthand]
    exact Nat.le_max_left 3 _
  · exact padShorthand_of_enough

/-- A padded text is a quad when the octets were there and only some were missing. -/
theorem quad_padShorthand_iff :
    Quad (padShorthand text).toList ns ↔
      ∃ os, Octets text.toList os ∧ os.length ≤ 4 ∧ ns = os ++ List.replicate (4 - os.length) 0 := by
  rw [quad_iff_octets, toList_padShorthand, octets_append_zeros_iff]
  constructor
  · rintro ⟨⟨os, hos, rfl⟩, hlength⟩
    have hdots := hos.count_dot
    rw [List.length_append, List.length_replicate] at hlength
    have hmissing : 3 - text.toList.count '.' = 4 - os.length := by omega
    exact ⟨os, hos, by omega, by rw [hmissing]⟩
  · rintro ⟨os, hos, hlength, rfl⟩
    have hdots := hos.count_dot
    have hmissing : 3 - text.toList.count '.' = 4 - os.length := by omega
    refine ⟨⟨os, hos, by rw [hmissing]⟩, ?_⟩
    rw [List.length_append, List.length_replicate]
    omega

/-- The octets that are missing count nothing. -/
theorem value_padded {os : List Nat} (hlength : os.length ≤ 4) :
    Radix.value 256 (os ++ List.replicate (4 - os.length) 0) =
      ∑ i : Fin os.length, os[i] * 256 ^ (3 - i.val) := by
  rw [Radix.value_append, Radix.value_replicate_zero, List.length_replicate, Nat.add_zero,
    Radix.value_mul_pow_eq_sum]
  refine Finset.sum_congr rfl fun i _ => ?_
  have hplace : os.length + (4 - os.length) - 1 - i.val = 3 - i.val := by omega
  rw [hplace]

/-- **SHORTHANDS**: a text that is padded is read exactly when it is one to four
    octets joined by single dots, and then the missing low octets are zero.
    Padding appends, does nothing the second time, and does nothing at all
    exactly where three dots are there already. -/
theorem parse_padShorthand (text : String) :
    (∀ a, Address.parse (padShorthand text) .v4 = .ok a ↔
      a.family = .v4 ∧ ∃ os, Octets text.toList os ∧ 1 ≤ os.length ∧ os.length ≤ 4 ∧
        a.value = ∑ i : Fin os.length, os[i] * 256 ^ (3 - i.val)) ∧
    (∀ e, Address.parse (padShorthand text) .v4 = .error e ↔
      e = .malformedAddress .v4 (padShorthand text) ∧
        ¬∃ os, Octets text.toList os ∧ 1 ≤ os.length ∧ os.length ≤ 4) ∧
    padShorthand (padShorthand text) = padShorthand text ∧
    (∃ zeros, padShorthand text = text ++ zeros) ∧
    (padShorthand text = text ↔ 3 ≤ text.toList.count '.') := by
  refine ⟨?_, ?_, ?_, ⟨_, rfl⟩, padShorthand_eq_self_iff⟩
  · intro a
    rw [Address.parse_eq_ok_iff, parse?_v4_eq_some_iff]
    refine and_congr_right fun _ => ?_
    simp only [quad_padShorthand_iff]
    constructor
    · rintro ⟨_, ⟨os, hos, hlength, rfl⟩, hvalue⟩
      exact ⟨os, hos, hos.length_pos, hlength, hvalue.trans (value_padded hlength)⟩
    · rintro ⟨os, hos, -, hlength, hvalue⟩
      exact ⟨_, ⟨os, hos, hlength, rfl⟩, hvalue.trans (value_padded hlength).symm⟩
  · intro e
    rw [parse_v4_eq_error_iff]
    refine and_congr_right fun _ => not_congr ?_
    simp only [quad_padShorthand_iff]
    constructor
    · rintro ⟨_, os, hos, hlength, -⟩
      exact ⟨os, hos, hos.length_pos, hlength⟩
    · rintro ⟨os, hos, -, hlength⟩
      exact ⟨_, os, hos, hlength, rfl⟩
  · rw [padShorthand_eq_self_iff, count_dot_padShorthand]
    exact Nat.le_max_left 3 _

end Grammar

end Subnet
