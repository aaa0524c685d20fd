import Subnet.Query

/-!
# Readings — the text of a query that is parsed, and the family it is read in

    A query is read in the family it names, and without one a colon makes the
    text an IPv6 address.  The text is parsed as it stands, but for an IPv4
    address with a mask: there `.0` is appended until there are three dots, so
    the low octets of a network can be left out.  The relations here say so
    without the program's own functions, and each has one solution, the one that
    the program takes (`completes_iff`, `inFamily_iff`, `puts_iff`).
-/

namespace Subnet

/-! ## Shorthands -/

/-- A text and what completes it: three dots are enough, and with fewer it is
    completed with a zero octet behind it. -/
inductive Cidr.Completes : String → String → Prop where
  | enough {text : String} : 3 ≤ text.toList.count '.' → Completes text text
  | zero {text quad : String} : text.toList.count '.' < 3 → Completes (text ++ ".0") quad →
      Completes text quad

namespace Cidr

variable {text quad : String}

/-- What padding appends. -/
theorem toList_padShorthand (text : String) :
    (padShorthand text).toList =
      text.toList ++ (List.replicate (3 - text.toList.count '.') ".0".toList).flatten := by
  simp [padShorthand]

/-- Texts with three dots are not padded. -/
theorem padShorthand_of_enough (h : 3 ≤ text.toList.count '.') : padShorthand text = text := by
  rw [← String.toList_inj, toList_padShorthand, Nat.sub_eq_zero_of_le h]
  exact List.append_nil _

/-- A zero octet has one dot. -/
theorem count_dot_append_zero (text : String) :
    (text ++ ".0").toList.count '.' = text.toList.count '.' + 1 := by
  rw [String.toList_append, List.count_append]
  rfl

/-- Where dots are missing, padding begins with one zero octet. -/
theorem padShorthand_append_zero (h : text.toList.count '.' < 3) :
    padShorthand (text ++ ".0") = padShorthand text := by
  have hmissing : 3 - text.toList.count '.' = 3 - (text.toList.count '.' + 1) + 1 := by omega
  rw [← String.toList_inj, toList_padShorthand, toList_padShorthand, count_dot_append_zero,
    hmissing, List.replicate_succ, List.flatten_cons, String.toList_append, List.append_assoc]

/-- Padding completes a text. -/
theorem completes_padShorthand (text : String) : Completes text (padShorthand text) := by
  -- by the number of dots that are missing
  obtain ⟨missing, hmissing⟩ : ∃ missing, missing = 3 - text.toList.count '.' := ⟨_, rfl⟩
  induction missing generalizing text with
  | zero =>
      have henough : 3 ≤ text.toList.count '.' := by omega
      rw [padShorthand_of_enough henough]
      exact Completes.enough henough
  | succ missing ih =>
      have hfew : text.toList.count '.' < 3 := by omega
      refine Completes.zero hfew ?_
      rw [← padShorthand_append_zero hfew]
      refine ih (text ++ ".0") ?_
      rw [count_dot_append_zero]
      omega

/-- Nothing else does. -/
theorem completes_iff : Completes text quad ↔ padShorthand text = quad := by
  constructor
  · intro h
    induction h with
    | enough henough => exact padShorthand_of_enough henough
    | zero hfew _ ih => exact (padShorthand_append_zero hfew).symm.trans ih
  · rintro rfl
    exact completes_padShorthand text

end Cidr

/-! ## Queries -/

namespace Query

variable {q : Query} {f : Family} {text : String}

/-- The family in which the address of a query is read. -/
inductive InFamily (q : Query) : Family → Prop where
  | named {f : Family} : q.family = some f → InFamily q f
  | colon : q.family = none → ':' ∈ q.address.toList → InFamily q .v6
  | plain : q.family = none → ':' ∉ q.address.toList → InFamily q .v4

/-- The query has a prefix length or a netmask. -/
def Masked (q : Query) : Prop :=
  (∃ number, q.prefixLength = some number) ∨ ∃ mask, q.netmask = some mask

/-- The text of the query that is parsed, and the family it is read in. -/
inductive Puts (q : Query) : Family → String → Prop where
  | completed {text : String} : q.InFamily .v4 → q.Masked → Cidr.Completes q.address text →
      Puts q .v4 text
  | unmasked : q.InFamily .v4 → ¬q.Masked → Puts q .v4 q.address
  | six : q.InFamily .v6 → Puts q .v6 q.address

/-- The family is the one that the program takes. -/
theorem inFamily_iff : q.InFamily f ↔ q.effectiveFamily = f := by
  unfold effectiveFamily
  constructor
  · rintro (hnamed | ⟨hnone, hcolon⟩ | ⟨hnone, hcolon⟩)
    · rw [hnamed]
      rfl
    · rw [hnone]
      exact if_pos hcolon
    · rw [hnone]
      exact if_neg hcolon
  · rintro rfl
    cases hfamily : q.family with
    | some f => exact InFamily.named hfamily
    | none =>
        by_cases hcolon : ':' ∈ q.address.toList
        · have hdetect : Family.detect q.address = .v6 := if_pos hcolon
          exact hdetect ▸ InFamily.colon hfamily hcolon
        · have hdetect : Family.detect q.address = .v4 := if_neg hcolon
          exact hdetect ▸ InFamily.plain hfamily hcolon

/-- The query has a mask exactly if the program finds one. -/
theorem masked_iff : q.Masked ↔ q.hasMask = true := by
  unfold Masked hasMask
  rw [Bool.or_eq_true, Option.isSome_iff_exists, Option.isSome_iff_exists]

/-- Without a mask the text is parsed as it stands, and so is every IPv6 text. -/
theorem addressText_of_not (h : ¬(q.effectiveFamily = .v4 ∧ q.Masked)) :
    q.addressText = q.address :=
  if_neg fun hif => h ⟨hif.1, masked_iff.mpr hif.2⟩

/-- The text is the one that the program parses. -/
theorem puts_iff : q.Puts f text ↔ q.effectiveFamily = f ∧ q.addressText = text := by
  constructor
  · rintro (⟨hfamily, hmasked, hcompletes⟩ | ⟨hfamily, hmasked⟩ | hfamily)
    · have hfour := inFamily_iff.mp hfamily
      have htext : q.addressText = Cidr.padShorthand q.address :=
        if_pos ⟨hfour, masked_iff.mp hmasked⟩
      exact ⟨hfour, htext.trans (Cidr.completes_iff.mp hcompletes)⟩
    · exact ⟨inFamily_iff.mp hfamily, addressText_of_not fun h => hmasked h.2⟩
    · have hsix := inFamily_iff.mp hfamily
      exact ⟨hsix, addressText_of_not fun h => nomatch hsix.symm.trans h.1⟩
  · rintro ⟨rfl, rfl⟩
    cases hfamily : q.effectiveFamily with
    | v4 =>
        by_cases hmasked : q.Masked
        · refine Puts.completed (inFamily_iff.mpr hfamily) hmasked ?_
          rw [addressText, if_pos ⟨hfamily, masked_iff.mp hmasked⟩]
          exact Cidr.completes_padShorthand q.address
        · rw [addressText_of_not fun h => hmasked h.2]
          exact Puts.unmasked (inFamily_iff.mpr hfamily) hmasked
    | v6 =>
        rw [addressText_of_not fun h => nomatch hfamily.symm.trans h.1]
        exact Puts.six (inFamily_iff.mpr hfamily)

/-- The program's own text and family are what a query puts to the parser. -/
theorem puts_addressText (q : Query) : q.Puts q.effectiveFamily q.addressText :=
  puts_iff.mpr ⟨rfl, rfl⟩

end Query

end Subnet
