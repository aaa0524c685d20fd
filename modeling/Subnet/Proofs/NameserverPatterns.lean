import Subnet.Proofs.GroupPatterns
import Subnet.Proofs.NameserverAddresses
import Subnet.Proofs.QuadPatterns

/-!
# Nameserver patterns — the test of the settings as regular expressions

    What the settings accept as a nameserver can be said by two patterns, one
    for each family, that must match the whole text (`isAccepted_iff_matches`).

    Lax texts have a percent sign, or a colon and a dot.  All other texts are the
    same for the settings and for the reader of addresses (`accepted_iff_address`).
-/

namespace Subnet.Pattern

open RegularExpression
open Grammar

variable {cs : List Char}

/-! ## The patterns -/

/-- A letter or a digit. -/
def alphanumeric : RegularExpression Char :=
  oneOf "0123456789abcdefghijklmnopqrstuvwxyzABCDEFGHIJKLMNOPQRSTUVWXYZ"

/-- A link-local address with a zone. -/
def zoned : RegularExpression Char :=
  literal "fe80:" * repeated 0 4 (char ':' * repeated 0 4 hexDigit) * char '%' *
    (alphanumeric * star alphanumeric)

/-- `::` and possibly `ffff:`, with a group of zeros or without. -/
def marked : RegularExpression Char :=
  literal "::" *
    repeated 0 1 (literal "ffff" * repeated 0 1 (char ':' * repeated 1 4 (oneOf "0")) * char ':')

/-- A quad behind a mark, or behind some groups and `::`. -/
def embedded : RegularExpression Char :=
  marked * looseQuad + groupsLeft 1 4 * char ':' * looseQuad

/-- An IPv6 nameserver. -/
def v6 : RegularExpression Char :=
  groupsLeft 7 7 * group + gapped + zoned + embedded

/-! ## Zones -/

/-- Letters and digits lie in three ranges of numbers. -/
theorem toNat_of_isAlphanum {c : Char} (h : c.isAlphanum = true) :
    (65 ≤ c.toNat ∧ c.toNat ≤ 90) ∨ (97 ≤ c.toNat ∧ c.toNat ≤ 122) ∨
      (48 ≤ c.toNat ∧ c.toNat ≤ 57) := by
  rcases Bool.or_eq_true_iff.mp h with h | hfigure
  · rcases Bool.or_eq_true_iff.mp h with hupper | hlower
    · exact Or.inl (of_decide_eq_true hupper)
    · obtain ⟨hlow, hhigh⟩ := Bool.and_eq_true_iff.mp hlower
      exact Or.inr (Or.inl ⟨of_decide_eq_true hlow, of_decide_eq_true hhigh⟩)
  · exact Or.inr (Or.inr (Char.isDigit_iff_toNat.mp hfigure))

/-- The class has exactly the letters and digits. -/
theorem mem_alphanumeric_iff {c : Char} :
    c ∈ "0123456789abcdefghijklmnopqrstuvwxyzABCDEFGHIJKLMNOPQRSTUVWXYZ".toList ↔
      c.isAlphanum = true := by
  constructor
  · have hall : ("0123456789abcdefghijklmnopqrstuvwxyzABCDEFGHIJKLMNOPQRSTUVWXYZ".toList.all
        Char.isAlphanum) = true := rfl
    exact List.all_eq_true.mp hall c
  · intro h
    have hchar : Char.ofNat c.toNat = c := Char.ofNat_toNat c
    rcases toNat_of_isAlphanum h with ⟨hlow, hhigh⟩ | ⟨hlow, hhigh⟩ | ⟨hlow, hhigh⟩
    all_goals
      interval_cases hn : c.toNat
      all_goals
        rw [← hchar]
        decide

/-- The pattern of a zone matches exactly the link-local texts with one. -/
theorem mem_zoned_iff : cs ∈ zoned.matches' ↔ Zoned cs := by
  have hzone : ∀ cs, cs ∈ (alphanumeric * star alphanumeric).matches' ↔
      cs ≠ [] ∧ ∀ c ∈ cs, c.isAlphanum = true := by
    intro cs
    rw [matches'_mul, Language.mem_mul, alphanumeric]
    simp only [mem_oneOf_iff, mem_star_oneOf_iff, mem_alphanumeric_iff]
    constructor
    · rintro ⟨_, ⟨c, hc, rfl⟩, rest, hrest, rfl⟩
      exact ⟨List.cons_ne_nil c rest, List.forall_mem_cons.mpr ⟨hc, hrest⟩⟩
    · rintro ⟨hne, hall⟩
      obtain ⟨c, rest, rfl⟩ := List.exists_cons_of_ne_nil hne
      obtain ⟨hc, hrest⟩ := List.forall_mem_cons.mp hall
      exact ⟨[c], ⟨c, hc, rfl⟩, rest, hrest, rfl⟩
  have hshort : ∀ g, g ∈ (repeated 0 4 hexDigit).matches' ↔ ShortGroup g := by
    intro g
    rw [hexDigit, mem_repeated_oneOf_iff]
    simp only [mem_hexadecimal_iff]
    exact and_iff_right (Nat.zero_le g.length)
  rw [zoned, matches'_mul, Language.mem_mul]
  simp only [hzone, mem_mul_char_iff, mem_literal_mul_iff,
    mem_repeated_iff fun _ => mem_char_mul_iff, hshort]
  constructor
  · rintro ⟨_, ⟨_, ⟨_, ⟨groups, -, hcount, hgroups, rfl⟩, rfl⟩, rfl⟩, zone, ⟨hne, hall⟩, rfl⟩
    rw [List.append_assoc]
    exact Zoned.mk hcount hgroups hne hall
  · rintro ⟨hcount, hgroups, hne, hall⟩
    refine ⟨_, ⟨_, ⟨_, ⟨_, Nat.zero_le _, hcount, hgroups, rfl⟩, rfl⟩, rfl⟩, _, ⟨hne, hall⟩, ?_⟩
    rw [List.append_assoc]
    rfl

/-! ## Quads behind a lead -/

/-- The marked pattern matches a gap, alone or with one of the marks for IPv4
    behind it. -/
theorem mem_marked_iff :
    cs ∈ marked.matches' ↔ cs = "::".toList ∨ cs = "::ffff:".toList ∨
      ∃ zeros : List Char, zeros ≠ [] ∧ zeros.length ≤ 4 ∧ (∀ c ∈ zeros, c = '0') ∧
        cs = "::ffff:".toList ++ zeros ++ [':'] := by
  have hzeros : ∀ zeros, zeros ∈ (repeated 1 4 (oneOf "0")).matches' ↔
      zeros ≠ [] ∧ zeros.length ≤ 4 ∧ ∀ c ∈ zeros, c = '0' := by
    intro zeros
    rw [mem_repeated_oneOf_iff, ← List.length_pos_iff]
    simp only [String.reduceToList, List.mem_singleton]
    rfl
  simp only [marked, mem_literal_mul_iff, mem_optional_iff, mem_mul_char_iff, mem_char_mul_iff,
    hzeros]
  constructor
  · rintro ⟨_, rfl | ⟨_, ⟨_, rfl | ⟨zeros, ⟨hne, hle, hall⟩, rfl⟩, rfl⟩, rfl⟩, rfl⟩
    · exact Or.inl rfl
    · exact Or.inr (Or.inl rfl)
    · exact Or.inr (Or.inr ⟨zeros, hne, hle, hall, by simp⟩)
  · rintro (rfl | rfl | ⟨zeros, hne, hle, hall, rfl⟩)
    · exact ⟨[], Or.inl rfl, rfl⟩
    · exact ⟨_, Or.inr ⟨_, ⟨[], Or.inl rfl, rfl⟩, rfl⟩, rfl⟩
    · exact ⟨_, Or.inr ⟨_, ⟨_, Or.inr ⟨zeros, ⟨hne, hle, hall⟩, rfl⟩, rfl⟩, rfl⟩, by simp⟩

/-- What stands in front of a quad is matched by one of two patterns. -/
theorem quadLead_iff : QuadLead cs ↔
    cs ∈ marked.matches' ∨ cs ∈ (groupsLeft 1 4 * char ':').matches' := by
  rw [mem_marked_iff, mem_gap_none_right_iff]
  constructor
  · intro h
    cases h with
    | gap => exact Or.inl (Or.inl rfl)
    | mapped => exact Or.inl (Or.inr (Or.inl rfl))
    | translated hne hle hall => exact Or.inl (Or.inr (Or.inr ⟨_, hne, hle, hall, rfl⟩))
    | groups hitems hle =>
        obtain ⟨hpos, hgroups⟩ := items_iff_groups.mp ⟨_, hitems, rfl⟩
        have hgap : Gap _ 0 _ :=
          ⟨_, [], hgroups, groups_zero_iff.mpr rfl, (List.append_nil _).symm⟩
        exact Or.inr ⟨_, hpos, hle, hgap⟩
  · rintro ((rfl | rfl | ⟨zeros, hne, hle, hall, rfl⟩) | ⟨l, hpos, hle, ls, rs, hls, hrs, rfl⟩)
    · exact QuadLead.gap
    · exact QuadLead.mapped
    · exact QuadLead.translated hne hle hall
    · obtain ⟨ws, hitems, rfl⟩ := items_iff_groups.mpr ⟨hpos, hls⟩
      obtain rfl := groups_zero_iff.mp hrs
      rw [List.append_nil]
      exact QuadLead.groups hitems hle

/-- The pattern of an embedded quad matches such a lead and a loose quad. -/
theorem mem_embedded_iff :
    cs ∈ embedded.matches' ↔ ∃ lead quad, QuadLead lead ∧ LooseQuad quad ∧ cs = lead ++ quad := by
  rw [embedded, matches'_add, Language.mem_add, matches'_mul (marked), Language.mem_mul,
    matches'_mul _ looseQuad, Language.mem_mul]
  simp only [mem_looseQuad_iff, quadLead_iff]
  constructor
  · rintro (⟨lead, hlead, quad, hquad, rfl⟩ | ⟨lead, hlead, quad, hquad, rfl⟩)
    · exact ⟨lead, quad, Or.inl hlead, hquad, rfl⟩
    · exact ⟨lead, quad, Or.inr hlead, hquad, rfl⟩
  · rintro ⟨lead, quad, hlead | hlead, hquad, rfl⟩
    · exact Or.inl ⟨lead, hlead, quad, hquad, rfl⟩
    · exact Or.inr ⟨lead, hlead, quad, hquad, rfl⟩

/-! ## The test -/

/-- The texts of the grammar are what the IPv4 pattern or the IPv6 pattern matches. -/
theorem server_iff : Server cs ↔ cs ∈ v4.matches' ∨ cs ∈ v6.matches' := by
  rw [v6]
  simp only [matches'_add, Language.mem_add, mem_v4_iff, mem_full_iff, mem_gapped_iff,
    mem_zoned_iff, mem_embedded_iff]
  constructor
  · intro h
    cases h with
    | quad hquad => exact Or.inl ⟨_, hquad⟩
    | full hitems hlength =>
        exact Or.inr (Or.inl (Or.inl (Or.inl (items_iff_groups.mp ⟨_, hitems, hlength⟩).2)))
    | gap hl hr hlength =>
        have hgap : Gap _ _ _ :=
          ⟨_, _, side_iff_groups.mp ⟨_, hl, rfl⟩, side_iff_groups.mp ⟨_, hr, rfl⟩, rfl⟩
        exact Or.inr (Or.inl (Or.inl (Or.inr ⟨_, _, hlength, hgap⟩)))
    | zoned hzoned => exact Or.inr (Or.inl (Or.inr hzoned))
    | embedded hlead hquad => exact Or.inr (Or.inr ⟨_, _, hlead, hquad, rfl⟩)
  · rintro (⟨os, hquad⟩ | ((hfull | ⟨l, r, hsum, ls, rs, hls, hrs, rfl⟩) | hzoned) |
      ⟨lead, quad, hlead, hquad, rfl⟩)
    · exact Server.quad hquad
    · obtain ⟨ws, hitems, hlength⟩ := items_iff_groups.mpr ⟨by decide, hfull⟩
      exact Server.full hitems hlength
    · obtain ⟨ws, hl, rfl⟩ := side_iff_groups.mpr hls
      obtain ⟨vs, hr, rfl⟩ := side_iff_groups.mpr hrs
      exact Server.gap hl hr hsum
    · exact Server.zoned hzoned
    · exact Server.embedded hlead hquad

end Subnet.Pattern

namespace Subnet.Grammar

/-! ## Plain texts -/

/-- What lax texts are known by: a percent sign, or a colon and a dot. -/
theorem Lax.marks {cs : List Char} (h : Lax cs) : '%' ∈ cs ∨ ':' ∈ cs ∧ '.' ∈ cs := by
  cases h with
  | zoned hzoned => exact Or.inl hzoned.mem_percent
  | padded hlead hquad =>
      obtain ⟨before, rfl⟩ := hlead.exists_colon
      exact Or.inr ⟨by simp, List.mem_append_right _ hquad.mem_dot⟩

/-- Items close with a quad only if they have a dot. -/
theorem Items.plain {closing : Bool} {cs : List Char} {ws : List Nat} (h : Items closing cs ws)
    (hdot : '.' ∉ cs) : Items false cs ws := by
  induction h with
  | group hg => exact Items.group hg
  | quad _ hquad => exact absurd hquad.mem_dot hdot
  | cons hg _ ih =>
      rw [List.mem_append, List.mem_cons, not_or, not_or] at hdot
      exact Items.cons hg (ih hdot.2.2)

/-- A side without dots has no quad at its end. -/
theorem Side.plain {closing : Bool} {cs : List Char} {ws : List Nat} (h : Side closing cs ws)
    (hdot : '.' ∉ cs) : Side false cs ws := by
  cases h with
  | empty => exact Side.empty
  | items hitems => exact Side.items (hitems.plain hdot)

/-- An IPv6 text without dots is a text of the grammar of nameservers. -/
theorem Words.server {cs : List Char} {ws : List Nat} (h : Words cs ws) (hdot : '.' ∉ cs) :
    Server cs := by
  cases h with
  | full hitems hlength => exact Server.full (hitems.plain hdot) hlength
  | gap hl hr hlength =>
      have hright := hr.plain fun hmem => hdot (List.mem_append_right _ hmem)
      exact Server.gap hl hright hlength

end Subnet.Grammar

namespace Subnet.Nameserver

open Grammar

/-- The test of the settings is the match of one of the two patterns. -/
theorem isAccepted_iff_matches {text : String} :
    isAccepted text = true ↔
      text.toList ∈ Pattern.v4.matches' ∨ text.toList ∈ Pattern.v6.matches' :=
  isAccepted_iff.trans Pattern.server_iff

/-- **PLAIN TEXTS**: the settings test a nameserver by two patterns; without a
    percent sign, and without a colon and a dot in one text, these match exactly
    the texts that are read as an address. -/
theorem accepted_iff_address (text : String) (hpercent : '%' ∉ text.toList)
    (hplain : ¬(':' ∈ text.toList ∧ '.' ∈ text.toList)) :
    (isAccepted text = true ↔
        text.toList ∈ Pattern.v4.matches' ∨ text.toList ∈ Pattern.v6.matches') ∧
      (isAccepted text = true ↔ ∃ a, Address.parse text (Family.detect text) = .ok a) := by
  refine ⟨isAccepted_iff_matches, ?_⟩
  rw [isAccepted_iff]
  constructor
  · intro hserver
    refine hserver.isAddress_iff.mpr fun hlax => ?_
    exact hlax.marks.elim hpercent hplain
  · intro haddress
    rcases isAddress_iff.mp haddress with ⟨os, hquad⟩ | ⟨ws, hwords⟩
    · exact Server.quad hquad
    · exact hwords.server fun hdot => hplain ⟨hwords.mem_colon, hdot⟩

/-- Seven groups leave `::` a word, eight do not. -/
theorem accepted_iff_address_groups :
    (∃ a, Address.parse "1:2:3:4:5:6:7::" (Family.detect "1:2:3:4:5:6:7::") = .ok a) ∧
      ¬∃ a, Address.parse "1:2:3:4:5:6:7:8::" (Family.detect "1:2:3:4:5:6:7:8::") = .ok a := by
  constructor
  · exact (accepted_iff_address "1:2:3:4:5:6:7::" (by decide) (by decide)).2.mp (by decide)
  · rw [← (accepted_iff_address "1:2:3:4:5:6:7:8::" (by decide) (by decide)).2]
    decide

end Subnet.Nameserver
