import Subnet.Proofs.Nameservers
import Subnet.Proofs.Patterns

/-!
# Group patterns — colon-separated groups as a regular expression

    A pattern has no way to say that two numbers of groups add up to at most
    seven, so it lists what may stand around `::` case by case.  Each case is a
    range of numbers for either side (`Gap`), and together the ranges leave out
    nothing (`mem_gapped_iff`).
-/

namespace Subnet.Pattern

open RegularExpression
open Grammar

variable {cs : List Char}

/-! ## The patterns -/

/-- A hexadecimal digit in either case. -/
def hexDigit : RegularExpression Char :=
  oneOf "0123456789abcdefABCDEF"

/-- One to four hexadecimal digits. -/
def group : RegularExpression Char :=
  repeated 1 4 hexDigit

/-- From `low` to `high` groups that a colon follows. -/
def groupsLeft (low high : Nat) : RegularExpression Char :=
  repeated low high (group * char ':')

/-- From `low` to `high` groups that follow a colon. -/
def groupsRight (low high : Nat) : RegularExpression Char :=
  repeated low high (char ':' * group)

/-- Two lists of groups around `::`, by the number of groups on the sides. -/
def gapped : RegularExpression Char :=
  groupsLeft 1 7 * char ':' +
  groupsLeft 1 6 * char ':' * group +
  groupsLeft 1 5 * groupsRight 1 2 +
  groupsLeft 1 4 * groupsRight 1 3 +
  groupsLeft 1 3 * groupsRight 1 4 +
  groupsLeft 1 2 * groupsRight 1 5 +
  group * char ':' * groupsRight 1 6 +
  char ':' * (groupsRight 1 7 + char ':')

/-! ## Groups -/

/-- The class has exactly the hexadecimal digits. -/
theorem mem_hexadecimal_iff {c : Char} :
    c ∈ "0123456789abcdefABCDEF".toList ↔ ∃ d, Digit 16 c d := by
  constructor
  · intro h
    have hread : "0123456789abcdefABCDEF".toList.all (Numeral.hexDigit? · |>.isSome) = true := rfl
    obtain ⟨d, hd⟩ := Option.isSome_iff_exists.mp (List.all_eq_true.mp hread c h)
    exact ⟨d, hexDigit?_eq_some_iff.mp hd⟩
  · have hlower : "0123456789abcdefABCDEF".toList =
        "0123456789abcdef".toList ++ "ABCDEF".toList := rfl
    have hupper : "0123456789ABCDEF".toList = "0123456789".toList ++ "ABCDEF".toList := rfl
    have hfigures : "0123456789abcdef".toList = "0123456789".toList ++ "abcdef".toList := rfl
    rintro ⟨d, -, h | h⟩
    · rw [hlower]
      exact List.mem_append_left _ (List.mem_of_getElem? h)
    · have hmem := List.mem_of_getElem? h
      rw [hupper, List.mem_append] at hmem
      rw [hlower, hfigures, List.mem_append, List.mem_append]
      exact hmem.imp_left Or.inl

/-- The pattern of a group matches exactly the groups of the grammar. -/
theorem mem_group_iff : cs ∈ group.matches' ↔ ∃ w, Group cs w := by
  rw [group, hexDigit, mem_repeated_oneOf_iff]
  simp only [mem_hexadecimal_iff, Grammar.Group, exists_and_left, exists_digits_iff]
  rw [Nat.one_le_iff_ne_zero, Ne, List.length_eq_zero_iff, and_left_comm]

/-- A number of groups joined by colons. -/
def Groups (count : Nat) (cs : List Char) : Prop :=
  ∃ groups : List (List Char), groups.length = count ∧ (∀ g ∈ groups, ∃ w, Group g w) ∧
    cs = [':'].intercalate groups

/-- No groups are the empty text. -/
theorem groups_zero_iff : Groups 0 cs ↔ cs = [] := by
  constructor
  · rintro ⟨groups, hlength, -, rfl⟩
    rw [List.length_eq_zero_iff.mp hlength]
    rfl
  · rintro rfl
    exact ⟨[], rfl, nofun, rfl⟩

/-- One group stands without a colon. -/
theorem groups_one_iff : Groups 1 cs ↔ ∃ w, Group cs w := by
  constructor
  · rintro ⟨groups, hlength, hgroups, rfl⟩
    obtain ⟨g, rfl⟩ := List.length_eq_one_iff.mp hlength
    rw [List.intercalate_singleton]
    exact hgroups g (List.mem_singleton_self g)
  · intro h
    exact ⟨[cs], rfl, List.forall_mem_singleton.mpr h, List.intercalate_singleton.symm⟩

/-- One more group in front is followed by a colon. -/
theorem Groups.cons {g rest : List Char} {count : Nat} (hg : ∃ w, Group g w)
    (h : Groups (count + 1) rest) : Groups (count + 2) (g ++ ':' :: rest) := by
  obtain ⟨groups, hlength, hgroups, rfl⟩ := h
  obtain ⟨next, groups, rfl⟩ := List.exists_cons_of_length_eq_add_one hlength
  refine ⟨g :: next :: groups, congrArg Nat.succ hlength, ?_, ?_⟩
  · exact List.forall_mem_cons.mpr ⟨hg, hgroups⟩
  · rw [List.intercalate_cons_cons]
    simp

/-- Groups joined by colons are items of the grammar, as many as there are pieces. -/
theorem exists_items {g : List Char} {rest : List (List Char)}
    (h : ∀ piece ∈ g :: rest, ∃ w, Group piece w) :
    ∃ ws, Items false ([':'].intercalate (g :: rest)) ws ∧ ws.length = rest.length + 1 := by
  induction rest generalizing g with
  | nil =>
      obtain ⟨w, hg⟩ := List.forall_mem_singleton.mp h
      rw [List.intercalate_singleton]
      exact ⟨[w], Items.group hg, rfl⟩
  | cons next rest ih =>
      obtain ⟨⟨w, hg⟩, hrest⟩ := List.forall_mem_cons.mp h
      obtain ⟨ws, hitems, hlength⟩ := ih hrest
      rw [List.intercalate_cons_cons, List.append_assoc]
      exact ⟨w :: ws, Items.cons hg hitems, congrArg Nat.succ hlength⟩

/-- The sides of a gap are groups joined by colons, or nothing. -/
theorem side_iff_groups {count : Nat} :
    (∃ ws, Side false cs ws ∧ ws.length = count) ↔ Groups count cs := by
  constructor
  · rintro ⟨ws, hside, rfl⟩
    cases hside with
    | empty => exact groups_zero_iff.mpr rfl
    | items hitems =>
        induction hitems with
        | group hg => exact groups_one_iff.mpr ⟨_, hg⟩
        | quad hclosing => exact nomatch hclosing
        | @cons _ _ _ ws hg hrest ih =>
            cases ws with
            | nil => exact nomatch hrest
            | cons v vs => exact Groups.cons ⟨_, hg⟩ ih
  · rintro ⟨groups, rfl, hgroups, rfl⟩
    cases groups with
    | nil => exact ⟨[], Side.empty, rfl⟩
    | cons g rest =>
        obtain ⟨ws, hitems, hlength⟩ := exists_items hgroups
        exact ⟨ws, Side.items hitems, hlength⟩

/-- Groups that are each followed by a colon, from one group on. -/
theorem mem_groupsLeft_iff {low high : Nat} (hlow : 1 ≤ low) :
    cs ∈ (groupsLeft low high).matches' ↔
      ∃ count left, low ≤ count ∧ count ≤ high ∧ Groups count left ∧ cs = left ++ [':'] := by
  rw [groupsLeft, mem_repeated_iff fun _ => mem_mul_char_iff]
  simp only [mem_group_iff]
  -- the last group is the one whose colon stays
  have hjoin : ∀ groups : List (List Char), 1 ≤ groups.length →
      groups.flatMap (· ++ [':']) = [':'].intercalate groups ++ [':'] := by
    intro groups hpos
    obtain rfl | ⟨init, g, rfl⟩ := List.eq_nil_or_concat groups
    · exact nomatch hpos
    · rw [List.concat_eq_append, intercalate_concat_flatMap]
      simp
  constructor
  · rintro ⟨groups, hmin, hmax, hgroups, rfl⟩
    exact ⟨groups.length, _, hmin, hmax, ⟨groups, rfl, hgroups, rfl⟩, hjoin groups (by omega)⟩
  · rintro ⟨_, _, hmin, hmax, ⟨groups, rfl, hgroups, rfl⟩, rfl⟩
    exact ⟨groups, hmin, hmax, hgroups, (hjoin groups (by omega)).symm⟩

/-- Groups that each follow a colon, from one group on. -/
theorem mem_groupsRight_iff {low high : Nat} (hlow : 1 ≤ low) :
    cs ∈ (groupsRight low high).matches' ↔
      ∃ count right, low ≤ count ∧ count ≤ high ∧ Groups count right ∧ cs = ':' :: right := by
  rw [groupsRight, mem_repeated_iff fun _ => mem_char_mul_iff]
  simp only [mem_group_iff]
  have hjoin : ∀ groups : List (List Char), 1 ≤ groups.length →
      groups.flatMap (':' :: ·) = ':' :: [':'].intercalate groups := by
    intro groups hpos
    cases groups with
    | nil => exact nomatch hpos
    | cons g rest =>
        rw [intercalate_cons_flatMap]
        rfl
  constructor
  · rintro ⟨groups, hmin, hmax, hgroups, rfl⟩
    exact ⟨groups.length, _, hmin, hmax, ⟨groups, rfl, hgroups, rfl⟩, hjoin groups (by omega)⟩
  · rintro ⟨_, _, hmin, hmax, ⟨groups, rfl, hgroups, rfl⟩, rfl⟩
    exact ⟨groups, hmin, hmax, hgroups, (hjoin groups (by omega)).symm⟩

/-- Items of the grammar are groups joined by colons, at least one. -/
theorem items_iff_groups {count : Nat} :
    (∃ ws, Items false cs ws ∧ ws.length = count) ↔ 1 ≤ count ∧ Groups count cs := by
  rw [← side_iff_groups]
  constructor
  · rintro ⟨ws, hitems, rfl⟩
    refine ⟨?_, ws, Side.items hitems, rfl⟩
    cases ws with
    | nil => exact nomatch hitems
    | cons w rest => exact Nat.le_add_left 1 rest.length
  · rintro ⟨hpos, ws, hside, rfl⟩
    cases hside with
    | empty => exact nomatch hpos
    | items hitems => exact ⟨ws, hitems, rfl⟩

/-- Seven groups with colons and one without are eight groups joined by colons. -/
theorem mem_full_iff : cs ∈ (groupsLeft 7 7 * group).matches' ↔ Groups 8 cs := by
  rw [matches'_mul, Language.mem_mul, groupsLeft]
  simp only [mem_repeated_iff fun _ => mem_mul_char_iff, mem_group_iff]
  constructor
  · rintro ⟨_, ⟨groups, hmin, hmax, hgroups, rfl⟩, g, hg, rfl⟩
    refine ⟨groups ++ [g], ?_, ?_, (intercalate_concat_flatMap groups g).symm⟩
    · rw [List.length_append, Nat.le_antisymm hmax hmin]
      rfl
    · exact List.forall_mem_append.mpr ⟨hgroups, List.forall_mem_singleton.mpr hg⟩
  · rintro ⟨groups, hlength, hgroups, rfl⟩
    obtain rfl | ⟨init, g, rfl⟩ := List.eq_nil_or_concat groups
    · exact nomatch hlength
    · rw [List.concat_eq_append] at hlength hgroups ⊢
      obtain ⟨hinit, hg⟩ := List.forall_mem_append.mp hgroups
      rw [List.length_append, List.length_singleton] at hlength
      exact ⟨_, ⟨init, by omega, by omega, hinit, rfl⟩, g, hg g (List.mem_singleton_self g),
        (intercalate_concat_flatMap init g).symm⟩

/-! ## Gaps -/

/-- Two lists of groups around `::`, by their numbers. -/
def Gap (left right : Nat) (cs : List Char) : Prop :=
  ∃ ls rs, Groups left ls ∧ Groups right rs ∧ cs = ls ++ "::".toList ++ rs

/-- A gap with groups on both sides. -/
theorem mem_gap_iff {left right : Nat} :
    cs ∈ (groupsLeft 1 left * groupsRight 1 right).matches' ↔
      ∃ l r, 1 ≤ l ∧ l ≤ left ∧ 1 ≤ r ∧ r ≤ right ∧ Gap l r cs := by
  rw [matches'_mul, Language.mem_mul]
  simp only [mem_groupsLeft_iff (Nat.le_refl 1), mem_groupsRight_iff (Nat.le_refl 1)]
  constructor
  · rintro ⟨_, ⟨l, ls, hl, hleft, hls, rfl⟩, _, ⟨r, rs, hr, hright, hrs, rfl⟩, rfl⟩
    exact ⟨l, r, hl, hleft, hr, hright, ls, rs, hls, hrs, by simp⟩
  · rintro ⟨l, r, hl, hleft, hr, hright, ls, rs, hls, hrs, rfl⟩
    exact ⟨_, ⟨l, ls, hl, hleft, hls, rfl⟩, _, ⟨r, rs, hr, hright, hrs, rfl⟩, by simp⟩

/-- A gap with groups on the left side only. -/
theorem mem_gap_none_right_iff {left : Nat} :
    cs ∈ (groupsLeft 1 left * char ':').matches' ↔ ∃ l, 1 ≤ l ∧ l ≤ left ∧ Gap l 0 cs := by
  rw [mem_mul_char_iff]
  simp only [mem_groupsLeft_iff (Nat.le_refl 1)]
  constructor
  · rintro ⟨_, ⟨l, ls, hl, hleft, hls, rfl⟩, rfl⟩
    exact ⟨l, hl, hleft, ls, [], hls, groups_zero_iff.mpr rfl, by simp⟩
  · rintro ⟨l, hl, hleft, ls, rs, hls, hrs, rfl⟩
    obtain rfl := groups_zero_iff.mp hrs
    exact ⟨_, ⟨l, ls, hl, hleft, hls, rfl⟩, by simp⟩

/-- A gap with a single group on the right side. -/
theorem mem_gap_one_right_iff {left : Nat} :
    cs ∈ (groupsLeft 1 left * char ':' * group).matches' ↔
      ∃ l, 1 ≤ l ∧ l ≤ left ∧ Gap l 1 cs := by
  rw [matches'_mul, Language.mem_mul]
  simp only [mem_gap_none_right_iff, mem_group_iff, ← groups_one_iff]
  constructor
  · rintro ⟨_, ⟨l, hl, hleft, ls, _, hls, hnone, rfl⟩, rs, hrs, rfl⟩
    obtain rfl := groups_zero_iff.mp hnone
    exact ⟨l, hl, hleft, ls, rs, hls, hrs, by simp⟩
  · rintro ⟨l, hl, hleft, ls, rs, hls, hrs, rfl⟩
    exact ⟨_, ⟨l, hl, hleft, ls, [], hls, groups_zero_iff.mpr rfl, rfl⟩, rs, hrs, by simp⟩

/-- A gap with a single group on the left side. -/
theorem mem_gap_one_left_iff {right : Nat} :
    cs ∈ (group * char ':' * groupsRight 1 right).matches' ↔
      ∃ r, 1 ≤ r ∧ r ≤ right ∧ Gap 1 r cs := by
  rw [matches'_mul, Language.mem_mul]
  simp only [mem_mul_char_iff, mem_groupsRight_iff (Nat.le_refl 1), mem_group_iff,
    ← groups_one_iff]
  constructor
  · rintro ⟨_, ⟨ls, hls, rfl⟩, _, ⟨r, rs, hr, hright, hrs, rfl⟩, rfl⟩
    exact ⟨r, hr, hright, ls, rs, hls, hrs, by simp⟩
  · rintro ⟨r, hr, hright, ls, rs, hls, hrs, rfl⟩
    exact ⟨_, ⟨ls, hls, rfl⟩, _, ⟨r, rs, hr, hright, hrs, rfl⟩, by simp⟩

/-- A gap with groups on the right side only, or on neither. -/
theorem mem_gap_none_left_iff {right : Nat} :
    cs ∈ (char ':' * (groupsRight 1 right + char ':')).matches' ↔
      ∃ r, r ≤ right ∧ Gap 0 r cs := by
  rw [mem_char_mul_iff]
  simp only [matches'_add, Language.mem_add, mem_groupsRight_iff (Nat.le_refl 1)]
  constructor
  · rintro ⟨_, ⟨r, rs, -, hright, hrs, rfl⟩ | rfl, rfl⟩
    · exact ⟨r, hright, [], rs, groups_zero_iff.mpr rfl, hrs, rfl⟩
    · exact ⟨0, Nat.zero_le right, [], [], groups_zero_iff.mpr rfl, groups_zero_iff.mpr rfl, rfl⟩
  · rintro ⟨r, hright, ls, rs, hls, hrs, rfl⟩
    obtain rfl := groups_zero_iff.mp hls
    refine ⟨':' :: rs, ?_, rfl⟩
    rcases Nat.eq_zero_or_pos r with rfl | hr
    · obtain rfl := groups_zero_iff.mp hrs
      exact Or.inr rfl
    · exact Or.inl ⟨r, rs, hr, hright, hrs, rfl⟩

/-- The cases of the pattern are together all numbers of groups that leave a
    word to `::`. -/
theorem mem_gapped_iff : cs ∈ gapped.matches' ↔ ∃ l r, l + r ≤ 7 ∧ Gap l r cs := by
  simp only [gapped, matches'_add, Language.mem_add, mem_gap_iff, mem_gap_none_right_iff,
    mem_gap_one_right_iff, mem_gap_one_left_iff, mem_gap_none_left_iff, or_assoc]
  constructor
  · rintro (⟨l, hl⟩ | ⟨l, hl⟩ | h | h | h | h | ⟨r, hr⟩ | ⟨r, hr⟩)
    · exact ⟨l, 0, by omega, hl.2.2⟩
    · exact ⟨l, 1, by omega, hl.2.2⟩
    · obtain ⟨l, r, h⟩ := h
      exact ⟨l, r, by omega, h.2.2.2.2⟩
    · obtain ⟨l, r, h⟩ := h
      exact ⟨l, r, by omega, h.2.2.2.2⟩
    · obtain ⟨l, r, h⟩ := h
      exact ⟨l, r, by omega, h.2.2.2.2⟩
    · obtain ⟨l, r, h⟩ := h
      exact ⟨l, r, by omega, h.2.2.2.2⟩
    · exact ⟨1, r, by omega, hr.2.2⟩
    · exact ⟨0, r, by omega, hr.2⟩
  · rintro ⟨l, r, hsum, hgap⟩
    rcases Nat.eq_zero_or_pos l with rfl | hl
    · right; right; right; right; right; right; right
      exact ⟨r, by omega, hgap⟩
    have hcases : r = 0 ∨ r = 1 ∨ r = 2 ∨ r = 3 ∨ r = 4 ∨ r = 5 ∨ l = 1 ∧ r = 6 := by omega
    rcases hcases with rfl | rfl | rfl | rfl | rfl | rfl | ⟨rfl, rfl⟩
    · left
      exact ⟨l, hl, by omega, hgap⟩
    · right; left
      exact ⟨l, hl, by omega, hgap⟩
    · right; right; left
      exact ⟨l, 2, hl, by omega, by omega, by omega, hgap⟩
    · right; right; right; left
      exact ⟨l, 3, hl, by omega, by omega, by omega, hgap⟩
    · right; right; right; right; left
      exact ⟨l, 4, hl, by omega, by omega, by omega, hgap⟩
    · right; right; right; right; right; left
      exact ⟨l, 5, hl, by omega, by omega, by omega, hgap⟩
    · right; right; right; right; right; right; left
      exact ⟨6, by omega, by omega, hgap⟩

end Subnet.Pattern
