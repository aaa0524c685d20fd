import Mathlib.Computability.RegularExpressions

/-!
# Patterns — character classes, fixed texts and counted repetitions

    A pattern is a regular expression over characters.  The forms below are what
    patterns are written with in practice, and each is said to match by what its
    text is made of: a repetition matches the texts that its parts make when
    they are put one after the other (`mem_repeated_iff`).
-/

namespace Subnet.Pattern

open RegularExpression

variable {P : RegularExpression Char} {cs : List Char} {chars text : String} {low high : Nat}

/-- One of the characters of a text. -/
def oneOf (chars : String) : RegularExpression Char :=
  (chars.toList.map char).sum

/-- The characters of a text in their order. -/
def literal (text : String) : RegularExpression Char :=
  (text.toList.map char).prod

/-- A pattern at least `low` and at most `high` times in a row. -/
def repeated (low high : Nat) (P : RegularExpression Char) : RegularExpression Char :=
  ((List.range' low (high + 1 - low)).map (P ^ ·)).sum

/-! ## Classes and texts -/

/-- A sum of patterns matches what one of them does. -/
theorem mem_sum_iff {Ps : List (RegularExpression Char)} :
    cs ∈ Ps.sum.matches' ↔ ∃ P ∈ Ps, cs ∈ P.matches' := by
  induction Ps with
  | nil => simp
  | cons P Ps ih =>
      rw [List.sum_cons, matches'_add, Language.mem_add, ih, List.exists_mem_cons_iff]

/-- A class of characters matches each of them alone. -/
theorem mem_oneOf_iff : cs ∈ (oneOf chars).matches' ↔ ∃ c, c ∈ chars.toList ∧ cs = [c] := by
  rw [oneOf, mem_sum_iff]
  simp only [List.mem_map, exists_exists_and_eq_and]
  exact Iff.rfl

/-- A character matches itself alone. -/
theorem mem_char_iff {c : Char} : cs ∈ (char c).matches' ↔ cs = [c] :=
  Iff.rfl

/-- A pattern with a character behind it. -/
theorem mem_mul_char_iff {c : Char} :
    cs ∈ (P * char c).matches' ↔ ∃ front, front ∈ P.matches' ∧ cs = front ++ [c] := by
  rw [matches'_mul, Language.mem_mul]
  constructor
  · rintro ⟨front, hfront, _, rfl, rfl⟩
    exact ⟨front, hfront, rfl⟩
  · rintro ⟨front, hfront, rfl⟩
    exact ⟨front, hfront, _, rfl, rfl⟩

/-- A pattern with a character in front of it. -/
theorem mem_char_mul_iff {c : Char} :
    cs ∈ (char c * P).matches' ↔ ∃ rest, rest ∈ P.matches' ∧ cs = c :: rest := by
  rw [matches'_mul, Language.mem_mul]
  constructor
  · rintro ⟨_, rfl, rest, hrest, rfl⟩
    exact ⟨rest, hrest, rfl⟩
  · rintro ⟨rest, hrest, rfl⟩
    exact ⟨_, rfl, rest, hrest, rfl⟩

/-- A pattern with a class of characters behind it. -/
theorem mem_mul_oneOf_iff :
    cs ∈ (P * oneOf chars).matches' ↔
      ∃ front, front ∈ P.matches' ∧ ∃ c, c ∈ chars.toList ∧ cs = front ++ [c] := by
  rw [matches'_mul, Language.mem_mul]
  simp only [mem_oneOf_iff]
  constructor
  · rintro ⟨front, hfront, _, ⟨c, hc, rfl⟩, rfl⟩
    exact ⟨front, hfront, c, hc, rfl⟩
  · rintro ⟨front, hfront, c, hc, rfl⟩
    exact ⟨front, hfront, _, ⟨c, hc, rfl⟩, rfl⟩

/-- Characters one after the other match their list only. -/
theorem mem_prod_char_iff {chars : List Char} :
    cs ∈ (chars.map char).prod.matches' ↔ cs = chars := by
  induction chars generalizing cs with
  | nil => exact Language.mem_one cs
  | cons c rest ih =>
      rw [List.map_cons, List.prod_cons, mem_char_mul_iff]
      simp only [ih, exists_eq_left]

/-- A literal matches its own text only. -/
theorem mem_literal_iff : cs ∈ (literal text).matches' ↔ cs = text.toList :=
  mem_prod_char_iff

/-- A pattern with a literal in front of it. -/
theorem mem_literal_mul_iff :
    cs ∈ (literal text * P).matches' ↔ ∃ rest, rest ∈ P.matches' ∧ cs = text.toList ++ rest := by
  rw [matches'_mul, Language.mem_mul]
  simp only [mem_literal_iff, exists_eq_left, eq_comm]

/-! ## Repetitions -/

section Repetition

variable {Part : Type} {Good : Part → Prop} {write : Part → List Char}

/-- Texts that all match are the written parts of a kind, where a pattern
    matches these. -/
theorem forall_mem_matches_iff (hP : ∀ cs, cs ∈ P.matches' ↔ ∃ p, Good p ∧ cs = write p)
    {pieces : List (List Char)} :
    (∀ piece ∈ pieces, piece ∈ P.matches') ↔
      ∃ parts : List Part, (∀ p ∈ parts, Good p) ∧ pieces = parts.map write := by
  constructor
  · intro h
    induction pieces with
    | nil => exact ⟨[], nofun, rfl⟩
    | cons piece rest ih =>
        obtain ⟨hpiece, hrest⟩ := List.forall_mem_cons.mp h
        obtain ⟨p, hp, rfl⟩ := (hP piece).mp hpiece
        obtain ⟨parts, hparts, rfl⟩ := ih hrest
        exact ⟨p :: parts, List.forall_mem_cons.mpr ⟨hp, hparts⟩, rfl⟩
  · rintro ⟨parts, hparts, rfl⟩
    rw [List.forall_mem_map]
    intro p hp
    exact (hP _).mpr ⟨p, hparts p hp, rfl⟩

/-- A power matches as many parts in a row. -/
theorem mem_pow_iff (hP : ∀ cs, cs ∈ P.matches' ↔ ∃ p, Good p ∧ cs = write p) {count : Nat} :
    cs ∈ (P ^ count).matches' ↔
      ∃ parts : List Part, parts.length = count ∧ (∀ p ∈ parts, Good p) ∧
        cs = parts.flatMap write := by
  rw [matches'_pow, Language.mem_pow]
  simp only [forall_mem_matches_iff hP]
  constructor
  · rintro ⟨_, rfl, hlength, parts, hparts, rfl⟩
    rw [List.length_map] at hlength
    exact ⟨parts, hlength, hparts, rfl⟩
  · rintro ⟨parts, rfl, hparts, rfl⟩
    exact ⟨_, rfl, List.length_map write, parts, hparts, rfl⟩

/-- A repeated pattern matches as many written parts as the bounds allow. -/
theorem mem_repeated_iff (hP : ∀ cs, cs ∈ P.matches' ↔ ∃ p, Good p ∧ cs = write p) :
    cs ∈ (repeated low high P).matches' ↔
      ∃ parts : List Part, low ≤ parts.length ∧ parts.length ≤ high ∧ (∀ p ∈ parts, Good p) ∧
        cs = parts.flatMap write := by
  rw [repeated, mem_sum_iff]
  simp only [List.mem_map, exists_exists_and_eq_and, List.mem_range'_1, mem_pow_iff hP]
  constructor
  · rintro ⟨count, hcount, parts, rfl, hparts, rfl⟩
    exact ⟨parts, hcount.1, by omega, hparts, rfl⟩
  · rintro ⟨parts, hlow, hhigh, hparts, rfl⟩
    exact ⟨parts.length, ⟨hlow, by omega⟩, parts, rfl, hparts, rfl⟩

/-- An iterated pattern matches any number of written parts. -/
theorem mem_star_iff (hP : ∀ cs, cs ∈ P.matches' ↔ ∃ p, Good p ∧ cs = write p) :
    cs ∈ P.star.matches' ↔
      ∃ parts : List Part, (∀ p ∈ parts, Good p) ∧ cs = parts.flatMap write := by
  rw [matches'_star, Language.mem_kstar]
  simp only [forall_mem_matches_iff hP]
  constructor
  · rintro ⟨_, rfl, parts, hparts, rfl⟩
    exact ⟨parts, hparts, rfl⟩
  · rintro ⟨parts, hparts, rfl⟩
    exact ⟨_, rfl, parts, hparts, rfl⟩

end Repetition

/-- A repeated class matches by the length and by the characters. -/
theorem mem_repeated_oneOf_iff :
    cs ∈ (repeated low high (oneOf chars)).matches' ↔
      low ≤ cs.length ∧ cs.length ≤ high ∧ ∀ c ∈ cs, c ∈ chars.toList := by
  rw [mem_repeated_iff fun _ => mem_oneOf_iff]
  simp only [List.flatMap_singleton']
  constructor
  · rintro ⟨_, hlow, hhigh, hchars, rfl⟩
    exact ⟨hlow, hhigh, hchars⟩
  · rintro ⟨hlow, hhigh, hchars⟩
    exact ⟨cs, hlow, hhigh, hchars, rfl⟩

/-- An iterated class matches the texts whose characters are all in it. -/
theorem mem_star_oneOf_iff :
    cs ∈ (oneOf chars).star.matches' ↔ ∀ c ∈ cs, c ∈ chars.toList := by
  rw [mem_star_iff fun _ => mem_oneOf_iff]
  simp only [List.flatMap_singleton', exists_eq_right']

/-- At most once is not at all, or once. -/
theorem mem_optional_iff : cs ∈ (repeated 0 1 P).matches' ↔ cs = [] ∨ cs ∈ P.matches' := by
  have hsum : repeated 0 1 P = P ^ 0 + (P ^ 1 + 0) := rfl
  rw [hsum, matches'_add, matches'_add, Language.mem_add, Language.mem_add, matches'_pow,
    matches'_pow, pow_zero, pow_one, Language.mem_one, matches'_zero]
  exact or_congr_right (or_iff_left (Language.notMem_zero cs))

end Subnet.Pattern
