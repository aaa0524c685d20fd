import Mathlib.Tactic.SplitIfs
import Subnet.Json.Key

/-!
# Texts and their units — each text comes back from its units

    A character beyond the first plane is a pair of surrogates, and a pair is put
    together again; any other character is one unit, which is no surrogate
    (`ofUnits_units`).  A key may hold unpaired surrogates too, but these stand for
    no character of a plain name, so only one key has such a text
    (`text_eq_iff_of_isPlain`).
-/

namespace Subnet

namespace Text

variable {c : Char} {cs : List Char} {n m : Nat} {ns : List Nat}

/-- A character is a code point and no surrogate. -/
theorem isValidChar_toNat (c : Char) : c.toNat.isValidChar :=
  c.valid

/-- The character of a code point has its number. -/
theorem toNat_ofNat (h : n.isValidChar) : (Char.ofNat n).toNat = n := by
  rw [Char.ofNat, dif_pos h]
  rfl

/-- A unit that is no half of a pair. -/
def IsWhole (n : Nat) : Prop :=
  isHighSurrogate n = false ∧ isLowSurrogate n = false

/-- The units that are whole lie below the surrogates or above them. -/
theorem isWhole_iff : IsWhole n ↔ n < 0xd800 ∨ 0xe000 ≤ n := by
  simp only [IsWhole, isHighSurrogate, isLowSurrogate, Bool.and_eq_false_iff, decide_eq_false_iff_not]
  omega

/-- The number of a character is no half of a pair. -/
theorem isWhole_toNat (c : Char) : IsWhole c.toNat := by
  have hvalid := isValidChar_toNat c
  unfold Nat.isValidChar at hvalid
  rw [isWhole_iff]
  omega

/-- A unit that is whole is a character of its own. -/
theorem ofUnits_cons_of_isWhole (h : IsWhole n) (ns : List Nat) :
    ofUnits (n :: ns) = Char.ofNat n :: ofUnits ns := by
  cases ns with
  | nil => simp [ofUnits, h.1, h.2]
  | cons m rest => simp [ofUnits, h.1, h.2]

/-- The halves of a pair and the character they make. -/
theorem ofUnits_pair (h : 0x10000 ≤ c.toNat) (ns : List Nat) :
    ofUnits (charUnits c ++ ns) = c :: ofUnits ns := by
  have hvalid := isValidChar_toNat c
  unfold Nat.isValidChar at hvalid
  have hhigh : isHighSurrogate (0xd800 + (c.toNat - 0x10000) / 0x400) = true := by
    simp only [isHighSurrogate, Bool.and_eq_true, decide_eq_true_eq]
    omega
  have hlow : isLowSurrogate (0xdc00 + (c.toNat - 0x10000) % 0x400) = true := by
    simp only [isLowSurrogate, Bool.and_eq_true, decide_eq_true_eq]
    omega
  have hvalue : 0x10000 + (0xd800 + (c.toNat - 0x10000) / 0x400 - 0xd800) * 0x400 +
      (0xdc00 + (c.toNat - 0x10000) % 0x400 - 0xdc00) = c.toNat := by
    omega
  rw [charUnits, if_neg (Nat.not_lt_of_le h), List.cons_append, List.cons_append, List.nil_append,
    ofUnits, hhigh, hlow, Bool.and_true, if_pos rfl, hvalue, Char.ofNat_toNat]

/-- **UNITS OF A TEXT** give the text back. -/
theorem ofUnits_units (cs : List Char) : ofUnits (units cs) = cs := by
  induction cs with
  | nil => rfl
  | cons c rest ih =>
      have hcons : units (c :: rest) = charUnits c ++ units rest := List.flatMap_cons
      rw [hcons]
      by_cases h : c.toNat < 0x10000
      · rw [charUnits, if_pos h, List.singleton_append, ofUnits_cons_of_isWhole (isWhole_toNat c),
          ih, Char.ofNat_toNat]
      · rw [ofUnits_pair (Nat.le_of_not_lt h), ih]

/-! ## Plain texts -/

/-- A character of the ASCII range, the null character excepted. -/
def IsPlain (c : Char) : Prop :=
  0 < c.toNat ∧ c.toNat < 0x80

/-- A plain character has the number that it was made from. -/
theorem IsPlain.toNat_ofNat (h : IsPlain (Char.ofNat n)) : (Char.ofNat n).toNat = n := by
  by_cases hvalid : n.isValidChar
  · exact Text.toNat_ofNat hvalid
  · have hnull : Char.ofNat n = '\x00' := dif_neg hvalid
    exact absurd (hnull ▸ h.1) (by decide)

/-- A plain character is one unit, its number. -/
theorem IsPlain.charUnits_eq (h : IsPlain c) : charUnits c = [c.toNat] :=
  if_pos (Nat.lt_trans h.2 (by decide))

/-- What stands for half a pair is no plain character. -/
theorem not_isPlain_replacement : ¬IsPlain '\ufffd' :=
  fun h => absurd h.2 (by decide)

/-- A whole unit in front of those of a plain text. -/
theorem cons_eq_units (h : IsPlain (Char.ofNat n)) {cs : List Char} (hns : ns = units cs) :
    n :: ns = units (Char.ofNat n :: cs) := by
  have hcons : units (Char.ofNat n :: cs) = charUnits (Char.ofNat n) ++ units cs :=
    List.flatMap_cons
  rw [hcons, h.charUnits_eq, h.toNat_ofNat, hns, List.singleton_append]

/-- Only its own units give a text of plain characters. -/
theorem eq_units_of_isPlain (h : ∀ c ∈ ofUnits ns, IsPlain c) : ns = units (ofUnits ns) := by
  fun_induction ofUnits ns with
  | case1 => rfl
  | case2 n =>
      split_ifs at h ⊢ with hhalf
      · exact absurd (h _ List.mem_cons_self) not_isPlain_replacement
      · exact cons_eq_units (h _ List.mem_cons_self) rfl
  | case3 n m rest hpair ih =>
      have hplain := h _ List.mem_cons_self
      have hlow := hplain.2
      rw [hplain.toNat_ofNat] at hlow
      omega
  | case4 n m rest hpair hhalf ih =>
      exact absurd (h _ List.mem_cons_self) not_isPlain_replacement
  | case5 n m rest hpair hhalf ih =>
      obtain ⟨hplain, hrest⟩ := List.forall_mem_cons.mp h
      exact cons_eq_units hplain (ih hrest)

end Text

namespace Json.Key

open Text (IsPlain)

/-- A plain name is the text of its own key only. -/
theorem text_eq_iff_of_isPlain {key : Key} {name : String} (h : ∀ c ∈ name.toList, IsPlain c) :
    key.text = name ↔ key = ofText name := by
  constructor
  · rintro rfl
    rw [text, String.toList_ofList] at h
    have hunits := Text.eq_units_of_isPlain h
    rw [ofText, text, String.toList_ofList, ← hunits]
  · rintro rfl
    rw [text, ofText, Text.ofUnits_units, String.ofList_toList]

end Json.Key

end Subnet
