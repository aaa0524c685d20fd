import Mathlib.Data.List.Lex
import Subnet.Proofs.AddressRoundTrip
import Subnet.Proofs.TextUnits

/-!
# Fixed width — full texts come in the order of their addresses

    Digits of a fixed number compare from the left as the numbers they denote
    (`Radix.digits_lex`), and writing each digit in a fixed width keeps the
    order (`lex_flatMap`).  The full text of an IPv6 address does that twice:
    its words are digits of the address, and four hexadecimal digits are those
    of a word.  Hexadecimal digits come in the order of their characters, so
    sorting full texts sorts the addresses (`expanded_ordered`).
-/

namespace Subnet

/-! ## Lexicographic order -/

section Lexicographic

variable {α β : Type} {r : α → α → Prop} {t : β → β → Prop}

/-- Lists of one length are told apart whatever follows them. -/
theorem lex_append {xs ys : List α} (hlength : xs.length = ys.length) (h : List.Lex r xs ys)
    (us vs : List α) : List.Lex r (xs ++ us) (ys ++ vs) := by
  induction h with
  | nil => exact nomatch hlength
  | rel hr => exact List.Lex.rel hr
  | cons _ ih => exact List.Lex.cons (ih (Nat.succ.inj hlength))

/-- Items that are told apart by what is written for them, in one width, are so
    in lists. -/
theorem lex_flatMap {write : α → List β}
    (hwidth : ∀ x y, r x y → (write x).length = (write y).length)
    (hwrite : ∀ x y, r x y → List.Lex t (write x) (write y)) {xs ys : List α}
    (hlength : xs.length = ys.length) (h : List.Lex r xs ys) :
    List.Lex t (xs.flatMap write) (ys.flatMap write) := by
  induction h with
  | nil => exact nomatch hlength
  | @rel x xs y ys hr =>
      rw [List.flatMap_cons, List.flatMap_cons]
      exact lex_append (hwidth x y hr) (hwrite x y hr) (xs.flatMap write) (ys.flatMap write)
  | @cons x xs ys _ ih =>
      rw [List.flatMap_cons, List.flatMap_cons]
      exact List.Lex.append_left t (ih (Nat.succ.inj hlength)) (write x)

end Lexicographic

/-- Digits of a fixed number come in the order of what they denote. -/
theorem Radix.digits_lex {base count v w : Nat} (hlt : v < w) (hw : w < base ^ count) :
    List.Lex (fun d e => d < e ∧ e < base) (digits base count v) (digits base count w) := by
  induction count generalizing v w with
  | zero =>
      rw [Nat.pow_zero] at hw
      omega
  | succ count ih =>
      rw [digits, digits]
      have hb : 0 < base := by
        refine Nat.pos_of_ne_zero ?_
        rintro rfl
        rw [Nat.zero_pow (Nat.succ_pos count)] at hw
        exact Nat.not_lt_zero w hw
      have hquot : w / base < base ^ count := (Nat.div_lt_iff_lt_mul hb).mpr hw
      have hle : v / base ≤ w / base := Nat.div_le_div_right (Nat.le_of_lt hlt)
      rcases Nat.lt_or_eq_of_le hle with hfront | hfront
      · exact lex_append (by rw [length_digits, length_digits]) (ih hfront hquot) _ _
      · -- the same digits in front: the last one decides
        have hlast : v % base < w % base := by
          have hv := Nat.div_add_mod v base
          have hw' := Nat.div_add_mod w base
          rw [hfront] at hv
          omega
        rw [hfront]
        exact List.Lex.append_left _ (List.Lex.rel ⟨hlast, Nat.mod_lt w hb⟩) _

/-! ## Padded numerals -/

/-- A numeral with zeros in front is all the digits of its number. -/
theorem Radix.leftpad_toDigits {base count n : Nat} (hb : 1 < base) (hn : n < base ^ (count + 1)) :
    (Nat.toDigits base n).leftpad (count + 1) '0' =
      (digits base (count + 1) n).map Nat.digitChar := by
  induction count generalizing n with
  | zero =>
      rw [Nat.zero_add, Nat.pow_one] at hn
      rw [Nat.toDigits_of_lt_base hn]
      simp [digits, Nat.mod_eq_of_lt hn]
  | succ count ih =>
      rw [digits, List.map_append, List.map_singleton]
      rw [← ih ((Nat.div_lt_iff_lt_mul (by omega)).mpr hn)]
      by_cases hlt : n < base
      · rw [Nat.toDigits_of_lt_base hlt, Nat.div_eq_of_lt hlt, Nat.mod_eq_of_lt hlt]
        simp [List.leftpad, List.replicate_succ']
      · rw [Nat.toDigits_of_base_le hb (Nat.le_of_not_lt hlt)]
        simp [List.leftpad]

/-! ## Units of plain texts -/

namespace Text

variable {cs : List Char}

/-- One text comes before another in the order of their units. -/
def Before (s t : String) : Prop :=
  List.Lex (· < ·) (units s.toList) (units t.toList)

/-- No text comes before itself. -/
theorem Before.irrefl (s : String) : ¬Before s s :=
  List.lex_irrefl Nat.lt_irrefl (units s.toList)

/-- Of two texts one at most comes before the other. -/
theorem Before.asymm {s t : String} (h : Before s t) : ¬Before t s :=
  List.lex_asymm (fun hlt => Nat.lt_asymm hlt) h

/-- A colon is a plain character. -/
theorem isPlain_colon : IsPlain ':' :=
  ⟨by decide, by decide⟩

/-- The units of a text are those of its first character and then those of the rest. -/
theorem units_cons (c : Char) (cs : List Char) : units (c :: cs) = charUnits c ++ units cs :=
  List.flatMap_cons

/-- A plain text has one unit for each character. -/
theorem units_of_isPlain (h : ∀ c ∈ cs, IsPlain c) : units cs = cs.map Char.toNat := by
  induction cs with
  | nil => rfl
  | cons c rest ih =>
      obtain ⟨hc, hrest⟩ := List.forall_mem_cons.mp h
      rw [units_cons, hc.charUnits_eq, ih hrest]
      rfl

end Text

namespace Address

open Text (units charUnits IsPlain)

/-! ## Groups in full -/

/-- A group in full: four lowercase hexadecimal digits. -/
def IsFullGroup (cs : List Char) : Prop :=
  cs.length = 4 ∧ ∀ c ∈ cs, c ∈ "0123456789abcdef".toList

/-- A text in full: eight groups in full, joined by colons. -/
def IsFull (text : String) : Prop :=
  ∃ groups : List (List Char), groups.length = 8 ∧ (∀ g ∈ groups, IsFullGroup g) ∧
    text.toList = [':'].intercalate groups

/-- The word `w` in full. -/
def fullGroup (w : Nat) : List Char :=
  (Radix.digits 16 4 w).map Nat.digitChar

/-- The digits that are written are hexadecimal and in lower case. -/
theorem digitChar_mem : ∀ d < 16, d.digitChar ∈ "0123456789abcdef".toList := by decide

/-- Characters of digits come in the order of the digits. -/
theorem digitChar_lt : ∀ e < 16, ∀ d < e, d.digitChar.toNat < e.digitChar.toNat := by decide

/-- Characters of digits are plain. -/
theorem isPlain_digitChar {d : Nat} (h : d < 16) : IsPlain d.digitChar := by
  have hall : ∀ d < 16, 0 < d.digitChar.toNat ∧ d.digitChar.toNat < 0x80 := by decide
  exact hall d h

/-- A word is written in full as four digits. -/
theorem isFullGroup_fullGroup (w : Nat) : IsFullGroup (fullGroup w) := by
  refine ⟨?_, ?_⟩
  · rw [fullGroup, List.length_map, Radix.length_digits]
  · intro c hc
    obtain ⟨d, hd, rfl⟩ := List.mem_map.mp hc
    exact digitChar_mem d (Radix.lt_of_mem_digits (by decide) hd)

/-- The units of a full group are those of its four digits. -/
theorem units_fullGroup (w : Nat) :
    units (fullGroup w) = (Radix.digits 16 4 w).map fun d => d.digitChar.toNat := by
  have hplain : ∀ c ∈ fullGroup w, IsPlain c := by
    intro c hc
    obtain ⟨d, hd, rfl⟩ := List.mem_map.mp hc
    exact isPlain_digitChar (Radix.lt_of_mem_digits (by decide) hd)
  rw [Text.units_of_isPlain hplain, fullGroup, List.map_map]
  rfl

/-- Words in full come in the order of the words. -/
theorem units_fullGroup_lex {w x : Nat} (h : w < x) (hx : x < 65536) :
    List.Lex (· < ·) (units (fullGroup w)) (units (fullGroup x)) := by
  have hsize : x < 16 ^ 4 := hx
  have hdigits := Radix.digits_lex h hsize
  rw [units_fullGroup, units_fullGroup, List.map_eq_flatMap, List.map_eq_flatMap]
  refine lex_flatMap ?_ ?_ (by rw [Radix.length_digits, Radix.length_digits]) hdigits
  · intro d e _
    rfl
  · intro d e hde
    exact List.Lex.rel (digitChar_lt e hde.2 d hde.1)

/-! ## Full texts -/

variable {a b : Address}

/-- A full text is the groups of the words in full. -/
theorem expandedChars_eq (h : a.family = .v6) :
    a.expandedChars = [':'].intercalate ((Radix.digits 65536 8 a.value).map fullGroup) := by
  have hword (w : UInt16) : (Nat.toDigits 16 w.toNat).leftpad 4 '0' = fullGroup w.toNat :=
    Radix.leftpad_toDigits (by decide) w.toNat_lt
  have hwords := a.map_toNat_words
  rw [h] at hwords
  have hcount : Family.v6.octetCount / 2 = 8 := rfl
  rw [expandedChars, ← hcount, ← hwords, List.map_map]
  exact congrArg _ (List.map_congr_left fun w _ => hword w)

/-- A colon in front makes all groups alike. -/
theorem cons_expandedChars (h : a.family = .v6) :
    ':' :: a.expandedChars =
      (Radix.digits 65536 8 a.value).flatMap fun w => ':' :: fullGroup w := by
  obtain ⟨w, ws, hwords⟩ :=
    List.exists_cons_of_length_eq_add_one (Radix.length_digits 65536 8 a.value)
  rw [expandedChars_eq h, hwords, List.map_cons, Grammar.intercalate_cons_flatMap,
    List.flatMap_cons, List.flatMap_map]
  rfl

/-- The expanded text of an IPv6 address has eight full groups. -/
theorem isFull_expanded (h : a.family = .v6) : IsFull a.expanded := by
  refine ⟨(Radix.digits 65536 8 a.value).map fullGroup, ?_, ?_, ?_⟩
  · rw [List.length_map, Radix.length_digits]
  · intro g hg
    obtain ⟨w, -, rfl⟩ := List.mem_map.mp hg
    exact isFullGroup_fullGroup w
  · rw [expanded, String.toList_ofList, expandedChars_eq h]

/-- The expanded text of an IPv6 address has thirty-nine characters. -/
theorem length_expanded (h : a.family = .v6) : a.expanded.length = 39 := by
  have hlength := congrArg List.length (cons_expandedChars h)
  have hgroup (w : Nat) : (':' :: fullGroup w).length = 5 :=
    congrArg Nat.succ (isFullGroup_fullGroup w).1
  simp only [List.length_flatMap, hgroup, List.map_const',
    List.sum_replicate_nat, Radix.length_digits, List.length_cons] at hlength
  rw [expanded, String.length_ofList]
  omega

/-- Full texts come in the order of the addresses. -/
theorem before_expanded (ha : a.family = .v6) (hb : b.family = .v6) (h : a.value < b.value) :
    Text.Before a.expanded b.expanded := by
  have hsize : b.value < 65536 ^ 8 := by
    have hlt := b.value_lt
    rw [hb] at hlt
    exact hlt
  have hgroup (w : Nat) : (units (':' :: fullGroup w)).length = 5 := by
    rw [Text.units_cons, units_fullGroup, Text.isPlain_colon.charUnits_eq]
    simp
  -- the colon that was put in front is the same on both sides
  have hcolon : List.Lex (· < ·) (units (':' :: a.expandedChars))
      (units (':' :: b.expandedChars)) := by
    rw [cons_expandedChars ha, cons_expandedChars hb, units, units, List.flatMap_assoc,
      List.flatMap_assoc]
    refine lex_flatMap ?_ ?_ (by rw [Radix.length_digits, Radix.length_digits])
      (Radix.digits_lex h hsize)
    · intro w x _
      exact (hgroup w).trans (hgroup x).symm
    · intro w x hwx
      show List.Lex (· < ·) (units (':' :: fullGroup w)) (units (':' :: fullGroup x))
      rw [Text.units_cons, Text.units_cons]
      exact List.Lex.append_left _ (units_fullGroup_lex hwx.1 hwx.2) _
  rw [Text.units_cons, Text.units_cons, Text.isPlain_colon.charUnits_eq, List.singleton_append,
    List.singleton_append, List.lex_cons_iff] at hcolon
  rw [Text.Before, expanded, expanded, String.toList_ofList, String.toList_ofList]
  exact hcolon

/-- **FULL TEXTS ARE ORDERED**: the full text of an IPv6 address is eight groups
    of four lowercase hexadecimal digits, reads back as the address, and comes
    before that of another exactly if the address does. -/
theorem expanded_ordered (ha : a.family = .v6) (hb : b.family = .v6) :
    IsFull a.expanded ∧ a.expanded.length = 39 ∧ Address.parse a.expanded .v6 = .ok a ∧
      (a.value < b.value ↔ Text.Before a.expanded b.expanded) := by
  refine ⟨isFull_expanded ha, length_expanded ha, ?_, before_expanded ha hb, ?_⟩
  · exact parse_eq_ok_iff.mpr (Grammar.parse?_expanded ha)
  · intro hbefore
    rcases Nat.lt_trichotomy a.value b.value with hlt | heq | hgt
    · exact hlt
    · obtain rfl : a = b := Address.ext (ha.trans hb.symm) heq
      exact absurd hbefore (Text.Before.irrefl a.expanded)
    · exact absurd hbefore (before_expanded hb ha hgt).asymm

/-- Nine comes before ten in the expanded texts too, where a letter stands for ten. -/
theorem expanded_ordered_nine_ten :
    let a : Address := ⟨.v6, 0x20010db8000000000000000000000009, by decide⟩
    let b : Address := ⟨.v6, 0x20010db800000000000000000000000a, by decide⟩
    a.family = .v6 ∧ b.family = .v6 ∧ IsFull a.expanded ∧ a.expanded.length = 39 ∧
      Address.parse a.expanded .v6 = .ok a ∧ Text.Before a.expanded b.expanded := by
  intro a b
  have ha : a.family = .v6 := rfl
  have hb : b.family = .v6 := rfl
  have hlt : a.value < b.value := by decide
  obtain ⟨hfull, hlength, hparse, horder⟩ := expanded_ordered ha hb
  exact ⟨ha, hb, hfull, hlength, hparse, horder.mp hlt⟩

end Address

end Subnet
