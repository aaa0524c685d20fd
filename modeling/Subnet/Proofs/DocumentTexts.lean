import Subnet.Json.Printer
import Subnet.Json.Reader
import Subnet.Proofs.Numerals
import Subnet.Proofs.TextUnits

/-!
# Document texts — a written JSON value is read back

    A written value starts with a character that tells its kind, and the reader
    stops where the value ends, whatever follows (`Readable`).  Null, truth values and
    strings are readable, and so are arrays and objects of readable values, one
    constructor of the printer at a time.  Numbers are not: more digits may follow.
    A readable value is read from its text as a whole (`parse?_text`).
-/

namespace Subnet.Json

variable {n : Nat} {c : Char} {v : Json} {items : List Json} {key : Key}
  {members : List (Key × Json)}

/-! ## Strings -/

/-- Four digits are read as the unit that they were written for. -/
theorem stringUnits?_escapeUnit (h : n < 0x10000) (rest : List Char) :
    stringUnits? (escapeUnit n ++ rest) =
      (stringUnits? rest).map fun (us, rest) => (n :: us, rest) := by
  have hdigits : Grammar.Digits 16 ((Nat.toDigits 16 n).leftpad 4 '0') n :=
    (Grammar.digits_toDigits (by decide) (by decide) n).replicate_zero_append (by decide) _
  have hlength : ((Nat.toDigits 16 n).leftpad 4 '0').length = 4 := by
    rw [List.length_leftpad]
    exact Nat.max_eq_left ((Nat.length_toDigits_le_iff (by decide) (by decide)).mpr h)
  unfold escapeUnit
  generalize (Nat.toDigits 16 n).leftpad 4 '0' = digits at hdigits hlength
  obtain ⟨-, ds, hds, rfl⟩ := hdigits
  match digits, hlength with
  | [c₁, c₂, c₃, c₄], _ =>
      have hread := (Grammar.mapM_eq_some_iff_forall₂ Grammar.hexDigit?_eq_some_iff).mpr hds
      show stringUnits? ('\\' :: 'u' :: c₁ :: c₂ :: c₃ :: c₄ :: rest) = _
      rw [stringUnits?, hread]

/-- An escaped character is read as its units. -/
theorem stringUnits?_escape (c : Char) (rest : List Char) :
    stringUnits? (escape c ++ rest) =
      (stringUnits? rest).map fun (us, rest) => (Text.charUnits c ++ us, rest) := by
  unfold escape
  split_ifs with hquote hcontrol
  · rcases hquote with rfl | rfl
    · rfl
    · rfl
  · have hlt : c.toNat < 0x10000 := Nat.lt_trans hcontrol (by decide)
    rw [stringUnits?_escapeUnit hlt, Text.charUnits, if_pos hlt]
    rfl
  · obtain ⟨hne, hne'⟩ := not_or.mp hquote
    rw [List.singleton_append, stringUnits?, if_neg hcontrol]
    · exact hne
    · exact fun _ _ _ _ _ h _ => hne' h
    · exact fun _ _ h _ => hne' h

/-- The units of written pieces, up to the closing quote. -/
theorem stringUnits?_flatMap {α : Type} {write : α → List Char} {unitsOf : α → List Nat}
    {xs : List α}
    (h : ∀ x ∈ xs, ∀ rest, stringUnits? (write x ++ rest) =
      (stringUnits? rest).map fun (us, rest) => (unitsOf x ++ us, rest))
    (rest : List Char) :
    stringUnits? (xs.flatMap write ++ '"' :: rest) = some (xs.flatMap unitsOf, rest) := by
  induction xs with
  | nil => rfl
  | cons x xs ih =>
      obtain ⟨hx, hxs⟩ := List.forall_mem_cons.mp h
      rw [List.flatMap_cons, List.append_assoc, hx, ih hxs]
      rfl

/-- A written text is read back: its units give the text. -/
theorem string?_quoted (text : String) (rest : List Char) :
    string? (text.toList.flatMap escape ++ '"' :: rest) = some (text, rest) := by
  rw [string?, stringUnits?_flatMap fun c _ => stringUnits?_escape c]
  show some (String.ofList (Text.ofUnits (Text.units text.toList)), rest) = _
  rw [Text.ofUnits_units, String.ofList_toList]

/-- The numbers of the key are units, of sixteen bits. -/
def Key.Proper (key : Key) : Prop :=
  ∀ n ∈ key.units, n < 0x10000

/-- The key of a text has units of sixteen bits. -/
theorem Key.proper_ofText (name : String) : (Key.ofText name).Proper := by
  intro n hn
  obtain ⟨c, -, hn⟩ := List.mem_flatMap.mp hn
  have hvalid := Text.isValidChar_toNat c
  unfold Nat.isValidChar at hvalid
  by_cases hlt : c.toNat < 0x10000
  · rw [Text.charUnits, if_pos hlt] at hn
    rw [List.mem_singleton.mp hn]
    exact hlt
  · rw [Text.charUnits, if_neg hlt] at hn
    simp only [List.mem_cons, List.not_mem_nil, or_false] at hn
    omega

/-- A unit of a key is read back, a surrogate from its digits. -/
theorem stringUnits?_keyUnit (h : n < 0x10000) (rest : List Char) :
    stringUnits? (keyUnit n ++ rest) =
      (stringUnits? rest).map fun (us, rest) => ([n] ++ us, rest) := by
  unfold keyUnit
  split_ifs with hhalf
  · exact stringUnits?_escapeUnit h rest
  · rw [Bool.or_eq_true, not_or, Bool.not_eq_true, Bool.not_eq_true] at hhalf
    have hvalid : n.isValidChar := by
      have := Text.isWhole_iff.mp hhalf
      unfold Nat.isValidChar
      omega
    have hunits : Text.charUnits (Char.ofNat n) = [n] := by
      rw [Text.charUnits, Text.toNat_ofNat hvalid, if_pos h]
    rw [stringUnits?_escape, hunits]

/-- A written key is read back if it is made of units. -/
theorem key?_quotedKey (h : key.Proper) (rest : List Char) :
    key? (key.units.flatMap keyUnit ++ '"' :: rest) = some (key, rest) := by
  rw [key?, stringUnits?_flatMap fun n hn => stringUnits?_keyUnit (h n hn)]
  show some ((⟨key.units.flatMap fun n => [n]⟩ : Key), rest) = _
  rw [List.flatMap_singleton']

/-! ## Values -/

/-- The value is read back from its text, and what follows is left.  Its text
    neither starts with a blank nor closes an array. -/
structure Readable (v : Json) : Prop where
  head : ∃ c cs, v.chars = c :: cs ∧ isSpace c = false ∧ c ≠ ']'
  read : ∀ bound rest, 2 * v.chars.length ≤ bound →
    value? bound (v.chars ++ rest) = some (v, rest)

/-- Nothing is skipped before a character that is no space. -/
theorem skipSpace_cons (h : isSpace c = false) (rest : List Char) :
    skipSpace (c :: rest) = c :: rest :=
  List.dropWhile_cons_of_neg (by rw [h]; exact Bool.false_ne_true)

/-- A value without parts is readable if any positive bound is enough. -/
theorem readable_of_cons {cs : List Char} (hchars : v.chars = c :: cs) (hspace : isSpace c = false)
    (hclose : c ≠ ']')
    (hread : ∀ bound rest, value? (bound + 1) (c :: (cs ++ rest)) = some (v, rest)) :
    Readable v := by
  refine ⟨⟨c, cs, hchars, hspace, hclose⟩, fun bound rest hbound => ?_⟩
  rw [hchars] at hbound ⊢
  cases bound with
  | zero => exact nomatch hbound
  | succ bound => exact hread bound rest

/-- The null value is read back. -/
theorem readable_null : Readable .null :=
  readable_of_cons rfl rfl (by decide) fun _ _ => rfl

/-- Truth values are read back. -/
theorem readable_bool : ∀ b, Readable (.bool b)
  | true => readable_of_cons rfl rfl (by decide) fun _ _ => rfl
  | false => readable_of_cons rfl rfl (by decide) fun _ _ => rfl

/-- Every text is read back, whatever its characters. -/
theorem readable_string (text : String) : Readable (.string text) := by
  have hchars : (Json.string text).chars = '"' :: (text.toList.flatMap escape ++ ['"']) := rfl
  refine readable_of_cons hchars rfl (by decide) fun bound rest => ?_
  rw [List.append_assoc]
  show (string? (text.toList.flatMap escape ++ '"' :: rest)).map _ = _
  rw [string?_quoted]
  rfl

/-! ## Arrays -/

/-- An item with others behind it is followed by a comma. -/
theorem itemChars_cons {items : List Json} (h : items ≠ []) :
    itemChars (v :: items) = v.chars ++ ',' :: itemChars items := by
  cases items with
  | nil => exact absurd rfl h
  | cons w rest => rw [itemChars]; exact nofun

/-- Items start with no space and do not close the array. -/
theorem head_itemChars (hne : items ≠ []) (h : ∀ v ∈ items, Readable v) :
    ∃ c cs, itemChars items = c :: cs ∧ isSpace c = false ∧ c ≠ ']' := by
  obtain ⟨v, items, rfl⟩ := List.exists_cons_of_ne_nil hne
  obtain ⟨c, cs, hchars, hc⟩ := (h v List.mem_cons_self).head
  by_cases hlast : items = []
  · subst hlast
    exact ⟨c, cs, by rw [itemChars, hchars], hc⟩
  · exact ⟨c, _, by rw [itemChars_cons hlast, hchars]; rfl, hc⟩

/-- Items are read up to the bracket behind the last one. -/
theorem items?_itemChars (hne : items ≠ []) (h : ∀ v ∈ items, Readable v) (bound : Nat)
    (rest : List Char) (hbound : 2 * (itemChars items).length + 1 ≤ bound) :
    items? bound (itemChars items ++ ']' :: rest) = some (items, rest) := by
  induction items generalizing bound with
  | nil => exact absurd rfl hne
  | cons v items ih =>
      obtain ⟨hv, hitems⟩ := List.forall_mem_cons.mp h
      obtain ⟨bound, rfl⟩ := Nat.exists_eq_add_of_le' (Nat.le_trans (Nat.le_add_left 1 _) hbound)
      rw [items?]
      by_cases hlast : items = []
      · subst hlast
        rw [itemChars] at hbound ⊢
        rw [hv.read bound _ (Nat.le_of_succ_le_succ hbound)]
        rfl
      · rw [itemChars_cons hlast] at hbound ⊢
        simp only [List.length_append, List.length_cons] at hbound
        -- the comma pays for the step to the next item
        rw [List.append_assoc, hv.read bound _ (by omega)]
        show (items? bound (itemChars items ++ ']' :: rest)).map _ = _
        rw [ih hlast hitems bound (by omega)]
        rfl

/-- A bracket with an item behind it opens an array that is not empty. -/
theorem value?_bracket {cs : List Char} (hspace : isSpace c = false) (hc : c ≠ ']') (bound : Nat) :
    value? (bound + 1) ('[' :: c :: cs) =
      (items? bound (c :: cs)).map fun (vs, rest) => (array vs, rest) := by
  rw [value?, skipSpace_cons rfl]
  simp only [skipSpace_cons hspace]
  split
  · rename_i hclose
    exact absurd (List.cons.inj hclose).1 hc
  · rfl

/-- An array of values that are read back is read back. -/
theorem readable_array (h : ∀ v ∈ items, Readable v) : Readable (.array items) := by
  have hopen (rest : List Char) : (array items).chars ++ rest =
      '[' :: (itemChars items ++ ']' :: rest) := by
    simp [chars]
  refine ⟨⟨'[', _, by rw [chars]; rfl, rfl, by decide⟩, fun bound rest hbound => ?_⟩
  rw [chars] at hbound
  simp only [List.length_append, List.length_cons, List.length_nil] at hbound
  obtain ⟨bound, rfl⟩ : ∃ b, bound = b + 1 := Nat.exists_eq_add_of_le' (by omega)
  rw [hopen]
  by_cases hempty : items = []
  · subst hempty
    rfl
  · have hread := items?_itemChars hempty h bound rest (by omega)
    obtain ⟨c, cs, hcs, hspace, hc⟩ := head_itemChars hempty h
    rw [hcs, List.cons_append] at hread ⊢
    rw [value?_bracket hspace hc, hread]
    rfl

/-! ## Objects -/

/-- A member with others behind it is followed by a comma. -/
theorem memberChars_cons {members : List (Key × Json)} (h : members ≠ []) :
    memberChars ((key, v) :: members) =
      quotedKey key ++ ':' :: v.chars ++ ',' :: memberChars members := by
  cases members with
  | nil => exact absurd rfl h
  | cons m rest => rw [memberChars]; exact nofun

/-- The text of members starts with the quote of the first key. -/
theorem head_memberChars (hne : members ≠ []) : ∃ cs, memberChars members = '"' :: cs := by
  obtain ⟨m, members, rfl⟩ := List.exists_cons_of_ne_nil hne
  by_cases hlast : members = []
  · subst hlast
    exact ⟨_, by rw [memberChars, quotedKey]; rfl⟩
  · exact ⟨_, by rw [memberChars_cons hlast, quotedKey]; rfl⟩

/-- A written member starts with the quote of its key. -/
theorem member_append (key : Key) (v : Json) (rest : List Char) :
    quotedKey key ++ ':' :: v.chars ++ rest =
      '"' :: (key.units.flatMap keyUnit ++ '"' :: ':' :: (v.chars ++ rest)) := by
  simp [quotedKey]

section Member

variable {bound : Nat} (hkey : key.Proper) (hv : Readable v) (hbound : 2 * v.chars.length ≤ bound)
  (rest : List Char)

include hkey hv hbound

/-- The last member is read where a brace closes the object. -/
theorem members?_last :
    members? (bound + 1) (quotedKey key ++ ':' :: v.chars ++ '}' :: rest) =
      some ([(key, v)], rest) := by
  have hread := hv.read bound ('}' :: rest) hbound
  rw [member_append, members?]
  simp [skipSpace_cons, isSpace, key?_quotedKey hkey, hread]

/-- A member that a comma follows is read before the others. -/
theorem members?_more :
    members? (bound + 1) (quotedKey key ++ ':' :: v.chars ++ ',' :: rest) =
      (members? bound rest).map fun (ms, rest) => ((key, v) :: ms, rest) := by
  have hread := hv.read bound (',' :: rest) hbound
  rw [member_append, members?]
  simp [skipSpace_cons, isSpace, key?_quotedKey hkey, hread]

end Member

/-- Members are read up to the brace behind the last one. -/
theorem members?_memberChars (hne : members ≠ [])
    (h : ∀ m ∈ members, m.1.Proper ∧ Readable m.2) (bound : Nat)
    (rest : List Char) (hbound : 2 * (memberChars members).length + 1 ≤ bound) :
    members? bound (memberChars members ++ '}' :: rest) = some (members, rest) := by
  induction members generalizing bound with
  | nil => exact absurd rfl hne
  | cons m members ih =>
      obtain ⟨⟨hkey, hv⟩, hmembers⟩ := List.forall_mem_cons.mp h
      obtain ⟨bound, rfl⟩ := Nat.exists_eq_add_of_le' (Nat.le_trans (Nat.le_add_left 1 _) hbound)
      by_cases hlast : members = []
      · subst hlast
        rw [memberChars] at hbound ⊢
        simp only [List.length_append, List.length_cons] at hbound
        exact members?_last hkey hv (by omega) rest
      · rw [memberChars_cons hlast] at hbound ⊢
        simp only [List.length_append, List.length_cons] at hbound
        rw [List.append_assoc, List.cons_append, members?_more hkey hv (by omega),
          ih hlast hmembers bound (by omega)]
        rfl

/-- An object of values that are read back is read back, if its keys are made of
    units. -/
theorem readable_object (h : ∀ m ∈ members, m.1.Proper ∧ Readable m.2) :
    Readable (.object members) := by
  have hopen (rest : List Char) : (object members).chars ++ rest =
      '{' :: (memberChars members ++ '}' :: rest) := by
    simp [chars]
  refine ⟨⟨'{', _, by rw [chars]; rfl, rfl, by decide⟩, fun bound rest hbound => ?_⟩
  rw [chars] at hbound
  simp only [List.length_append, List.length_cons, List.length_nil] at hbound
  obtain ⟨bound, rfl⟩ : ∃ b, bound = b + 1 := Nat.exists_eq_add_of_le' (by omega)
  rw [hopen]
  by_cases hempty : members = []
  · subst hempty
    rfl
  · have hread := members?_memberChars hempty h bound rest (by omega)
    obtain ⟨cs, hcs⟩ := head_memberChars hempty
    rw [hcs, List.cons_append] at hread ⊢
    show (members? bound _).map _ = _
    rw [hread]
    rfl

/-! ## Documents -/

/-- **WRITTEN VALUES** are read back from their texts. -/
theorem parse?_text (h : Readable v) : parse? v.text = some v := by
  have hread := h.read (2 * v.chars.length + 2) [] (Nat.le_add_right _ 2)
  rw [List.append_nil] at hread
  rw [parse?, text, String.toList_ofList]
  simp only [hread]
  rfl

end Subnet.Json
