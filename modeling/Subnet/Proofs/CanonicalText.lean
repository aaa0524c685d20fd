import Subnet.Proofs.AddressRoundTrip

/-!
# Canonical texts — an address has exactly one

    `Canonical` says what the text of an IPv6 address looks like without saying
    how it is found: a dotted tail for the mapped addresses, else the words
    around the leftmost longest run of zero words, else all words.  The printer
    writes this text and there is no other, since each group and each octet has
    only one canonical numeral.

    IPv4 texts are canonical already where they are read, so writing what was
    read gives the text back (`text_of_parse?_v4`).
-/

namespace Subnet.Grammar

/-! ## The canonical texts -/

/-- A canonical group: lowercase hexadecimal digits, a single `0` for the zero
    word and no leading zero for any other. -/
structure CanonicalGroup (cs : List Char) (w : Nat) : Prop where
  digits : Digits 16 cs w
  lower : ∀ c ∈ cs, c.isUpper = false
  zero : w = 0 → cs = ['0']
  leading : w ≠ 0 → cs.head? ≠ some '0'

/-- Words as canonical groups joined by colons. -/
def Joined (cs : List Char) (ws : List UInt16) : Prop :=
  ∃ groups, List.Forall₂ (fun group w => CanonicalGroup group w.toNat) groups ws ∧
    cs = [':'].intercalate groups

/-- The canonical text of an IPv6 address: the mapped form, or all words, or the
    words before and after the leftmost longest run of zero words around one
    `::`. -/
inductive Canonical (a : Address) : List Char → Prop where
  | mapped {quad : List Char} {os : List Nat} : a.value >>> 32 = 0xffff → Quad quad os →
      Radix.value 256 os = a.value % 2 ^ 32 → Canonical a ("::ffff:".toList ++ quad)
  | full {cs : List Char} : a.value >>> 32 ≠ 0xffff → ¬AdjacentZeros a.words →
      Joined cs a.words → Canonical a cs
  | gap {left right : List Char} {start length : Nat} : a.value >>> 32 ≠ 0xffff →
      AdjacentZeros a.words → LongestZeroRun a.words start length →
      Joined left (a.words.take start) → Joined right (a.words.drop (start + length)) →
      Canonical a (left ++ "::".toList ++ right)

/-! ## Groups -/

/-- What holds of every digit holds throughout a written number. -/
theorem forall_mem_toDigits {base : Nat} (hb : 1 < base) {p : Char → Prop}
    (hp : ∀ d < base, p d.digitChar) (n : Nat) : ∀ c ∈ Nat.toDigits base n, p c := by
  induction n using Nat.strong_induction_on with
  | _ n ih =>
      intro c hc
      by_cases hn : n < base
      · rw [Nat.toDigits_of_lt_base hn] at hc
        rw [List.mem_singleton.mp hc]
        exact hp n hn
      · have hle : base ≤ n := Nat.le_of_not_lt hn
        rw [Nat.toDigits_of_base_le hb hle] at hc
        rcases List.mem_append.mp hc with hinit | hlast
        · exact ih (n / base) (Nat.div_lt_self (by omega) hb) c hinit
        · rw [List.mem_singleton.mp hlast]
          exact hp (n % base) (Nat.mod_lt n (by omega))

/-- Only zero is written with a zero in front. -/
theorem toDigits_ne_zero {n : Nat} (hn : n ≠ 0) : (Nat.toDigits 16 n).head? ≠ some '0' := by
  intro hhead
  have hdigits : Digits 16 (Nat.toDigits 16 n) n := digits_toDigits (by decide) (by decide) n
  rw [head?_toDigits (by decide) n hhead, ← hexadecimal?_eq_some_iff] at hdigits
  exact hn (Option.some.inj hdigits).symm

/-- The canonical text of a word is the one that is written. -/
theorem canonicalGroup_iff {cs : List Char} {w : Nat} :
    CanonicalGroup cs w ↔ cs = Nat.toDigits 16 w := by
  constructor
  · intro h
    refine h.digits.eq_toDigits (by decide) (Or.inr h.lower) ?_
    intro hhead
    exact h.zero (not_imp_not.mp h.leading hhead)
  · rintro rfl
    refine ⟨digits_toDigits (by decide) (by decide) w, ?_, ?_, toDigits_ne_zero⟩
    · exact forall_mem_toDigits (by decide) (by decide) w
    · rintro rfl
      rfl

/-- Canonical groups joined by colons are what is written for the words. -/
theorem joined_iff {cs : List Char} {ws : List UInt16} :
    Joined cs ws ↔ cs = Address.colonGroups ws := by
  constructor
  · rintro ⟨groups, hgroups, rfl⟩
    have hmap : List.Forall₂ Eq groups (ws.map fun w => Nat.toDigits 16 w.toNat) := by
      rw [List.forall₂_map_right_iff]
      exact hgroups.imp fun _ _ h => canonicalGroup_iff.mp h
    rw [List.forall₂_eq_eq_eq] at hmap
    rw [hmap]
    rfl
  · rintro rfl
    refine ⟨_, ?_, rfl⟩
    rw [List.forall₂_map_left_iff, List.forall₂_same]
    exact fun w _ => canonicalGroup_iff.mpr rfl

/-! ## Dotted quads -/

/-- An octet of the grammar has one spelling, the one that is written. -/
theorem Octet.eq_toDigits {cs : List Char} {n : Nat} (h : Octet cs n) : cs = Nat.toDigits 10 n :=
  h.digits.eq_toDigits (by decide) (Or.inl (Nat.le_refl 10)) h.canonical

/-- Octets have one dotted quad. -/
theorem Quad.eq_dotted {cs : List Char} {os : List UInt8} (h : Quad cs (os.map UInt8.toNat)) :
    cs = Address.dotted os := by
  generalize hns : os.map UInt8.toNat = ns at h
  cases h with
  | mk hp hq hr hs =>
      match os, hns with
      | [o₁, o₂, o₃, o₄], hns =>
          obtain ⟨rfl, rfl, rfl, rfl⟩ : o₁.toNat = _ ∧ o₂.toNat = _ ∧ o₃.toNat = _ ∧
              o₄.toNat = _ := by simpa using hns
          rw [hp.eq_toDigits, hq.eq_toDigits, hr.eq_toDigits, hs.eq_toDigits]
          simp [Address.dotted]

/-- **IPv4 texts are canonical**: writing what was read gives the text. -/
theorem text_of_parse?_v4 {text : String} {a : Address} (h : Address.parse? text .v4 = some a) :
    a.text = text := by
  obtain ⟨os, hread, rfl⟩ := Option.map_eq_some_iff.mp h
  have hquad := quad?_eq_some_iff.mp hread
  have hlen : os.length = Family.v4.octetCount := hquad.length_octets
  rw [Address.text, Address.chars]
  show String.ofList (Address.dotted (Address.ofOctets .v4 os).octets) = text
  rw [Address.octets_ofOctets hlen, ← hquad.eq_dotted, String.ofList_toList]

/-! ## Mapped addresses -/

/-- The high words are what is left when the low ones are shifted out. -/
theorem value_take_words {a : Address} (h : a.family = .v6) :
    Radix.value 65536 ((a.words.take 6).map UInt16.toNat) = a.value >>> 32 := by
  have hlen : (a.words.drop 6).length = 2 := by
    rw [List.length_drop, Address.length_words_v6 h]
  have hlow := Radix.value_lt (Address.lt_of_mem_map_toNat_words (a.words.drop 6))
  have hsplit := congrArg (fun ws => Radix.value 65536 (ws.map UInt16.toNat))
    (List.take_append_drop 6 a.words)
  rw [List.map_append, Radix.value_append, Address.value_words, List.length_map, hlen] at hsplit
  rw [List.length_map, hlen] at hlow
  rw [Nat.shiftRight_eq_div_pow]
  omega

/-- IPv4-mapped addresses are told by their first six words. -/
theorem words_mapped_iff {a : Address} (h : a.family = .v6) :
    a.value >>> 32 = 0xffff ↔ a.words = List.replicate 5 0 ++ 0xffff :: a.words.drop 6 := by
  have hlen : (a.words.take 6).length = 6 := by
    rw [List.length_take, Address.length_words_v6 h]
    rfl
  rw [← value_take_words h]
  constructor
  · intro hvalue
    have htake : (a.words.take 6).map UInt16.toNat = [0, 0, 0, 0, 0, 0xffff] := by
      refine Radix.value_injective (Address.lt_of_mem_map_toNat_words _) (by decide) ?_ hvalue
      rw [List.length_map, hlen]
      rfl
    have hwords : a.words.take 6 = [0, 0, 0, 0, 0, 0xffff] := eq_of_map_toNat_eq htake
    calc a.words = a.words.take 6 ++ a.words.drop 6 := (List.take_append_drop 6 a.words).symm
      _ = List.replicate 5 0 ++ 0xffff :: a.words.drop 6 := by rw [hwords]; rfl
  · intro hwords
    rw [hwords]
    rfl

/-- The quad of the low bits is the one that is written for them. -/
theorem quad_low_iff {a : Address} {quad : List Char} :
    (∃ os, Quad quad os ∧ Radix.value 256 os = a.value % 2 ^ 32) ↔
      quad = Address.dotted (Address.ofNat .v4 a.value).octets := by
  have hlow : (Address.ofNat .v4 a.value).octets.length = 4 := Address.length_octets _
  constructor
  · rintro ⟨ns, hquad, hvalue⟩
    obtain ⟨os, rfl, -⟩ := hquad.read
    have hlen : os.length = Family.v4.octetCount := hquad.length_octets
    have haddress : Address.ofOctets .v4 os = Address.ofNat .v4 a.value := by
      rw [Address.ofOctets, hvalue]
      exact Address.ext rfl (Nat.mod_mod a.value (2 ^ 32))
    rw [← haddress, Address.octets_ofOctets hlen]
    exact hquad.eq_dotted
  · rintro rfl
    exact ⟨_, quad_dotted hlow, Address.value_octets _⟩

/-! ## The three shapes -/

/-- An IPv6 address is written from its words and its last four octets. -/
theorem chars_v6 {a : Address} (h : a.family = .v6) :
    a.chars =
      Address.compressed a.words (Address.dotted (Address.ofNat .v4 a.value).octets) := by
  rw [Address.chars, h]

/-- What is written depends on the leftmost longest run only. -/
theorem compressed_of_longest {ws : List UInt16} {start length : Nat}
    (h : LongestZeroRun ws start length) (quad : List Char) :
    Address.compressed ws quad =
      if length < 2 then Address.colonGroups ws
      else if start = 0 ∧ length = 5 ∧ ws[5]? = some 0xffff then "::ffff:".toList ++ quad
      else Address.colonGroups (ws.take start) ++ "::".toList ++
        Address.colonGroups (ws.drop (start + length)) := by
  obtain ⟨hstart, hlength⟩ := (longestZeroRun_spec ws).unique h
  rw [← hstart, ← hlength]
  rfl

/-- A mapped address is written with a dotted quad at its end. -/
theorem chars_of_mapped {a : Address} (h : a.family = .v6) (hmapped : a.value >>> 32 = 0xffff) :
    a.chars = "::ffff:".toList ++ Address.dotted (Address.ofNat .v4 a.value).octets := by
  have hwords := (words_mapped_iff h).mp hmapped
  have hlow : (a.words.drop 6).length ≤ 5 := by
    rw [List.length_drop, Address.length_words_v6 h]
    decide
  have hrun := longestZeroRun_mapped hlow
  rw [← hwords] at hrun
  have hmark : a.words[5]? = some 0xffff := by
    rw [hwords]
    rfl
  rw [chars_v6 h, compressed_of_longest hrun, if_neg (by decide), if_pos ⟨rfl, rfl, hmark⟩]

/-- Without adjacent zero words all groups are written. -/
theorem chars_of_no_zeros {a : Address} (h : a.family = .v6) (hzeros : ¬AdjacentZeros a.words) :
    a.chars = Address.colonGroups a.words := by
  have hspec := longestZeroRun_spec a.words
  have hshort := mt hspec.two_le_iff.mp hzeros
  rw [chars_v6 h, compressed_of_longest hspec, if_pos (Nat.lt_of_not_le hshort)]

/-- The leftmost longest run of zero words is written as a gap. -/
theorem chars_of_longest {a : Address} (h : a.family = .v6) (hmapped : a.value >>> 32 ≠ 0xffff)
    (hzeros : AdjacentZeros a.words) {start length : Nat}
    (hrun : LongestZeroRun a.words start length) :
    a.chars = Address.colonGroups (a.words.take start) ++ "::".toList ++
      Address.colonGroups (a.words.drop (start + length)) := by
  have hlong := Nat.not_lt_of_le (hrun.two_le_iff.mpr hzeros)
  rw [chars_v6 h, compressed_of_longest hrun, if_neg hlong, if_neg]
  rintro ⟨rfl, rfl, hmark⟩
  exact hmapped ((words_mapped_iff h).mpr (hrun.run.eq_mapped hmark))

/-! ## Texts -/

/-- What is written for an IPv6 address is canonical. -/
theorem canonical_chars {a : Address} (h : a.family = .v6) : Canonical a a.chars := by
  by_cases hmapped : a.value >>> 32 = 0xffff
  · obtain ⟨os, hquad, hvalue⟩ := quad_low_iff (a := a).mpr rfl
    rw [chars_of_mapped h hmapped]
    exact Canonical.mapped hmapped hquad hvalue
  · by_cases hzeros : AdjacentZeros a.words
    · have hrun := longestZeroRun_spec a.words
      rw [chars_of_longest h hmapped hzeros hrun]
      exact Canonical.gap hmapped hzeros hrun (joined_iff.mpr rfl) (joined_iff.mpr rfl)
    · rw [chars_of_no_zeros h hzeros]
      exact Canonical.full hmapped hzeros (joined_iff.mpr rfl)

/-- An IPv6 address has one canonical text, the one that is written. -/
theorem Canonical.eq_chars {a : Address} {cs : List Char} (hcs : Canonical a cs)
    (h : a.family = .v6) : cs = a.chars := by
  cases hcs with
  | mapped hmapped hquad hvalue =>
      rw [chars_of_mapped h hmapped, quad_low_iff.mp ⟨_, hquad, hvalue⟩]
  | full _ hzeros hwords => rw [chars_of_no_zeros h hzeros, joined_iff.mp hwords]
  | gap hmapped hzeros hrun hleft hright =>
      rw [chars_of_longest h hmapped hzeros hrun, joined_iff.mp hleft, joined_iff.mp hright]

/-- Groups joined by colons without a closing quad have no dot. -/
theorem Items.not_mem_dot {cs : List Char} {ns : List Nat} (h : Items false cs ns) :
    '.' ∉ cs := by
  induction h with
  | group hg => exact hg.not_mem rfl
  | quad hclosing => exact Bool.noConfusion hclosing
  | cons hg _ ih => simp [hg.not_mem (c := '.') rfl, ih]

/-- Written groups have no dot. -/
theorem not_mem_dot_colonGroups (ws : List UInt16) : '.' ∉ Address.colonGroups ws := by
  have hside := side_colonGroups false ws
  generalize Address.colonGroups ws = cs, ws.map UInt16.toNat = ns at hside ⊢
  cases hside with
  | empty => exact List.not_mem_nil
  | items hitems => exact hitems.not_mem_dot

/-- A quad has a dot, so it is told from groups. -/
theorem Quad.mem_dot {cs : List Char} {os : List Nat} (h : Quad cs os) : '.' ∈ cs := by
  cases h with
  | mk => simp

/-- Only mapped addresses have a dot in their text. -/
theorem mem_dot_chars_iff {a : Address} (h : a.family = .v6) :
    '.' ∈ a.chars ↔ a.value >>> 32 = 0xffff := by
  constructor
  · intro hdot
    refine of_not_not fun hmapped => ?_
    by_cases hzeros : AdjacentZeros a.words
    · have hrun := longestZeroRun_spec a.words
      rw [chars_of_longest h hmapped hzeros hrun] at hdot
      simp [not_mem_dot_colonGroups] at hdot
    · rw [chars_of_no_zeros h hzeros] at hdot
      exact not_mem_dot_colonGroups a.words hdot
  · intro hmapped
    obtain ⟨os, hquad, -⟩ := quad_low_iff (a := a).mpr rfl
    rw [chars_of_mapped h hmapped]
    exact List.mem_append_right _ hquad.mem_dot

/-- **THE CANONICAL TEXT**: the text of an IPv6 address is its canonical one, of
    which there is one only; it has the mapped form exactly when the bits above
    the low 32 are `ffff`. -/
theorem text_canonical (a : Address) (h : a.family = .v6) :
    (a.words.length = 8 ∧ Radix.value 65536 (a.words.map UInt16.toNat) = a.value) ∧
    ((∃ quad os, Quad quad os ∧ Radix.value 256 os = a.value % 2 ^ 32 ∧
        a.text.toList = "::ffff:".toList ++ quad) ↔ a.value >>> 32 = 0xffff) ∧
    ∀ text : String, a.text = text ↔ Canonical a text.toList := by
  have hchars : a.text.toList = a.chars := String.toList_ofList
  refine ⟨⟨Address.length_words_v6 h, Address.value_words a⟩, ?_, ?_⟩
  · rw [hchars]
    constructor
    · rintro ⟨quad, os, hquad, -, htext⟩
      rw [← mem_dot_chars_iff h, htext]
      exact List.mem_append_right _ hquad.mem_dot
    · intro hmapped
      obtain ⟨os, hquad, hvalue⟩ := quad_low_iff (a := a).mpr rfl
      exact ⟨_, os, hquad, hvalue, chars_of_mapped h hmapped⟩
  · intro text
    rw [← String.toList_inj, hchars]
    constructor
    · intro hcs
      rw [← hcs]
      exact canonical_chars h
    · intro hcanonical
      exact (hcanonical.eq_chars h).symm

/-- Of two zero runs of one length the left one is written as a gap. -/
theorem text_canonical_leftmost_of_two :
    let a : Address := ⟨.v6, 0x20010db8000000000001000000000001, by decide⟩
    a.family = .v6 ∧ a.text = "2001:db8::1:0:0:1" ∧ Canonical a "2001:db8::1:0:0:1".toList := by
  intro a
  have htext : a.text = "2001:db8::1:0:0:1" := by decide +kernel
  exact ⟨rfl, htext, ((text_canonical a rfl).2.2 _).mp htext⟩

end Subnet.Grammar
