import Subnet.Address.Printer
import Subnet.Proofs.AddressGrammar
import Subnet.Proofs.ZeroRuns

/-!
# The address round trip — every written address reads back

    The printer is followed shape by shape into the grammar: a dotted quad, a
    list of groups, a list around one `::`, and the mapped form with its dotted
    tail.  Each shape denotes the words it was written from, because the run
    that `::` replaces holds zeros only (`ZeroRun.take_append_drop`).  Reading
    what the grammar accepts then gives the address back.
-/

namespace Subnet.Grammar

/-! ## Pieces -/

/-- The decimal text of an octet is an octet of the grammar. -/
theorem octet_toDigits (o : UInt8) : Octet (Nat.toDigits 10 o.toNat) o.toNat :=
  ⟨digits_toDigits (by decide) (by decide) o.toNat, head?_toDigits (by decide) o.toNat,
    Nat.le_of_lt_succ o.toNat_lt⟩

/-- A word is written in at most four digits. -/
theorem length_toDigits_word (w : UInt16) : (Nat.toDigits 16 w.toNat).length ≤ 4 :=
  (Nat.length_toDigits_le_iff (by decide) (by decide)).mpr w.toNat_lt

/-- The hexadecimal text of a word is a group of the grammar. -/
theorem group_toDigits (w : UInt16) : Group (Nat.toDigits 16 w.toNat) w.toNat :=
  ⟨length_toDigits_word w, digits_toDigits (by decide) (by decide) w.toNat⟩

/-- A word padded with zeros to four digits is still a group. -/
theorem group_leftpad (w : UInt16) :
    Group ((Nat.toDigits 16 w.toNat).leftpad 4 '0') w.toNat := by
  refine ⟨?_, (group_toDigits w).2.replicate_zero_append (by decide) _⟩
  rw [List.length_leftpad]
  exact Nat.max_le.mpr ⟨Nat.le_refl 4, length_toDigits_word w⟩

/-- Words written as groups and joined by colons are items. -/
theorem items_intercalate {write : UInt16 → List Char} (hwrite : ∀ w, Group (write w) w.toNat)
    (closing : Bool) {ws : List UInt16} (hne : ws ≠ []) :
    Items closing ([':'].intercalate (ws.map write)) (ws.map UInt16.toNat) := by
  induction ws with
  | nil => exact absurd rfl hne
  | cons w rest ih =>
      cases rest with
      | nil =>
          rw [List.map_singleton, List.intercalate_singleton]
          exact Items.group (hwrite w)
      | cons next rest =>
          rw [List.map_cons, List.map_cons, List.intercalate_cons_cons]
          simpa using Items.cons (hwrite w) (ih (List.cons_ne_nil next rest))

/-- Written groups can stand on either side of a gap. -/
theorem side_colonGroups (closing : Bool) (ws : List UInt16) :
    Side closing (Address.colonGroups ws) (ws.map UInt16.toNat) := by
  cases ws with
  | nil => exact Side.empty
  | cons w rest => exact Side.items (items_intercalate group_toDigits closing (List.cons_ne_nil w rest))

/-- Four octets are written as a quad. -/
theorem quad_dotted {os : List UInt8} (h : os.length = 4) :
    Quad (Address.dotted os) (os.map UInt8.toNat) := by
  match os, h with
  | [o₁, o₂, o₃, o₄], _ =>
      have hquad := Quad.mk (octet_toDigits o₁) (octet_toDigits o₂) (octet_toDigits o₃)
        (octet_toDigits o₄)
      simpa [Address.dotted] using hquad

/-! ## IPv6 texts -/

/-- The mapped form: five zero words, `ffff`, and the last two words as a quad. -/
theorem words_mapped {quad : List Char} {os : List UInt8} (h : Quad quad (os.map UInt8.toNat)) :
    Words ("::ffff:".toList ++ quad)
      (List.replicate 5 0 ++ 0xffff :: (Address.pairOctets os).map UInt16.toNat) := by
  have hmark : Group "ffff".toList 0xffff := group_toDigits 0xffff
  have hright := Side.items (Items.cons hmark (quad?_words (quad?_eq_some_iff.mpr h)))
  have hlen : (Address.pairOctets os).length = 2 := by
    rw [Address.length_pairOctets, h.length_octets]
  have hgap := Words.gap Side.empty hright (by simp [hlen])
  simpa [hlen] using hgap

/-- **The printer stays in the grammar**: whatever shape is chosen, the text is
    worth the words it was written from. -/
theorem words_compressed {ws : List UInt16} (hlen : ws.length = 8) {quad : List Char}
    {os : List UInt8} (hquad : Quad quad (os.map UInt8.toNat))
    (hlow : Address.pairOctets os = ws.drop 6) :
    Words (Address.compressed ws quad) (ws.map UInt16.toNat) := by
  have hrun := (longestZeroRun_spec ws).run
  unfold Address.compressed
  generalize Address.longestZeroRun ws = run at hrun ⊢
  obtain ⟨start, length⟩ := run
  dsimp only at hrun ⊢
  have hzero := hrun.take_append_drop
  have hle := hrun.1
  split
  · refine Words.full (items_intercalate group_toDigits true ?_) ?_
    · rintro rfl
      exact nomatch hlen
    · rw [List.length_map, hlen]
  · rename_i hlong
    split
    · rename_i hmapped
      obtain ⟨rfl, rfl, hmark⟩ := hmapped
      rw [hrun.eq_mapped hmark, ← hlow]
      simpa using words_mapped hquad
    · -- the sides miss exactly the words of the run
      have hgap := Words.gap (side_colonGroups false (ws.take start))
        (side_colonGroups true (ws.drop (start + length))) (by
          simp only [List.length_map, List.length_take, List.length_drop]
          omega)
      have hcount : 8 - (min start ws.length + (ws.length - (start + length))) = length := by
        omega
      simp only [List.length_map, List.length_take, List.length_drop, hcount] at hgap
      have hwords : (ws.take start).map UInt16.toNat ++ List.replicate length 0 ++
          (ws.drop (start + length)).map UInt16.toNat = ws.map UInt16.toNat := by
        rw [← congrArg (List.map UInt16.toNat) hzero]
        simp
      rwa [hwords] at hgap

/-! ## Reading back -/

/-- What is written is read back in the same family. -/
theorem ofChars?_chars (a : Address) : Address.ofChars? a.family a.chars = some a := by
  have hlow : (Address.ofNat .v4 a.value).octets.length = 4 := Address.length_octets _
  cases hf : a.family with
  | v4 =>
      have hlen : a.octets.length = 4 := by rw [Address.length_octets, hf]; rfl
      have hread := quad?_eq_some_iff.mpr (quad_dotted hlen)
      rw [Address.chars, hf]
      show (Address.quad? (Address.dotted a.octets)).map (Address.ofOctets .v4) = some a
      rw [hread, ← hf]
      exact congrArg some (Address.ofOctets_octets a)
  | v6 =>
      have hlen := Address.length_words_v6 hf
      have hread := wordsOfText?_eq_some_iff.mpr
        (words_compressed hlen (quad_dotted hlow) (Address.pairOctets_low_octets hf))
      rw [Address.chars, hf]
      exact (congrArg (Option.map Address.ofWords) hread).trans
        (congrArg some (Address.ofWords_words hf))

/-- The text of an address is read back in its family. -/
theorem parse?_text (a : Address) : Address.parse? a.text a.family = some a := by
  rw [Address.parse?, Address.text, String.toList_ofList]
  exact ofChars?_chars a

/-- The expanded text of an IPv6 address is read back too. -/
theorem parse?_expanded {a : Address} (h : a.family = .v6) :
    Address.parse? a.expanded .v6 = some a := by
  have hlen := Address.length_words_v6 h
  have hitems : Items true a.expandedChars (a.words.map UInt16.toNat) := by
    refine items_intercalate group_leftpad true ?_
    intro hnil
    rw [hnil] at hlen
    exact nomatch hlen
  have hread := wordsOfText?_eq_some_iff.mpr (Words.full hitems (by rw [List.length_map, hlen]))
  rw [Address.parse?, Address.expanded, String.toList_ofList]
  exact (congrArg (Option.map Address.ofWords) hread).trans
    (congrArg some (Address.ofWords_words h))

/-! ## The characters of a text -/

/-- Groups joined by colons have no character but letters, digits, colons and dots. -/
theorem Items.not_mem {closing : Bool} {cs : List Char} {ws : List Nat} (h : Items closing cs ws)
    {c : Char} (hc : c.isAlphanum = false) (hcolon : c ≠ ':') (hdot : c ≠ '.') : c ∉ cs := by
  induction h with
  | group hg => exact hg.not_mem hc
  | quad _ hquad => exact hquad.not_mem hc hdot
  | cons hg _ ih => simp [hg.not_mem hc, ih, hcolon]

/-- A side of a gap has no other character either. -/
theorem Side.not_mem {closing : Bool} {cs : List Char} {ws : List Nat} (h : Side closing cs ws)
    {c : Char} (hc : c.isAlphanum = false) (hcolon : c ≠ ':') (hdot : c ≠ '.') : c ∉ cs := by
  cases h with
  | empty => exact List.not_mem_nil
  | items hitems => exact hitems.not_mem hc hcolon hdot

/-- So an IPv6 text has no character but letters, digits, colons and dots. -/
theorem Words.not_mem {cs : List Char} {ws : List Nat} (h : Words cs ws)
    {c : Char} (hc : c.isAlphanum = false) (hcolon : c ≠ ':') (hdot : c ≠ '.') : c ∉ cs := by
  cases h with
  | full hitems => exact hitems.not_mem hc hcolon hdot
  | gap hleft hright =>
      simp [hleft.not_mem hc hcolon hdot, hright.not_mem hc hcolon hdot, hcolon]

/-- A text that is read has no character but letters, digits, colons and dots. -/
theorem not_mem_of_parse? {text : String} {f : Family} {a : Address}
    (h : Address.parse? text f = some a) {c : Char} (hc : c.isAlphanum = false)
    (hcolon : c ≠ ':') (hdot : c ≠ '.') : c ∉ text.toList := by
  cases f with
  | v4 =>
      obtain ⟨os, hos, -⟩ := Option.map_eq_some_iff.mp h
      exact (quad?_eq_some_iff.mp hos).not_mem hc hdot
  | v6 =>
      obtain ⟨ws, hws, -⟩ := Option.map_eq_some_iff.mp h
      exact (words_of_wordsOfText? hws).not_mem hc hcolon hdot

/-! ## The family of a text -/

/-- An IPv6 text has a colon. -/
theorem Words.mem_colon {cs : List Char} {ns : List Nat} (h : Words cs ns) : ':' ∈ cs := by
  cases h with
  | full hitems hlen =>
      cases hitems with
      | group => exact nomatch hlen
      | quad => exact nomatch hlen
      | cons => simp
  | gap => simp

/-- Whatever is read in a family is detected as of that family. -/
theorem detect_of_parse? {text : String} {f : Family} {a : Address}
    (h : Address.parse? text f = some a) : Family.detect text = f := by
  unfold Family.detect
  cases f with
  | v4 =>
      obtain ⟨os, hos, -⟩ := Option.map_eq_some_iff.mp h
      exact if_neg (quad?_eq_some_iff.mp hos).not_mem_colon
  | v6 =>
      obtain ⟨ws, hws, -⟩ := Option.map_eq_some_iff.mp h
      exact if_pos (words_of_wordsOfText? hws).mem_colon

/-- **The round trip**: the canonical text of an address of either family shows
    its family and reads back as the address. -/
theorem parse_text (a : Address) :
    Family.detect a.text = a.family ∧ Address.parse a.text (Family.detect a.text) = .ok a := by
  have hread := parse?_text a
  have hdetect := detect_of_parse? hread
  exact ⟨hdetect, by rw [hdetect]; exact Address.parse_eq_ok_iff.mpr hread⟩

end Subnet.Grammar
