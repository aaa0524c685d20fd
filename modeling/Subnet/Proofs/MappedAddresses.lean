import Subnet.Proofs.NameserverAddresses
import Subnet.Proofs.Specificity

/-!
# Mapped addresses — the printer and the registry agree on them

    The printer gives an IPv6 address a dotted tail by its leftmost longest run of
    zero words, the registry gives it a label by its leading bits.  The other
    blocks of the registry are apart from the block of the mapped addresses, so
    its label goes to its addresses and to no others (`classify_eq_label_iff`), and
    these are the ones with the high words that the printer looks for
    (`mapped_holds_iff`).
-/

namespace Subnet

namespace AddressSpace

variable {a : Address}

/-- The first of the IPv4-mapped addresses, `::ffff:0:0`. -/
def mappedBase : Address :=
  .ofWords [0, 0, 0, 0, 0, 0xffff, 0, 0]

/-- The block of the IPv4-mapped addresses. -/
def mapped : Block :=
  .mk "IPv4-mapped Address" mappedBase 96

/-- A block that is apart from all others, and has a label of its own, gives the
    label to its addresses and to no others. -/
theorem classify_eq_label_iff {b : Block} (hb : b ∈ registry a.family)
    (hothers : ∀ c ∈ registry a.family, c = b ∨ c.Apart b ∧ c.label ≠ b.label)
    (hdefault : unregistered a.family ≠ b.label) :
    classify a = b.label ↔ b.Holds a := by
  have hmem : ∀ c, c ∈ (registry a.family).filter (fun c => c.Holds a) ↔
      c ∈ registry a.family ∧ c.Holds a := by
    intro c
    rw [List.mem_filter, decide_eq_true_iff]
  rw [classify_eq_headD, matching_eq]
  cases hfilter : (registry a.family).filter fun c => c.Holds a with
  | nil =>
      refine iff_of_false hdefault fun hholds => ?_
      have hin := (hmem b).mpr ⟨hb, hholds⟩
      rw [hfilter] at hin
      exact nomatch hin
  | cons c cs =>
      obtain ⟨hc, hholds⟩ := (hmem c).mp (hfilter ▸ List.mem_cons_self)
      show c.label = b.label ↔ b.Holds a
      rcases hothers c hc with rfl | ⟨hapart, hne⟩
      · exact iff_of_true rfl hholds
      · exact iff_of_false hne (hapart.not_holds hholds)

/-- The block of the mapped addresses is apart from all others and has a label of
    its own. -/
theorem mapped_alone : ∀ c ∈ registry .v6, c = mapped ∨ c.Apart mapped ∧ c.label ≠ mapped.label := by
  decide +kernel

/-- An IPv6 address has the label of mapped addresses exactly if it lies in their
    block. -/
theorem classify_eq_mapped_iff (h : a.family = .v6) :
    classify a = mapped.label ↔ mapped.Holds a := by
  refine classify_eq_label_iff ?_ ?_ ?_
  · rw [h]
    decide
  · rw [h]
    exact mapped_alone
  · rw [h]
    decide

/-- The mapped addresses are those whose bits above the low 32 are `ffff`. -/
theorem mapped_holds_iff (h : a.family = .v6) : mapped.Holds a ↔ a.value >>> 32 = 0xffff := by
  have hlead : mapped.base.lead 96 = 0xffff := by decide
  show a ∈ (Network.containing mapped.base 96).addresses ↔ _
  rw [Network.mem_addresses_iff, hlead, Address.lead, h, Nat.shiftRight_eq_div_pow]
  exact and_iff_right rfl

end AddressSpace

namespace Grammar

/-- The mapped form ends in the quad of the low bits, after its last colon. -/
theorem lastPiece_of_mapped {a : Address} (h : a.family = .v6) (hmapped : a.value >>> 32 = 0xffff) :
    LastPiece a.text.toList (Address.dotted (Address.ofNat .v4 a.value).octets) := by
  have hquad := quad_dotted (Address.length_octets (Address.ofNat .v4 a.value))
  rw [Address.text, String.toList_ofList, chars_of_mapped h hmapped]
  exact ⟨hquad.not_mem_colon, Or.inr ⟨"::ffff".toList, rfl⟩⟩

/-- **MAPPED ADDRESSES**: the text of an IPv6 address has a dot exactly if the
    address is classified as IPv4-mapped, which it is exactly if it lies in
    `::ffff:0:0/96`; and then what stands after the last colon of the text is read
    as the IPv4 address of the low bits. -/
theorem text_dotted_iff (a : Address) (h : a.family = .v6) :
    ('.' ∈ a.text.toList ↔ AddressSpace.classify a = "IPv4-mapped Address") ∧
    (∃ base block, Address.parse "::ffff:0:0" .v6 = .ok base ∧
      Network.ofNumber base (.ofNat 96) = .ok block ∧
      (AddressSpace.classify a = "IPv4-mapped Address" ↔ a ∈ block.addresses)) ∧
    ('.' ∈ a.text.toList → ∃ tail, LastPiece a.text.toList tail ∧
      Address.parse (String.ofList tail) .v4 = .ok (.ofNat .v4 a.value)) := by
  have hdot : '.' ∈ a.text.toList ↔ a.value >>> 32 = 0xffff := by
    rw [Address.text, String.toList_ofList]
    exact mem_dot_chars_iff h
  have hlabel : AddressSpace.classify a = "IPv4-mapped Address" ↔ AddressSpace.mapped.Holds a :=
    AddressSpace.classify_eq_mapped_iff h
  refine ⟨?_, ?_, ?_⟩
  · rw [hdot, hlabel, AddressSpace.mapped_holds_iff h]
  · have hread : Address.parse "::ffff:0:0" .v6 = .ok AddressSpace.mapped.base := by
      decide +kernel
    exact ⟨_, _, hread, Network.ofNumber_ofNat AddressSpace.mapped.admits, hlabel⟩
  · intro hmem
    refine ⟨_, lastPiece_of_mapped h (hdot.mp hmem), ?_⟩
    -- the tail is the text of the low bits as an address of their own
    exact Address.parse_eq_ok_iff.mpr (parse?_text (Address.ofNat .v4 a.value))

/-- The first mapped address is dotted though its last words are zero. -/
theorem text_dotted_iff_zero_words :
    let a : Address := ⟨.v6, 0xffff00000000, by decide⟩
    a.family = .v6 ∧ a.text = "::ffff:0.0.0.0" ∧
      AddressSpace.classify a = "IPv4-mapped Address" ∧
      ∃ tail, LastPiece a.text.toList tail ∧
        Address.parse (String.ofList tail) .v4 = .ok (.ofNat .v4 a.value) := by
  intro a
  have htext : a.text = "::ffff:0.0.0.0" := by decide +kernel
  have hdot : '.' ∈ a.text.toList := by
    rw [htext]
    decide
  obtain ⟨hlabel, -, htail⟩ := text_dotted_iff a rfl
  exact ⟨rfl, htext, hlabel.mp hdot, htail hdot⟩

end Grammar

end Subnet
