import Subnet.Proofs.Registry

/-!
# Specificity — where the order of the rules matters

    Blocks of the registry are apart but for three that lie within a broader one.
    Outside these three an address has one label at most, and inside them exactly
    two (`classify_specific`).  Two of the three stand before their broader block,
    so the first match is the longest; the third stands behind it and its label is
    never given.
-/

namespace Subnet.AddressSpace

namespace Block

/-- One of the blocks ends before the other begins. -/
def Apart (b c : Block) : Prop :=
  b.network.last.value < c.base.value ∨ c.network.last.value < b.base.value

/-- Whether blocks are apart is decided by comparing their ends. -/
instance decidableApart (b c : Block) : Decidable (b.Apart c) :=
  inferInstanceAs (Decidable (_ ∨ _))

/-- No address lies in two blocks that are apart. -/
theorem Apart.not_holds {b c : Block} {a : Address} (h : b.Apart c) (hb : b.Holds a) :
    ¬c.Holds a := by
  intro hc
  obtain ⟨-, hblow, hbhigh⟩ := holds_iff_between.mp hb
  obtain ⟨-, hclow, hchigh⟩ := holds_iff_between.mp hc
  rcases h with h | h
  · omega
  · omega

/-- The longest of the blocks that hold the address. -/
structure MostSpecific (b : Block) (a : Address) : Prop where
  registered : b ∈ registry a.family
  holds : b.Holds a
  longest : ∀ c ∈ registry a.family, c.Holds a → c ≠ b → c.length < b.length

end Block

/-- The blocks that lie within a broader one. -/
def inner : Family → List Block
  | .v4 => [limitedBroadcast]
  | .v6 => [protocolAssignments, sixToFour]

/-! ## The table -/

/-- All other blocks are apart from each other. -/
theorem registry_apart (f : Family) :
    (registry f).Pairwise fun b c => b.Apart c ∨ b ∈ inner f ∨ c ∈ inner f := by
  cases f with
  | v4 => decide +kernel
  | v6 => decide +kernel

/-- No block divides one of the inner blocks. -/
theorem inner_undivided (f : Family) :
    ∀ c ∈ inner f, ∀ b ∈ registry f, b.length ≤ c.length ∨ b.Apart c := by
  cases f with
  | v4 => decide +kernel
  | v6 => decide +kernel

/-- Of two blocks that meet the longer one comes first, but for one block. -/
theorem registry_ordered (f : Family) :
    (registry f).Pairwise fun b c => b.Apart c ∨ c = sixToFour ∨ c.length < b.length := by
  cases f with
  | v4 => decide +kernel
  | v6 => decide +kernel

/-- Only one block has the label of the 6to4 scheme. -/
theorem eq_sixToFour_of_label {f : Family} :
    ∀ b ∈ registry f, b.label = "6to4" → b = sixToFour := by
  cases f with
  | v4 => decide +kernel
  | v6 => decide +kernel

/-! ## How many rules match -/

/-- Outside the inner blocks an address has one label at most. -/
theorem length_matching_le_one {a : Address} (h : ∀ c ∈ inner a.family, ¬c.Holds a) :
    (matching a).length ≤ 1 := by
  have halone : ((registry a.family).filter fun b => b.Holds a).Pairwise fun _ _ => False := by
    rw [List.pairwise_filter]
    refine (registry_apart a.family).imp ?_
    intro b c hrow hb hc
    have hb := of_decide_eq_true hb
    have hc := of_decide_eq_true hc
    rcases hrow with hapart | hinner | hinner
    · exact hapart.not_holds hb hc
    · exact h b hinner hb
    · exact h c hinner hc
  rw [matching_eq, List.length_map]
  revert halone
  cases (registry a.family).filter fun b => b.Holds a with
  | nil => exact fun _ => Nat.zero_le 1
  | cons b bs =>
      cases bs with
      | nil => exact fun _ => Nat.le_refl 1
      | cons c cs => exact fun halone => (List.rel_of_pairwise_cons halone List.mem_cons_self).elim

/-- The addresses of an inner block have the labels of its base. -/
theorem matching_of_inner {f : Family} {a : Address} {c : Block} (hc : c ∈ inner f)
    (hmem : c ∈ registry f) (ha : c.Holds a) : matching a = matching c.base := by
  have hfamily := family_of_mem_registry c hmem
  refine matching_congr (Block.holds_iff_between.mp ha).1 ?_
  intro b hb
  rw [hfamily] at hb
  rcases inner_undivided f c hc b hb with hle | hapart
  · exact Block.holds_congr hle ha
  · exact iff_of_false (fun h => hapart.not_holds h ha) fun h => hapart.not_holds h c.holds_base

/-- The last IPv4 address has two labels. -/
theorem matching_limitedBroadcast :
    matching limitedBroadcast.base = ["Limited Broadcast", "Reserved"] := by
  decide +kernel

/-- In the block for protocols each address has two labels, the narrower one first. -/
theorem matching_of_protocolAssignments {a : Address} (h : protocolAssignments.Holds a) :
    matching a = ["IETF Protocol Assignments", "Global Unicast"] := by
  rw [matching_of_inner (f := .v6) (by decide) (by decide) h]
  decide +kernel

/-- In the block of the 6to4 scheme each address has two labels, the broader one
    first. -/
theorem matching_of_sixToFour {a : Address} (h : sixToFour.Holds a) :
    matching a = ["Global Unicast", "6to4"] := by
  rw [matching_of_inner (f := .v6) (by decide) (by decide) h]
  decide +kernel

/-! ## Which label is given -/

/-- So these addresses have the label of the broader block. -/
theorem classify_of_sixToFour {a : Address} (h : sixToFour.Holds a) :
    classify a = "Global Unicast" := by
  rw [classify_eq_headD, matching_of_sixToFour h]
  rfl

/-- Elsewhere the first block that holds an address is the longest. -/
theorem mostSpecific_of_filter {a : Address} {b : Block} {bs : List Block}
    (hout : ¬sixToFour.Holds a)
    (h : ((registry a.family).filter fun b => b.Holds a) = b :: bs) : b.MostSpecific a := by
  have hordered :
      ((registry a.family).filter fun b => b.Holds a).Pairwise fun b c => c.length < b.length := by
    rw [List.pairwise_filter]
    refine (registry_ordered a.family).imp ?_
    intro b c hrow hb hc
    have hb := of_decide_eq_true hb
    have hc := of_decide_eq_true hc
    rcases hrow with hapart | rfl | hlonger
    · exact absurd hc (hapart.not_holds hb)
    · exact absurd hc hout
    · exact hlonger
  have hmem : ∀ c, c ∈ b :: bs ↔ c ∈ registry a.family ∧ c.Holds a := by
    intro c
    rw [← h, List.mem_filter, decide_eq_true_iff]
  rw [h] at hordered
  obtain ⟨hb, hholds⟩ := (hmem b).mp List.mem_cons_self
  refine ⟨hb, hholds, ?_⟩
  intro c hc hcholds hne
  rcases List.mem_cons.mp ((hmem c).mpr ⟨hc, hcholds⟩) with rfl | hrest
  · exact absurd rfl hne
  · exact List.rel_of_pairwise_cons hordered hrest

/-- Every other address has the label of the longest block that holds it, or none
    holds it. -/
theorem classify_of_not_sixToFour {a : Address} (hout : ¬sixToFour.Holds a) :
    (∃ b : Block, b.MostSpecific a ∧ classify a = b.label) ∨
      (∀ b ∈ registry a.family, ¬b.Holds a) ∧ classify a = unregistered a.family := by
  rw [classify_eq_headD, matching_eq]
  cases hfilter : (registry a.family).filter fun b => b.Holds a with
  | nil =>
      refine Or.inr ⟨?_, rfl⟩
      intro b hb hholds
      exact List.filter_eq_nil_iff.mp hfilter b hb (decide_eq_true hholds)
  | cons b bs => exact Or.inl ⟨b, mostSpecific_of_filter hout hfilter, rfl⟩

/-- The label of the shadowed block is never given. -/
theorem classify_ne_sixToFour (a : Address) : classify a ≠ "6to4" := by
  intro h
  by_cases hin : sixToFour.Holds a
  · rw [classify_of_sixToFour hin] at h
    exact absurd h (by decide)
  · rcases classify_of_not_sixToFour hin with ⟨b, hb, hlabel⟩ | ⟨-, hdefault⟩
    · have hb' := eq_sixToFour_of_label b hb.registered (hlabel.symm.trans h)
      exact hin (hb' ▸ hb.holds)
    · rw [hdefault] at h
      revert h
      cases a.family with
      | v4 => decide
      | v6 => decide

/-- One address for each label: the bases of the blocks, and an address that no
    block holds. -/
def samples (f : Family) : List Address :=
  (registry f).map Block.base ++
    [match f with
      | .v4 => .ofOctets .v4 [8, 8, 8, 8]
      | .v6 => .ofWords [0x4000, 0, 0, 0, 0, 0, 0, 0]]

/-- Each label but that of the shadowed block is given to a sample. -/
theorem exists_classify_eq {f : Family} {label : String}
    (h : label ∈ (registry f).map Block.label ++ [unregistered f]) (hne : label ≠ "6to4") :
    ∃ a : Address, a.family = f ∧ classify a = label := by
  have hall : ∀ l ∈ (registry f).map Block.label ++ [unregistered f], l ≠ "6to4" →
      ∃ a ∈ samples f, a.family = f ∧ classify a = l := by
    cases f with
    | v4 => decide +kernel
    | v6 => decide +kernel
  obtain ⟨a, -, ha⟩ := hall label h hne
  exact ⟨a, ha⟩

/-- **SPECIFICITY**: rules overlap in the last IPv4 address and in two IPv6
    blocks only, and there two of them match; outside the shadowed block an
    address has the label of the longest block that holds it, inside the label
    of the broader block; the label of the shadowed block is given to no address,
    and every other one to some address. -/
theorem classify_specific :
    (∀ a : Address, a.family = .v4 → a ≠ limitedBroadcast.base → (matching a).length ≤ 1) ∧
    matching limitedBroadcast.base = ["Limited Broadcast", "Reserved"] ∧
    (∀ a : Address, a.family = .v6 → ¬protocolAssignments.Holds a → ¬sixToFour.Holds a →
      (matching a).length ≤ 1) ∧
    (∀ a : Address, protocolAssignments.Holds a ∨ sixToFour.Holds a →
      (matching a).length = 2) ∧
    (∀ a : Address, ¬sixToFour.Holds a →
      (∃ b : Block, b.MostSpecific a ∧ classify a = b.label) ∨
        (∀ b ∈ registry a.family, ¬b.Holds a) ∧ classify a = unregistered a.family) ∧
    (∀ a : Address, sixToFour.Holds a → classify a = "Global Unicast") ∧
    (∀ a : Address, classify a ≠ "6to4") ∧
    ∀ (f : Family), ∀ label ∈ (registry f).map Block.label ++ [unregistered f],
      label ≠ "6to4" → ∃ a : Address, a.family = f ∧ classify a = label := by
  refine ⟨?_, matching_limitedBroadcast, ?_, ?_, fun a => classify_of_not_sixToFour,
    fun a => classify_of_sixToFour, classify_ne_sixToFour, fun f label => exists_classify_eq⟩
  · intro a hfamily hne
    refine length_matching_le_one ?_
    rw [hfamily]
    intro c hc
    obtain rfl := List.mem_singleton.mp hc
    exact fun h => hne ((Block.holds_iff_eq rfl).mp h)
  · intro a hfamily hprotocol hsix
    refine length_matching_le_one ?_
    rw [hfamily]
    intro c hc
    rcases List.mem_pair.mp hc with rfl | rfl
    · exact hprotocol
    · exact hsix
  · rintro a (h | h)
    · rw [matching_of_protocolAssignments h]
      rfl
    · rw [matching_of_sixToFour h]
      rfl

/-- A Teredo address has the label of the block for protocols, one of two that match. -/
theorem classify_specific_protocol :
    let a : Address := .ofWords [0x2001, 0, 0x4136, 0xe378, 0x8000, 0x63bf, 0x3fff, 0xfdd2]
    protocolAssignments.Holds a ∧ ¬sixToFour.Holds a ∧ (matching a).length = 2 ∧
      ∃ b : Block, b.MostSpecific a ∧ classify a = b.label := by
  intro a
  have hin : protocolAssignments.Holds a := by decide
  have hout : ¬sixToFour.Holds a := by decide
  obtain ⟨-, -, -, htwo, hlongest, -⟩ := classify_specific
  refine ⟨hin, hout, htwo a (Or.inl hin), ?_⟩
  rcases hlongest a hout with hb | ⟨hnone, -⟩
  · exact hb
  · exact absurd hin (hnone protocolAssignments (by decide))

end Subnet.AddressSpace
