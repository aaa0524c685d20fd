import Subnet.Proofs.MaskedTests
import Subnet.Proofs.Nesting

/-!
# The registry — every rule tests for one block of addresses

    The address spaces are registered as blocks, a base and a prefix length to
    each label.  The rules are the same table in octet tests: row by row the mask
    of a rule is that of the length and its value is the base, so a rule matches
    exactly the addresses of its block, and an address has the label of the first
    block that holds it (`classify_registry`).
-/

namespace Subnet

/-- Whether a number is a prefix length is decided by comparing it with two bounds. -/
instance decidableAdmits (f : Family) (n : Nat) : Decidable (f.Admits n) :=
  inferInstanceAs (Decidable (_ ∧ _))

namespace AddressSpace

/-- A row of the registry: a block, given by its base and a prefix length, and
    what its addresses are set aside for. -/
structure Block where
  label : String
  base : Address
  length : Nat
  admits : base.family.Admits length := by decide
  aligned : (Network.containing base length).base = base := by decide
  deriving DecidableEq

namespace Block

/-- The block as a network. -/
def network (b : Block) : Network :=
  Network.containing b.base b.length

/-- The address lies in the block. -/
def Holds (b : Block) (a : Address) : Prop :=
  a ∈ b.network.addresses

/-- Whether a block holds an address is decided by comparing it with the ends. -/
instance decidableHolds (b : Block) (a : Address) : Decidable (b.Holds a) :=
  inferInstanceAs (Decidable (_ ∧ _ ∧ _))

/-- The base of a row is that of its network. -/
theorem base_network (b : Block) : b.network.base = b.base :=
  b.aligned

/-- A block holds what its mask takes to its base. -/
theorem holds_iff_land {b : Block} {a : Address} :
    b.Holds a ↔ a.land (Netmask.ofLength b.base.family b.length) = b.base := by
  have hmem := Network.land_eq_base_iff (a := b.base) (x := a) (n := b.length)
  rw [← Network.addresses_containing, Network.mask_containing, b.aligned] at hmem
  exact hmem.symm

/-- A block holds the addresses around which the length gives its base. -/
theorem holds_iff_base {b : Block} {a : Address} (h : a.family = b.base.family) :
    b.Holds a ↔ (Network.containing a b.length).base = b.base := by
  rw [holds_iff_land, Network.base_containing, h]

/-- A block holds the addresses of its family between its ends. -/
theorem holds_iff_between {b : Block} {a : Address} :
    b.Holds a ↔
      a.family = b.base.family ∧ b.base.value ≤ a.value ∧ a.value ≤ b.network.last.value := by
  show a ∈ Address.between b.network.base.family b.network.base.value b.network.last.value ↔ _
  rw [base_network]
  exact Iff.rfl

/-- A block holds its base. -/
theorem holds_base (b : Block) : b.Holds b.base :=
  Network.self_mem_addresses b.base b.length

/-- A block holds all members of a longer one or none. -/
theorem holds_congr {b : Block} {a x : Address} {n : Nat} (hle : b.length ≤ n)
    (hx : x ∈ (Network.containing a n).addresses) : b.Holds x ↔ b.Holds a :=
  Network.mem_addresses_congr hle hx

/-- A block of full length holds its base only. -/
theorem holds_iff_eq {b : Block} {a : Address} (h : b.length = b.base.family.width) :
    b.Holds a ↔ a = b.base := by
  have hmem := Network.mem_addresses_full_iff (x := a) h
  rw [b.aligned] at hmem
  exact hmem

end Block

/-! ## The table -/

/-- The last IPv4 address, a block of its own. -/
def limitedBroadcast : Block :=
  .mk "Limited Broadcast" (.ofOctets .v4 [255, 255, 255, 255]) 32

/-- The IPv6 block for protocols. -/
def protocolAssignments : Block :=
  .mk "IETF Protocol Assignments" (.ofWords [0x2001, 0, 0, 0, 0, 0, 0, 0]) 32

/-- The block of the 6to4 scheme. -/
def sixToFour : Block :=
  .mk "6to4" (.ofWords [0x2002, 0, 0, 0, 0, 0, 0, 0]) 16

/-- The IPv4 blocks. -/
def registry4 : List Block :=
  [ .mk "This host on this network" (.ofOctets .v4 [0, 0, 0, 0]) 8,
    .mk "Private Use" (.ofOctets .v4 [10, 0, 0, 0]) 8,
    .mk "Shared Address Space" (.ofOctets .v4 [100, 64, 0, 0]) 10,
    .mk "Loopback" (.ofOctets .v4 [127, 0, 0, 0]) 8,
    .mk "Link Local" (.ofOctets .v4 [169, 254, 0, 0]) 16,
    .mk "Private Use" (.ofOctets .v4 [172, 16, 0, 0]) 12,
    .mk "IETF Protocol Assignments" (.ofOctets .v4 [192, 0, 0, 0]) 24,
    .mk "Documentation (TEST-NET-1)" (.ofOctets .v4 [192, 0, 2, 0]) 24,
    .mk "Documentation (TEST-NET-2)" (.ofOctets .v4 [198, 51, 100, 0]) 24,
    .mk "Documentation (TEST-NET-3)" (.ofOctets .v4 [203, 0, 113, 0]) 24,
    .mk "6 to 4 Relay Anycast (Deprecated)" (.ofOctets .v4 [192, 88, 99, 0]) 24,
    .mk "AMT" (.ofOctets .v4 [192, 52, 193, 0]) 24,
    .mk "Private Use" (.ofOctets .v4 [192, 168, 0, 0]) 16,
    limitedBroadcast,
    .mk "Private Use" (.ofOctets .v4 [192, 18, 0, 0]) 15,
    .mk "Multicast" (.ofOctets .v4 [224, 0, 0, 0]) 4,
    .mk "Reserved" (.ofOctets .v4 [240, 0, 0, 0]) 4 ]

/-- The IPv6 blocks. -/
def registry6 : List Block :=
  [ .mk "Loopback Address" (.ofWords [0, 0, 0, 0, 0, 0, 0, 1]) 128,
    .mk "Unspecified Address" (.ofWords [0, 0, 0, 0, 0, 0, 0, 0]) 128,
    .mk "IPv4-mapped Address" (.ofWords [0, 0, 0, 0, 0, 0xffff, 0, 0]) 96,
    .mk "IPv4-IPv6 Translat." (.ofWords [0x64, 0xff9b, 0, 0, 0, 0, 0, 0]) 96,
    .mk "Discard-Only Address Block" (.ofWords [0x100, 0, 0, 0, 0, 0, 0, 0]) 64,
    protocolAssignments,
    .mk "Global Unicast" (.ofWords [0x2000, 0, 0, 0, 0, 0, 0, 0]) 3,
    .mk "Unique Local Unicast" (.ofWords [0xfc00, 0, 0, 0, 0, 0, 0, 0]) 7,
    .mk "Link-Scoped Unicast" (.ofWords [0xfe80, 0, 0, 0, 0, 0, 0, 0]) 10,
    .mk "Multicast" (.ofWords [0xff00, 0, 0, 0, 0, 0, 0, 0]) 8,
    sixToFour ]

/-- The blocks of a family, in the order of its rules. -/
def registry : Family → List Block
  | .v4 => registry4
  | .v6 => registry6

/-- What an address that lies in none of the blocks is set aside for. -/
def unregistered : Family → String
  | .v4 => "Internet or Reserved for Future use"
  | .v6 => "Reserved"

/-! ## A rule and its block -/

/-- Whether a rule fits a family is decided test by test. -/
instance decidableFits (r : Rule) (f : Family) : Decidable (r.Fits f) :=
  inferInstanceAs (Decidable (_ ∧ _))

/-- The rule tests the addresses of a family for the block: it has the label,
    its mask is that of the length, and its value is the base. -/
structure Rule.TestsFor (f : Family) (r : Rule) (b : Block) : Prop where
  family : b.base.family = f
  label : r.label = b.label
  fits : r.Fits f
  mask : r.mask f = (Netmask.ofLength f b.length).value
  value : r.value f = b.base.value

/-- Whether a rule tests for a block is decided by comparing numbers and labels. -/
instance decidableTestsFor (f : Family) (r : Rule) (b : Block) : Decidable (r.TestsFor f b) :=
  decidable_of_iff
    (b.base.family = f ∧ r.label = b.label ∧ r.Fits f ∧
      r.mask f = (Netmask.ofLength f b.length).value ∧ r.value f = b.base.value)
    ⟨fun ⟨family, label, fits, mask, value⟩ => ⟨family, label, fits, mask, value⟩,
      fun h => ⟨h.family, h.label, h.fits, h.mask, h.value⟩⟩

/-- Such a rule matches the addresses of the block. -/
theorem Rule.TestsFor.matches_iff {r : Rule} {b : Block} {a : Address}
    (h : r.TestsFor a.family b) : r.matchesAddress a = true ↔ b.Holds a := by
  rw [Rule.matches_iff_land h.fits, h.mask, h.value, ← Address.value_land, Block.holds_iff_land,
    h.family]
  constructor
  · intro hvalue
    exact Address.ext h.family.symm hvalue
  · intro hbase
    rw [hbase]

/-- Row by row the rules test for the blocks. -/
theorem rules_testFor (f : Family) : List.Forall₂ (Rule.TestsFor f) (rules f) (registry f) := by
  cases f with
  | v4 => decide +kernel
  | v6 => decide +kernel

/-- Row by row a rule has the label of its block and matches the addresses of it. -/
theorem rules_match (a : Address) :
    List.Forall₂ (fun r b => r.label = b.label ∧ (r.matchesAddress a = true ↔ b.Holds a))
      (rules a.family) (registry a.family) :=
  (rules_testFor a.family).imp fun _ _ h => ⟨h.label, h.matches_iff⟩

/-- The blocks that are registered for a family are of that family. -/
theorem family_of_mem_registry {f : Family} : ∀ b ∈ registry f, b.base.family = f := by
  cases f with
  | v4 => decide
  | v6 => decide

/-! ## Labels from the registry -/

/-- Rows that match alike have the same labels left over. -/
theorem map_label_filter {a : Address} {rs : List Rule} {bs : List Block}
    (h : List.Forall₂ (fun r b => r.label = b.label ∧ (r.matchesAddress a = true ↔ b.Holds a))
      rs bs) :
    (rs.filter fun r => r.matchesAddress a).map Rule.label =
      (bs.filter fun b => b.Holds a).map Block.label := by
  rw [← List.forall₂_eq_eq_eq, List.forall₂_map_left_iff, List.forall₂_map_right_iff]
  refine (List.rel_filter ?_ h).imp fun _ _ hrow => hrow.1
  intro r b hrow
  exact hrow.2.trans decide_eq_true_iff.symm

/-- The labels of an address are those of the blocks that hold it. -/
theorem matching_eq (a : Address) :
    matching a = ((registry a.family).filter fun b => b.Holds a).map Block.label :=
  map_label_filter (rules_match a)

/-- The rules and the registry agree on addresses that lie in no block. -/
theorem defaultLabel_eq (f : Family) : defaultLabel f = unregistered f := by
  cases f with
  | v4 => rfl
  | v6 => rfl

/-- The first of these labels decides. -/
theorem classify_eq_headD (a : Address) :
    classify a = (matching a).headD (unregistered a.family) := by
  rw [classify, matching, ← List.head?_filter, ← defaultLabel_eq]
  cases (rules a.family).filter fun r => r.matchesAddress a with
  | nil => rfl
  | cons r rs => rfl

/-- Addresses that the same blocks hold have the same labels. -/
theorem matching_congr {a x : Address} (hfamily : x.family = a.family)
    (h : ∀ b ∈ registry a.family, b.Holds x ↔ b.Holds a) : matching x = matching a := by
  rw [matching_eq, matching_eq, hfamily]
  congr 1
  refine List.filter_congr ?_
  intro b hb
  exact decide_eq_decide.mpr (h b hb)

/-- Addresses that the same blocks hold have the same label. -/
theorem classify_congr {a x : Address} (hfamily : x.family = a.family)
    (h : ∀ b ∈ registry a.family, b.Holds x ↔ b.Holds a) : classify x = classify a := by
  rw [classify_eq_headD, classify_eq_headD, matching_congr hfamily h, hfamily]

/-- **THE REGISTRY**: row by row a rule matches the addresses of its block, these
    are the addresses around which the length of the row gives its base, and the
    label of an address is that of the first block that holds it, or that of
    unregistered addresses if none does. -/
theorem classify_registry (a : Address) :
    List.Forall₂ (fun r b => r.label = b.label ∧ (r.matchesAddress a = true ↔ b.Holds a))
      (rules a.family) (registry a.family) ∧
    (∀ b ∈ registry a.family, ∃ N, Network.ofNumber a (.ofNat b.length) = .ok N ∧
      (b.Holds a ↔ N.base = b.base)) ∧
    classify a = match (registry a.family).find? fun b => b.Holds a with
      | some b => b.label
      | none => unregistered a.family := by
  refine ⟨rules_match a, ?_, ?_⟩
  · intro b hb
    have hfamily := family_of_mem_registry b hb
    exact ⟨_, Network.ofNumber_ofNat (hfamily ▸ b.admits), Block.holds_iff_base hfamily.symm⟩
  · rw [classify_eq_headD, matching_eq, ← List.head?_filter]
    cases (registry a.family).filter fun b => b.Holds a with
    | nil => rfl
    | cons b bs => rfl

end AddressSpace

end Subnet
