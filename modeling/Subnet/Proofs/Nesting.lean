import Subnet.Proofs.BlockMembers
import Mathlib.Order.CompletePartialOrder

/-!
# Nesting — two blocks of a family are nested or apart

    An address lies in a block exactly when its leading bits are those of the
    block (`mem_addresses_iff`).  Fewer leading bits are determined by more, so
    the block of a longer prefix lies within that of a shorter one or misses it,
    and the next bit splits a block into two halves.
-/

namespace Subnet

namespace Address

/-- The `n` leading bits, as a number. -/
def lead (a : Address) (n : Nat) : Nat :=
  a.value / 2 ^ (a.family.width - n)

variable {a b : Address} {n p q : Nat}

/-- The leading bits of a shorter prefix are among those of a longer one. -/
theorem lead_eq_of_le (hfamily : b.family = a.family) (hle : p ≤ q) (h : b.lead q = a.lead q) :
    b.lead p = a.lead p := by
  have hsplit : a.family.width - p =
      (a.family.width - q) + ((a.family.width - p) - (a.family.width - q)) := by omega
  have hq : b.value / 2 ^ (b.family.width - q) = a.value / 2 ^ (a.family.width - q) := h
  show b.value / 2 ^ (b.family.width - p) = a.value / 2 ^ (a.family.width - p)
  rw [hfamily] at hq ⊢
  rw [hsplit, Nat.pow_add, ← Nat.div_div_eq_div_mul, ← Nat.div_div_eq_div_mul, hq]

/-- One more leading bit. -/
theorem lead_succ (h : n < a.family.width) : a.lead (n + 1) / 2 = a.lead n := by
  have hsplit : a.family.width - n = (a.family.width - (n + 1)) + 1 := by omega
  show a.value / 2 ^ (a.family.width - (n + 1)) / 2 = a.value / 2 ^ (a.family.width - n)
  rw [hsplit, Nat.pow_succ, Nat.div_div_eq_div_mul]

/-- The addresses with leading bits `c` are counted from `c` followed by clear
    bits. -/
theorem lead_eq_iff {c : Nat} :
    a.lead n = c ↔ c * 2 ^ (a.family.width - n) ≤ a.value ∧
      a.value ≤ c * 2 ^ (a.family.width - n) + 2 ^ (a.family.width - n) - 1 :=
  Nat.div_eq_iff (Nat.two_pow_pos _)

end Address

namespace Network

/-- The addresses of a block: of its family, from the base to the last one. -/
def addresses (b : Network) : Set Address :=
  Address.between b.base.family b.base.value b.last.value

variable {a b x : Address} {n p q : Nat}

/-- The base of a block is of the block's family. -/
theorem family_base_containing (a : Address) (n : Nat) :
    (containing a n).base.family = a.family := by
  rw [base_containing, Address.family_land]

/-- The addresses of a block are those of its family from the base to the last one. -/
theorem addresses_containing (a : Address) (n : Nat) :
    (containing a n).addresses =
      Address.between a.family (containing a n).base.value (containing a n).last.value := by
  rw [addresses, family_base_containing]

/-- The base of a block has its leading bits and no others. -/
theorem value_base_containing (a : Address) (n : Nat) :
    (containing a n).base.value = a.lead n * 2 ^ (a.family.width - n) := by
  rw [base_containing, Address.value_land_ofLength]
  rfl

/-! ## Leading bits -/

/-- **MEMBERSHIP BY LEADING BITS**: the addresses of a block are those of the
    family with the leading bits of the block. -/
theorem mem_addresses_iff :
    x ∈ (containing a n).addresses ↔ x.family = a.family ∧ x.lead n = a.lead n := by
  have hbase := value_base_containing a n
  have hspan := value_last_containing a n
  rw [addresses_containing]
  refine and_congr_right ?_
  intro hfamily
  rw [Address.lead_eq_iff, hfamily, hbase]
  omega

/-- Every address lies in its own block. -/
theorem self_mem_addresses (a : Address) (n : Nat) : a ∈ (containing a n).addresses :=
  mem_addresses_iff.mpr ⟨rfl, rfl⟩

/-- The base of a block is a member of it. -/
theorem base_mem_addresses (a : Address) (n : Nat) :
    (containing a n).base ∈ (containing a n).addresses := by
  have hspan := value_last_containing a n
  have hpos := Nat.two_pow_pos (a.family.width - n)
  exact ⟨rfl, Nat.le_refl _, by omega⟩

/-- A block of full length has no member but its base. -/
theorem mem_addresses_full_iff (h : n = a.family.width) :
    x ∈ (containing a n).addresses ↔ x = (containing a n).base := by
  have hspan := value_last_containing a n
  have hone : 2 ^ (a.family.width - n) = 1 := by rw [h, Nat.sub_self, Nat.pow_zero]
  rw [hone] at hspan
  constructor
  · rintro ⟨hfamily, hlow, hhigh⟩
    exact Address.ext hfamily (by omega)
  · rintro rfl
    exact base_mem_addresses a n

/-- A block is the block of each of its members. -/
theorem containing_eq_of_mem_addresses (h : x ∈ (containing a n).addresses) :
    containing x n = containing a n := by
  rw [addresses_containing] at h
  exact containing_eq_of_mem h

/-! ## Nested or apart -/

/-- A longer prefix around a member gives a part of the block. -/
theorem addresses_subset_of_mem (hle : p ≤ q) (h : b ∈ (containing a p).addresses) :
    (containing b q).addresses ⊆ (containing a p).addresses := by
  obtain ⟨hfamily, hlead⟩ := mem_addresses_iff.mp h
  intro x hx
  obtain ⟨hxfamily, hxlead⟩ := mem_addresses_iff.mp hx
  exact mem_addresses_iff.mpr ⟨hxfamily.trans hfamily,
    (Address.lead_eq_of_le hxfamily hle hxlead).trans hlead⟩

/-- A longer block is contained in a shorter one exactly if its address is a member. -/
theorem addresses_subset_iff (hle : p ≤ q) :
    (containing b q).addresses ⊆ (containing a p).addresses ↔ b ∈ (containing a p).addresses :=
  ⟨fun h => h (self_mem_addresses b q), addresses_subset_of_mem hle⟩

/-- A longer prefix around any other address misses the block. -/
theorem addresses_disjoint_of_not_mem (hle : p ≤ q) (h : b ∉ (containing a p).addresses) :
    Disjoint (containing b q).addresses (containing a p).addresses := by
  rw [Set.disjoint_left]
  intro x hx hxa
  -- a common member has the leading bits of both
  obtain ⟨hbfamily, hblead⟩ := mem_addresses_iff.mp hx
  obtain ⟨hafamily, halead⟩ := mem_addresses_iff.mp hxa
  exact h (mem_addresses_iff.mpr ⟨hbfamily.symm.trans hafamily,
    (Address.lead_eq_of_le hbfamily hle hblead).symm.trans halead⟩)

/-- Of a longer block all members lie in a shorter one, or none. -/
theorem mem_addresses_congr (hle : p ≤ q) (h : x ∈ (containing b q).addresses) :
    x ∈ (containing a p).addresses ↔ b ∈ (containing a p).addresses := by
  constructor
  · intro hx
    by_contra hb
    exact Set.disjoint_left.mp (addresses_disjoint_of_not_mem hle hb) h hx
  · intro hb
    exact addresses_subset_of_mem hle hb h

/-! ## Halves -/

/-- The next bit is clear at the base and set at the last address. -/
theorem lead_ends (h : p < a.family.width) :
    (containing a p).base.lead (p + 1) = 2 * a.lead p ∧
      (containing a p).last.lead (p + 1) = 2 * a.lead p + 1 := by
  have hpos := Nat.two_pow_pos (a.family.width - (p + 1))
  have hsize : 2 ^ (a.family.width - p) = 2 * 2 ^ (a.family.width - (p + 1)) := by
    rw [← Nat.pow_succ']
    congr 1
    omega
  have hbase := value_base_containing a p
  have hspan := value_last_containing a p
  rw [hsize, Nat.mul_left_comm, ← Nat.mul_assoc] at hbase
  rw [hsize] at hspan
  rw [Address.lead_eq_iff, Address.lead_eq_iff, family_base_containing, family_last_containing,
    Nat.succ_mul (2 * a.lead p)]
  omega

/-- The next bit splits a block into the blocks of its base and of its last
    address. -/
theorem addresses_halves (h : p < a.family.width) :
    (containing (containing a p).base (p + 1)).addresses ∪
        (containing (containing a p).last (p + 1)).addresses = (containing a p).addresses ∧
      Disjoint (containing (containing a p).base (p + 1)).addresses
        (containing (containing a p).last (p + 1)).addresses := by
  obtain ⟨hbase, hlast⟩ := lead_ends h
  constructor
  · ext x
    rw [Set.mem_union, mem_addresses_iff, mem_addresses_iff, mem_addresses_iff,
      family_base_containing, family_last_containing, hbase, hlast, ← and_or_left]
    refine and_congr_right ?_
    intro hfamily
    have hnext := Address.lead_succ (hfamily ▸ h : p < x.family.width)
    omega
  · rw [Set.disjoint_left]
    intro x hx hx'
    have hlow := (mem_addresses_iff.mp hx).2
    have hhigh := (mem_addresses_iff.mp hx').2
    omega

/-- **BLOCKS ARE LAMINAR**: the block of a longer prefix is contained in that
    of a shorter one or disjoint from it; it is contained exactly when its
    address is a member, and then the shorter prefix gives the same block around
    either address; a block that can be split is the disjoint union of its two
    halves. -/
theorem blocks_laminar (a b : Address) (p q : Nat) (hfamily : b.family = a.family)
    (hp : a.family.Admits p) (hq : a.family.Admits q) (hle : p ≤ q) :
    ∃ A B, ofNumber a (.ofNat p) = .ok A ∧ ofNumber b (.ofNat q) = .ok B ∧
      (B.addresses ⊆ A.addresses ∨ Disjoint B.addresses A.addresses) ∧
      (B.addresses ⊆ A.addresses ↔ b ∈ A.addresses) ∧
      (B.addresses ⊆ A.addresses → ofNumber b (.ofNat p) = .ok A ∧ B.base.land A.mask = A.base) ∧
      (p < a.family.width → ∃ L U, ofNumber A.base (.ofNat (p + 1)) = .ok L ∧
        ofNumber A.last (.ofNat (p + 1)) = .ok U ∧
        L.addresses ∪ U.addresses = A.addresses ∧ Disjoint L.addresses U.addresses) := by
  refine ⟨containing a p, containing b q, ofNumber_ofNat hp, ofNumber_ofNat (hfamily ▸ hq), ?_,
    addresses_subset_iff hle, ?_, ?_⟩
  · by_cases hb : b ∈ (containing a p).addresses
    · exact Or.inl (addresses_subset_of_mem hle hb)
    · exact Or.inr (addresses_disjoint_of_not_mem hle hb)
  · intro hsubset
    have hb := hsubset (self_mem_addresses b q)
    have hbase := hsubset (base_mem_addresses b q)
    rw [addresses_containing] at hbase
    rw [ofNumber_ofNat (hfamily ▸ hp), containing_eq_of_mem_addresses hb]
    exact ⟨rfl, land_eq_base_iff.mpr hbase⟩
  · intro hlt
    have hnext : a.family.Admits (p + 1) := ⟨Nat.le_succ_of_le hp.1, hlt⟩
    obtain ⟨hunion, hdisjoint⟩ := addresses_halves hlt
    exact ⟨_, _, ofNumber_ofNat ((family_base_containing a p).symm ▸ hnext),
      ofNumber_ofNat ((family_last_containing a p).symm ▸ hnext), hunion, hdisjoint⟩

/-- A block of length nine lies within the block of length eight around another
    member. -/
theorem blocks_laminar_ten :
    let a : Address := ⟨.v4, 0x0a000006, by decide⟩
    let b : Address := ⟨.v4, 0x0a8007ff, by decide⟩
    a.family.Admits 8 ∧ a.family.Admits 9 ∧
      ∃ A B, ofNumber a (.ofNat 8) = .ok A ∧ ofNumber b (.ofNat 9) = .ok B ∧
        B.addresses ⊆ A.addresses ∧ B.base.land A.mask = A.base := by
  intro a b
  have hp : a.family.Admits 8 := ⟨by decide, by decide⟩
  have hq : a.family.Admits 9 := ⟨by decide, by decide⟩
  obtain ⟨A, B, hA, hB, -, hiff, hsame, -⟩ := blocks_laminar a b 8 9 rfl hp hq (by decide)
  have hblock : A = containing a 8 := Except.ok.inj (hA.symm.trans (ofNumber_ofNat hp))
  have hmem : b ∈ A.addresses := by
    rw [hblock]
    exact ⟨by decide, by decide, by decide⟩
  exact ⟨hp, hq, A, B, hA, hB, hiff.mpr hmem, (hsame (hiff.mpr hmem)).2⟩

end Network

end Subnet
