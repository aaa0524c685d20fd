import Mathlib.Data.Set.Card
import Mathlib.Order.Interval.Finset.Nat
import Subnet.Proofs.Numbers

/-!
# Block members — masking to the base is lying between the ends

    Masking rounds down, so two addresses of a family are masked alike exactly
    when they lie in one block (`land_eq_base_iff`), and whatever is asked of a
    block depends on the block only (`containing_eq_of_mem`).  Every number up
    to the width is the value of an address, so an interval of addresses is
    counted by its ends, and the hosts are as many as the length alone says.
-/

namespace Subnet

namespace Address

/-! ## Intervals of addresses -/

/-- The addresses of a family with a value from `low` to `high`. -/
def between (f : Family) (low high : Nat) : Set Address :=
  {x | x.family = f ∧ low ≤ x.value ∧ x.value ≤ high}

/-- Within a family addresses are told apart by their values. -/
theorem value_injOn_between (f : Family) (low high : Nat) :
    Set.InjOn value (between f low high) := by
  intro x hx y hy hvalue
  exact Address.ext (hx.1.trans hy.1.symm) hvalue

/-- The values between two addresses are all numbers between them. -/
theorem image_value_between {f : Family} {low high : Nat} (h : high < f.size) :
    value '' between f low high = Finset.Icc low high := by
  ext v
  rw [Finset.coe_Icc, Set.mem_Icc]
  constructor
  · rintro ⟨x, hx, rfl⟩
    exact hx.2
  · rintro ⟨hlow, hhigh⟩
    exact ⟨⟨f, v, Nat.lt_of_le_of_lt hhigh h⟩, ⟨rfl, hlow, hhigh⟩, rfl⟩

/-- An interval within the width has one address for each value. -/
theorem encard_between {f : Family} {low high : Nat} (h : high < f.size) :
    (between f low high).encard = (high + 1 - low : Nat) := by
  rw [← (value_injOn_between f low high).encard_image, image_value_between h,
    Set.encard_coe_eq_coe_finsetCard, Nat.card_Icc]

end Address

/-- Rounding down to a multiple gives the same for numbers of one interval. -/
theorem div_mul_eq_iff {size v w : Nat} (hpos : 0 < size) :
    v / size * size = w / size * size ↔
      w / size * size ≤ v ∧ v < w / size * size + size := by
  constructor
  · intro h
    rw [← h]
    exact ⟨Nat.div_mul_le_self v size, Nat.lt_div_mul_add hpos⟩
  · rintro ⟨hlow, hhigh⟩
    have hquot : v / size = w / size :=
      Nat.div_eq_of_lt_le hlow (by rwa [Nat.add_mul, Nat.one_mul])
    rw [hquot]

namespace Network

variable {a x : Address} {n : Nat}

/-! ## Members -/

/-- **MEMBERSHIP**: the mask takes an address to the base of a block exactly
    when the address is of the block's family and lies between its ends. -/
theorem land_eq_base_iff :
    x.land (containing a n).mask = (containing a n).base ↔
      x ∈ Address.between a.family (containing a n).base.value (containing a n).last.value := by
  have hspan := value_last_containing a n
  have hpos := Nat.two_pow_pos (a.family.width - n)
  rw [base_containing, Address.value_land_ofLength] at hspan
  rw [base_containing, mask_containing]
  -- both sides speak of `x.value` rounded down, once the families agree: the
  -- mask of another family would have another width
  constructor
  · intro h
    have hfamily := congrArg Address.family h
    have hvalue := congrArg Address.value h
    rw [Address.family_land, Address.family_land] at hfamily
    rw [← hfamily, Address.value_land_ofLength, hfamily, Address.value_land_ofLength,
      div_mul_eq_iff hpos] at hvalue
    refine ⟨hfamily, ?_, ?_⟩
    · rw [Address.value_land_ofLength]
      exact hvalue.1
    · omega
  · rintro ⟨hfamily, hlow, hhigh⟩
    rw [Address.value_land_ofLength] at hlow
    refine Address.ext hfamily ?_
    rw [← hfamily, Address.value_land_ofLength, hfamily, Address.value_land_ofLength,
      div_mul_eq_iff hpos]
    exact ⟨hlow, by omega⟩

/-- An address lies in its own block. -/
theorem land_self (a : Address) (n : Nat) :
    a.land (containing a n).mask = (containing a n).base := by
  rw [base_containing, mask_containing]

/-- A block is the block of each of its members. -/
theorem containing_eq_of_mem
    (h : x ∈ Address.between a.family (containing a n).base.value (containing a n).last.value) :
    containing x n = containing a n := by
  have hbase := land_eq_base_iff.mpr h
  rw [base_containing, mask_containing] at hbase
  rw [containing_eq, containing_eq]
  dsimp only
  rw [h.1, hbase]

/-! ## Hosts -/

/-- The hosts lie within the block, the first one not behind the last. -/
theorem value_hosts_bounds (a : Address) (n : Nat) :
    (containing a n).base.value ≤ (containing a n).firstHost.value ∧
      (containing a n).firstHost.value ≤ (containing a n).lastHost.value ∧
        (containing a n).lastHost.value ≤ (containing a n).last.value := by
  have hspan := value_last_containing a n
  have hpos := Nat.two_pow_pos (a.family.width - n)
  by_cases h : Reserves a.family n
  · obtain ⟨hfirst, hlast⟩ := value_hosts_of_reserves h
    have hfour := four_le_of_reserves h
    omega
  · obtain ⟨hfirst, hlast⟩ := hosts_of_not_reserves h
    rw [hfirst, hlast]
    omega

/-- The hosts are counted right: as many addresses lie from the first to the
    last. -/
theorem encard_hosts (a : Address) (n : Nat) :
    (Address.between a.family (containing a n).firstHost.value
      (containing a n).lastHost.value).encard = hostCount a.family n := by
  have hcount := value_lastHost a n
  have hlt := (containing a n).lastHost.value_lt
  rw [family_lastHost] at hlt
  rw [Address.encard_between hlt, hcount, Nat.add_sub_cancel_left]

/-- Where addresses are set aside, they are the base and the last address, and
    the hosts are all others. -/
theorem hosts_eq_of_reserves (h : Reserves a.family n) :
    Address.between a.family (containing a n).firstHost.value (containing a n).lastHost.value =
      {x | x.land (containing a n).mask = (containing a n).base} \
        {(containing a n).base, (containing a n).last} := by
  obtain ⟨hfirst, hlast⟩ := value_hosts_of_reserves h
  have hbase : (containing a n).base.family = a.family := by
    rw [base_containing, Address.family_land]
  have hend := family_last_containing a n
  ext x
  rw [Set.mem_sdiff, Set.mem_ofPred_eq, land_eq_base_iff, Set.mem_insert_iff, Set.mem_singleton_iff]
  constructor
  · rintro ⟨hfamily, hlow, hhigh⟩
    refine ⟨⟨hfamily, by omega, by omega⟩, ?_⟩
    rintro (rfl | rfl)
    · omega
    · omega
  · rintro ⟨⟨hfamily, hlow, hhigh⟩, hother⟩
    have hne : x.value ≠ (containing a n).base.value :=
      fun hvalue => hother (Or.inl (Address.ext (hfamily.trans hbase.symm) hvalue))
    have hne' : x.value ≠ (containing a n).last.value :=
      fun hvalue => hother (Or.inr (Address.ext (hfamily.trans hend.symm) hvalue))
    exact ⟨hfamily, by omega, by omega⟩

/-! ## Blocks of numbers -/

/-- A block of prefix length `n` around an address is exact, and its hosts are
    `count`. -/
structure Spans (b : Network) (a : Address) (n count : Nat) : Prop where
  families : b.base.family = a.family ∧ b.last.family = a.family ∧
    b.firstHost.family = a.family ∧ b.lastHost.family = a.family
  members : ∀ x : Address, x.family = a.family →
    (x.land b.mask = b.base ↔ b.base.value ≤ x.value ∧ x.value ≤ b.last.value)
  self : a.land b.mask = b.base ∧ b.base.value ≤ a.value ∧ a.value ≤ b.last.value
  size : (b.last.value : Int) - b.base.value + 1 = 2 ^ (a.family.width - n)
  ordered : b.base.value ≤ b.firstHost.value ∧ b.firstHost.value ≤ b.lastHost.value ∧
    b.lastHost.value ≤ b.last.value
  steps :
    if a.family = .v4 ∧ n ≤ 30 then
      b.firstHost.value = b.base.value + 1 ∧ b.lastHost.value + 1 = b.last.value
    else b.firstHost = b.base ∧ b.lastHost = b.last
  hosts : (Address.between a.family b.firstHost.value b.lastHost.value).encard = count
  reserved : a.family = .v4 ∧ n ≤ 30 →
    b.broadcast = some b.last ∧
      Address.between a.family b.firstHost.value b.lastHost.value =
        {x | x.land b.mask = b.base} \ {b.base, b.last}

/-- A block of a length spans its interval, and its hosts are counted right. -/
theorem containing_spans (a : Address) (n : Nat) :
    (containing a n).Spans a n (hostCount a.family n) where
  families := ⟨by rw [base_containing, Address.family_land], family_last_containing a n,
    family_firstHost a n, family_lastHost a n⟩
  members x hx := land_eq_base_iff.trans (and_iff_right hx)
  self := ⟨land_self a n, (land_eq_base_iff.mp (land_self a n)).2⟩
  size := by
    have hspan := congrArg (Nat.cast : Nat → Int) (value_last_containing a n)
    push_cast at hspan
    omega
  ordered := value_hosts_bounds a n
  steps := hosts_containing a n
  hosts := encard_hosts a n
  reserved h := ⟨by rw [broadcast_containing, if_pos h.1], hosts_eq_of_reserves h⟩

/-- **RANGES ARE EXACT**: an integer that is a prefix length has a block, and
    the number of its hosts, found from the length alone, is that of the
    addresses from the first host to the last. -/
theorem ofNumber_spans (a : Address) (n : Nat) (h : a.family.Admits n) :
    ∃ b, ∃ count : Nat, ofNumber a (.ofNat n) = .ok b ∧
      hostCountOfNumber a.family (.ofNat n) = .ok (count : Int) ∧ b.Spans a n count := by
  rw [ofNat_of_admits h]
  exact ⟨_, _, ofNumber_finite h, hostCountOfNumber_finite h, containing_spans a n⟩

/-- A block of four addresses has two hosts between its ends. -/
theorem ofNumber_spans_slash_thirty :
    let a : Address := ⟨.v4, 0x0a000006, by decide⟩
    a.family.Admits 30 ∧ ∃ b, ofNumber a (.ofNat 30) = .ok b ∧ b.Spans a 30 2 := by
  intro a
  have hrange : a.family.Admits 30 := ⟨by decide, by decide⟩
  obtain ⟨b, count, hblock, hcount, hspans⟩ := ofNumber_spans a 30 hrange
  have htwo : hostCountOfNumber a.family (.ofNat 30) = .ok 2 := by decide +kernel
  rw [htwo] at hcount
  obtain rfl : count = 2 := by
    have := Except.ok.inj hcount
    omega
  exact ⟨hrange, b, hblock, hspans⟩

end Network

end Subnet
