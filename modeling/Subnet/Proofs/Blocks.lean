import Subnet.Network
import Subnet.Proofs.Masks

/-!
# Blocks — masking is rounding down, and the block above it is an interval

    A mask of length `n` leaves the lowest `width - n` bits open.  Clearing
    these bits rounds an address down to a multiple of the block's size, and
    setting them adds the size less one; the block is the interval between.
    From that the hosts lie inside the block, no step to them wraps, and their
    number is the one counted from the length alone.
-/

namespace Subnet

/-! ## Bitwise operations on addresses -/

namespace Address

/-- Within the width the complement flips every bit, and above it there is none. -/
theorem testBit_complement (a : Address) (i : Nat) :
    a.complement.value.testBit i = (decide (i < a.family.width) && !a.value.testBit i) := by
  have hle : a.family.allOnes - a.value < a.family.size := by
    have hpos := a.family.size_pos
    unfold Family.allOnes
    omega
  rw [complement, value_ofNat, Nat.mod_eq_of_lt hle, Family.allOnes, Nat.sub_sub, Nat.add_comm 1]
  exact Nat.testBit_two_pow_sub_succ a.value_lt i

/-- Bits of two addresses in common are bits of an address. -/
theorem value_land (a b : Address) : (a.land b).value = a.value &&& b.value :=
  Nat.mod_eq_of_lt (Nat.lt_of_le_of_lt Nat.and_le_left a.value_lt)

/-- Bits of either of two addresses of a family fit into its width. -/
theorem value_lor {a b : Address} (h : a.family = b.family) :
    (a.lor b).value = a.value ||| b.value :=
  Nat.mod_eq_of_lt (Nat.or_lt_two_pow a.value_lt (h ▸ b.value_lt))

/-- A step that stays within the width does not wrap. -/
theorem value_offset {a : Address} {n : Int} (hlow : 0 ≤ (a.value : Int) + n)
    (hhigh : (a.value : Int) + n < a.family.size) :
    ((a.offset n).value : Int) = (a.value : Int) + n := by
  have hmod : ((a.value : Int) + n) % (a.family.size : Int) = (a.value : Int) + n :=
    Int.emod_eq_of_lt hlow hhigh
  have hlt : ((a.value : Int) + n).toNat < a.family.size := by omega
  rw [offset, ofInt, hmod, value_ofNat, Nat.mod_eq_of_lt hlt]
  exact Int.toNat_of_nonneg hlow

/-- Masking rounds down to a multiple of the block's size. -/
theorem value_land_ofLength (a : Address) (n : Nat) :
    (a.land (Netmask.ofLength a.family n)).value =
      a.value / 2 ^ (a.family.width - n) * 2 ^ (a.family.width - n) := by
  rw [value_land]
  apply Nat.eq_of_testBit_eq
  intro i
  rw [Nat.testBit_and, Netmask.testBit_ofLength, Nat.testBit_mul_two_pow, Nat.testBit_div_two_pow]
  by_cases hi : i < a.family.width
  · by_cases hopen : a.family.width - n ≤ i
    · have hrun : a.family.width ≤ i + n := by omega
      simp [hi, hopen, hrun]
    · have hrun : ¬a.family.width ≤ i + n := by omega
      simp [hopen, hrun]
  · -- above the width both sides are clear
    have hclear := a.testBit_of_width_le (Nat.le_of_not_lt hi)
    by_cases hopen : a.family.width - n ≤ i
    · simp [hi, hopen, hclear]
    · simp [hi, hopen]

/-- The complement of a mask holds the open bits. -/
theorem value_complement_ofLength (f : Family) (n : Nat) :
    (Netmask.ofLength f n).complement.value = 2 ^ (f.width - n) - 1 := by
  apply Nat.eq_of_testBit_eq
  intro i
  rw [testBit_complement, Netmask.testBit_ofLength, Nat.testBit_two_pow_sub_one,
    Netmask.family_ofLength]
  by_cases hi : i < f.width
  · have hopen : ¬f.width ≤ i + n ↔ i < f.width - n := by omega
    simp only [hi, ← hopen, decide_true, Bool.true_and, decide_not]
  · have hopen : ¬i < f.width - n := by omega
    simp [hi, hopen]

/-- At full length no bit is open, so the last address of a block is its base. -/
theorem lor_complement_full (b : Address) {n : Nat} (h : b.family.width ≤ n) :
    b.lor (Netmask.ofLength b.family n).complement = b := by
  have hfamily : b.family = (Netmask.ofLength b.family n).complement.family := rfl
  refine Address.ext rfl ?_
  rw [value_lor hfamily, value_complement_ofLength, Nat.sub_eq_zero_of_le h]
  exact Nat.or_zero b.value

end Address

namespace Network

/-! ## The block -/

/-- The last address of a block, of either family. -/
def last (b : Network) : Address :=
  b.base.lor b.mask.complement

/-- Blocks that set their first and last address aside. -/
abbrev Reserves (f : Family) (n : Nat) : Prop :=
  f = .v4 ∧ n ≤ 30

/-- What a block consists of, for both families at once. -/
theorem containing_eq (a : Address) (n : Nat) :
    containing a n =
      let mask := Netmask.ofLength a.family n
      let base := a.land mask
      let last := base.lor mask.complement
      { mask := mask
        base := base
        broadcast := if a.family = .v4 then some last else none
        firstHost := if Reserves a.family n then base.offset 1 else base
        lastHost := if Reserves a.family n then last.offset (-1) else last } := by
  unfold containing
  dsimp only
  split
  · rename_i hf
    have hother : a.family ≠ .v4 := by
      rw [hf]
      exact nofun
    -- both branches give the last address
    have hlast : (if n < 128 then (a.land (Netmask.ofLength a.family n)).lor
          (Netmask.ofLength a.family n).complement else a.land (Netmask.ofLength a.family n)) =
        (a.land (Netmask.ofLength a.family n)).lor (Netmask.ofLength a.family n).complement := by
      split_ifs with hn
      · rfl
      · have hfull : a.family.width ≤ n := by
          rw [hf]
          exact Nat.le_of_not_lt hn
        exact (Address.lor_complement_full (a.land _) hfull).symm
    rw [hlast, if_neg hother, if_neg fun h => hother h.1, if_neg fun h => hother h.1]
  · rename_i hf
    rw [if_pos hf]
    by_cases hn : n ≤ 30
    · rw [if_pos hn, if_pos ⟨hf, hn⟩, if_pos ⟨hf, hn⟩]
    · rw [if_neg hn, if_neg fun h => hn h.2, if_neg fun h => hn h.2]

/-- The mask of a block is that of its length. -/
@[simp] theorem mask_containing (a : Address) (n : Nat) :
    (containing a n).mask = Netmask.ofLength a.family n :=
  congrArg mask (containing_eq a n)

/-- The base of a block is the address under the mask. -/
@[simp] theorem base_containing (a : Address) (n : Nat) :
    (containing a n).base = a.land (Netmask.ofLength a.family n) :=
  congrArg base (containing_eq a n)

/-- The last address of a block is its base with the open bits set. -/
theorem last_containing (a : Address) (n : Nat) :
    (containing a n).last =
      (a.land (Netmask.ofLength a.family n)).lor (Netmask.ofLength a.family n).complement := by
  rw [last, base_containing, mask_containing]

/-- The last address of a block is of the block's family. -/
@[simp] theorem family_last_containing (a : Address) (n : Nat) :
    (containing a n).last.family = a.family := by
  rw [last_containing]
  rfl

/-- The size of a block is the number of its addresses. -/
theorem value_last_containing (a : Address) (n : Nat) :
    (containing a n).last.value + 1 =
      (containing a n).base.value + 2 ^ (a.family.width - n) := by
  have hpos := Nat.two_pow_pos (a.family.width - n)
  have hf : (a.land (Netmask.ofLength a.family n)).family =
      (Netmask.ofLength a.family n).complement.family := rfl
  -- the open bits are clear below, so setting them adds them
  rw [last_containing, base_containing, Address.value_lor hf, Address.value_complement_ofLength,
    Address.value_land_ofLength, Nat.mul_comm,
    ← Nat.two_pow_add_eq_or_of_lt (Nat.sub_one_lt_of_lt hpos)]
  omega

/-- Only IPv4 blocks have a broadcast address, and it is the last one. -/
theorem broadcast_containing (a : Address) (n : Nat) :
    (containing a n).broadcast =
      if a.family = .v4 then some (containing a n).last else none := by
  rw [last_containing]
  exact congrArg broadcast (containing_eq a n)

/-! ## The hosts -/

/-- The first host is the base, or the one behind it where the base is set aside. -/
theorem firstHost_containing (a : Address) (n : Nat) :
    (containing a n).firstHost =
      if Reserves a.family n then (containing a n).base.offset 1 else (containing a n).base := by
  rw [base_containing]
  exact congrArg firstHost (containing_eq a n)

/-- The last host is the last address, or the one before it where that is set aside. -/
theorem lastHost_containing (a : Address) (n : Nat) :
    (containing a n).lastHost =
      if Reserves a.family n then (containing a n).last.offset (-1) else (containing a n).last := by
  rw [last_containing]
  exact congrArg lastHost (containing_eq a n)

/-- A block that sets addresses aside has at least four. -/
theorem four_le_of_reserves {f : Family} {n : Nat} (h : Reserves f n) :
    4 ≤ 2 ^ (f.width - n) := by
  obtain ⟨rfl, hle⟩ := h
  have hbits : 2 ≤ Family.v4.width - n := by
    show 2 ≤ 32 - n
    omega
  exact Nat.pow_le_pow_right Nat.two_pos hbits

/-- Where addresses are set aside, the hosts are what lies between them, and no
    step to them wraps. -/
theorem value_hosts_of_reserves {a : Address} {n : Nat} (h : Reserves a.family n) :
    (containing a n).firstHost.value = (containing a n).base.value + 1 ∧
      (containing a n).lastHost.value + 1 = (containing a n).last.value := by
  have hfour := four_le_of_reserves h
  have hspan := value_last_containing a n
  have hlt := (containing a n).last.value_lt
  rw [family_last_containing] at hlt
  -- four addresses leave room for a step at either end
  have hup := Address.value_offset (a := (containing a n).base) (n := 1) (by omega)
    (by rw [base_containing] at hspan ⊢; rw [Address.family_land]; omega)
  have hdown := Address.value_offset (a := (containing a n).last) (n := -1) (by omega)
    (by rw [family_last_containing]; omega)
  rw [firstHost_containing, lastHost_containing, if_pos h, if_pos h]
  omega

/-- Elsewhere every address of the block is a host. -/
theorem hosts_of_not_reserves {a : Address} {n : Nat} (h : ¬Reserves a.family n) :
    (containing a n).firstHost = (containing a n).base ∧
      (containing a n).lastHost = (containing a n).last := by
  rw [firstHost_containing, lastHost_containing]
  exact ⟨if_neg h, if_neg h⟩

/-- No step from the ends of a block to its hosts wraps. -/
theorem hosts_containing (a : Address) (n : Nat) :
    if a.family = .v4 ∧ n ≤ 30 then
      (containing a n).firstHost.value = (containing a n).base.value + 1 ∧
        (containing a n).lastHost.value + 1 = (containing a n).last.value
    else
      (containing a n).firstHost = (containing a n).base ∧
        (containing a n).lastHost = (containing a n).last := by
  split
  · rename_i h
    exact value_hosts_of_reserves h
  · rename_i h
    exact hosts_of_not_reserves h

/-- The number of hosts counted from the length is the number of addresses
    from the first host to the last. -/
theorem value_lastHost (a : Address) (n : Nat) :
    (containing a n).lastHost.value + 1 =
      (containing a n).firstHost.value + hostCount a.family n := by
  have hspan := value_last_containing a n
  unfold hostCount
  dsimp only
  rw [Nat.one_shiftLeft]
  by_cases h : Reserves a.family n
  · obtain ⟨hfirst, hlast⟩ := value_hosts_of_reserves h
    have hfour := four_le_of_reserves h
    rw [if_pos h, hfirst]
    omega
  · obtain ⟨hfirst, hlast⟩ := hosts_of_not_reserves h
    rw [if_neg h, hfirst, hlast]
    exact hspan

/-- The first host is of the block's family. -/
theorem family_firstHost (a : Address) (n : Nat) :
    (containing a n).firstHost.family = a.family := by
  rw [firstHost_containing, base_containing]
  split
  · rfl
  · rfl

/-- The last host is of the block's family. -/
theorem family_lastHost (a : Address) (n : Nat) :
    (containing a n).lastHost.family = a.family := by
  rw [lastHost_containing, last_containing]
  split
  · rfl
  · rfl

end Network

end Subnet
