import Subnet.Proofs.Registry

/-!
# Host labels — the label of a network speaks for its hosts

    A registered block no longer than a network holds all of its addresses or
    none, so only longer ones can tell two addresses of the network apart.  Those
    longer than 24 bits in IPv4 and 96 bits in IPv6 are single addresses: the
    limited broadcast address, which is never the base of a network that has
    other members, and `::` and `::1`, which are in no such network but that of
    `::`.
-/

namespace Subnet.AddressSpace

variable {a x : Address} {n : Nat}

/-- Members of a network have the label of its base, unless a longer block holds
    one of the two. -/
theorem classify_eq_base (hx : x ∈ (Network.containing a n).addresses)
    (h : ∀ b ∈ registry a.family, b.length ≤ n ∨
      ¬b.Holds x ∧ ¬b.Holds (Network.containing a n).base) :
    classify x = classify (Network.containing a n).base := by
  have hbase := Network.base_mem_addresses a n
  have hfamily := Network.family_base_containing a n
  refine classify_congr ((Network.mem_addresses_iff.mp hx).1.trans hfamily.symm) ?_
  intro b hb
  rw [hfamily] at hb
  rcases h b hb with hle | ⟨hnot, hnot'⟩
  · exact (Block.holds_congr hle hx).trans (Block.holds_congr hle hbase).symm
  · exact iff_of_false hnot hnot'

/-- A network of full length has no other member. -/
theorem classify_eq_base_full (hx : x ∈ (Network.containing a n).addresses)
    (h : n = a.family.width) : classify x = classify (Network.containing a n).base := by
  rw [(Network.mem_addresses_full_iff h).mp hx]

/-- Below full length a block has two addresses at least. -/
theorem two_le_size {f : Family} (h : n < f.width) : 2 ≤ 2 ^ (f.width - n) :=
  Nat.pow_le_pow_right Nat.two_pos (show 1 ≤ f.width - n by omega)

/-! ## IPv4 -/

/-- No registered IPv4 block but the last address is longer than 24 bits. -/
theorem length_le_or_eq_limitedBroadcast :
    ∀ b ∈ registry .v4, b.length ≤ 24 ∨ b = limitedBroadcast := by
  decide +kernel

/-- The base of a network with other members is not the last address of all. -/
theorem base_ne_limitedBroadcast (h : n < a.family.width) :
    (Network.containing a n).base ≠ limitedBroadcast.base := by
  intro heq
  have hspan := Network.value_last_containing a n
  have hsize := two_le_size h
  have hlt := (Network.containing a n).last.value_lt
  have hfamily := congrArg Address.family heq
  have hvalue : (Network.containing a n).base.value = Family.v4.size - 1 := by
    rw [heq]
    decide
  rw [Network.family_base_containing] at hfamily
  rw [Network.family_last_containing, show a.family = .v4 from hfamily] at hlt
  omega

/-- Members of an IPv4 block of at least 24 bits share the label of the base, but
    for the last address of all. -/
theorem classify_eq_base_v4 (hfamily : a.family = .v4) (hlow : 24 ≤ n)
    (hlt : n < a.family.width) (hx : x ∈ (Network.containing a n).addresses)
    (hne : x ≠ limitedBroadcast.base) :
    classify x = classify (Network.containing a n).base := by
  refine classify_eq_base hx ?_
  intro b hb
  rw [hfamily] at hb
  rcases length_le_or_eq_limitedBroadcast b hb with hle | rfl
  · exact Or.inl (Nat.le_trans hle hlow)
  · rw [Block.holds_iff_eq rfl, Block.holds_iff_eq rfl]
    exact Or.inr ⟨hne, base_ne_limitedBroadcast hlt⟩

/-! ## IPv6 -/

/-- No registered IPv6 block is longer than 96 bits, but for the first two addresses. -/
theorem length_le_or_first :
    ∀ b ∈ registry .v6,
      b.length ≤ 96 ∨ b.length = b.base.family.width ∧ b.base.value ≤ 1 := by
  decide +kernel

/-- The base of a network with other members is `::` or lies beyond `::1`. -/
theorem two_le_base (h : n < a.family.width) (hne : (Network.containing a n).base.value ≠ 0) :
    2 ≤ (Network.containing a n).base.value := by
  have hbase := Network.value_base_containing a n
  have hsize := two_le_size h
  have hlead : 0 < a.lead n := by
    refine Nat.pos_of_ne_zero ?_
    intro hzero
    rw [hzero, Nat.zero_mul] at hbase
    exact hne hbase
  rw [hbase]
  exact Nat.le_trans hsize (Nat.le_mul_of_pos_left _ hlead)

/-- Members of an IPv6 block of at least 96 bits share the label of the base,
    unless that is the first address. -/
theorem classify_eq_base_v6 (hfamily : a.family = .v6) (hlow : 96 ≤ n)
    (hlt : n < a.family.width) (hx : x ∈ (Network.containing a n).addresses)
    (hne : (Network.containing a n).base.value ≠ 0) :
    classify x = classify (Network.containing a n).base := by
  have hbase := two_le_base hlt hne
  have hmember : 2 ≤ x.value := Nat.le_trans hbase hx.2.1
  refine classify_eq_base hx ?_
  intro b hb
  rw [hfamily] at hb
  rcases length_le_or_first b hb with hle | ⟨hsingle, hfirst⟩
  · exact Or.inl (Nat.le_trans hle hlow)
  · rw [Block.holds_iff_eq hsingle, Block.holds_iff_eq hsingle]
    refine Or.inr ⟨?_, ?_⟩
    · rintro rfl
      omega
    · intro heq
      rw [heq] at hbase
      omega

/-- **HOSTS**: from length 24 on every address of an IPv4 network has the label of
    the network, the limited broadcast address apart, and from length 96 on every
    address of an IPv6 network but that of `::`. -/
theorem classify_hosts (a : Address) (n : Nat) :
    (a.family = .v4 → 24 ≤ n → n ≤ 32 →
      ∃ N, Network.ofNumber a (.ofNat n) = .ok N ∧
        ∀ x ∈ N.addresses, n = 32 ∨ x ≠ .ofOctets .v4 [255, 255, 255, 255] →
          classify x = classify N.base) ∧
    (a.family = .v6 → 96 ≤ n → n ≤ 128 →
      ∃ N, Network.ofNumber a (.ofNat n) = .ok N ∧
        (N.base ≠ .ofWords [0, 0, 0, 0, 0, 0, 0, 0] →
          ∀ x ∈ N.addresses, classify x = classify N.base)) := by
  constructor
  · intro hfamily hlow hhigh
    have hrange : a.family.Admits n := by
      rw [hfamily]
      exact ⟨Nat.zero_le n, hhigh⟩
    refine ⟨_, Network.ofNumber_ofNat hrange, ?_⟩
    intro x hx hother
    rcases Nat.eq_or_lt_of_le hrange.2 with hfull | hlt
    · exact classify_eq_base_full hx hfull
    · rcases hother with rfl | hne
      · rw [hfamily] at hlt
        exact absurd hlt (by decide)
      · exact classify_eq_base_v4 hfamily hlow hlt hx hne
  · intro hfamily hlow hhigh
    have hrange : a.family.Admits n := by
      rw [hfamily]
      exact ⟨Nat.le_trans (by decide) hlow, hhigh⟩
    refine ⟨_, Network.ofNumber_ofNat hrange, ?_⟩
    intro hnonzero x hx
    rcases Nat.eq_or_lt_of_le hrange.2 with hfull | hlt
    · exact classify_eq_base_full hx hfull
    · refine classify_eq_base_v6 hfamily hlow hlt hx ?_
      intro hzero
      exact hnonzero (Address.ext ((Network.family_base_containing a n).trans hfamily) hzero)

/-- The hosts below the last IPv4 address have the label of their network. -/
theorem classify_hosts_next_to_last :
    let a : Address := .ofOctets .v4 [255, 255, 255, 77]
    let x : Address := .ofOctets .v4 [255, 255, 255, 254]
    ∃ N, Network.ofNumber a (.ofNat 24) = .ok N ∧ x ∈ N.addresses ∧
      x ≠ .ofOctets .v4 [255, 255, 255, 255] ∧ classify x = classify N.base := by
  intro a x
  have hne : x ≠ .ofOctets .v4 [255, 255, 255, 255] := by decide
  obtain ⟨N, hN, hlabels⟩ := (classify_hosts a 24).1 rfl (by decide) (by decide)
  have hmem : x ∈ N.addresses := by
    rw [← Except.ok.inj ((Network.ofNumber_ofNat (by decide)).symm.trans hN)]
    exact ⟨by decide, by decide, by decide⟩
  exact ⟨N, hN, hmem, hne, hlabels x hmem (Or.inr hne)⟩

end Subnet.AddressSpace
