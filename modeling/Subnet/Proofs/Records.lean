import Subnet.Proofs.AddressRoundTrip
import Subnet.Proofs.Outcomes

/-!
# Records — every field of a record agrees with the others

    A record holds texts.  `Record.Reads` says what they stand for and how the
    addresses behind them hang together: mask, network, hosts and their number
    are those of one block.  Each text reads back because the printer and the
    parser agree, and the relations between the addresses are those proved of
    blocks.
-/

namespace Subnet

/-- The number a host count's text denotes. -/
inductive Network.Counts : String → Nat → Prop where
  | decimal (count : Nat) : Counts (toString count) count
  | power (exponent : Nat) : Counts ("2^(" ++ toString exponent ++ ")") (2 ^ exponent)

/-- An optional text is there under a condition only, and then reads as an
    address. -/
def Address.Shown (a : Address) (condition : Prop) (text : Option String) : Prop :=
  (text.isSome ↔ condition) ∧ ∀ shown, text = some shown → parse shown a.family = .ok a

/-- What the texts of a record stand for, with the address they are about, its
    mask, the base of its block, and the first and the last host. -/
structure Record.Reads (r : Record) (a mask base low high : Address) : Prop where
  length : r.family.Admits r.prefixLength
  netmask : Address.parse r.netmask r.family = .ok mask
  run : Netmask.IsRun mask r.prefixLength
  network : Address.parse r.network r.family = .ok base
  masked : base = a.land mask
  broadcast : (base.lor mask.complement).Shown (r.family = .v4) r.broadcast
  hostMin : Address.parse r.hostMin r.family = .ok low
  hostMax : Address.parse r.hostMax r.family = .ok high
  hosts :
    if r.family = .v4 ∧ r.prefixLength ≤ 30 then
      low.value = base.value + 1 ∧ high.value + 1 = (base.lor mask.complement).value
    else low = base ∧ high = base.lor mask.complement
  expandedAddress : a.Shown (r.family = .v6) r.expandedAddress
  expandedNetwork : base.Shown (r.family = .v6) r.expandedNetwork
  hostCount : ∃ count : Nat,
    Network.Counts r.hostCount count ∧ (high.value : Int) - low.value + 1 = count
  power : (∃ exponent : Nat, r.hostCount = "2^(" ++ toString exponent ++ ")") ↔
    r.family = .v6 ∧ 64 ≤ r.family.width - r.prefixLength
  addressSpace : r.addressSpace = AddressSpace.classify base

/-! ## Texts -/

/-- The text of an address is read back, in its family. -/
theorem Address.parse_text_family {a : Address} {f : Family} (h : a.family = f) :
    parse a.text f = .ok a := by
  obtain rfl := h
  exact parse_eq_ok_iff.mpr (Grammar.parse?_text a)

/-- A text given under a condition is shown when it reads as the address. -/
theorem Address.shown_ite {a : Address} {condition : Prop} [Decidable condition] {text : String}
    (h : condition → parse text a.family = .ok a) :
    a.Shown condition (if condition then some text else none) := by
  by_cases hc : condition
  · rw [if_pos hc]
    refine ⟨⟨fun _ => hc, fun _ => rfl⟩, ?_⟩
    intro shown hshown
    obtain rfl := Option.some.inj hshown
    exact h hc
  · rw [if_neg hc]
    exact ⟨⟨nofun, fun h => absurd h hc⟩, nofun⟩

/-- IPv6 alone has an expanded text. -/
theorem Address.shown_expanded (a : Address) :
    a.Shown (a.family = .v6) (if a.family = .v6 then some a.expanded else none) := by
  refine shown_ite ?_
  intro h
  rw [h]
  exact parse_eq_ok_iff.mpr (Grammar.parse?_expanded h)

/-- IPv4 alone has a broadcast address, and it is the last one. -/
theorem Network.shown_broadcast (a : Address) (n : Nat) :
    (containing a n).last.Shown (a.family = .v4)
      ((containing a n).broadcast.map Address.text) := by
  have htext : (containing a n).broadcast.map Address.text =
      if a.family = .v4 then some (containing a n).last.text else none := by
    rw [broadcast_containing]
    split
    · rfl
    · rfl
  rw [htext]
  exact Address.shown_ite fun _ => Address.parse_text_family rfl

/-! ## The number of hosts -/

/-- The text of the number of hosts denotes that number. -/
theorem Network.counts_hostCountText (f : Family) (n : Nat) :
    Counts (hostCountText f n) (hostCount f n) := by
  unfold hostCountText
  dsimp only
  split
  · rename_i hlong
    have hcount : hostCount f n = 2 ^ (f.width - n) := by
      unfold hostCount
      dsimp only
      rw [Nat.one_shiftLeft, hlong.1]
      exact if_neg nofun
    rw [hcount]
    exact Counts.power _
  · exact Counts.decimal _

/-- No decimal looks like a power. -/
theorem Network.toString_ne_power (count exponent : Nat) :
    toString count ≠ "2^(" ++ toString exponent ++ ")" := by
  intro h
  have hcaret : '^' ∉ (toString count).toList :=
    (Grammar.digits_toString count).not_mem (by decide)
  -- the caret of a power is no digit
  refine hcaret ?_
  rw [h, String.toList_append, String.toList_append]
  simp

/-- Exactly the IPv6 blocks with sixty-four open bits are counted by a power. -/
theorem Network.hostCountText_eq_power_iff {f : Family} {n : Nat} :
    (∃ exponent : Nat, hostCountText f n = "2^(" ++ toString exponent ++ ")") ↔
      f = .v6 ∧ 64 ≤ f.width - n := by
  unfold hostCountText
  dsimp only
  constructor
  · rintro ⟨exponent, h⟩
    split at h
    · assumption
    · exact absurd h (toString_ne_power _ exponent)
  · intro h
    exact ⟨f.width - n, if_pos h⟩

/-! ## Records -/

/-- The record of a block stands for the addresses of that block. -/
theorem Query.record_reads (q : Query) {a : Address} {n : Nat} (h : a.family.Admits n) :
    (q.record a n (Network.containing a n)).Reads a (Network.containing a n).mask
      (Network.containing a n).base (Network.containing a n).firstHost
      (Network.containing a n).lastHost where
  length := h
  netmask := Address.parse_text_family (by rw [Network.mask_containing]; rfl)
  run := by
    rw [Network.mask_containing]
    exact Netmask.isRun_ofLength a.family n
  network := Address.parse_text_family (by rw [Network.base_containing]; rfl)
  masked := by rw [Network.base_containing, Network.mask_containing]
  broadcast := Network.shown_broadcast a n
  hostMin := Address.parse_text_family (Network.family_firstHost a n)
  hostMax := Address.parse_text_family (Network.family_lastHost a n)
  hosts := Network.hosts_containing a n
  expandedAddress := Address.shown_expanded a
  expandedNetwork := by
    have hshown := Address.shown_expanded (Network.containing a n).base
    have hfamily : (Network.containing a n).base.family = a.family := by
      rw [Network.base_containing]
      rfl
    rwa [hfamily] at hshown
  hostCount := by
    have hspan := Network.value_lastHost a n
    exact ⟨_, Network.counts_hostCountText a.family n, by omega⟩
  power := Network.hostCountText_eq_power_iff
  addressSpace := rfl

/-- **RECORDS ARE SELF-CONSISTENT**: whenever a query has a record, its text was
    read in the record's family, and all fields describe one block around the
    address. -/
theorem Query.calculate_consistent (q : Query) (r : Record) (h : q.calculate = .ok r) :
    r.address = q.address ∧ q.InFamily r.family ∧
      ∃ text a mask base low high, q.Puts r.family text ∧
        Address.parse text r.family = .ok a ∧ r.Reads a mask base low high := by
  obtain ⟨a, n, hreads, hn, rfl⟩ := exists_of_calculate_ok h
  have hfamily := inFamily_iff.mpr hreads.family.symm
  obtain ⟨-, text, hputs, hread⟩ := hreads
  exact ⟨rfl, hfamily, text, a, _, _, _, _, hputs,
    Address.parse_eq_ok_iff.mpr hread, q.record_reads (resolveLength_admits hn)⟩

/-- A shorthand with a netmask has a consistent record. -/
theorem Query.calculate_consistent_shorthand :
    let q : Query := ⟨"10.1.2", none, none, some "255.255.255.0", [.network], false, true⟩
    ∃ r, q.calculate = .ok r ∧ r.address = q.address ∧ q.InFamily r.family ∧
      ∃ text a mask base low high, q.Puts r.family text ∧
        Address.parse text r.family = .ok a ∧ r.Reads a mask base low high := by
  intro q
  have hrecord : q.calculate = .ok
      { family := .v4
        address := "10.1.2"
        expandedAddress := none
        netmask := "255.255.255.0"
        prefixLength := 24
        network := "10.1.2.0"
        expandedNetwork := none
        broadcast := some "10.1.2.255"
        hostMin := "10.1.2.1"
        hostMax := "10.1.2.254"
        hostCount := "254"
        addressSpace := "Private Use"
        hostname := none } := by decide +kernel
  exact ⟨_, hrecord, Query.calculate_consistent q _ hrecord⟩

end Subnet
