import Subnet.Proofs.BlockMembers
import Subnet.Proofs.Records

/-!
# One record to a block — what is said of an address holds for its neighbours

    A record names an address and describes the block around it.  Asking again
    about any member of that block, in any spelling and with the prefix length
    that was found, gives the same record but for the address itself
    (`calculate_same_block`).  Two things carry this: a block is the block of
    each of its members, and a complete IPv4 text is not padded.
-/

namespace Subnet

/-! ## Asking again -/

/-- The address lies between the network address of the record and the last
    address under its mask. -/
def Record.Covers (r : Record) (x : Address) : Prop :=
  ∃ base mask, Address.parse r.network r.family = .ok base ∧
    Address.parse r.netmask r.family = .ok mask ∧
    base.value ≤ x.value ∧ x.value ≤ (base.lor mask.complement).value

/-- The record with an address, as it was written, in place of its own. -/
def Record.about (r : Record) (text : String) (x : Address) : Record :=
  { r with
    address := text
    expandedAddress := if r.family = .v6 then some x.expanded else none }

/-- The query asks about a text in the family and with the prefix length of a
    record; the family may be left to the text. -/
structure Query.Restates (q : Query) (r : Record) (text : String) : Prop where
  address : q.address = text
  family : q.family = some r.family ∨ q.family = none
  prefixLength : q.prefixLength = some (.ofNat r.prefixLength)
  netmask : q.netmask = none

/-! ## Complete texts -/

/-- A text that is complete is not padded. -/
theorem Cidr.padShorthand_of_parse? {text : String} {x : Address}
    (h : Address.parse? text .v4 = some x) : padShorthand text = text := by
  obtain ⟨os, hread, -⟩ := Option.map_eq_some_iff.mp h
  exact padShorthand_of_enough (Grammar.quad?_eq_some_iff.mp hread).count_dot.ge

namespace Query

variable {q : Query} {r : Record} {text : String} {x a : Address} {n : Nat}

/-- A text that is an address already is parsed as it stands. -/
theorem addressText_of_parse? (h : Address.parse? q.address q.effectiveFamily = some x) :
    q.addressText = q.address := by
  unfold addressText
  split
  · rename_i hpadded
    rw [hpadded.1] at h
    exact Cidr.padShorthand_of_parse? h
  · rfl

/-- A complete text with a prefix length in range has the record of its block. -/
theorem calculate_of_number (hread : Address.parse? q.address q.effectiveFamily = some x)
    (hnumber : q.prefixLength = some (.ofNat n)) (hmask : q.netmask = none)
    (hrange : q.effectiveFamily.Admits n) :
    q.calculate = .ok (q.record x n (Network.containing x n)) := by
  have hreads : q.Reads x := by
    refine reads_iff.mpr ⟨posed_of_mask ?_ (Or.inr hmask), ?_⟩
    · rw [hasMask, hnumber]
      rfl
    · rw [addressText_of_parse? hread]
      exact hread
  have hn : q.resolveLength x = .ok n := by
    rw [resolveLength_of_number hmask hnumber, hreads.family]
    exact Netmask.checkLength_ofNat hrange
  exact (Goes.resolved hreads hn).calculate_eq

/-! ## Members -/

/-- A restated query is read in the family of the record. -/
theorem Restates.effectiveFamily (h : q.Restates r text)
    (hread : Address.parse? text r.family = some x) : q.effectiveFamily = r.family := by
  unfold Query.effectiveFamily
  rcases h.family with hfamily | hfamily
  · rw [hfamily]
    rfl
  · rw [hfamily, h.address]
    exact Grammar.detect_of_parse? hread

/-- Records of one block differ in the address only. -/
theorem record_eq_about (q : Query) {q' : Query} (hfamily : x.family = a.family)
    (hblock : Network.containing x n = Network.containing a n) :
    q'.record x n (Network.containing x n) =
      (q.record a n (Network.containing a n)).about q'.address x := by
  unfold record Record.about
  rw [hblock, hfamily]

/-- What a record covers is the block it was made from. -/
theorem covers_record_iff (hrange : a.family.Admits n) :
    (q.record a n (Network.containing a n)).Covers x ↔
      (Network.containing a n).base.value ≤ x.value ∧
        x.value ≤ (Network.containing a n).last.value := by
  have hreads := q.record_reads hrange
  constructor
  · rintro ⟨base, mask, hbase, hmask, hbounds⟩
    obtain rfl := Except.ok.inj (hreads.network.symm.trans hbase)
    obtain rfl := Except.ok.inj (hreads.netmask.symm.trans hmask)
    exact hbounds
  · intro hbounds
    exact ⟨_, _, hreads.network, hreads.netmask, hbounds⟩

/-- Each member of the block of a record has that record, but for the address. -/
theorem calculate_of_covers (h : q.calculate = .ok r)
    (hread : Address.parse? text r.family = some x) (hcovers : r.Covers x) {q' : Query}
    (hq' : q'.Restates r text) : q'.calculate = .ok (r.about text x) := by
  obtain ⟨a, n, -, hn, rfl⟩ := exists_of_calculate_ok h
  have hrange := resolveLength_admits hn
  have hfamily : x.family = a.family := Address.family_of_parse? hread
  have hblock : Network.containing x n = Network.containing a n :=
    Network.containing_eq_of_mem ⟨hfamily, (covers_record_iff hrange).mp hcovers⟩
  have heffective : q'.effectiveFamily = a.family := hq'.effectiveFamily hread
  have hcalculate := calculate_of_number (q := q') (x := x) (n := n)
    (by rw [heffective, hq'.address]; exact hread) hq'.prefixLength hq'.netmask
    (by rw [heffective]; exact hrange)
  rw [hcalculate, record_eq_about q hfamily hblock, hq'.address]

/-- The network, host and broadcast texts of a record are members of its block. -/
theorem covers_of_text (h : q.calculate = .ok r)
    (htext : text = r.network ∨ text = r.hostMin ∨ text = r.hostMax ∨ r.broadcast = some text) :
    ∃ x, Address.parse text r.family = .ok x ∧ r.Covers x := by
  obtain ⟨a, n, -, hn, rfl⟩ := exists_of_calculate_ok h
  have hrange := resolveLength_admits hn
  have hreads := q.record_reads hrange
  obtain ⟨hlow, hmid, hhigh⟩ := Network.value_hosts_bounds a n
  rcases htext with rfl | rfl | rfl | hbroadcast
  · exact ⟨_, hreads.network, (covers_record_iff hrange).mpr ⟨Nat.le_refl _, by omega⟩⟩
  · exact ⟨_, hreads.hostMin, (covers_record_iff hrange).mpr ⟨hlow, by omega⟩⟩
  · exact ⟨_, hreads.hostMax, (covers_record_iff hrange).mpr ⟨by omega, hhigh⟩⟩
  · have hread := hreads.broadcast.2 text hbroadcast
    have hfamily : (Network.containing a n).last.family = a.family :=
      Network.family_last_containing a n
    rw [← Network.last, hfamily] at hread
    exact ⟨_, hread, (covers_record_iff hrange).mpr ⟨by omega, Nat.le_refl _⟩⟩

/-- **ONE RECORD TO A BLOCK**: asking about any address of the block of a
    record, however it is spelled, with the prefix length of the record gives
    the record with that address; the texts the record itself shows are among
    these. -/
theorem calculate_same_block (q : Query) (r : Record) (h : q.calculate = .ok r) :
    (∀ text x, Address.parse text r.family = .ok x → r.Covers x →
      ∀ q' : Query, q'.Restates r text → q'.calculate = .ok (r.about text x)) ∧
    ∀ text, (text = r.network ∨ text = r.hostMin ∨ text = r.hostMax ∨ r.broadcast = some text) →
      ∃ x, Address.parse text r.family = .ok x ∧ r.Covers x ∧
        ∀ q' : Query, q'.Restates r text → q'.calculate = .ok (r.about text x) := by
  refine ⟨?_, ?_⟩
  · intro text x hread hcovers q' hq'
    exact calculate_of_covers h (Address.parse_eq_ok_iff.mp hread) hcovers hq'
  · intro text htext
    obtain ⟨x, hread, hcovers⟩ := covers_of_text h htext
    exact ⟨x, hread, hcovers, fun q' hq' =>
      calculate_of_covers h (Address.parse_eq_ok_iff.mp hread) hcovers hq'⟩

/-- A member of the block in another spelling has the same record. -/
theorem calculate_same_block_spelling :
    let q : Query := ⟨"2001:db8::5", none, none, some "ffff:ffff:ffff::", [], false, true⟩
    let q' : Query :=
      ⟨"2001:DB8:0:FFFF::192.0.2.1", none, some (.ofNat 48), none, [], false, true⟩
    ∃ r x, q.calculate = .ok r ∧ Address.parse q'.address r.family = .ok x ∧ r.Covers x ∧
      q'.Restates r q'.address ∧ q'.calculate = .ok (r.about q'.address x) := by
  intro q q'
  let x : Address := ⟨.v6, 0x20010db80000ffff00000000c0000201, by decide⟩
  let base : Address := ⟨.v6, 0x20010db8000000000000000000000000, by decide⟩
  let mask : Address := ⟨.v6, 0xffffffffffff00000000000000000000, by decide⟩
  let r : Record :=
    { family := .v6
      address := "2001:db8::5"
      expandedAddress := some "2001:0db8:0000:0000:0000:0000:0000:0005"
      netmask := "ffff:ffff:ffff::"
      prefixLength := 48
      network := "2001:db8::"
      expandedNetwork := some "2001:0db8:0000:0000:0000:0000:0000:0000"
      broadcast := none
      hostMin := "2001:db8::"
      hostMax := "2001:db8:0:ffff:ffff:ffff:ffff:ffff"
      hostCount := "2^(80)"
      addressSpace := "Global Unicast"
      hostname := none }
  have hrecord : q.calculate = .ok r := by decide +kernel
  have hread : Address.parse q'.address r.family = .ok x := by decide +kernel
  have hcovers : r.Covers x :=
    ⟨base, mask, by decide +kernel, by decide +kernel, by decide, by decide +kernel⟩
  have hrestates : q'.Restates r q'.address := ⟨rfl, Or.inr rfl, rfl, rfl⟩
  exact ⟨r, x, hrecord, hread, hcovers, hrestates,
    (calculate_same_block q r hrecord).1 _ x hread hcovers q' hrestates⟩

end Query

end Subnet
