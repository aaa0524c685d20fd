import Subnet.Proofs.Interchange
import Subnet.Proofs.Nesting
import Subnet.Proofs.SameBlock

/-!
# Address classes — the classful networks partition IPv4

    The class of an address is read off its first octet, and no class has a
    prefix shorter than that octet.  So all members of a classful network are of
    the class it was made for (`classfulLength_of_mem`): each of them gives the
    same network, whether it is asked for by class or by the prefix length.
-/

namespace Subnet

variable {a b x : Address} {n : Nat}

/-! ## The first octet -/

/-- An IPv4 address has nothing above its first octet. -/
theorem Address.octet_eq_lead (h : a.family = .v4) : (a.value >>> 24) % 256 = a.lead 8 := by
  have hlead : a.lead 8 = a.value / 2 ^ 24 := by
    show a.value / 2 ^ (a.family.width - 8) = a.value / 2 ^ 24
    rw [h]
    rfl
  have hlt : a.value < 2 ^ 24 * 256 := by
    have hbound := a.value_lt
    rw [h] at hbound
    exact hbound
  rw [Nat.shiftRight_eq_div_pow, hlead]
  exact Nat.mod_eq_of_lt (Nat.div_lt_of_lt_mul hlt)

/-- Addresses with one first octet are of one class. -/
theorem Netmask.classfulLength_congr (ha : a.family = .v4) (hx : x.family = .v4)
    (h : x.lead 8 = a.lead 8) : classfulLength x = classfulLength a := by
  have hoctet : (x.value >>> 24) % 256 = (a.value >>> 24) % 256 := by
    rw [Address.octet_eq_lead ha, Address.octet_eq_lead hx, h]
  rw [classfulLength, classfulLength, hoctet]

/-! ## Classful networks -/

namespace Network

/-- The network of the class of an address. -/
def classful (a : Address) : Network :=
  containing a (Netmask.classfulLength a)

/-- The length of the class gives the block of the class. -/
theorem ofNumber_classful (h : a.family = .v4) :
    ofNumber a (.ofNat (Netmask.classfulLength a)) = .ok (classful a) :=
  ofNumber_ofNat (Netmask.admits_classfulLength h)

/-- The members of a classful network are of its class. -/
theorem classfulLength_of_mem (ha : a.family = .v4) (hx : x ∈ (classful a).addresses) :
    Netmask.classfulLength x = Netmask.classfulLength a := by
  obtain ⟨hfamily, hlead⟩ := mem_addresses_iff.mp hx
  -- the first octet is part of every classful prefix
  exact Netmask.classfulLength_congr ha (hfamily.trans ha)
    (Address.lead_eq_of_le hfamily (Netmask.classfulLength_bounds a).1 hlead)

/-- A classful network is the one of each of its members. -/
theorem classful_eq_of_mem (ha : a.family = .v4) (hx : x ∈ (classful a).addresses) :
    classful x = classful a := by
  show containing x (Netmask.classfulLength x) = containing a (Netmask.classfulLength a)
  rw [classfulLength_of_mem ha hx]
  exact containing_eq_of_mem_addresses hx

/-- Blocks of classes are equal or have no address in common. -/
theorem classful_eq_or_disjoint (ha : a.family = .v4) (hb : b.family = .v4) :
    classful a = classful b ∨ Disjoint (classful a).addresses (classful b).addresses := by
  by_cases h : ∃ x, x ∈ (classful a).addresses ∧ x ∈ (classful b).addresses
  · obtain ⟨x, hxa, hxb⟩ := h
    exact Or.inl ((classful_eq_of_mem ha hxa).symm.trans (classful_eq_of_mem hb hxb))
  · rw [Set.disjoint_left]
    exact Or.inr fun x hxa hxb => h ⟨x, hxa, hxb⟩

end Network

/-! ## Queries by class -/

namespace Query

variable {q : Query} {r : Record} {text : String}

/-- The query leaves the prefix length of an IPv4 address to its class. -/
structure ByClass (q : Query) : Prop where
  family : q.effectiveFamily = .v4
  prefixLength : q.prefixLength = none
  netmask : q.netmask = none
  classful : q.classful = true

/-- The query about another address text. -/
def withAddress (q : Query) (text : String) : Query :=
  { q with address := text }

/-- A query by class stands the checks that are made before reading. -/
theorem ByClass.posed (h : q.ByClass) : q.Posed := by
  refine ⟨?_, ?_⟩
  · rintro ⟨⟨number, hnumber⟩, -⟩
    exact nomatch h.prefixLength.symm.trans hnumber
  · rintro ⟨-, -, -, hclassful, -⟩
    exact nomatch h.classful.symm.trans hclassful

/-- Without a mask the text is read as it stands. -/
theorem ByClass.addressText (h : q.ByClass) : q.addressText = q.address := by
  refine addressText_of_not ?_
  rintro ⟨-, ⟨number, hnumber⟩ | ⟨mask, hmask⟩⟩
  · exact nomatch h.prefixLength.symm.trans hnumber
  · exact nomatch h.netmask.symm.trans hmask

/-- A query by class reads its text as it stands. -/
theorem ByClass.reads_iff (h : q.ByClass) :
    q.Reads a ↔ Address.parse? q.address .v4 = some a := by
  rw [Query.reads_iff, h.addressText, h.family]
  exact and_iff_right h.posed

/-- A query by class takes the length of the class. -/
theorem ByClass.resolveLength (h : q.ByClass) (ha : a.family = .v4) :
    q.resolveLength a = .ok (Netmask.classfulLength a) := by
  rw [Query.resolveLength, h.netmask, h.prefixLength]
  exact if_pos ⟨ha, h.classful⟩

/-- A query by class has the record of the block of its class, if its text is an
    address. -/
theorem ByClass.calculate_eq_ok_iff (h : q.ByClass) :
    q.calculate = .ok r ↔ ∃ a, Address.parse? q.address .v4 = some a ∧
      r = q.record a (Netmask.classfulLength a) (Network.classful a) := by
  constructor
  · intro hr
    obtain ⟨a, n, hreads, hn, rfl⟩ := exists_of_calculate_ok hr
    rw [h.resolveLength (hreads.family.trans h.family)] at hn
    obtain rfl := Except.ok.inj hn
    exact ⟨a, h.reads_iff.mp hreads, rfl⟩
  · rintro ⟨a, hread, rfl⟩
    have hn := h.resolveLength (Address.family_of_parse? hread)
    exact (Goes.resolved (h.reads_iff.mpr hread) hn).calculate_eq

/-- The family is IPv4 for every IPv4 text, be it given or detected. -/
theorem ByClass.withAddress (h : q.ByClass) (hread : Address.parse? text .v4 = some x) :
    (q.withAddress text).ByClass where
  family := by
    have hfamily := h.family
    unfold effectiveFamily at hfamily ⊢
    show q.family.getD (Family.detect text) = .v4
    cases hgiven : q.family with
    | none => exact Grammar.detect_of_parse? hread
    | some f =>
        rw [hgiven] at hfamily
        exact hfamily
  prefixLength := h.prefixLength
  netmask := h.netmask
  classful := h.classful

/-- Records of one IPv4 block differ in the address text only. -/
theorem record_withAddress {block : Network} (ha : a.family = .v4) (hx : x.family = .v4) :
    (q.withAddress text).record x n block = { q.record a n block with address := text } := by
  unfold record
  rw [ha, hx]
  rfl

/-- A query by class comes to the same with the length of the class. -/
theorem ByClass.calculate_withLength (h : q.ByClass) (hr : q.calculate = .ok r) :
    (q.withLength (.ofNat r.prefixLength)).calculate = .ok r := by
  obtain ⟨a, hread, rfl⟩ := h.calculate_eq_ok_iff.mp hr
  have ha := Address.family_of_parse? hread
  refine calculate_of_number (q := q.withLength _) ?_ rfl rfl ?_
  · rw [effectiveFamily_withLength, h.family]
    exact hread
  · rw [effectiveFamily_withLength, h.family, ← ha]
    exact Netmask.admits_classfulLength ha

/-- A query by class comes to the same for all members of its block. -/
theorem ByClass.calculate_withAddress (h : q.ByClass) (hr : q.calculate = .ok r)
    (hread : Address.parse? text .v4 = some x) (hcovers : r.Covers x) :
    (q.withAddress text).calculate = .ok { r with address := text } := by
  obtain ⟨a, haread, rfl⟩ := h.calculate_eq_ok_iff.mp hr
  have ha := Address.family_of_parse? haread
  have hx := Address.family_of_parse? hread
  have hmem : x ∈ (Network.classful a).addresses := by
    rw [Network.classful, Network.addresses_containing]
    exact ⟨hx.trans ha.symm, (covers_record_iff (Netmask.admits_classfulLength ha)).mp hcovers⟩
  refine (h.withAddress hread).calculate_eq_ok_iff.mpr ⟨x, hread, ?_⟩
  rw [Network.classfulLength_of_mem ha hmem, Network.classful_eq_of_mem ha hmem]
  exact (record_withAddress ha hx).symm

/-- **CLASSFUL NETWORKS PARTITION IPv4**: the network of a class has members of
    that class only, and any two of them are equal or disjoint.  So a query by
    class has the same record, but for the address text, for every member of
    the block it comes to, and the same with the prefix length spelled out. -/
theorem classful_partition :
    (∀ a : Address, a.family = .v4 →
      ∃ A, Network.ofNumber a (.ofNat (Netmask.classfulLength a)) = .ok A ∧ a ∈ A.addresses ∧
        (∀ x ∈ A.addresses, Netmask.classfulLength x = Netmask.classfulLength a) ∧
        ∀ b : Address, b.family = .v4 →
          ∃ B, Network.ofNumber b (.ofNat (Netmask.classfulLength b)) = .ok B ∧
            (A = B ∨ Disjoint A.addresses B.addresses)) ∧
    ∀ q : Query, q.ByClass → ∀ r, q.calculate = .ok r →
      (∃ a, Address.parse q.address .v4 = .ok a ∧ r.prefixLength = Netmask.classfulLength a) ∧
      (q.withLength (.ofNat r.prefixLength)).calculate = .ok r ∧
      ∀ text x, Address.parse text .v4 = .ok x → r.Covers x →
        (q.withAddress text).calculate = .ok { r with address := text } ∧
        ((q.withAddress text).withLength (.ofNat r.prefixLength)).calculate =
          .ok { r with address := text } := by
  refine ⟨?_, ?_⟩
  · intro a ha
    refine ⟨Network.classful a, Network.ofNumber_classful ha, Network.self_mem_addresses _ _,
      fun x => Network.classfulLength_of_mem ha, ?_⟩
    intro b hb
    exact ⟨Network.classful b, Network.ofNumber_classful hb,
      Network.classful_eq_or_disjoint ha hb⟩
  · intro q hq r hr
    refine ⟨?_, hq.calculate_withLength hr, ?_⟩
    · obtain ⟨a, hread, rfl⟩ := hq.calculate_eq_ok_iff.mp hr
      exact ⟨a, Address.parse_eq_ok_iff.mpr hread, rfl⟩
    · intro text x hread hcovers
      rw [Address.parse_eq_ok_iff] at hread
      have hmember := hq.calculate_withAddress hr hread hcovers
      exact ⟨hmember, (hq.withAddress hread).calculate_withLength hmember⟩

/-- A class B address is answered with sixteen bits and the block of its class. -/
theorem classful_partition_class_b :
    let q : Query := ⟨"172.16.5.9", none, none, none, [.network], true, true⟩
    let a : Address := ⟨.v4, 0xac100509, by decide⟩
    let x : Address := ⟨.v4, 0xac10ff01, by decide⟩
    let b : Address := ⟨.v4, 0xac110001, by decide⟩
    a.family = .v4 ∧ b.family = .v4 ∧ q.ByClass ∧ ∃ A B r,
      Network.ofNumber a (.ofNat (Netmask.classfulLength a)) = .ok A ∧ a ∈ A.addresses ∧
      Network.ofNumber b (.ofNat (Netmask.classfulLength b)) = .ok B ∧
      (A = B ∨ Disjoint A.addresses B.addresses) ∧
      q.calculate = .ok r ∧ Address.parse "172.16.255.1" .v4 = .ok x ∧ r.Covers x ∧
      (q.withAddress "172.16.255.1").calculate = .ok { r with address := "172.16.255.1" } ∧
      (q.withLength (.ofNat 16)).calculate = .ok r := by
  intro q a x b
  let r : Record :=
    { family := .v4
      address := "172.16.5.9"
      expandedAddress := none
      netmask := "255.255.0.0"
      prefixLength := 16
      network := "172.16.0.0"
      expandedNetwork := none
      broadcast := some "172.16.255.255"
      hostMin := "172.16.0.1"
      hostMax := "172.16.255.254"
      hostCount := "65534"
      addressSpace := "Private Use"
      hostname := none }
  have hq : q.ByClass := ⟨by decide, rfl, rfl, rfl⟩
  have hr : q.calculate = .ok r := by decide +kernel
  have hread : Address.parse "172.16.255.1" .v4 = .ok x := by decide +kernel
  have hcovers : r.Covers x :=
    ⟨⟨.v4, 0xac100000, by decide⟩, ⟨.v4, 0xffff0000, by decide⟩, by decide +kernel,
      by decide +kernel, by decide, by decide +kernel⟩
  obtain ⟨A, hblock, hself, -, hapart⟩ := classful_partition.1 a rfl
  obtain ⟨B, hother, hcases⟩ := hapart b rfl
  obtain ⟨-, hlength, hmembers⟩ := classful_partition.2 q hq r hr
  exact ⟨rfl, rfl, hq, A, B, r, hblock, hself, hother, hcases, hr, hread, hcovers,
    (hmembers _ x hread hcovers).1, hlength⟩

end Query

end Subnet
