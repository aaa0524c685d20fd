import Subnet.Proofs.CanonicalText
import Subnet.Proofs.Outcomes

/-!
# Prefix lengths and netmasks — two ways to give one mask

    A netmask text is read, its leading ones are counted and the mask is built
    anew; a prefix length goes straight to the mask.  Both arrive at the same
    length (`lengthOfText_eq_ok_iff`), so a query comes to the same whichever is
    given.  Back from the record, the length of a netmask is that of a
    non-empty run, and its text is the one that was given, up to the spelling
    that IPv6 allows.
-/

namespace Subnet

variable {f : Family} {n : Nat} {text : String} {mask : Address}

/-- A length in range has the mask of that length and no other. -/
theorem Netmask.ofNumber_eq_ok_iff (hrange : f.Admits n) :
    ofNumber f (.ofNat n) = .ok mask ↔ mask = ofLength f n := by
  rw [ofNumber, checkLength_ofNat hrange]
  exact ⟨fun h => (Except.ok.inj h).symm, fun h => congrArg Except.ok h.symm⟩

namespace Query

variable {q : Query}

/-- The query with a prefix length as its only mask. -/
def withLength (q : Query) (number : Binary64) : Query :=
  { q with
    prefixLength := some number
    netmask := none }

/-- The query with a netmask as its only mask. -/
def withNetmask (q : Query) (text : String) : Query :=
  { q with
    prefixLength := none
    netmask := some text }

/-- A prefix length leaves the family as it was. -/
@[simp] theorem effectiveFamily_withLength (q : Query) (number : Binary64) :
    (q.withLength number).effectiveFamily = q.effectiveFamily := rfl

/-- A netmask leaves the family as it was. -/
@[simp] theorem effectiveFamily_withNetmask (q : Query) (text : String) :
    (q.withNetmask text).effectiveFamily = q.effectiveFamily := rfl

/-- A prefix length and a text of its mask calculate alike. -/
theorem calculate_withLength (hpos : 1 ≤ n) (hle : n ≤ q.effectiveFamily.width)
    (hread : Address.parse? text q.effectiveFamily = some (Netmask.ofLength q.effectiveFamily n)) :
    (q.withLength (.ofNat n)).calculate = (q.withNetmask text).calculate := by
  have hrange := Family.admits_of_pos hpos hle
  -- both queries read the same text, padded or not
  have htext : (q.withLength (.ofNat n)).addressText = (q.withNetmask text).addressText := rfl
  rw [calculate_of_posed (posed_of_mask rfl (Or.inr rfl)),
    calculate_of_posed (posed_of_mask rfl (Or.inl rfl)), htext, effectiveFamily_withLength,
    effectiveFamily_withNetmask]
  cases ha : Address.parse (q.withNetmask text).addressText q.effectiveFamily with
  | error e => rfl
  | ok a =>
      have hfamily : a.family = q.effectiveFamily :=
        Address.family_of_parse? (Address.parse_eq_ok_iff.mp ha)
      have hlength : (q.withLength (.ofNat n)).resolveLength a = .ok n := by
        rw [resolveLength_of_number rfl rfl, hfamily]
        exact Netmask.checkLength_ofNat hrange
      have hnetmask : (q.withNetmask text).resolveLength a = .ok n := by
        rw [resolveLength_of_netmask rfl, hfamily]
        exact Netmask.lengthOfText_eq_ok_iff.mpr ⟨hpos, hle, hread⟩
      dsimp only
      rw [hlength, hnetmask]
      rfl

/-- **A PREFIX LENGTH AND ITS NETMASK ARE INTERCHANGEABLE**: a query comes to
    the same with either, be it a record or an error; and the record of a
    netmask has a positive length and shows the mask that was given, for IPv4
    in the very text. -/
theorem mask_interchangeable (q : Query) :
    (∀ (n : Nat) (text : String) (mask : Address), 1 ≤ n → n ≤ q.effectiveFamily.width →
      Netmask.ofNumber q.effectiveFamily (.ofNat n) = .ok mask →
      Address.parse text q.effectiveFamily = .ok mask →
      (q.withLength (.ofNat n)).calculate = (q.withNetmask text).calculate) ∧
    ∀ text r, q.netmask = some text → q.calculate = .ok r →
      1 ≤ r.prefixLength ∧ r.prefixLength ≤ r.family.width ∧
      (∃ mask, Address.parse text r.family = .ok mask ∧
        Address.parse r.netmask r.family = .ok mask) ∧
      (r.family = .v4 → r.netmask = text) := by
  refine ⟨?_, ?_⟩
  · intro n text mask hpos hle hmask hread
    rw [Netmask.ofNumber_eq_ok_iff (Family.admits_of_pos hpos hle)] at hmask
    rw [hmask, Address.parse_eq_ok_iff] at hread
    exact calculate_withLength hpos hle hread
  · intro text r hnetmask hr
    obtain ⟨a, n, hreads, hn, rfl⟩ := exists_of_calculate_ok hr
    rw [resolveLength_of_netmask hnetmask] at hn
    obtain ⟨hpos, hle, hread⟩ := Netmask.lengthOfText_eq_ok_iff.mp hn
    have htext : (q.record a n (Network.containing a n)).netmask =
        (Netmask.ofLength a.family n).text :=
      congrArg Address.text (Network.mask_containing a n)
    refine ⟨hpos, hle, ⟨_, Address.parse_eq_ok_iff.mpr hread, ?_⟩, ?_⟩
    · rw [htext, Address.parse_eq_ok_iff]
      exact Grammar.parse?_text (Netmask.ofLength a.family n)
    · intro hfamily
      have hv4 : a.family = .v4 := hfamily
      rw [htext]
      rw [hv4] at hread ⊢
      exact Grammar.text_of_parse?_v4 hread

/-- A shorthand has the same record with a length and with the mask of that length. -/
theorem mask_interchangeable_shorthand :
    let q : Query := ⟨"172.16", none, none, none, [.network], false, true⟩
    (q.withLength (.ofNat 12)).calculate = (q.withNetmask "255.240.0.0").calculate ∧
    ∃ r, (q.withNetmask "255.240.0.0").calculate = .ok r ∧
      1 ≤ r.prefixLength ∧ r.prefixLength ≤ r.family.width ∧
      (∃ mask, Address.parse "255.240.0.0" r.family = .ok mask ∧
        Address.parse r.netmask r.family = .ok mask) ∧
      (r.family = .v4 → r.netmask = "255.240.0.0") := by
  intro q
  let mask : Address := ⟨.v4, 0xfff00000, by decide⟩
  have hmask : Netmask.ofNumber q.effectiveFamily (.ofNat 12) = .ok mask := by decide +kernel
  have hread : Address.parse "255.240.0.0" q.effectiveFamily = .ok mask := by decide +kernel
  have hrecord : ∃ r, (q.withNetmask "255.240.0.0").calculate = .ok r :=
    ⟨{ family := .v4
       address := "172.16"
       expandedAddress := none
       netmask := "255.240.0.0"
       prefixLength := 12
       network := "172.16.0.0"
       expandedNetwork := none
       broadcast := some "172.31.255.255"
       hostMin := "172.16.0.1"
       hostMax := "172.31.255.254"
       hostCount := "1048574"
       addressSpace := "Private Use"
       hostname := none }, by decide +kernel⟩
  obtain ⟨r, hr⟩ := hrecord
  exact ⟨(mask_interchangeable q).1 12 _ mask (by decide) (by decide) hmask hread, r, hr,
    (mask_interchangeable (q.withNetmask "255.240.0.0")).2 _ r rfl hr⟩

end Query

end Subnet
