import Subnet.Proofs.Numbers
import Subnet.Proofs.Readings

/-!
# Outcomes — which queries are refused, and with which error

    `Refused` lists the refusals with the premises of each, so that the order
    of the checks can be read off.  `Goes` lists the ways `calculate` can go,
    and `calculate_eq_iff` inverts it once for all; a query that no rule
    refuses has a record.  A length that was resolved is in range, so the check
    made for the block finds nothing more and the number of hosts exists.
-/

namespace Subnet

/-- An address is of the family it was read in. -/
theorem Address.family_of_parse? {text : String} {f : Family} {a : Address}
    (h : Address.parse? text f = some a) : a.family = f := by
  cases f with
  | v4 =>
      obtain ⟨os, -, rfl⟩ := Option.map_eq_some_iff.mp h
      rfl
  | v6 =>
      obtain ⟨ws, -, rfl⟩ := Option.map_eq_some_iff.mp h
      rfl

/-- A netmask text has a length exactly when it spells the mask of a positive
    length, which is then its own. -/
theorem Netmask.lengthOfText_eq_ok_iff {text : String} {f : Family} {n : Nat} :
    lengthOfText text f = .ok n ↔
      1 ≤ n ∧ n ≤ f.width ∧ Address.parse? text f = some (ofLength f n) := by
  unfold lengthOfText
  constructor
  · intro h
    split at h
    · rename_i m hm
      obtain ⟨hpos, hle, hrun⟩ := length_eq_ok_iff.mp h
      have hmask := eq_ofLength_iff.mpr hrun
      rw [Address.family_of_parse? hm] at hle hmask
      exact ⟨hpos, hle, hmask ▸ hm⟩
    · exact nomatch h
  · rintro ⟨hpos, hle, hread⟩
    rw [hread]
    exact length_eq_ok_iff.mpr ⟨hpos, hle, isRun_ofLength f n⟩

/-- A positive length up to the width is a prefix length of either family. -/
theorem Family.admits_of_pos {f : Family} {n : Nat} (hpos : 1 ≤ n) (hle : n ≤ f.width) :
    f.Admits n := by
  refine ⟨Nat.le_trans ?_ hpos, hle⟩
  cases f <;> decide

/-- The length of an address class is a prefix length. -/
theorem Netmask.admits_classfulLength {a : Address} (h : a.family = .v4) :
    a.family.Admits (classfulLength a) := by
  obtain ⟨hlow, hhigh⟩ := classfulLength_bounds a
  rw [h]
  exact Family.admits_of_pos (Nat.le_trans (by decide) hlow) (Nat.le_trans hhigh (by decide))

namespace Query

variable {q : Query} {a : Address} {n : Nat} {e : QueryError}

/-! ## The refusals -/

/-- Both a prefix length and a netmask were given. -/
def Ambiguous (q : Query) : Prop :=
  (∃ number, q.prefixLength = some number) ∧ ∃ mask, q.netmask = some mask

/-- Nothing says how long the prefix of an IPv4 address is, and a field is asked
    for that depends on it. -/
def Maskless (q : Query) : Prop :=
  q.InFamily .v4 ∧ q.prefixLength = none ∧ q.netmask = none ∧ q.classful = false ∧
    ∃ field ∈ q.fields, field = .broadcast ∨ field = .network ∨ field = .prefixLength

/-- The query stands the checks that are made before a text is read. -/
def Posed (q : Query) : Prop :=
  ¬q.Ambiguous ∧ ¬q.Maskless

/-- The query stands these checks, and the text that it puts to the parser is
    read as the address. -/
def Reads (q : Query) (a : Address) : Prop :=
  q.Posed ∧ ∃ text, q.Puts a.family text ∧ Address.parse? text a.family = some a

/-- The refusals: the kind of the error, its message, and the input it quotes. -/
inductive Refused (q : Query) : QueryErrorKind → String → Option String → Prop where
  | ambiguous : q.Ambiguous → Refused q .ambiguousInput "both netmask and prefix specified" none
  | maskless : ¬q.Ambiguous → q.Maskless →
      Refused q .missingLength "netmask or prefix expected" none
  | address {f : Family} {text : String} : q.Posed → q.Puts f text →
      Address.parse? text f = none →
      Refused q .malformedAddress ("bad " ++ f.name ++ " address: " ++ text) (some text)
  | netmask {a : Address} {mask : String} : q.Reads a → q.netmask = some mask →
      Address.parse? mask a.family = none →
      Refused q .malformedAddress ("bad netmask: " ++ mask) (some mask)
  | run {a m : Address} {mask : String} : q.Reads a → q.netmask = some mask →
      Address.parse? mask a.family = some m →
      (¬∃ n, 1 ≤ n ∧ n ≤ m.family.width ∧ Netmask.IsRun m n) →
      Refused q .nonContiguousMask ("bad netmask: " ++ m.text ++ " is not contiguous") (some m.text)
  | length {a : Address} {number : Binary64} : q.Reads a → q.prefixLength = some number →
      (¬∃ n : Nat, number = .finite (n : Rat) ∧ a.family.Admits n) →
      Refused q .invalidLength ("bad " ++ a.family.name ++ " prefix: " ++ number.text)
        (some number.text)

/-! ## The checks before reading -/

/-- The first check finds exactly the ambiguous queries. -/
theorem ambiguous_iff : (q.prefixLength.isSome ∧ q.netmask.isSome) ↔ q.Ambiguous := by
  rw [Option.isSome_iff_exists, Option.isSome_iff_exists]
  exact Iff.rfl

/-- Three fields depend on the length of a prefix. -/
theorem needsMask_iff {field : Field} : needsMask field = true ↔
    field = .broadcast ∨ field = .network ∨ field = .prefixLength := by
  cases field <;> simp [needsMask]

/-- The second check finds exactly the queries without a mask that need one. -/
theorem maskless_iff :
    (q.effectiveFamily = .v4 ∧ !q.hasMask ∧ !q.classful ∧ q.fields.any needsMask) ↔
      q.Maskless := by
  rw [← inFamily_iff]
  simp only [hasMask, Bool.not_eq_true', Bool.or_eq_false_iff, Option.isSome_eq_false_iff,
    Option.isNone_iff_eq_none, List.any_eq_true, needsMask_iff, and_assoc]
  exact Iff.rfl

/-- A single mask leaves nothing to refuse before reading. -/
theorem posed_of_mask (hsome : q.hasMask = true)
    (hone : q.prefixLength = none ∨ q.netmask = none) : q.Posed := by
  refine ⟨?_, ?_⟩
  · rw [← ambiguous_iff]
    rintro ⟨hnumber, hmask⟩
    rcases hone with hnone | hnone
    · rw [hnone] at hnumber
      exact nomatch hnumber
    · rw [hnone] at hmask
      exact nomatch hmask
  · rw [← maskless_iff]
    rintro ⟨-, hnone, -⟩
    rw [hsome] at hnone
    exact nomatch hnone

/-- The address is the one that the program parses. -/
theorem reads_iff :
    q.Reads a ↔ q.Posed ∧ Address.parse? q.addressText q.effectiveFamily = some a := by
  refine and_congr_right fun _ => ?_
  simp only [puts_iff]
  constructor
  · rintro ⟨_, ⟨hfamily, rfl⟩, hread⟩
    rwa [hfamily]
  · intro hread
    have hfamily := Address.family_of_parse? hread
    exact ⟨_, ⟨hfamily.symm, rfl⟩, hfamily ▸ hread⟩

/-- A query that is read is parsed by the program. -/
theorem Reads.parse?_eq (h : q.Reads a) :
    Address.parse? q.addressText q.effectiveFamily = some a :=
  (reads_iff.mp h).2

/-- One address is read at most. -/
theorem Reads.unique {b : Address} (h : q.Reads a) (h' : q.Reads b) : a = b :=
  Option.some.inj (h.parse?_eq.symm.trans h'.parse?_eq)

/-- The address that is read is of the family that the program takes. -/
theorem Reads.family (h : q.Reads a) : a.family = q.effectiveFamily :=
  Address.family_of_parse? h.parse?_eq

/-! ## The resolved length -/

/-- Whatever a length comes from, it is in range. -/
theorem resolveLength_admits (h : q.resolveLength a = .ok n) : a.family.Admits n := by
  unfold resolveLength at h
  split at h
  · obtain ⟨hpos, hle, -⟩ := Netmask.lengthOfText_eq_ok_iff.mp h
    exact Family.admits_of_pos hpos hle
  · exact (Netmask.checkLength_eq_ok_iff.mp h).2
  · split at h
    · rename_i hclass
      obtain rfl := Except.ok.inj h
      exact Netmask.admits_classfulLength hclass.1
    · obtain rfl := Except.ok.inj h
      exact Family.admits_of_pos (by cases a.family <;> decide) (Nat.le_refl _)

/-! ## The ways a query can go -/

/-- A query that is posed comes down to reading, resolving and the block. -/
theorem calculate_of_posed (h : q.Posed) :
    q.calculate = match Address.parse q.addressText q.effectiveFamily with
      | .error e => .error e
      | .ok a =>
          match q.resolveLength a with
          | .error e => .error e
          | .ok n => (Network.ofNumber a (.ofNat n)).map (q.record a n) := by
  unfold calculate assemble
  dsimp only
  rw [if_neg (mt ambiguous_iff.mp h.1), if_neg (mt maskless_iff.mp h.2)]
  cases Address.parse q.addressText q.effectiveFamily with
  | error e => rfl
  | ok a =>
      dsimp only
      cases q.resolveLength a with
      | error e => rfl
      | ok n =>
          dsimp only
          cases Network.ofNumber a (.ofNat n) with
          | error e => rfl
          | ok block => rfl

/-- The ways a query can go, with what each comes to. -/
inductive Goes (q : Query) : Except QueryError Record → Prop where
  | ambiguous : q.Ambiguous → Goes q (.error .ambiguous)
  | maskless : ¬q.Ambiguous → q.Maskless → Goes q (.error .missingLength)
  | malformed : q.Posed → Address.parse? q.addressText q.effectiveFamily = none →
      Goes q (.error (.malformedAddress q.effectiveFamily q.addressText))
  | unresolved {a : Address} {e : QueryError} : q.Reads a → q.resolveLength a = .error e →
      Goes q (.error e)
  | resolved {a : Address} {n : Nat} : q.Reads a → q.resolveLength a = .ok n →
      Goes q (.ok (q.record a n (Network.containing a n)))

/-- Some way is always open. -/
theorem exists_goes (q : Query) : ∃ result, q.Goes result := by
  by_cases hamb : q.Ambiguous
  · exact ⟨_, Goes.ambiguous hamb⟩
  by_cases hmask : q.Maskless
  · exact ⟨_, Goes.maskless hamb hmask⟩
  cases hread : Address.parse? q.addressText q.effectiveFamily with
  | none => exact ⟨_, Goes.malformed ⟨hamb, hmask⟩ hread⟩
  | some a =>
      cases hn : q.resolveLength a with
      | error e => exact ⟨_, Goes.unresolved (reads_iff.mpr ⟨⟨hamb, hmask⟩, hread⟩) hn⟩
      | ok n => exact ⟨_, Goes.resolved (reads_iff.mpr ⟨⟨hamb, hmask⟩, hread⟩) hn⟩

/-- A query comes to what the way says that it goes. -/
theorem Goes.calculate_eq {result : Except QueryError Record} (h : q.Goes result) :
    q.calculate = result := by
  cases h with
  | ambiguous hamb =>
      unfold calculate assemble
      dsimp only
      rw [if_pos (ambiguous_iff.mpr hamb)]
      rfl
  | maskless hamb hmask =>
      unfold calculate assemble
      dsimp only
      rw [if_neg (mt ambiguous_iff.mp hamb), if_pos (maskless_iff.mpr hmask)]
      rfl
  | malformed hposed hnone =>
      rw [calculate_of_posed hposed, Address.parse_eq_error_iff.mpr ⟨rfl, hnone⟩]
  | unresolved hreads he =>
      rw [calculate_of_posed hreads.1, Address.parse_eq_ok_iff.mpr hreads.parse?_eq]
      dsimp only
      rw [he]
  | resolved hreads hn =>
      -- the length is in range, so the block's own check finds nothing
      have hrange := resolveLength_admits hn
      rw [calculate_of_posed hreads.1, Address.parse_eq_ok_iff.mpr hreads.parse?_eq]
      dsimp only
      rw [hn]
      dsimp only
      rw [ofNat_of_admits hrange, Network.ofNumber_finite hrange]
      rfl

/-- **INVERSION**: what a query comes to is what one of the ways says. -/
theorem calculate_eq_iff {result : Except QueryError Record} :
    q.calculate = result ↔ q.Goes result := by
  constructor
  · rintro rfl
    obtain ⟨result, h⟩ := exists_goes q
    rw [h.calculate_eq]
    exact h
  · exact Goes.calculate_eq

/-- A query that has a record read its address and resolved a length. -/
theorem exists_of_calculate_ok {r : Record} (h : q.calculate = .ok r) :
    ∃ a n, q.Reads a ∧ q.resolveLength a = .ok n ∧ r = q.record a n (Network.containing a n) := by
  cases calculate_eq_iff.mp h with
  | @resolved a n hreads hn => exact ⟨a, n, hreads, hn, rfl⟩

/-! ## Every error is a refusal -/

/-- A netmask decides the length, whatever else was given. -/
theorem resolveLength_of_netmask {mask : String} (h : q.netmask = some mask) :
    q.resolveLength a = Netmask.lengthOfText mask a.family := by
  unfold resolveLength
  rw [h]

/-- Without a netmask a prefix length decides. -/
theorem resolveLength_of_number {number : Binary64} (h : q.netmask = none)
    (hnumber : q.prefixLength = some number) :
    q.resolveLength a = Netmask.checkLength a.family number := by
  unfold resolveLength
  rw [h, hnumber]

/-- With neither of them some length is always resolved. -/
theorem resolveLength_of_none (h : q.netmask = none) (hnumber : q.prefixLength = none) :
    ∃ n, q.resolveLength a = .ok n := by
  unfold resolveLength
  rw [h, hnumber]
  dsimp only
  split
  · exact ⟨_, rfl⟩
  · exact ⟨_, rfl⟩

/-- A record is of the family in which its query is read. -/
theorem family_of_calculate {r : Record} (h : q.calculate = .ok r) :
    r.family = q.effectiveFamily := by
  obtain ⟨a, n, hreads, -, rfl⟩ := exists_of_calculate_ok h
  exact hreads.family

/-- A length that is not resolved is refused for its netmask or its number. -/
theorem refused_of_unresolved (h : q.Reads a) (he : q.resolveLength a = .error e) :
    q.Refused e.kind e.message e.input? := by
  cases hmask : q.netmask with
  | some mask =>
      rw [resolveLength_of_netmask hmask] at he
      unfold Netmask.lengthOfText at he
      split at he
      · rename_i m hm
        obtain ⟨rfl, hrun⟩ := Netmask.length_eq_error_iff.mp he
        exact Refused.run h hmask hm hrun
      · rename_i hnone
        obtain rfl := Except.error.inj he
        exact Refused.netmask h hmask hnone
  | none =>
      cases hnumber : q.prefixLength with
      | some number =>
          rw [resolveLength_of_number hmask hnumber] at he
          obtain ⟨rfl, hrange⟩ := Netmask.checkLength_eq_error_iff.mp he
          exact Refused.length h hnumber hrange
      | none =>
          obtain ⟨n, hn⟩ := resolveLength_of_none (a := a) hmask hnumber
          rw [hn] at he
          exact nomatch he

/-- Every error of a query is a refusal, in kind, message and input. -/
theorem refused_of_calculate (h : q.calculate = .error e) :
    q.Refused e.kind e.message e.input? := by
  cases calculate_eq_iff.mp h with
  | ambiguous hamb => exact Refused.ambiguous hamb
  | maskless hamb hmask => exact Refused.maskless hamb hmask
  | malformed hposed hnone => exact Refused.address hposed q.puts_addressText hnone
  | unresolved hreads he => exact refused_of_unresolved hreads he

/-! ## Every refusal is an error -/

/-- A query that is read has no netmask beside its prefix length. -/
theorem Reads.netmask_eq_none {number : Binary64} (h : q.Reads a)
    (hnumber : q.prefixLength = some number) : q.netmask = none := by
  cases hmask : q.netmask with
  | none => rfl
  | some mask => exact absurd ⟨⟨number, hnumber⟩, mask, hmask⟩ h.1.1

end Query

end Subnet
