import Subnet.Proofs.Interchange
import Subnet.Proofs.Lookups
import Subnet.Proofs.Requests

/-!
# Mask spellings — three ways to give an IPv4 mask on a command line

    A netmask may follow the slash of the address or stand behind the address as
    an operand of its own, and both make the same request.  A prefix length makes
    another one, whose query calculates alike because the length and its netmask
    are interchangeable; queries that calculate alike from the same text are
    answered alike, down to the lookups and the messages.  So the three command
    lines run alike (`run_mask_spellings`), readable or not.
-/

namespace Subnet

namespace Query

variable {q q' : Query} {n : Nat} {text : String} {lookup : Option Lookup}

/-- Queries that calculate alike and read the same text in the same family have
    parsed the same address. -/
theorem assemble_congr (hcalculate : q'.calculate = q.calculate)
    (htext : q'.addressText = q.addressText) (hfamily : q'.effectiveFamily = q.effectiveFamily) :
    q'.assemble = q.assemble := by
  cases hresult : q.calculate with
  | error e =>
      rw [hresult] at hcalculate
      rw [calculate_eq_error_iff.mp hcalculate, calculate_eq_error_iff.mp hresult]
  | ok r =>
      rw [hresult] at hcalculate
      obtain ⟨a, ha⟩ := calculate_eq_ok_iff.mp hresult
      obtain ⟨b, hb⟩ := calculate_eq_ok_iff.mp hcalculate
      have hread := (reads_of_assemble hb).1.parse?_eq
      rw [htext, hfamily, (reads_of_assemble ha).1.parse?_eq] at hread
      rw [ha, hb, Option.some.inj hread]

/-- With a prefix length a query is answered as with its netmask. -/
theorem answer_withLength (hpos : 1 ≤ n) (hle : n ≤ q.effectiveFamily.width)
    (hread : Address.parse? text q.effectiveFamily = some (Netmask.ofLength q.effectiveFamily n)) :
    (q.withLength (.ofNat n)).answer lookup = (q.withNetmask text).answer lookup := by
  have hassemble : (q.withLength (.ofNat n)).assemble = (q.withNetmask text).assemble :=
    assemble_congr (calculate_withLength hpos hle hread) rfl rfl
  rw [answer, answer, hassemble]
  rfl

end Query

namespace Cli

variable {flags : List String} {ss : List Switch} {address mask suffix : String}
  {parts : Cidr.Parts} {s : Settings} {silent : Bool} {lookup : Lookup}

/-- A text that stands for an IPv4 address in front of a mask, well written or
    not: it is no option, and its end and its family can be told. -/
structure AddressPart (text : String) : Prop where
  nonempty : text ≠ ""
  noOption : text.toList.head? ≠ some '-'
  noSlash : '/' ∉ text.toList
  noColon : ':' ∉ text.toList

/-- A text that stands for an IPv4 netmask, well written or not: it is no option
    and no prefix length. -/
structure MaskPart (text : String) : Prop where
  dotted : '.' ∈ text.toList
  noOption : text.toList.head? ≠ some '-'
  noColon : ':' ∉ text.toList

/-- An address part of IPv4 and its suffix show no IPv6 text. -/
theorem AddressPart.not_mem_colon_append (h : AddressPart address) (hcolon : ':' ∉ suffix.toList) :
    ':' ∉ (address ++ "/" ++ suffix).toList := by
  rw [Cidr.toList_append_slash]
  simp [h.noColon, hcolon]

namespace Request

/-- Where no switch asks for IPv6, a text without a colon is cut as IPv4. -/
theorem addressed_v4 {text : String} (hfamily : .ipv6 ∉ ss) (hne : text ≠ "")
    (hcolon : ':' ∉ text.toList) (hsplits : Cidr.Splits .v4 text parts) :
    Addressed ss text .v4 parts where
  nonempty := hne
  oneFamily := fun hboth => hfamily hboth.2
  family := by simp [familyOf, hfamily, Family.detect, hcolon]
  splits := hsplits

/-- A request asks of its query the answer, and shows it by the fields. -/
theorem complete_withQuery {r : Request} {q : Query} (hfields : q.fields = r.query.fields)
    (hsilent : q.silent = r.query.silent)
    (hanswer : q.answer (some lookup) = r.query.answer (some lookup)) :
    ({ r with query := q } : Request).complete lookup = r.complete lookup := by
  simp only [complete, hanswer, hsilent, resultText, lines, hfields]

/-- The request of a prefix length completes as that of its netmask. -/
theorem complete_ofParts_length {n : Nat} (hpos : 1 ≤ n) (hle : n ≤ 32)
    (hread : Address.parse? mask .v4 = some (Netmask.ofLength .v4 n)) :
    (ofParts s silent ss .v4 ⟨address, .length (.ofNat n)⟩ none).complete lookup =
      (ofParts s silent ss .v4 ⟨address, .netmask mask⟩ (some mask)).complete lookup := by
  let r := ofParts s silent ss .v4 ⟨address, .netmask mask⟩ (some mask)
  have hanswer : (r.query.withLength (.ofNat n)).answer (some lookup) =
      r.query.answer (some lookup) := Query.answer_withLength hpos hle hread
  exact complete_withQuery (r := r) (q := r.query.withLength (.ofNat n)) rfl rfl hanswer

end Request

/-! ## Runs -/

section Runs

variable (hflags : Composed flags ss []) (hversion : .version ∉ ss) (hfamily : .ipv6 ∉ ss)
  (haddress : AddressPart address)
include hflags hversion hfamily haddress

/-- A run of an address with a suffix. -/
theorem run_suffix (hcolon : ':' ∉ suffix.toList)
    (hsplits : Cidr.Splits .v4 (address ++ "/" ++ suffix) parts) :
    run (flags ++ [address ++ "/" ++ suffix]) s lookup =
      (Request.ofParts s (s.config.silent || decide (.silent ∈ ss)) ss .v4 parts
        parts.suffix.netmask?).complete lookup := by
  have hcomposed : Composed (flags ++ [address ++ "/" ++ suffix]) ss [address ++ "/" ++ suffix] :=
    hflags.append_operands (List.forall_mem_singleton.mpr (isOperand_append_slash haddress.noOption))
  have haddressed : Request.Addressed ss (address ++ "/" ++ suffix) .v4 parts :=
    Request.addressed_v4 hfamily (Cidr.append_slash_ne_empty address suffix)
      (haddress.not_mem_colon_append hcolon) hsplits
  exact hcomposed.run_of_made hversion (Request.Made.alone haddressed)

/-- A run of an address and a netmask behind it. -/
theorem run_netmask (htakes : Request.takesNetmask .v4 ss = true) (hmask : MaskPart mask) :
    run (flags ++ [address, mask]) s lookup =
      (Request.ofParts s (s.config.silent || decide (.silent ∈ ss)) ss .v4 ⟨address, .absent⟩
        (some mask)).complete lookup := by
  have hcomposed : Composed (flags ++ [address, mask]) ss [address, mask] := by
    refine hflags.append_operands ?_
    intro arg harg
    rcases List.mem_pair.mp harg with rfl | rfl
    · exact Or.inl haddress.noOption
    · exact Or.inl hmask.noOption
  have haddressed : Request.Addressed ss address .v4 ⟨address, .absent⟩ :=
    Request.addressed_v4 hfamily haddress.nonempty haddress.noColon
      (Cidr.Splits.alone haddress.noSlash)
  exact hcomposed.run_of_made hversion (Request.Made.masked haddressed htakes rfl)

end Runs

/-- **THREE SPELLINGS OF A MASK**: with a switch that lets a netmask stand as an
    operand, and none that asks for IPv6 or the version, a run comes to the same
    whether the netmask follows the slash of the address or the address itself,
    and whether it is a netmask or its prefix length. -/
theorem run_mask_spellings (hflags : Composed flags ss []) (hversion : .version ∉ ss)
    (hfamily : .ipv6 ∉ ss) (htakes : .broadcast ∈ ss ∨ .network ∈ ss ∨ .prefixLength ∈ ss)
    (haddress : AddressPart address) (hmask : MaskPart mask) (s : Settings) (lookup : Lookup) :
    run (flags ++ [address ++ "/" ++ mask]) s lookup = run (flags ++ [address, mask]) s lookup ∧
    ∀ n m, 1 ≤ n → n ≤ 32 → Netmask.ofNumber .v4 (.ofNat n) = .ok m →
      Address.parse mask .v4 = .ok m →
      run (flags ++ [address ++ "/" ++ toString n]) s lookup =
        run (flags ++ [address, mask]) s lookup := by
  have htakes_v4 : Request.takesNetmask .v4 ss = true := by
    simp [Request.takesNetmask, htakes]
  rw [run_netmask hflags hversion hfamily haddress htakes_v4 hmask]
  refine ⟨?_, ?_⟩
  · -- the request that is made does not tell where the netmask stood
    exact run_suffix hflags hversion hfamily haddress hmask.noColon
      (Cidr.Splits.netmask haddress.noSlash rfl hmask.dotted)
  · intro n m hpos hle hm hread
    have hrange : Family.v4.Admits n := Family.admits_of_pos hpos hle
    rw [Netmask.ofNumber_eq_ok_iff hrange] at hm
    rw [hm, Address.parse_eq_ok_iff] at hread
    rw [run_suffix hflags hversion hfamily haddress ((Grammar.digits_toString n).not_mem rfl)
      (Cidr.splits_toString haddress.noSlash n)]
    exact Request.complete_ofParts_length hpos hle hread

/-- The three spellings of the mask of a shorthand run alike. -/
theorem run_mask_spellings_shorthand :
    let flags := ["-nb"]
    let ss : List Switch := [.network, .broadcast]
    let s : Settings := ⟨Config.defaults, false, "/cfg/config.json"⟩
    let lookup : Lookup := fun _ => ⟨none, [], []⟩
    ∃ mask : Address, Composed flags ss [] ∧ .version ∉ ss ∧ .ipv6 ∉ ss ∧
      (.broadcast ∈ ss ∨ .network ∈ ss ∨ .prefixLength ∈ ss) ∧
      AddressPart "172.16" ∧ MaskPart "255.240.0.0" ∧
      Netmask.ofNumber .v4 (.ofNat 12) = .ok mask ∧ Address.parse "255.240.0.0" .v4 = .ok mask ∧
      run (flags ++ ["172.16" ++ "/" ++ "255.240.0.0"]) s lookup =
        run (flags ++ ["172.16", "255.240.0.0"]) s lookup ∧
      run (flags ++ ["172.16" ++ "/" ++ toString 12]) s lookup =
        run (flags ++ ["172.16", "255.240.0.0"]) s lookup := by
  intro flags ss s lookup
  let mask : Address := ⟨.v4, 0xfff00000, by decide⟩
  have hcluster : Spells "-nb".toList [.network, .broadcast] :=
    Spells.letters rfl (.cons rfl .nil)
  have hflags : Composed flags ss [] := Composed.switches hcluster Composed.nil
  have hversion : .version ∉ ss := by decide
  have hfamily : .ipv6 ∉ ss := by decide
  have htakes : .broadcast ∈ ss ∨ .network ∈ ss ∨ .prefixLength ∈ ss := by decide
  have haddress : AddressPart "172.16" := ⟨by decide, by decide, by decide, by decide⟩
  have hmask : MaskPart "255.240.0.0" := ⟨by decide, by decide, by decide⟩
  have hm : Netmask.ofNumber .v4 (.ofNat 12) = .ok mask := by decide +kernel
  have hread : Address.parse "255.240.0.0" .v4 = .ok mask := by decide +kernel
  obtain ⟨hsame, hlength⟩ :=
    run_mask_spellings hflags hversion hfamily htakes haddress hmask s lookup
  exact ⟨mask, hflags, hversion, hfamily, htakes, haddress, hmask, hm, hread, hsame,
    hlength 12 mask (by decide) (by decide) hm hread⟩

end Cli

end Subnet
