import Subnet.Proofs.ArgumentOrder
import Subnet.Proofs.Suffixes

/-!
# Requests — which operands make a request

    One operand makes a request, and so do two where the switches let the second
    one be the netmask.  `Made` lists these shapes with the request of each, and
    `ofOperands_eq_ok_iff` inverts the making of requests once for all.

    A request that can be calculated was read in the family that its operand
    shows, whoever chose the family: an address of the other family is not read,
    and no suffix that is read has a colon (`detect_of_calculate`).
-/

namespace Subnet

/-- The switch that asks for a field. -/
def Field.switch : Field → Cli.Switch
  | .netmask => .netmask
  | .prefixLength => .prefixLength
  | .broadcast => .broadcast
  | .network => .network
  | .hostMin => .minaddr
  | .hostMax => .maxaddr
  | .addressSpace => .addrspace
  | .hostname => .hostname

namespace Cli

namespace Request

variable {s : Settings} {silent : Bool} {ss : List Switch} {f : Family} {parts : Cidr.Parts}
  {address : String} {rest operands : List String} {netmask : Option String} {r : Request}

/-- The request of the parts of an address, read in a family, and of a netmask. -/
def ofParts (s : Settings) (silent : Bool) (ss : List Switch) (f : Family)
    (parts : Cidr.Parts) (netmask : Option String) : Request :=
  { query := {
      address := parts.address
      family := some f
      prefixLength := parts.suffix.length?
      netmask := netmask
      fields := fieldsOf ss
      classful := decide (.classful ∈ ss) || s.config.classful
      silent := silent }
    checkOnly := .check ∈ ss
    wantsInfo := .info ∈ ss
    colour := s.colour }

/-- An operand stands where the address belongs, and is cut in the family that
    the switches and its text suggest. -/
structure Addressed (ss : List Switch) (address : String) (f : Family) (parts : Cidr.Parts) :
    Prop where
  nonempty : address ≠ ""
  oneFamily : ¬(.ipv4 ∈ ss ∧ .ipv6 ∈ ss)
  family : familyOf ss address = f
  splits : Cidr.Splits f address parts

/-- The operands that make a request, and the request: an address alone, or with
    a netmask behind it where it has none of its own. -/
inductive Made (s : Settings) (silent : Bool) (ss : List Switch) :
    List String → Request → Prop where
  | alone {address : String} {f : Family} {parts : Cidr.Parts} :
      Addressed ss address f parts →
      Made s silent ss [address] (ofParts s silent ss f parts parts.suffix.netmask?)
  | masked {address mask : String} {f : Family} {parts : Cidr.Parts} :
      Addressed ss address f parts → takesNetmask f ss = true → parts.suffix.netmask? = none →
      Made s silent ss [address, mask] (ofParts s silent ss f parts (some mask))

/-! ## Making requests -/

/-- The netmask is that of the suffix, or one operand where there may be one. -/
theorem netmaskOf_eq_ok_iff {takes : Bool} {suffix : Option String} :
    netmaskOf takes suffix rest = .ok netmask ↔
      (rest = [] ∧ netmask = suffix) ∨
        ∃ mask, rest = [mask] ∧ takes = true ∧ suffix = none ∧ netmask = some mask := by
  unfold netmaskOf
  cases rest with
  | nil => simp [eq_comm]
  | cons operand rest =>
      cases takes with
      | false => simp
      | true =>
          cases suffix with
          | some own => simp
          | none =>
              cases rest with
              | nil => simp [eq_comm]
              | cons extra more => simp

/-- With an address in front, the operands behind it decide about the netmask. -/
theorem ofOperands_of_addressed (h : Addressed ss address f parts) :
    ofOperands s silent ss (address :: rest) =
      (netmaskOf (takesNetmask f ss) parts.suffix.netmask? rest).map
        (ofParts s silent ss f parts) := by
  obtain ⟨hne, hone, rfl, hsplits⟩ := h
  simp only [ofOperands, if_neg hne, if_neg hone, ofAddress, hsplits.split_eq]
  rfl

/-- Operands that make a request have an address in front. -/
theorem exists_addressed (h : ofOperands s silent ss (address :: rest) = .ok r) :
    ∃ f parts, Addressed ss address f parts := by
  simp only [ofOperands] at h
  split_ifs at h with hempty hboth
  cases hsplit : Cidr.split address (familyOf ss address) with
  | error e => simp only [ofAddress, hsplit, reduceCtorEq] at h
  | ok parts => exact ⟨_, parts, hempty, hboth, rfl, Cidr.split_eq_ok_iff.mp hsplit⟩

/-- Operands of one of the shapes make the request of that shape. -/
theorem Made.ofOperands_eq (h : Made s silent ss operands r) :
    ofOperands s silent ss operands = .ok r := by
  cases h with
  | alone haddressed =>
      rw [ofOperands_of_addressed haddressed, netmaskOf_eq_ok_iff.mpr (Or.inl ⟨rfl, rfl⟩)]
      rfl
  | masked haddressed htakes hnone =>
      rw [ofOperands_of_addressed haddressed,
        netmaskOf_eq_ok_iff.mpr (Or.inr ⟨_, rfl, htakes, hnone, rfl⟩)]
      rfl

/-- **INVERSION**: operands make a request exactly in one of the two shapes. -/
theorem ofOperands_eq_ok_iff :
    ofOperands s silent ss operands = .ok r ↔ Made s silent ss operands r := by
  constructor
  · intro h
    cases operands with
    | nil => exact nomatch h
    | cons address rest =>
        obtain ⟨f, parts, haddressed⟩ := exists_addressed h
        rw [ofOperands_of_addressed haddressed] at h
        cases hnetmask : netmaskOf (takesNetmask f ss) parts.suffix.netmask? rest with
        | error e =>
            rw [hnetmask] at h
            exact nomatch h
        | ok netmask =>
            rw [hnetmask] at h
            obtain rfl := Except.ok.inj h
            rcases netmaskOf_eq_ok_iff.mp hnetmask with ⟨rfl, rfl⟩ | ⟨mask, rfl, htakes, hnone, rfl⟩
            · exact Made.alone haddressed
            · exact Made.masked haddressed htakes hnone
  · exact Made.ofOperands_eq

/-- Every request is made of the parts of its address. -/
theorem Made.exists_ofParts (h : Made s silent ss operands r) :
    ∃ f parts netmask, r = ofParts s silent ss f parts netmask := by
  cases h with
  | alone _ => exact ⟨_, _, _, rfl⟩
  | masked _ _ _ => exact ⟨_, _, _, rfl⟩

/-- A request asks for the fields of its switches. -/
theorem Made.fields_eq (h : Made s silent ss operands r) : r.query.fields = fieldsOf ss := by
  obtain ⟨f, parts, netmask, rfl⟩ := h.exists_ofParts
  rfl

/-- A field is among those that switches ask for exactly if its switch is. -/
theorem mem_fieldsOf_iff_switch {field : Field} : field ∈ fieldsOf ss ↔ field.switch ∈ ss := by
  have hentry : ∀ t : Switch, (t, field) ∈ fieldSwitches ↔ t = field.switch := by
    intro t
    cases field <;> cases t <;> decide
  simp only [fieldsOf, List.mem_map, List.mem_filter, decide_eq_true_eq]
  constructor
  · rintro ⟨⟨t, field⟩, ⟨hmem, ht⟩, rfl⟩
    exact (hentry t).mp hmem ▸ ht
  · intro ht
    exact ⟨(field.switch, field), ⟨(hentry _).mpr rfl, ht⟩, rfl⟩

/-- The settings and the silence decide only what becomes of the parts of an
    address: operands that make a request with some make one with others, and
    operands that make none give the same error. -/
theorem ofOperands_eq_map {s' : Settings} {silent' : Bool} (g : Request → Request)
    (hg : ∀ f parts netmask,
      ofParts s' silent' ss f parts netmask = g (ofParts s silent ss f parts netmask))
    (operands : List String) :
    ofOperands s' silent' ss operands = (ofOperands s silent ss operands).map g := by
  cases operands with
  | nil => rfl
  | cons address rest =>
      simp only [ofOperands]
      split_ifs
      · rfl
      · rfl
      · simp only [ofAddress]
        cases Cidr.split address (familyOf ss address) with
        | error e => rfl
        | ok parts =>
            dsimp only
            cases netmaskOf (takesNetmask (familyOf ss address) ss) parts.suffix.netmask? rest with
            | error e => rfl
            | ok netmask => exact congrArg Except.ok (hg _ parts netmask)

/-! ## The family of a request -/

/-- Completing a shorthand changes no family. -/
theorem detect_addressText (q : Query) :
    Family.detect q.addressText = Family.detect q.address := by
  unfold Query.addressText
  split
  · exact Family.detect_padShorthand q.address
  · rfl

/-- A request that can be calculated was read in the family that its operand
    shows. -/
theorem detect_of_calculate {record : Record} (hsplits : Cidr.Splits f address parts)
    (hown : parts.suffix.netmask? = netmask ∨ parts.suffix.netmask? = none)
    (h : (ofParts s silent ss f parts netmask).query.calculate = .ok record) :
    Family.detect address = f := by
  obtain ⟨a, n, hreads, hn, -⟩ := Query.exists_of_calculate_ok h
  have hfamily : a.family = f := hreads.family
  have hpart : Family.detect parts.address = f := by
    have hdetect := Grammar.detect_of_parse? hreads.parse?_eq
    rw [detect_addressText] at hdetect
    exact hdetect
  cases hsplits with
  | alone _ => exact hpart
  | length _ hdigits =>
      rw [Family.detect_append_slash (hdigits.not_mem rfl)]
      exact hpart
  | @netmask _ mask _ hv4 _ =>
      -- the netmask was read too, and no IPv4 text has a colon
      have hmask : netmask = some mask := hown.elim Eq.symm nofun
      rw [Query.resolveLength_of_netmask hmask, hfamily] at hn
      obtain ⟨-, -, hread⟩ := Netmask.lengthOfText_eq_ok_iff.mp hn
      have hcolon : ':' ∉ mask.toList := by
        intro hcolon
        have hv6 : Family.detect mask = .v6 := if_pos hcolon
        rw [Grammar.detect_of_parse? hread, hv4] at hv6
        exact nomatch hv6
      rw [Family.detect_append_slash hcolon]
      exact hpart

/-- Texts that show one family are read in one family. -/
theorem familyOf_eq_of_detect {text : String} (h : Family.detect text = Family.detect address) :
    familyOf ss text = familyOf ss address := by
  simp only [familyOf, h]

/-- A request that can be calculated is that of the parts of an operand that
    shows its family. -/
theorem Made.exists_shown {record : Record} (h : Made s silent ss operands r)
    (hrecord : r.query.calculate = .ok record) :
    ∃ address f parts netmask, Addressed ss address f parts ∧ Family.detect address = f ∧
      r = ofParts s silent ss f parts netmask := by
  cases h with
  | alone haddressed =>
      exact ⟨_, _, _, _, haddressed,
        detect_of_calculate haddressed.splits (Or.inl rfl) hrecord, rfl⟩
  | masked haddressed _ hnone =>
      exact ⟨_, _, _, _, haddressed,
        detect_of_calculate haddressed.splits (Or.inr hnone) hrecord, rfl⟩

end Request

/-! ## Runs of requests -/

/-- A suffix makes no option of an operand. -/
theorem isOperand_append_slash {address suffix : String} (h : address.toList.head? ≠ some '-') :
    IsOperand (address ++ "/" ++ suffix).toList := by
  refine Or.inl ?_
  rw [Cidr.toList_append_slash]
  cases hcs : address.toList with
  | nil => exact nofun
  | cons c cs =>
      rw [hcs] at h
      exact h

/-- A command line of switches and operands that make a request completes it. -/
theorem Composed.run_of_made {args operands : List String} {ss : List Switch} {s : Settings}
    {lookup : Lookup} {r : Request} (h : Composed args ss operands) (hversion : .version ∉ ss)
    (hmade : Request.Made s (s.config.silent || decide (.silent ∈ ss)) ss operands r) :
    run args s lookup = r.complete lookup := by
  have hrequested : requested args s = .ok r := by
    rw [h.requested_eq]
    exact hmade.ofOperands_eq
  rw [run, interpret_of_wellFormed (h.wellFormed_iff.mpr hversion), hrequested]

end Cli

end Subnet
