import Subnet.Proofs.LeadingSwitches
import Subnet.Proofs.Lookups
import Subnet.Proofs.Requests

/-!
# Operands — a run that succeeds has used every one of them

    Operands are consumed or rejected in three places: beside the address, where
    the address has a netmask of its own, and where the query has a length and a
    netmask.  What passes all three is accounted for (`Made.accounted`): there is
    an address alone, or a bare IPv4 address with a netmask whose length is that
    of the record.
-/

namespace Subnet

namespace Query

variable {q : Query} {r : Record} {mask : String}

/-- A netmask has the length of the record, and no length stands beside it. -/
theorem lengthOfText_of_calculate (h : q.calculate = .ok r) (hmask : q.netmask = some mask) :
    q.prefixLength = none ∧ Netmask.lengthOfText mask r.family = .ok r.prefixLength := by
  obtain ⟨a, n, hreads, hn, rfl⟩ := exists_of_calculate_ok h
  rw [resolveLength_of_netmask hmask] at hn
  refine ⟨?_, hn⟩
  cases hnumber : q.prefixLength with
  | none => rfl
  | some number => exact nomatch (hreads.netmask_eq_none hnumber).symm.trans hmask

end Query

/-- A text that leaves neither a length nor a netmask behind has no slash. -/
theorem Cidr.Splits.bare {f : Family} {text : String} {parts : Cidr.Parts}
    (h : Splits f text parts) (hlength : parts.suffix.length? = none)
    (hmask : parts.suffix.netmask? = none) : '/' ∉ text.toList := by
  cases h with
  | alone hslash => exact hslash
  | length _ _ => exact nomatch hlength
  | netmask _ _ _ => exact nomatch hmask

namespace Cli

variable {args operands : List String} {ss : List Switch} {s : Settings} {silent : Bool}
  {lookup : Lookup} {f : Family} {r : Request} {record : Record}

/-! ## Operands that are accounted for -/

/-- The operands that a run with a record of prefix length `n` has used: an
    address, or a bare IPv4 address and the netmask of that length, where a
    switch gives it a meaning. -/
inductive Accounted (ss : List Switch) (n : Nat) : List String → Prop where
  | address (address : String) : Accounted ss n [address]
  | netmask {address text : String} {mask : Address} :
      Request.familyOf ss address = .v4 →
      (.broadcast ∈ ss ∨ .network ∈ ss ∨ .prefixLength ∈ ss) →
      '/' ∉ address.toList → Address.parse text .v4 = .ok mask →
      1 ≤ n → n ≤ 32 → Netmask.IsRun mask n → Accounted ss n [address, text]

namespace Request

/-- A netmask may follow an IPv4 address where a field depends on its length. -/
theorem takesNetmask_eq_true_iff :
    takesNetmask f ss = true ↔
      f = .v4 ∧ (.broadcast ∈ ss ∨ .network ∈ ss ∨ .prefixLength ∈ ss) :=
  decide_eq_true_iff

/-- Operands that make a request which can be calculated are accounted for. -/
theorem Made.accounted (h : Made s silent ss operands r)
    (hrecord : r.query.calculate = .ok record) : Accounted ss record.prefixLength operands := by
  cases h with
  | alone haddressed => exact Accounted.address _
  | @masked address text f parts haddressed htakes hnone =>
      obtain ⟨rfl, hswitches⟩ := takesNetmask_eq_true_iff.mp htakes
      obtain ⟨hlength, hmask⟩ := Query.lengthOfText_of_calculate hrecord rfl
      have hfamily : record.family = .v4 := Query.family_of_calculate hrecord
      rw [hfamily] at hmask
      obtain ⟨hpos, hle, hread⟩ := Netmask.lengthOfText_eq_ok_iff.mp hmask
      exact Accounted.netmask haddressed.family hswitches (haddressed.splits.bare hlength hnone)
        (Address.parse_eq_ok_iff.mpr hread) hpos hle (Netmask.isRun_ofLength .v4 _)

end Request

/-! ## Runs -/

/-- A run that prints no text on demand fails or answers with a record. -/
theorem code_eq_one_or_answered (s : Settings) (lookup : Lookup)
    (htext : asksForText args = false) :
    (run args s lookup).code = 1 ∨
      ∃ record, Answered args s lookup record ∧
        Accounted (scan args).switches record.prefixLength (scan args).operands := by
  have hno : ¬(.version ∈ (scan args).switches ∨ (scan args).unknown.any asksForHelp = true) := by
    rw [← asksForText_eq_true_iff, htext]
    exact nofun
  obtain ⟨outcome, h⟩ := exists_ends args s lookup
  rw [h.run_eq]
  cases h with
  | version hversion => exact absurd (Or.inl hversion) hno
  | help _ hhelp => exact absurd (Or.inr hhelp) hno
  | unknownOption _ _ _ | misused _ _ | refused _ _ _ => exact Or.inl rfl
  | @answered r record hformed hrequest hresult =>
      refine Or.inr ⟨record, ⟨r, interpret_eq_pending_iff.mpr ⟨hformed, hrequest⟩, hresult⟩, ?_⟩
      obtain ⟨found, name, hfound, rfl⟩ := Query.calculate_of_answer_ok hresult
      -- the hostname makes no difference to the length
      show Accounted (scan args).switches found.prefixLength (scan args).operands
      exact (Request.ofOperands_eq_ok_iff.mp hrequest).accounted hfound

/-- **NO OPERAND IS IGNORED**: unless a text is asked for, a run that succeeds
    has a record and its operands are accounted for by the length of that
    record, and a run whose operands no length accounts for fails. -/
theorem run_uses_operands (args : List String) (s : Settings) (lookup : Lookup)
    (htext : asksForText args = false) :
    ((run args s lookup).code = 0 →
      ∃ record, Answered args s lookup record ∧
        Accounted (scan args).switches record.prefixLength (scan args).operands) ∧
    ((∀ n, ¬Accounted (scan args).switches n (scan args).operands) →
      (run args s lookup).code = 1) := by
  rcases code_eq_one_or_answered s lookup htext with hone | hanswered
  · refine ⟨?_, fun _ => hone⟩
    intro hzero
    exact nomatch hone.symm.trans hzero
  · obtain ⟨record, hrecord, haccounted⟩ := hanswered
    exact ⟨fun _ => ⟨record, hrecord, haccounted⟩,
      fun hnone => absurd haccounted (hnone record.prefixLength)⟩

/-- A shorthand with a netmask is accounted for, and a further operand is not. -/
theorem run_uses_operands_shorthand :
    let s : Settings := ⟨Config.defaults, false, "/cfg/config.json"⟩
    let lookup : Lookup := fun _ => ⟨none, [], []⟩
    let args := ["-nb", "172.16", "255.240.0.0"]
    let more := ["-nb", "172.16", "255.240.0.0", "10.0.0.1"]
    asksForText args = false ∧ asksForText more = false ∧
      (run args s lookup).code = 0 ∧
      (∃ record, Answered args s lookup record ∧
        Accounted (scan args).switches record.prefixLength (scan args).operands) ∧
      (∀ n, ¬Accounted (scan more).switches n (scan more).operands) ∧
      (run more s lookup).code = 1 := by
  intro s lookup args more
  have htext : asksForText args = false := by decide +kernel
  have hmore : asksForText more = false := by decide +kernel
  have hcode : (run args s lookup).code = 0 := by decide +kernel
  have hoperands : (scan more).operands = ["172.16", "255.240.0.0", "10.0.0.1"] := by
    decide +kernel
  have hnone (n : Nat) : ¬Accounted (scan more).switches n (scan more).operands := by
    rw [hoperands]
    exact nofun
  exact ⟨htext, hmore, hcode, (run_uses_operands args s lookup htext).1 hcode, hnone,
    (run_uses_operands more s lookup hmore).2 hnone⟩

end Cli

end Subnet
