import Subnet.Proofs.LeadingSwitches
import Subnet.Proofs.Lookups
import Subnet.Proofs.Requests

/-!
# Family switches — they reject and never reinterpret

    A family switch chooses the family in which an address is cut, padded and
    read.  But an address that is read shows its family by itself, even with its
    suffix, and so does the whole operand; the family that is detected without
    the switch is then the same one, and with it the request.  A run that
    succeeds with a family switch in front succeeds alike without it
    (`run_family_only_rejects`).
-/

namespace Subnet

/-- The switch that asks for a family. -/
def Family.switch : Family → Cli.Switch
  | .v4 => .ipv4
  | .v6 => .ipv6

namespace Cli

variable {args operands : List String} {flag : String} {ss : List Switch} {f g : Family}
  {s : Settings} {silent : Bool} {lookup : Lookup} {outcome : Outcome} {r : Request}

namespace Request

/-- With one family asked for in front and the other one not, an operand that
    shows its family is read in that family with the switch and without. -/
theorem familyOf_of_switch {address : String}
    (hone : ¬(.ipv4 ∈ g.switch :: ss ∧ .ipv6 ∈ g.switch :: ss))
    (hdetect : Family.detect address = familyOf (g.switch :: ss) address) :
    familyOf ss address = familyOf (g.switch :: ss) address := by
  cases g with
  | v4 =>
      have hother : .ipv6 ∉ ss := fun h => hone ⟨List.mem_cons_self, List.mem_cons_of_mem _ h⟩
      have hv4 : familyOf (.ipv4 :: ss) address = .v4 := by
        simp [familyOf, hother]
      show familyOf ss address = familyOf (.ipv4 :: ss) address
      rw [hv4]
      have hshown : Family.detect address = .v4 := hdetect.trans hv4
      simp [familyOf, hother, hshown]
  | v6 =>
      have hother : .ipv4 ∉ ss := fun h => hone ⟨List.mem_cons_of_mem _ h, List.mem_cons_self⟩
      have hv6 : familyOf (.ipv6 :: ss) address = .v6 := by
        simp [familyOf]
      show familyOf ss address = familyOf (.ipv6 :: ss) address
      rw [hv6]
      have hshown : Family.detect address = .v6 := hdetect.trans hv6
      simp [familyOf, hother, hshown]

/-- Without the switch an address that shows its family is cut as before. -/
theorem Addressed.of_switch {address : String} {parts : Cidr.Parts}
    (h : Addressed (g.switch :: ss) address f parts) (hdetect : Family.detect address = f) :
    Addressed ss address f parts where
  nonempty := h.nonempty
  oneFamily := fun hboth =>
    h.oneFamily ⟨List.mem_cons_of_mem _ hboth.1, List.mem_cons_of_mem _ hboth.2⟩
  family := by
    have hfamily := h.family
    rw [← hfamily] at hdetect ⊢
    exact familyOf_of_switch h.oneFamily hdetect
  splits := h.splits

/-- Apart from the family the switch decides nothing. -/
theorem ofParts_switch (parts : Cidr.Parts) (netmask : Option String) :
    ofParts s silent (g.switch :: ss) f parts netmask = ofParts s silent ss f parts netmask := by
  cases g with
  | v4 =>
      have hfields : fieldsOf (.ipv4 :: ss) = fieldsOf ss := fieldsOf_cons (by decide)
      simp [ofParts, Family.switch, hfields]
  | v6 =>
      have hfields : fieldsOf (.ipv6 :: ss) = fieldsOf ss := fieldsOf_cons (by decide)
      simp [ofParts, Family.switch, hfields]

/-- A family switch does not decide whether a netmask may follow. -/
theorem takesNetmask_switch : takesNetmask f (g.switch :: ss) = takesNetmask f ss := by
  cases g with
  | v4 => simp [takesNetmask, Family.switch]
  | v6 => simp [takesNetmask, Family.switch]

/-- A request that can be calculated is made without the family switch too. -/
theorem Made.of_switch {record : Record} (h : Made s silent (g.switch :: ss) operands r)
    (hrecord : r.query.calculate = .ok record) : Made s silent ss operands r := by
  cases h with
  | alone haddressed =>
      have hdetect := detect_of_calculate haddressed.splits (Or.inl rfl) hrecord
      rw [ofParts_switch]
      exact Made.alone (haddressed.of_switch hdetect)
  | masked haddressed htakes hnone =>
      have hdetect := detect_of_calculate haddressed.splits (Or.inr hnone) hrecord
      rw [takesNetmask_switch] at htakes
      rw [ofParts_switch]
      exact Made.masked (haddressed.of_switch hdetect) htakes hnone

end Request

/-- A run that succeeds with a family switch ends in the same way without it. -/
theorem Ends.of_switch (hflag : Spells flag.toList [g.switch])
    (h : Ends (flag :: args) s lookup outcome) (hcode : outcome.code = 0) :
    Ends args s lookup outcome := by
  have hversion_ne : .version ≠ g.switch := by cases g <;> nofun
  have hsilent_ne : .silent ≠ g.switch := by cases g <;> nofun
  cases h with
  | version hversion => exact Ends.version ((mem_switches_cons hflag hversion_ne).mp hversion)
  | help hversion hhelp =>
      rw [unknown_cons hflag] at hhelp
      exact Ends.help (mt (mem_switches_cons hflag hversion_ne).mpr hversion) hhelp
  | unknownOption _ _ _ | misused _ _ | refused _ _ _ => exact nomatch hcode
  | @answered r record hformed hrequest hresult =>
      obtain ⟨record', hrecord⟩ := Query.exists_of_answer_ok hresult
      rw [requested_cons hflag hsilent_ne, Request.ofOperands_eq_ok_iff] at hrequest
      have hmade : requested args s = .ok r := (hrequest.of_switch hrecord).ofOperands_eq
      exact Ends.answered ((wellFormed_cons hflag hversion_ne).mp hformed) hmade hresult

/-- **A FAMILY SWITCH ONLY REJECTS**: where a run with `-4` or `-6` in front
    succeeds, the run without it comes to the very same. -/
theorem run_family_only_rejects (args : List String) (s : Settings) (lookup : Lookup) :
    ∀ flag ∈ ["-4", "-6"], (run (flag :: args) s lookup).code = 0 →
      run args s lookup = run (flag :: args) s lookup := by
  intro flag hmem hcode
  have hflag : ∃ g : Family, Spells flag.toList [g.switch] := by
    rcases List.mem_pair.mp hmem with rfl | rfl
    · exact ⟨.v4, Spells.letters rfl .nil⟩
    · exact ⟨.v6, Spells.letters rfl .nil⟩
  obtain ⟨g, hflag⟩ := hflag
  obtain ⟨outcome, h⟩ := exists_ends (flag :: args) s lookup
  rw [h.run_eq] at hcode ⊢
  exact (h.of_switch hflag hcode).run_eq

/-- A shorthand with its netmask runs alike with and without the switch of its
    family. -/
theorem run_family_only_rejects_shorthand :
    let args := ["-nb", "172.16", "255.240.0.0"]
    let s : Settings := ⟨Config.defaults, false, "/cfg/config.json"⟩
    let lookup : Lookup := fun _ => ⟨none, [], []⟩
    "-4" ∈ ["-4", "-6"] ∧ (run ("-4" :: args) s lookup).code = 0 ∧
      run args s lookup = run ("-4" :: args) s lookup := by
  intro args s lookup
  have hmem : "-4" ∈ ["-4", "-6"] := List.mem_cons_self
  have hcode : (run ("-4" :: args) s lookup).code = 0 := by decide +kernel
  exact ⟨hmem, hcode, run_family_only_rejects args s lookup "-4" hmem hcode⟩

end Cli

end Subnet
