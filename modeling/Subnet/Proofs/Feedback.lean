import Subnet.Proofs.Lookups
import Subnet.Proofs.Requests
import Subnet.Proofs.SameBlock

/-!
# Feedback — the network of a record, asked about again

    Field lines show nothing of an address but its block.  The network of a
    record and its prefix length, joined by a slash and put back as the only
    operand, are cut where they were joined and read in the family they were
    written in, whether or not a switch chooses the family.  A network is a
    member of its own block, so the record is the same but for the address, and
    the run comes to the same (`run_shown_network`).
-/

namespace Subnet

/-! ## Records of a network -/

namespace Record

variable {r : Record} {text : String} {x : Address}

/-- A record about another address has the same field lines, one by one. -/
theorem fieldLine?_about : (r.about text x).fieldLine? = r.fieldLine? := by
  funext field
  cases field <;> rfl

/-- No field line shows the address. -/
theorem fieldLines_about (wanted : List Field) :
    (r.about text x).fieldLines wanted = r.fieldLines wanted := by
  rw [fieldLines, fieldLines, fieldLine?_about]

end Record

namespace Query

variable {q q' : Query} {r : Record}

/-- The network of a record is an address of its family. -/
theorem parse_network (h : q.calculate = .ok r) :
    ∃ x, Address.parse? r.network r.family = some x := by
  obtain ⟨x, hread, -⟩ := covers_of_text h (Or.inl rfl)
  exact ⟨x, Address.parse_eq_ok_iff.mp hread⟩

/-- Asked about its network, a record comes again. -/
theorem calculate_network (h : q.calculate = .ok r) (hq' : q'.Restates r r.network) :
    ∃ x, q'.calculate = .ok (r.about r.network x) := by
  obtain ⟨x, hread, hcovers⟩ := covers_of_text h (Or.inl rfl)
  exact ⟨x, calculate_of_covers h (Address.parse_eq_ok_iff.mp hread) hcovers hq'⟩

end Query

namespace Cli

variable {flags operands : List String} {ss : List Switch} {s : Settings} {lookup : Lookup}
  {record : Record} {text suffix : String} {f : Family} {x : Address}

namespace Request

variable {r : Request} {silent : Bool} {parts : Cidr.Parts} {address : String}

/-! ## Records of requests -/

/-- Without a hostname to find, a request shows the calculated record. -/
theorem complete_of_calculate (h : r.query.calculate = .ok record)
    (hfield : .hostname ∉ r.query.fields) :
    r.complete lookup = ⟨0, if r.checkOnly then "" else r.resultText record, "", [], []⟩ := by
  simp only [complete, Query.answer_of_calculate h hfield]

/-- With fields to show, a request shows nothing of the address. -/
theorem resultText_about (hinfo : r.wantsInfo = false) (hfields : r.query.fields ≠ []) :
    r.resultText (record.about text x) = r.resultText record := by
  have hblock : ¬(r.wantsInfo = true ∨ r.query.fields = []) := by
    rw [hinfo]
    exact not_or.mpr ⟨nofun, hfields⟩
  have hlines (shown : Record) : r.lines shown = shown.fieldLines r.query.fields := if_neg hblock
  rw [resultText, resultText, hlines, hlines, Record.fieldLines_about]

/-! ## The request of a network -/

/-- In place of an operand that shows its family, any text of that family may
    stand with a prefix length behind it. -/
theorem Addressed.restated (h : Addressed ss address f parts) (hdetect : Family.detect address = f)
    (hread : Address.parse? text f = some x) (n : Nat) :
    Addressed ss (text ++ "/" ++ toString n) f ⟨text, .length (.ofNat n)⟩ where
  nonempty := Cidr.append_slash_ne_empty text (toString n)
  oneFamily := h.oneFamily
  family := by
    rw [← h.family]
    refine familyOf_eq_of_detect ?_
    rw [Family.detect_append_slash ((Grammar.digits_toString n).not_mem rfl), hdetect]
    exact Grammar.detect_of_parse? hread
  splits := Cidr.splits_toString (Grammar.not_mem_of_parse? hread rfl (by decide) (by decide)) n

/-- The request of a record's network and prefix length. -/
def ofNetwork (s : Settings) (silent : Bool) (ss : List Switch) (record : Record) : Request :=
  ofParts s silent ss record.family ⟨record.network, .length (.ofNat record.prefixLength)⟩ none

/-- The network of a record with its length makes a request, whatever made the
    record. -/
theorem Made.restated (h : Made s silent ss operands r) (hrecord : r.query.calculate = .ok record)
    (silent' : Bool) :
    Made s silent' ss [record.network ++ "/" ++ toString record.prefixLength]
      (ofNetwork s silent' ss record) := by
  obtain ⟨address, f, parts, netmask, haddressed, hdetect, rfl⟩ := h.exists_shown hrecord
  obtain rfl : record.family = f := Query.family_of_calculate hrecord
  obtain ⟨x, hread⟩ := Query.parse_network hrecord
  exact Made.alone (haddressed.restated hdetect hread record.prefixLength)

/-- With field switches it completes like the request that has the record. -/
theorem Made.complete_ofNetwork (h : Made s silent ss operands r)
    (hrecord : r.query.calculate = .ok record) (hfields : fieldsOf ss ≠ [])
    (hhostname : .hostname ∉ fieldsOf ss) (hinfo : .info ∉ ss) (silent' : Bool) :
    (ofNetwork s silent' ss record).complete lookup = r.complete lookup := by
  obtain ⟨address, f, parts, netmask, -, -, rfl⟩ := h.exists_shown hrecord
  have hrestates : (ofNetwork s silent' ss record).query.Restates record record.network :=
    ⟨rfl, Or.inl rfl, rfl, rfl⟩
  obtain ⟨x, hnetwork⟩ := Query.calculate_network hrecord hrestates
  rw [complete_of_calculate hrecord hhostname, complete_of_calculate hnetwork hhostname,
    resultText_about (decide_eq_false hinfo) hfields]
  rfl

end Request

/-! ## Runs -/

/-- A text that is read is an operand, whatever stands behind it. -/
theorem isOperand_of_parse? (hread : Address.parse? text f = some x) :
    IsOperand (text ++ "/" ++ suffix).toList := by
  have hdash : '-' ∉ text.toList := Grammar.not_mem_of_parse? hread rfl (by decide) (by decide)
  exact isOperand_append_slash fun hhead => hdash (List.mem_of_mem_head? hhead)

/-- Behind switches, arguments without switches make the request. -/
theorem Composed.exists_made {r : Request} (hflags : Composed flags ss [])
    (hoperands : (scan operands).switches = [])
    (hpending : interpret (flags ++ operands) s = .pending r) :
    .version ∉ ss ∧ ∃ silent, Request.Made s silent ss (scan operands).operands r := by
  have hscan : scan (flags ++ operands) =
      ⟨ss, (scan operands).operands, (scan operands).unknown⟩ := by
    rw [hflags.scan_append]
    show (⟨ss ++ (scan operands).switches, _, _⟩ : Scan) = _
    rw [hoperands, List.append_nil]
    rfl
  obtain ⟨hformed, hrequest⟩ := interpret_eq_pending_iff.mp hpending
  rw [WellFormed, hscan] at hformed
  rw [requested, hscan, Request.ofOperands_eq_ok_iff] at hrequest
  exact ⟨hformed.1, _, hrequest⟩

/-- **FEEDBACK**: with switches that ask for fields, but neither for the hostname
    nor for the information block, and with no switch behind them, a run that
    shows a record comes to the same when the record's network and prefix length
    take the place of the other arguments, and so that run succeeds too. -/
theorem run_shown_network (hflags : Composed flags ss []) (hfields : Request.fieldsOf ss ≠ [])
    (hhostname : .hostname ∉ ss) (hinfo : .info ∉ ss) (hoperands : (scan operands).switches = [])
    (hanswered : Answered (flags ++ operands) s lookup record) :
    let shown := record.network ++ "/" ++ toString record.prefixLength
    (run (flags ++ [shown]) s lookup).code = 0 ∧
      run (flags ++ [shown]) s lookup = run (flags ++ operands) s lookup := by
  intro shown
  obtain ⟨r, hpending, hanswer⟩ := hanswered
  obtain ⟨hversion, silent, hmade⟩ := hflags.exists_made hoperands hpending
  have hunnamed : .hostname ∉ Request.fieldsOf ss :=
    mt Request.mem_fieldsOf_iff_switch.mp hhostname
  have hasked : .hostname ∉ r.query.fields := by
    rw [hmade.fields_eq]
    exact hunnamed
  have hrecord : r.query.calculate = .ok record := Query.calculate_of_answer hanswer hasked
  obtain ⟨x, hread⟩ := Query.parse_network hrecord
  have hcomposed : Composed (flags ++ [shown]) ss [shown] :=
    hflags.append_operands (List.forall_mem_singleton.mpr (isOperand_of_parse? hread))
  have hrun : run (flags ++ operands) s lookup = r.complete lookup := by
    rw [run, hpending]
  rw [hrun, hcomposed.run_of_made hversion (hmade.restated hrecord _),
    hmade.complete_ofNetwork hrecord hfields hunnamed hinfo]
  exact ⟨by rw [Request.complete_of_calculate hrecord hasked], rfl⟩

/-- The network of an IPv4-mapped address can be asked about again. -/
theorem run_shown_network_mapped :
    let flags := ["-nbp", "--maxaddr"]
    let ss : List Switch := [.network, .broadcast, .prefixLength, .maxaddr]
    let operands := ["--", "::FFFF:192.0.2.77/121"]
    let s : Settings := ⟨Config.defaults, false, "/cfg/config.json"⟩
    let lookup : Lookup := fun _ => ⟨none, [], []⟩
    ∃ record : Record, record.network = "::ffff:192.0.2.0" ∧ record.prefixLength = 121 ∧
      Composed flags ss [] ∧ Request.fieldsOf ss ≠ [] ∧ .hostname ∉ ss ∧ .info ∉ ss ∧
      (scan operands).switches = [] ∧ Answered (flags ++ operands) s lookup record ∧
      let shown := record.network ++ "/" ++ toString record.prefixLength
      (run (flags ++ [shown]) s lookup).code = 0 ∧
        run (flags ++ [shown]) s lookup = run (flags ++ operands) s lookup := by
  intro flags ss operands s lookup
  let parts : Cidr.Parts := ⟨"::FFFF:192.0.2.77", .length (.ofNat 121)⟩
  let r : Request := Request.ofParts s false ss .v6 parts none
  let a : Address := ⟨.v6, 0xffffc000024d, by decide⟩
  let record : Record := r.query.record a 121 (Network.containing a 121)
  have hcluster : Spells "-nbp".toList [.network, .broadcast, .prefixLength] :=
    Spells.letters rfl (.cons rfl (.cons rfl .nil))
  have hmaxaddr : Spells "--maxaddr".toList [.maxaddr] := Spells.long rfl
  have hflags : Composed flags ss [] := .switches hcluster (.switches hmaxaddr .nil)
  have hfields : Request.fieldsOf ss ≠ [] := by decide
  have hhostname : .hostname ∉ ss := by decide
  have hinfo : .info ∉ ss := by decide
  have hoperands : (scan operands).switches = [] := by decide +kernel
  have hanswered : Answered (flags ++ operands) s lookup record := ⟨r, rfl, by decide +kernel⟩
  exact ⟨record, by decide +kernel, rfl, hflags, hfields, hhostname, hinfo, hoperands, hanswered,
    run_shown_network hflags hfields hhostname hinfo hoperands hanswered⟩

end Cli

end Subnet
