import Subnet.Proofs.FieldEntries
import Subnet.Proofs.Quotations

/-!
# Colour — decoration and nothing else

    Colour is asked for by the settings, goes with the request, and is seen only
    where a label or an error is painted.  So a coloured run is the plain one with
    sequences added to its texts, whichever way the run ends (`Ends.coloured`), and
    deleting the sequences gives the plain texts back (`colour_is_decoration`).
-/

namespace Subnet

open Text (Decorates Inert LinesDecorate)

/-! ## Records -/

/-- The line of an inert value is inert. -/
theorem Field.inert_line {field : Field} {value : String} (h : Inert value) :
    Inert (field.line value) := by
  have hkey := Text.inert_of_isPrintable field.isPrintable_key
  have hwritten : Inert (field.written value) := by
    unfold written
    split
    · exact ((by decide : Inert "\"").append h).append (by decide)
    · exact h
  exact (hkey.append (by decide)).append hwritten

/-- The texts of a record are inert, the hostname included. -/
structure Record.Inert (r : Record) : Prop where
  printable : r.Printable
  hostname : ∀ name, r.hostname = some name → Text.Inert name

namespace Record

variable {r : Record}

/-- A text that is present is the one that there is. -/
theorem eq_some_of_present? {text : Option String} {shown : String}
    (h : present? text = some shown) : text = some shown := by
  unfold present? at h
  split at h
  · split_ifs at h
    exact h
  · exact nomatch h

/-- A coloured line of the information block decorates the plain one. -/
theorem decorates_infoLine {label value : String} (hlabel : Text.Inert label)
    (hvalue : Text.Inert value) :
    Decorates (infoLine true label value).toList (infoLine false label value).toList := by
  have hpaint := Text.Style.decorates_paint Text.Style.selects_bold
    (hlabel.append (by decide : Text.Inert ":"))
  exact Text.decorates_append (Text.decorates_append hpaint (.refl (by decide))) (.refl hvalue)

/-- So does the line alone as a list of lines. -/
theorem linesDecorate_infoLine {label value : String} (hlabel : Text.Inert label)
    (hvalue : Text.Inert value) :
    LinesDecorate [infoLine true label value] [infoLine false label value] :=
  .cons (decorates_infoLine hlabel hvalue) .nil

/-- A line that may be missing is missing in both. -/
theorem linesDecorate_infoLine? {label : String} {value : Option String}
    (hlabel : Text.Inert label) (hvalue : ∀ text, value = some text → Text.Inert text) :
    LinesDecorate (infoLine? true label value) (infoLine? false label value) := by
  unfold infoLine?
  cases hshown : present? value with
  | none => exact .nil
  | some text => exact linesDecorate_infoLine hlabel (hvalue text (eq_some_of_present? hshown))

/-- **THE INFORMATION BLOCK**: its coloured lines decorate its plain ones. -/
theorem Inert.infoLines (h : r.Inert) :
    LinesDecorate (r.infoLines true) (r.infoLines false) := by
  have hlength := Text.inert_of_isPrintable (Text.isPrintable_toString r.prefixLength)
  have haddress := Text.inert_of_isPrintable h.printable.address
  have hspace := Text.inert_of_isPrintable h.printable.addressSpace
  have hnetwork := Text.inert_of_isPrintable h.printable.network
  have hmask := Text.inert_of_isPrintable h.printable.netmask
  have hfull (text : String) (htext : r.expandedAddress = some text) :=
    Text.inert_of_isPrintable (h.printable.expandedAddress text htext)
  have hfullNetwork (text : String) (htext : r.expandedNetwork = some text) :=
    Text.inert_of_isPrintable (h.printable.expandedNetwork text htext)
  have hbroadcast (text : String) (htext : r.broadcast = some text) :=
    Text.inert_of_isPrintable (h.printable.broadcast text htext)
  unfold Record.infoLines
  refine (((linesDecorate_infoLine? (by decide) hfull).append
    (linesDecorate_infoLine (by decide) haddress)).append
    (linesDecorate_infoLine? (by decide) h.hostname)).append ?_
  split
  · exact linesDecorate_infoLine (by decide) hspace
  · have hmaskLength := (hmask.append (by decide : Text.Inert " = ")).append hlength
    have hnetworkLength := (hnetwork.append (by decide : Text.Inert "/")).append hlength
    refine ((((linesDecorate_infoLine (by decide) hmaskLength).append
      (linesDecorate_infoLine? (by decide) hfullNetwork)).append ?_).append
      (linesDecorate_infoLine? (by decide) hbroadcast)).append ?_
    · exact .cons (decorates_infoLine (by decide) hnetworkLength)
        (linesDecorate_infoLine (by decide) hspace)
    · -- a blank line stands before the hosts
      have hmin := Text.inert_of_isPrintable h.printable.hostMin
      have hmax := Text.inert_of_isPrintable h.printable.hostMax
      have hcount := Text.inert_of_isPrintable h.printable.hostCount
      exact .cons .nil (.cons (decorates_infoLine (by decide) hmin)
        (.cons (decorates_infoLine (by decide) hmax)
          (linesDecorate_infoLine (by decide) hcount)))

/-- A field line shows what the record says of the field. -/
theorem exists_value_of_fieldLine? {field : Field} {line : String}
    (h : r.fieldLine? field = some line) :
    ∃ value, r.value? field = some value ∧ line = field.line value := by
  cases field with
  | broadcast | hostname =>
      obtain ⟨value, hvalue, rfl⟩ := Option.map_eq_some_iff.mp h
      exact ⟨value, eq_some_of_present? hvalue, rfl⟩
  | _ =>
      obtain rfl := Option.some.inj h
      exact ⟨_, rfl, rfl⟩

/-- What an inert record says of a field is inert. -/
theorem Inert.value (h : r.Inert) {field : Field} {value : String}
    (hvalue : r.value? field = some value) : Text.Inert value := by
  by_cases hfield : field ∈ Field.calculated
  · exact Text.inert_of_isPrintable (h.printable.value hfield hvalue)
  · cases field with
    | hostname => exact h.hostname value hvalue
    | _ => exact absurd (by decide) hfield

/-- Field lines are not painted, and they are inert. -/
theorem Inert.fieldLines (h : r.Inert) (wanted : List Field) :
    ∀ line ∈ r.fieldLines wanted, Text.Inert line := by
  intro line hmem
  obtain ⟨field, -, hline⟩ := List.mem_filterMap.mp hmem
  obtain ⟨value, hvalue, rfl⟩ := exists_value_of_fieldLine? hline
  exact Field.inert_line (h.value hvalue)

end Record

/-! ## Answers -/

/-- A record that is answered is inert if the names that the lookup finds are. -/
theorem Query.inert_of_answer_ok {q : Query} {find : Lookup} {r : Record}
    (hfind : ∀ a name, (find a).name = some name → Text.Inert name)
    (h : (q.answer (some find)).result = .ok r) : r.Inert := by
  obtain ⟨answer, hresponds⟩ := exists_responds q (some find)
  rw [hresponds.answer_eq] at h
  cases hresponds with
  | refused _ | unaided _ _ _ | missing _ _ _ _ => exact nomatch h
  | unasked hassemble _ =>
      obtain rfl := Except.ok.inj h
      have hprintable := printable_of_calculate (calculate_eq_ok_iff.mpr ⟨_, hassemble⟩)
      obtain ⟨-, n, block, rfl⟩ := reads_of_assemble hassemble
      exact ⟨hprintable, nofun⟩
  | found hassemble _ hlookup hname _ =>
      obtain rfl := Except.ok.inj h
      obtain rfl := Option.some.inj hlookup
      have hprintable := printable_of_calculate (calculate_eq_ok_iff.mpr ⟨_, hassemble⟩)
      refine ⟨{ hprintable with }, ?_⟩
      rintro _ ⟨⟩
      exact hfind _ _ hname

namespace Cli

variable {args : List String} {s : Settings} {lookup : Lookup}

/-! ## Errors -/

/-- A coloured error decorates the plain one. -/
theorem decorates_errorText (silent showsHelp : Bool) {message : String}
    (hmessage : Inert message) :
    Decorates (errorText silent true message showsHelp).toList
      (errorText silent false message showsHelp).toList := by
  cases silent with
  | true => exact .nil
  | false =>
      have hlabel := Text.Style.decorates_paint Text.Style.selects_red
        (by decide : Inert (programName ++ ":"))
      have hhelp : Inert (if showsHelp then helpText else "") := by
        cases showsHelp with
        | true => exact inert_helpText
        | false => exact List.not_mem_nil
      have hrest : Inert (" " ++ message ++ "\n" ++ if showsHelp then helpText else "") :=
        (((by decide : Inert " ").append hmessage).append (by decide)).append hhelp
      have htext (colour : Bool) : errorText false colour message showsHelp =
          Text.Style.red.paint colour (programName ++ ":") ++
            (" " ++ message ++ "\n" ++ if showsHelp then helpText else "") := by
        simp only [errorText, String.append_assoc]
        rfl
      rw [htext, htext]
      exact Text.decorates_append hlabel (.refl hrest)

/-- A coloured error about an option decorates the plain one. -/
theorem decorates_unknownOptionText (silent : Bool) {arg : String} (harg : Inert arg) :
    Decorates (unknownOptionText silent true arg).toList
      (unknownOptionText silent false arg).toList := by
  cases silent with
  | true => exact .nil
  | false =>
      refine Text.Style.decorates_paint Text.Style.selects_red ?_
      exact ((((by decide : Inert "error: unknown option '").append harg).append
        (by decide)).append (inert_suggestion arg)).append (by decide)

/-! ## Requests -/

/-- The settings with a colour mode of their own. -/
def Settings.withColor (s : Settings) (mode : ColorMode) : Settings :=
  { s with config := { s.config with color := mode } }

/-- The request with a colour of its own. -/
def Request.withColour (r : Request) (colour : Bool) : Request :=
  { r with colour := colour }

/-- The colour mode of the settings decides only the colour of the request. -/
theorem requested_withColor (args : List String) (s : Settings) (mode : ColorMode) :
    requested args (s.withColor mode) =
      (requested args s).map (·.withColour (s.withColor mode).colour) :=
  Request.ofOperands_eq_map _ (fun _ _ _ => rfl) _

/-- A request is coloured as the settings say. -/
theorem Request.Made.colour_eq {silent : Bool} {ss : List Switch} {operands : List String}
    {r : Request} (h : Made s silent ss operands r) : r.colour = s.colour := by
  obtain ⟨f, parts, netmask, rfl⟩ := h.exists_ofParts
  rfl

/-- The coloured text of an inert record decorates the plain one. -/
theorem Request.decorates_resultText {r : Request} {record : Record} (h : record.Inert)
    (hplain : r.colour = false) :
    Decorates ((r.withColour true).resultText record).toList (r.resultText record).toList := by
  have hlines : LinesDecorate ((r.withColour true).lines record) (r.lines record) := by
    unfold Request.lines
    rw [hplain]
    show LinesDecorate (if r.wantsInfo = true ∨ r.query.fields = [] then record.infoLines true
      else record.fieldLines r.query.fields) _
    split
    · exact h.infoLines
    · exact .refl (h.fieldLines _)
  rw [toList_resultText, toList_resultText]
  exact hlines.decorates

/-! ## Runs -/

/-- The coloured outcome is the plain one with sequences added to its texts. -/
structure Outcome.Decorates (coloured plain : Outcome) : Prop where
  code : coloured.code = plain.code
  calls : coloured.calls = plain.calls
  out : Text.Decorates coloured.out.toList plain.out.toList
  err : Text.Decorates coloured.err.toList plain.err.toList

/-- An inert text is printed alike in both. -/
theorem Outcome.decorates_success {text : String} (h : Inert text) :
    (success text).Decorates (success text) :=
  ⟨rfl, rfl, .refl h, .nil⟩

/-- A failure with a decorated text decorates the plain failure. -/
theorem Outcome.decorates_failure {coloured plain : String}
    (h : Text.Decorates coloured.toList plain.toList) :
    (failure coloured).Decorates (failure plain) :=
  ⟨rfl, rfl, .nil, h⟩

/-- **EVERY ENDING**: with colour a run ends as it does without, and its texts are
    those with sequences added. -/
theorem Ends.coloured {plain : Outcome} (h : Ends args s lookup plain) (hplain : s.colour = false)
    (hargs : ∀ arg ∈ args, Inert arg)
    (hlookup : ∀ a name, (lookup a).name = some name → Inert name) (hfile : Inert s.configFile) :
    ∃ coloured, Ends args (s.withColor .always) lookup coloured ∧ coloured.Decorates plain := by
  have hscan : (scan args).Inert := inert_scanFrom hargs false
  have hrequested := requested_withColor args s .always
  -- silence does not depend on colour, so the two runs hide the same errors
  cases h with
  | version hversion => exact ⟨_, Ends.version hversion, Outcome.decorates_success (by decide)⟩
  | help hversion hhelp =>
      exact ⟨_, Ends.help hversion hhelp,
        Outcome.decorates_success (inert_helpText.append (inert_helpRemark hfile))⟩
  | unknownOption hversion hhelp hunknown =>
      have harg := hscan.unknown _ (hunknown ▸ List.mem_cons_self)
      refine ⟨_, Ends.unknownOption hversion hhelp hunknown, Outcome.decorates_failure ?_⟩
      rw [hplain]
      exact decorates_unknownOptionText _ harg
  | misused hformed hrequest =>
      rw [hrequest] at hrequested
      have hmessage := UsageError.inert_of_ofOperands hrequest hscan.operands
      refine ⟨_, Ends.misused hformed hrequested, Outcome.decorates_failure ?_⟩
      rw [hplain]
      exact decorates_errorText _ _ hmessage
  | refused hformed hrequest hresult =>
      rw [hrequest] at hrequested
      have hmade := Request.ofOperands_eq_ok_iff.mp hrequest
      have hmessage := Query.inert_of_answer (hmade.inert hscan.operands) hresult
      refine ⟨_, Ends.refused hformed hrequested hresult, rfl, rfl, .nil, ?_⟩
      rw [hmade.colour_eq, hplain]
      exact decorates_errorText _ _ hmessage
  | @answered r record hformed hrequest hresult =>
      rw [hrequest] at hrequested
      have hmade := Request.ofOperands_eq_ok_iff.mp hrequest
      have hrecord := Query.inert_of_answer_ok hlookup hresult
      refine ⟨_, Ends.answered hformed hrequested hresult, rfl, rfl, ?_, .nil⟩
      show Text.Decorates (if r.checkOnly = true then "" else _).toList _
      split
      · exact .nil
      · exact Request.decorates_resultText hrecord (hmade.colour_eq.trans hplain)

/-- **COLOUR IS DECORATION**: where neither the arguments nor the names that the
    lookup finds nor the directory of the configuration file has an escape, a run
    with colour and the same run without have the same code and the same calls of
    the lookup, and the coloured texts are the plain ones once the sequences are
    deleted. -/
theorem colour_is_decoration (args : List String) (config : Config) (interactive : Bool)
    (directory : String) (lookup : Lookup) (hargs : ∀ arg ∈ args, Inert arg)
    (hlookup : ∀ a name, (lookup a).name = some name → Inert name)
    (hdirectory : Inert directory) :
    let s : Settings := ⟨config, interactive, Path.join directory "config.json"⟩
    let coloured := run args (s.withColor .always) lookup
    let plain := run args (s.withColor .never) lookup
    coloured.code = plain.code ∧ coloured.calls = plain.calls ∧
      Text.withoutSgr coloured.out = plain.out ∧ Text.withoutSgr coloured.err = plain.err := by
  intro s coloured plain
  have hfile : Inert s.configFile := Path.inert_join hdirectory (by decide)
  have hplain : Ends args (s.withColor .never) lookup plain := run_eq_iff.mp rfl
  obtain ⟨outcome, hends, hdecorates⟩ := hplain.coloured rfl hargs hlookup hfile
  have hcoloured : coloured = outcome := hends.run_eq
  rw [hcoloured]
  exact ⟨hdecorates.code, hdecorates.calls, Text.withoutSgr_of_decorates hdecorates.out,
    Text.withoutSgr_of_decorates hdecorates.err⟩

/-- An error of two lines is coloured line by line, and is the plain one underneath. -/
theorem colour_is_decoration_two_lines :
    let args := ["-n", "--net\nmask", "192.168.1.5/24"]
    let s : Settings := ⟨Config.defaults, true, Path.join "/etc/ipcalc" "config.json"⟩
    let lookup : Lookup := fun _ => ⟨some "host.example", [], []⟩
    let coloured := run args (s.withColor .always) lookup
    let plain := run args (s.withColor .never) lookup
    (∀ arg ∈ args, Inert arg) ∧ (∀ a name, (lookup a).name = some name → Inert name) ∧
      Inert "/etc/ipcalc" ∧ coloured.err ≠ plain.err ∧ coloured.code = plain.code ∧
      coloured.calls = plain.calls ∧ Text.withoutSgr coloured.out = plain.out ∧
      Text.withoutSgr coloured.err = plain.err := by
  intro args s lookup coloured plain
  have hargs : ∀ arg ∈ args, Inert arg := by decide
  have hlookup : ∀ a name, (lookup a).name = some name → Inert name := by
    rintro a _ ⟨⟩
    decide
  have hdirectory : Inert "/etc/ipcalc" := by decide
  have hdiffer : coloured.err ≠ plain.err := by decide +kernel
  exact ⟨hargs, hlookup, hdirectory, hdiffer,
    colour_is_decoration args Config.defaults true "/etc/ipcalc" lookup hargs hlookup hdirectory⟩

end Cli

end Subnet
