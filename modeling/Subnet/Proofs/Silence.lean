import Subnet.Proofs.Answers
import Subnet.Proofs.Arguments
import Subnet.Proofs.Endings
import Subnet.Proofs.Requests

/-!
# Silence — what it hides and what it leaves alone

    Silence empties the error text and touches nothing else: a run whose
    settings are silent is alike, but for its diagnostics, to the same run with
    settings that are not (`silent_settings_alike`).  Silence can also be asked
    for on the command line.  That is decided once by a look at the raw
    arguments and once by the scan, and what is hidden is what both of them say
    (`hidden_iff`); they agree on plain arguments, and a dash and an `s` behind
    `--` deceives the first look (`operand_hides_error`).
-/

namespace Subnet

/-! ## Error texts -/

/-- A painted text is not empty, in colour or not. -/
theorem Text.Style.paint_ne_empty {style : Style} {colour : Bool} {text : String}
    (hstyle : style.opening ≠ []) (htext : text ≠ "") : style.paint colour text ≠ "" := by
  cases colour with
  | false => exact htext
  | true =>
      intro h
      have happly : style.apply text.toList = [] := by
        rw [← String.toList_ofList (l := style.apply text.toList)]
        exact congrArg String.toList h
      have hcs : text.toList ≠ [] := mt String.toList_eq_nil_iff.mp htext
      rw [apply, if_neg hcs, List.append_eq_nil_iff, List.append_eq_nil_iff] at happly
      exact hstyle happly.1.1

/-! ## Queries -/

/-- The query with a silence of its own. -/
def Query.withSilent (q : Query) (silent : Bool) : Query :=
  { q with silent := silent }

/-- Silence changes neither the result of an answer nor its calls. -/
theorem Query.Responds.withSilent {q : Query} {lookup : Option Lookup} {answer : Answer}
    (h : q.Responds lookup answer) (silent : Bool) :
    ∃ answer', (q.withSilent silent).Responds lookup answer' ∧
      answer'.result = answer.result ∧ answer'.calls = answer.calls := by
  cases h with
  | refused hassemble => exact ⟨_, Responds.refused hassemble, rfl, rfl⟩
  | unasked hassemble hfield => exact ⟨_, Responds.unasked hassemble hfield, rfl, rfl⟩
  | unaided hassemble hfield hlookup =>
      exact ⟨_, Responds.unaided hassemble hfield hlookup, rfl, rfl⟩
  | found hassemble hfield hlookup hname hempty =>
      exact ⟨_, Responds.found hassemble hfield hlookup hname hempty, rfl, rfl⟩
  | missing hassemble hfield hlookup hname =>
      exact ⟨_, Responds.missing hassemble hfield hlookup hname, rfl, rfl⟩

/-- Silence changes neither the result of a query nor the calls of the lookup. -/
theorem Query.answer_withSilent (q : Query) (silent : Bool) (lookup : Option Lookup) :
    ((q.withSilent silent).answer lookup).result = (q.answer lookup).result ∧
      ((q.withSilent silent).answer lookup).calls = (q.answer lookup).calls := by
  obtain ⟨answer, h⟩ := exists_responds q lookup
  obtain ⟨answer', h', halike⟩ := h.withSilent silent
  rw [h.answer_eq, h'.answer_eq]
  exact halike

namespace Cli

variable {args : List String} {s : Settings} {lookup : Lookup}

/-- The text of an error is empty exactly if errors are hidden. -/
theorem errorText_eq_empty_iff {silent colour showsHelp : Bool} {message : String} :
    errorText silent colour message showsHelp = "" ↔ silent = true := by
  cases silent with
  | true => exact iff_of_true rfl rfl
  | false =>
      refine iff_of_false ?_ nofun
      simp [errorText, String.append_eq_empty_iff]

/-- The text about an unknown option is empty exactly if errors are hidden. -/
theorem unknownOptionText_eq_empty_iff {silent colour : Bool} {arg : String} :
    unknownOptionText silent colour arg = "" ↔ silent = true := by
  cases silent with
  | true => exact iff_of_true rfl rfl
  | false =>
      refine iff_of_false (Text.Style.paint_ne_empty nofun ?_) nofun
      simp

/-- The settings with a silence of their own. -/
def Settings.withSilent (s : Settings) (silent : Bool) : Settings :=
  { s with config := { s.config with silent := silent } }

/-- The request with a silence of its own. -/
def Request.withSilent (r : Request) (silent : Bool) : Request :=
  { r with query := r.query.withSilent silent }

/-- Two outcomes are alike but for their diagnostics. -/
def Outcome.Alike (a b : Outcome) : Prop :=
  a.code = b.code ∧ a.out = b.out ∧ a.calls = b.calls

/-! ## Requests -/

/-- The silence of the settings and that of the run decide only the silence of
    the query. -/
theorem requested_withSilent (args : List String) (s : Settings) (silent : Bool) :
    requested args (s.withSilent silent) =
      (requested args s).map (·.withSilent (hiddenAfterScan args (s.withSilent silent))) :=
  Request.ofOperands_eq_map _ (fun _ _ _ => rfl) _

/-- The query of a request is silent if errors are hidden after the scan. -/
theorem silent_of_requested {r : Request} (h : requested args s = .ok r) :
    r.query.silent = hiddenAfterScan args s := by
  have hself : requested args s = (requested args s).map (·.withSilent (hiddenAfterScan args s)) :=
    requested_withSilent args s s.config.silent
  rw [h] at hself
  exact congrArg (fun r : Request => r.query.silent) (Except.ok.inj hself)

/-! ## What silence hides -/

/-- Errors are hidden on sight by the settings or by an argument that looks like
    the switch. -/
theorem hiddenOnSight_iff :
    hiddenOnSight args s = true ↔
      s.config.silent = true ∨ ∃ arg ∈ args, asksForSilence arg = true := by
  rw [hiddenOnSight, Bool.or_eq_true, List.any_eq_true]

/-- After the scan errors are also hidden by the switch itself. -/
theorem hiddenAfterScan_iff :
    hiddenAfterScan args s = true ↔
      hiddenOnSight args s = true ∨ .silent ∈ (scan args).switches := by
  rw [hiddenAfterScan, Bool.or_eq_true, decide_eq_true_eq]

/-- An ending writes no error if it is no failure, if errors are hidden on
    sight, or if they are hidden by the scan and no option is unknown. -/
theorem Ends.err_eq_empty_iff {outcome : Outcome} (h : Ends args s lookup outcome) :
    outcome.err = "" ↔ outcome.code = 0 ∨ hiddenOnSight args s = true ∨
      (.silent ∈ (scan args).switches ∧ (scan args).unknown = []) := by
  cases h with
  | version _ => exact iff_of_true rfl (Or.inl rfl)
  | help _ _ => exact iff_of_true rfl (Or.inl rfl)
  | answered _ _ _ => exact iff_of_true rfl (Or.inl rfl)
  | unknownOption _ _ hunknown =>
      show unknownOptionText _ _ _ = "" ↔ _
      rw [unknownOptionText_eq_empty_iff, hunknown]
      simp [Outcome.failure]
  | misused hformed _ =>
      show errorText _ _ _ _ = "" ↔ _
      rw [errorText_eq_empty_iff, hiddenAfterScan_iff]
      simp [Outcome.failure, hformed.2]
  | refused hformed hrequest _ =>
      show errorText _ _ _ _ = "" ↔ _
      rw [errorText_eq_empty_iff, silent_of_requested hrequest, hiddenAfterScan_iff]
      simp [hformed.2]

/-- **WHAT IS HIDDEN**: a failing run writes no error exactly when the settings
    are silent, an argument asks for silence on sight, or the scan finds the
    switch and no unknown option.  So the first look and the scan must agree for
    the switch alone to decide, and on plain arguments they do. -/
theorem hidden_iff (args : List String) (s : Settings) (lookup : Lookup)
    (h : (run args s lookup).code = 1) :
    ((run args s lookup).err = "" ↔
      s.config.silent = true ∨ (∃ arg ∈ args, asksForSilence arg = true) ∨
        (.silent ∈ (scan args).switches ∧ (scan args).unknown = [])) ∧
    (((run args s lookup).err = "" ↔
        s.config.silent = true ∨ .silent ∈ (scan args).switches) ↔
      s.config.silent = true ∨
        (((∃ arg ∈ args, asksForSilence arg = true) → .silent ∈ (scan args).switches) ∧
          (.silent ∈ (scan args).switches →
            (∃ arg ∈ args, asksForSilence arg = true) ∨ (scan args).unknown = []))) ∧
    ((∀ arg ∈ args, Plain arg.toList) →
      ((run args s lookup).err = "" ↔
        s.config.silent = true ∨ .silent ∈ (scan args).switches)) := by
  have hends := run_eq_iff.mp (rfl : run args s lookup = run args s lookup)
  have herr : (run args s lookup).err = "" ↔
      s.config.silent = true ∨ (∃ arg ∈ args, asksForSilence arg = true) ∨
        (.silent ∈ (scan args).switches ∧ (scan args).unknown = []) := by
    rw [hends.err_eq_empty_iff, h, hiddenOnSight_iff, or_assoc]
    exact or_iff_right nofun
  refine ⟨herr, ?_, ?_⟩
  · rw [herr]
    by_cases hconfigured : s.config.silent = true
    · exact iff_of_true (iff_of_true (Or.inl hconfigured) (Or.inl hconfigured)) (Or.inl hconfigured)
    · rw [or_iff_right hconfigured, or_iff_right hconfigured, or_iff_right hconfigured]
      constructor
      · intro hexact
        exact ⟨fun hsight => hexact.mp (Or.inl hsight),
          fun hswitch => (hexact.mpr hswitch).imp_right And.right⟩
      · rintro ⟨hsound, hcomplete⟩
        exact ⟨fun hhidden => hhidden.elim hsound And.left,
          fun hswitch => (hcomplete hswitch).imp_right (And.intro hswitch)⟩
  · intro hplain
    have hsight : (∃ arg ∈ args, asksForSilence arg = true) ↔ .silent ∈ (scan args).switches :=
      exists_asksForSilence_iff hplain
    rw [herr, hsight]
    exact or_congr_right (or_iff_left_of_imp And.left)

/-- In a cluster the switch hides the error though its letter is not alone. -/
theorem hidden_iff_cluster :
    let args := ["-sn", "192.168.1.5"]
    let s : Settings := ⟨Config.defaults, false, "/cfg/config.json"⟩
    let lookup : Lookup := fun _ => ⟨none, [], []⟩
    (run args s lookup).code = 1 ∧ (∀ arg ∈ args, Plain arg.toList) ∧
      ((run args s lookup).err = "" ↔
        s.config.silent = true ∨ .silent ∈ (scan args).switches) := by
  intro args s lookup
  have hcode : (run args s lookup).code = 1 := by decide +kernel
  have hcluster : Plain "-sn".toList := Plain.switches (Spells.letters rfl (.cons rfl .nil))
  have hoperand : Plain "192.168.1.5".toList := Plain.operand (Or.inl (by decide))
  have hplain : ∀ arg ∈ args, Plain arg.toList :=
    List.forall_mem_cons.mpr ⟨hcluster, List.forall_mem_singleton.mpr hoperand⟩
  exact ⟨hcode, hplain, (hidden_iff args s lookup hcode).2.2 hplain⟩

/-- The first look takes an operand for the switch.  It also overlooks a long
    name that follows a letter, and an unknown option is reported before the scan
    can make up for that. -/
theorem operand_hides_error :
    let s : Settings := ⟨Config.defaults, false, "/cfg/config.json"⟩
    let lookup : Lookup := fun _ => ⟨none, [], []⟩
    ((run ["--", "-s"] s lookup).code = 1 ∧
      ¬((run ["--", "-s"] s lookup).err = "" ↔
        s.config.silent = true ∨ .silent ∈ (scan ["--", "-s"]).switches)) ∧
    ((run ["-n-silent", "--bogus"] s lookup).code = 1 ∧
      ¬((run ["-n-silent", "--bogus"] s lookup).err = "" ↔
        s.config.silent = true ∨ .silent ∈ (scan ["-n-silent", "--bogus"]).switches)) := by
  decide +kernel

/-! ## What silence leaves alone -/

/-- A run ends alike with and without silence in the settings, but for its error
    text. -/
theorem Ends.withSilent {outcome : Outcome} (h : Ends args s lookup outcome) (silent : Bool) :
    ∃ outcome', Ends args (s.withSilent silent) lookup outcome' ∧ outcome'.Alike outcome := by
  cases h with
  | version hversion => exact ⟨_, Ends.version hversion, rfl, rfl, rfl⟩
  | help hversion hhelp => exact ⟨_, Ends.help hversion hhelp, rfl, rfl, rfl⟩
  | unknownOption hversion hhelp hunknown =>
      exact ⟨_, Ends.unknownOption hversion hhelp hunknown, rfl, rfl, rfl⟩
  | misused hformed hrequest =>
      have hsame := requested_withSilent args s silent
      rw [hrequest] at hsame
      exact ⟨_, Ends.misused hformed hsame, rfl, rfl, rfl⟩
  | @refused r e hformed hrequest hresult =>
      have hsame := requested_withSilent args s silent
      rw [hrequest] at hsame
      obtain ⟨hresult', hcalls⟩ := r.query.answer_withSilent
        (hiddenAfterScan args (s.withSilent silent)) (some lookup)
      exact ⟨_, Ends.refused hformed hsame (hresult'.trans hresult), rfl, rfl, hcalls⟩
  | @answered r record hformed hrequest hresult =>
      have hsame := requested_withSilent args s silent
      rw [hrequest] at hsame
      obtain ⟨hresult', hcalls⟩ := r.query.answer_withSilent
        (hiddenAfterScan args (s.withSilent silent)) (some lookup)
      exact ⟨_, Ends.answered hformed hsame (hresult'.trans hresult), rfl, rfl, hcalls⟩

/-- **SILENCE CHANGES ONLY DIAGNOSTICS**: a run with silent settings and the
    same run with settings that are not have the same code, the same result text
    and the same calls of the lookup, and the silent one writes no error. -/
theorem silent_settings_alike (args : List String) (s : Settings) (lookup : Lookup) :
    (run args (s.withSilent true) lookup).code = (run args (s.withSilent false) lookup).code ∧
    (run args (s.withSilent true) lookup).out = (run args (s.withSilent false) lookup).out ∧
    (run args (s.withSilent true) lookup).calls = (run args (s.withSilent false) lookup).calls ∧
    (run args (s.withSilent true) lookup).err = "" := by
  obtain ⟨loud, hloud⟩ := exists_ends args (s.withSilent false) lookup
  obtain ⟨quiet, hquiet, hcode, hout, hcalls⟩ := hloud.withSilent true
  have hrun : run args (s.withSilent true) lookup = quiet := hquiet.run_eq
  rw [hloud.run_eq, hrun]
  exact ⟨hcode, hout, hcalls, hquiet.err_eq_empty_iff.mpr (Or.inr (Or.inl rfl))⟩

end Cli

end Subnet
