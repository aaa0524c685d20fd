import Subnet.Proofs.Arguments
import Subnet.Proofs.Endings

/-!
# Leading switches — one more switch in front of a command line

    A switch in front is one more switch to the scan and nothing else, so unless
    it asks for the version or for silence a run differs from the run without it
    in its request only.  With `-c` the request is the same but for what is shown
    of its answer, so the run is the one without it, less that text
    (`run_check`).
-/

namespace Subnet.Cli

variable {args : List String} {flag : String} {t : Switch} {ss : List Switch} {s : Settings}
  {lookup : Lookup} {outcome : Outcome}

/-! ## The scan -/

section Leading

variable (hflag : Spells flag.toList [t])
include hflag

/-- A switch in front is scanned first and changes nothing behind it. -/
theorem scan_cons : scan (flag :: args) = (scan args).addSwitches [t] :=
  scanFrom_of_spells hflag

/-- A switch in front adds no unknown option. -/
theorem unknown_cons : (scan (flag :: args)).unknown = (scan args).unknown := by
  rw [scan_cons hflag]
  rfl

/-- A switch in front adds no switch but itself. -/
theorem mem_switches_cons {u : Switch} (hne : u ≠ t) :
    u ∈ (scan (flag :: args)).switches ↔ u ∈ (scan args).switches := by
  rw [scan_cons hflag]
  exact List.mem_cons.trans (or_iff_right hne)

/-- A switch other than that of silence hides nothing on sight. -/
theorem hiddenOnSight_cons (hsilent : .silent ≠ t) :
    hiddenOnSight (flag :: args) s = hiddenOnSight args s := by
  have hsight : asksForSilence flag = false := by
    rw [Bool.eq_false_iff, ne_eq, asksForSilence_of_spells hflag, List.mem_singleton]
    exact hsilent
  rw [hiddenOnSight, List.any_cons, hsight]
  rfl

/-- A switch other than that of silence hides nothing after the scan. -/
theorem hiddenAfterScan_cons (hsilent : .silent ≠ t) :
    hiddenAfterScan (flag :: args) s = hiddenAfterScan args s := by
  rw [hiddenAfterScan, hiddenOnSight_cons hflag hsilent,
    decide_eq_decide.mpr (mem_switches_cons hflag hsilent)]
  rfl

/-- A switch other than that of the version keeps arguments well formed. -/
theorem wellFormed_cons (hversion : .version ≠ t) :
    WellFormed (flag :: args) ↔ WellFormed args := by
  rw [WellFormed, mem_switches_cons hflag hversion, unknown_cons hflag]
  exact Iff.rfl

/-- The request is that of one more switch. -/
theorem requested_cons (hsilent : .silent ≠ t) :
    requested (flag :: args) s =
      Request.ofOperands s (hiddenAfterScan args s) (t :: (scan args).switches)
        (scan args).operands := by
  rw [requested, hiddenAfterScan_cons hflag hsilent, scan_cons hflag]
  rfl

end Leading

namespace Request

/-- A switch that asks for no field changes no fields. -/
theorem fieldsOf_cons (h : t ∉ fieldSwitches.map Prod.fst) : fieldsOf (t :: ss) = fieldsOf ss := by
  unfold fieldsOf
  congr 1
  refine List.filter_congr ?_
  intro entry hentry
  have hne : entry.1 ≠ t := ne_of_mem_of_not_mem (List.mem_map_of_mem hentry) h
  exact decide_eq_decide.mpr (List.mem_cons.trans (or_iff_right hne))

/-! ## Checking only -/

/-- The request of which only the exit code is wanted. -/
def checked (r : Request) : Request :=
  { r with checkOnly := true }

/-- The switch decides nothing but that. -/
theorem ofOperands_check (s : Settings) (silent : Bool) (ss : List Switch)
    (operands : List String) :
    ofOperands s silent (.check :: ss) operands = (ofOperands s silent ss operands).map checked := by
  have hfields : fieldsOf (.check :: ss) = fieldsOf ss := fieldsOf_cons (by decide)
  cases operands with
  | nil => rfl
  | cons address rest =>
      have hfamily : familyOf (.check :: ss) address = familyOf ss address := by
        simp [familyOf]
      have htakes (f : Family) : takesNetmask f (.check :: ss) = takesNetmask f ss := by
        simp [takesNetmask]
      simp only [ofOperands, List.mem_cons, reduceCtorEq, false_or]
      split_ifs
      · rfl
      · rfl
      · simp only [ofAddress, hfamily, htakes, hfields, List.mem_cons, reduceCtorEq, false_or]
        cases Cidr.split address (familyOf ss address) with
        | error e => rfl
        | ok parts =>
            dsimp only
            cases netmaskOf (takesNetmask _ ss) parts.suffix.netmask? rest with
            | error e => rfl
            | ok netmask => simp [Except.map, checked]

end Request

/-! ## Runs -/

/-- The letter of the check spells its switch. -/
theorem spells_check : Spells "-c".toList [.check] :=
  Spells.letters rfl .nil

/-- The arguments ask for the version or for help, whatever else they ask for. -/
def asksForText (args : List String) : Bool :=
  decide (.version ∈ (scan args).switches) || (scan args).unknown.any asksForHelp

/-- A text is asked for by the switch of the version or by an option for help. -/
theorem asksForText_eq_true_iff :
    asksForText args = true ↔
      .version ∈ (scan args).switches ∨ (scan args).unknown.any asksForHelp = true := by
  rw [asksForText, Bool.or_eq_true, decide_eq_true_eq]

/-- The outcome without its text, unless the arguments ask for that text. -/
def Outcome.checked (args : List String) (outcome : Outcome) : Outcome :=
  { outcome with out := if asksForText args then outcome.out else "" }

/-- A text that is asked for is printed even in a check. -/
theorem Outcome.checked_of_text
    (h : .version ∈ (scan args).switches ∨ (scan args).unknown.any asksForHelp = true) :
    outcome.checked args = outcome := by
  rw [checked, if_pos (asksForText_eq_true_iff.mpr h)]

/-- Where no text is asked for, a check prints nothing. -/
theorem Outcome.checked_of_no_text (hversion : .version ∉ (scan args).switches)
    (hhelp : (scan args).unknown.any asksForHelp = false) :
    outcome.checked args = { outcome with out := "" } := by
  have htext : ¬asksForText args = true := by
    rw [asksForText_eq_true_iff, hhelp]
    exact not_or.mpr ⟨hversion, nofun⟩
  rw [checked, if_neg htext]

/-- A check of well-formed arguments prints nothing. -/
theorem Outcome.checked_of_wellFormed (h : WellFormed args) :
    outcome.checked args = { outcome with out := "" } := by
  refine checked_of_no_text h.1 ?_
  rw [h.2]
  rfl

/-- A check makes the request that it would be otherwise, marked as a check. -/
theorem requested_check :
    requested ("-c" :: args) s = (requested args s).map Request.checked := by
  rw [requested_cons spells_check nofun, Request.ofOperands_check]
  rfl

/-- Each ending is kept, less the text of a record. -/
theorem Ends.check (h : Ends args s lookup outcome) :
    Ends ("-c" :: args) s lookup (outcome.checked args) := by
  have hversion_iff : .version ∈ (scan ("-c" :: args)).switches ↔ .version ∈ (scan args).switches :=
    mem_switches_cons spells_check nofun
  have hunknown_eq : (scan ("-c" :: args)).unknown = (scan args).unknown :=
    unknown_cons spells_check
  have hformed_iff : WellFormed ("-c" :: args) ↔ WellFormed args :=
    wellFormed_cons spells_check nofun
  have hsight : hiddenOnSight ("-c" :: args) s = hiddenOnSight args s :=
    hiddenOnSight_cons spells_check nofun
  have hhidden : hiddenAfterScan ("-c" :: args) s = hiddenAfterScan args s :=
    hiddenAfterScan_cons spells_check nofun
  have hsame : requested ("-c" :: args) s = (requested args s).map Request.checked :=
    requested_check
  cases h with
  | version hversion =>
      rw [Outcome.checked_of_text (Or.inl hversion)]
      exact Ends.version (hversion_iff.mpr hversion)
  | help hversion hhelp =>
      rw [Outcome.checked_of_text (Or.inr hhelp)]
      rw [← hunknown_eq] at hhelp
      exact Ends.help (mt hversion_iff.mp hversion) hhelp
  | unknownOption hversion hhelp hunknown =>
      rw [Outcome.checked_of_no_text hversion hhelp, ← hsight]
      rw [← hunknown_eq] at hhelp hunknown
      exact Ends.unknownOption (mt hversion_iff.mp hversion) hhelp hunknown
  | misused hformed hrequest =>
      rw [Outcome.checked_of_wellFormed hformed, ← hhidden]
      rw [hrequest] at hsame
      exact Ends.misused (hformed_iff.mpr hformed) hsame
  | @refused r e hformed hrequest hresult =>
      rw [Outcome.checked_of_wellFormed hformed]
      rw [hrequest] at hsame
      exact Ends.refused (r := r.checked) (hformed_iff.mpr hformed) hsame hresult
  | @answered r record hformed hrequest hresult =>
      rw [Outcome.checked_of_wellFormed hformed]
      rw [hrequest] at hsame
      exact Ends.answered (r := r.checked) (hformed_iff.mpr hformed) hsame hresult

/-- **CHECKING ONLY**: with `-c` in front a run has the same code, error text,
    calls and messages, and writes no result text; only a command line that asks
    for the version or for help ends with that text all the same. -/
theorem run_check (args : List String) (s : Settings) (lookup : Lookup) :
    run ("-c" :: args) s lookup =
      { run args s lookup with out := if asksForText args then (run args s lookup).out else "" } ∧
    (asksForText args = true → (run args s lookup).code = 0 ∧
      ((run args s lookup).out = programVersion ++ "\n" ∨
        (run args s lookup).out = helpText ++ helpRemark s.configFile)) := by
  obtain ⟨outcome, h⟩ := exists_ends args s lookup
  refine ⟨?_, ?_⟩
  · rw [h.run_eq]
    exact h.check.run_eq
  · intro htext
    rcases asksForText_eq_true_iff.mp htext with hversion | hhelp
    · rw [(Ends.version hversion).run_eq]
      exact ⟨rfl, Or.inl rfl⟩
    · by_cases hversion : .version ∈ (scan args).switches
      · rw [(Ends.version hversion).run_eq]
        exact ⟨rfl, Or.inl rfl⟩
      · rw [(Ends.help hversion hhelp).run_eq]
        exact ⟨rfl, Or.inr rfl⟩

end Subnet.Cli
