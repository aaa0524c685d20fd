import Subnet.Cli.Run
import Subnet.Proofs.Outcomes

/-!
# Endings — the six ways a run can end

    A run ends with the version, with help, with an error about an option, about
    the operands or about the query, or with an answer.  `Ends` lists these ways
    with what each comes to, and `run_eq_iff` inverts the run once for all; what
    holds of every ending is then a matter of looking at six.  The first such
    fact is that results and errors go to texts of their own
    (`run_channels`).
-/

namespace Subnet.Cli

variable {args : List String} {s : Settings} {lookup : Lookup} {outcome : Outcome}

/-- Errors are hidden before the arguments are scanned. -/
def hiddenOnSight (args : List String) (s : Settings) : Bool :=
  s.config.silent || args.any asksForSilence

/-- Errors are hidden once the arguments have been scanned. -/
def hiddenAfterScan (args : List String) (s : Settings) : Bool :=
  hiddenOnSight args s || decide (.silent ∈ (scan args).switches)

/-- The request that the operands make with the switches, if they make one. -/
def requested (args : List String) (s : Settings) : Except UsageError Request :=
  Request.ofOperands s (hiddenAfterScan args s) (scan args).switches (scan args).operands

/-- The arguments are options that exist and operands, and ask neither for the
    version nor for help. -/
def WellFormed (args : List String) : Prop :=
  .version ∉ (scan args).switches ∧ (scan args).unknown = []

/-- The arguments make a request, and its answer is the record. -/
def Answered (args : List String) (s : Settings) (lookup : Lookup) (record : Record) : Prop :=
  ∃ r, interpret args s = .pending r ∧ (r.query.answer (some lookup)).result = .ok record

/-- The ways a run can end, with what each comes to. -/
inductive Ends (args : List String) (s : Settings) (lookup : Lookup) : Outcome → Prop where
  | version : .version ∈ (scan args).switches →
      Ends args s lookup (.success (programVersion ++ "\n"))
  | help : .version ∉ (scan args).switches → (scan args).unknown.any asksForHelp = true →
      Ends args s lookup (.success (helpText ++ helpRemark s.configFile))
  | unknownOption {arg : String} {rest : List String} : .version ∉ (scan args).switches →
      (scan args).unknown.any asksForHelp = false → (scan args).unknown = arg :: rest →
      Ends args s lookup (.failure (unknownOptionText (hiddenOnSight args s) s.colour arg))
  | misused {e : UsageError} : WellFormed args → requested args s = .error e →
      Ends args s lookup
        (.failure (errorText (hiddenAfterScan args s) s.colour e.message e.showsHelp))
  | refused {r : Request} {e : QueryError} : WellFormed args → requested args s = .ok r →
      (r.query.answer (some lookup)).result = .error e →
      Ends args s lookup
        ⟨1, "", errorText r.query.silent r.colour e.message false,
          (r.query.answer (some lookup)).calls, (r.query.answer (some lookup)).logs⟩
  | answered {r : Request} {record : Record} : WellFormed args → requested args s = .ok r →
      (r.query.answer (some lookup)).result = .ok record →
      Ends args s lookup
        ⟨0, if r.checkOnly then "" else r.resultText record, "",
          (r.query.answer (some lookup)).calls, (r.query.answer (some lookup)).logs⟩

/-- Every run ends in one of the ways. -/
theorem exists_ends (args : List String) (s : Settings) (lookup : Lookup) :
    ∃ outcome, Ends args s lookup outcome := by
  by_cases hversion : .version ∈ (scan args).switches
  · exact ⟨_, Ends.version hversion⟩
  cases hhelp : (scan args).unknown.any asksForHelp with
  | true => exact ⟨_, Ends.help hversion hhelp⟩
  | false =>
      cases hunknown : (scan args).unknown with
      | cons arg rest => exact ⟨_, Ends.unknownOption hversion hhelp hunknown⟩
      | nil =>
          cases hrequest : requested args s with
          | error e => exact ⟨_, Ends.misused ⟨hversion, hunknown⟩ hrequest⟩
          | ok r =>
              cases hresult : (r.query.answer (some lookup)).result with
              | error e => exact ⟨_, Ends.refused ⟨hversion, hunknown⟩ hrequest hresult⟩
              | ok record => exact ⟨_, Ends.answered ⟨hversion, hunknown⟩ hrequest hresult⟩

/-- Arguments that are well formed are interpreted by the request that they make. -/
theorem interpret_of_wellFormed (h : WellFormed args) :
    interpret args s = match requested args s with
      | .error e =>
          .finished (.failure (errorText (hiddenAfterScan args s) s.colour e.message e.showsHelp))
      | .ok r => .pending r := by
  obtain ⟨hversion, hunknown⟩ := h
  simp only [interpret, if_neg hversion, hunknown]
  rfl

/-- A request is pending exactly if well formed arguments make it. -/
theorem interpret_eq_pending_iff {r : Request} :
    interpret args s = .pending r ↔ WellFormed args ∧ requested args s = .ok r := by
  constructor
  · intro h
    by_cases hversion : .version ∈ (scan args).switches
    · simp only [interpret, if_pos hversion] at h
      exact nomatch h
    cases hhelp : (scan args).unknown.any asksForHelp with
    | true =>
        simp only [interpret, if_neg hversion, if_pos hhelp] at h
        exact nomatch h
    | false =>
        cases hunknown : (scan args).unknown with
        | cons arg rest =>
            rw [hunknown] at hhelp
            simp only [interpret, if_neg hversion, hunknown, hhelp] at h
            exact nomatch h
        | nil =>
            have hformed : WellFormed args := ⟨hversion, hunknown⟩
            rw [interpret_of_wellFormed hformed] at h
            cases hrequest : requested args s with
            | error e =>
                rw [hrequest] at h
                exact nomatch h
            | ok r' =>
                rw [hrequest] at h
                obtain rfl := Interpretation.pending.inj h
                exact ⟨hformed, rfl⟩
  · rintro ⟨hformed, hrequest⟩
    rw [interpret_of_wellFormed hformed, hrequest]

/-- A run comes to what the way says in which it ends. -/
theorem Ends.run_eq (h : Ends args s lookup outcome) : run args s lookup = outcome := by
  cases h with
  | version hversion =>
      simp only [run, interpret, if_pos hversion]
  | help hversion hhelp =>
      simp only [run, interpret, if_neg hversion, if_pos hhelp]
  | unknownOption hversion hhelp hunknown =>
      rw [hunknown] at hhelp
      simp only [run, interpret, if_neg hversion, hunknown, hhelp]
      rfl
  | misused hformed hrequest =>
      rw [run, interpret_of_wellFormed hformed, hrequest]
  | refused hformed hrequest hresult =>
      rw [run, interpret_of_wellFormed hformed, hrequest]
      simp only [Request.complete, hresult]
  | answered hformed hrequest hresult =>
      rw [run, interpret_of_wellFormed hformed, hrequest]
      simp only [Request.complete, hresult]

/-- **INVERSION**: what a run comes to is what one of the ways says. -/
theorem run_eq_iff : run args s lookup = outcome ↔ Ends args s lookup outcome := by
  constructor
  · rintro rfl
    obtain ⟨outcome, h⟩ := exists_ends args s lookup
    rw [h.run_eq]
    exact h
  · exact Ends.run_eq

/-- A request that is pending never asks for a number of hosts that does not
    exist: whatever length its query resolves is in range. -/
theorem hostCount_of_resolved {q : Query} {a : Address} {n : Nat}
    (h : q.resolveLength a = .ok n) :
    Network.hostCountTextOfNumber a.family (.ofNat n) =
      .ok (Network.hostCountText a.family n) := by
  have hrange := Query.resolveLength_admits h
  rw [ofNat_of_admits hrange]
  exact Network.hostCountTextOfNumber_finite hrange

/-- **CHANNELS**: every run ends with the code 0 and no error text or with the
    code 1 and no result text, and on the way the one count that could fail, the
    number of hosts, exists. -/
theorem run_channels (args : List String) (s : Settings) (lookup : Lookup) :
    (((run args s lookup).code = 0 ∧ (run args s lookup).err = "") ∨
      ((run args s lookup).code = 1 ∧ (run args s lookup).out = "")) ∧
    ∀ r, interpret args s = .pending r → ∀ a n, r.query.resolveLength a = .ok n →
      ∃ text, Network.hostCountTextOfNumber a.family (.ofNat n) = .ok text := by
  refine ⟨?_, fun r _ a n hn => ⟨_, hostCount_of_resolved hn⟩⟩
  obtain ⟨outcome, h⟩ := exists_ends args s lookup
  rw [h.run_eq]
  cases h with
  | version _ => exact Or.inl ⟨rfl, rfl⟩
  | help _ _ => exact Or.inl ⟨rfl, rfl⟩
  | unknownOption _ _ _ => exact Or.inr ⟨rfl, rfl⟩
  | misused _ _ => exact Or.inr ⟨rfl, rfl⟩
  | refused _ _ _ => exact Or.inr ⟨rfl, rfl⟩
  | answered _ _ _ => exact Or.inl ⟨rfl, rfl⟩

end Subnet.Cli
