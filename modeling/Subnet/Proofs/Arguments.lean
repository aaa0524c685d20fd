import Mathlib.Data.List.Forall2
import Mathlib.Data.List.TakeWhile
import Subnet.Cli.Scan

/-!
# Arguments — what one argument adds to a scan

    An argument spells switches, is an operand, or is an unknown long option.
    For each kind there is a step lemma: what the scan of the arguments after it
    gains.  The look at the raw arguments that decides about silence before the
    scan agrees with the scan on these kinds (`asksForSilence_iff_of_plain`);
    what else may stand on a command line, such as `--` or a cluster with an
    unknown letter, can deceive it.
-/

namespace Subnet.Cli

variable {unknown : Bool} {arg : String} {rest : List String} {cs : List Char}
  {ss : List Switch}

/-! ## Names -/

/-- A dash is the letter of no switch. -/
theorem shortSwitch?_dash : shortSwitch? '-' = none := by decide

/-- The letter of silence is that of no other switch. -/
theorem switchSpecs_silent :
    ∀ spec ∈ switchSpecs, spec.switch = .silent ↔ spec.short = some 's' := by decide

/-- The name of silence is that of no other switch. -/
theorem switchSpecs_silent_long :
    ∀ spec ∈ switchSpecs, spec.switch = .silent ↔ spec.long = "silent" := by decide

/-- A letter asks for silence exactly if it is the letter of silence. -/
theorem shortSwitch?_eq_silent_iff {c : Char} {s : Switch} (h : shortSwitch? c = some s) :
    s = .silent ↔ c = 's' := by
  obtain ⟨spec, hfind, rfl⟩ := Option.map_eq_some_iff.mp h
  have hshort : spec.short = some c := by simpa using List.find?_some hfind
  rw [switchSpecs_silent spec (List.mem_of_find?_eq_some hfind), hshort, Option.some.injEq]

/-- A name asks for silence exactly if it is the name of silence. -/
theorem longSwitch?_eq_silent_iff {name : List Char} {s : Switch}
    (h : longSwitch? name = some s) : s = .silent ↔ name = "silent".toList := by
  obtain ⟨spec, hfind, rfl⟩ := Option.map_eq_some_iff.mp h
  have hlong : spec.long.toList = name := by simpa using List.find?_some hfind
  rw [switchSpecs_silent_long spec (List.mem_of_find?_eq_some hfind), ← hlong,
    String.toList_inj]

/-! ## Kinds of arguments -/

/-- An argument spells switches: one by its long name, or one after the other by
    their letters. -/
inductive Spells : List Char → List Switch → Prop where
  | long {name : List Char} {s : Switch} : longSwitch? name = some s →
      Spells ('-' :: '-' :: name) [s]
  | letters {c : Char} {s : Switch} {cs : List Char} {ss : List Switch} :
      shortSwitch? c = some s → List.Forall₂ (fun c s => shortSwitch? c = some s) cs ss →
      Spells ('-' :: c :: cs) (s :: ss)

/-- An argument is an operand at sight: it starts with no dash, or is one. -/
def IsOperand (cs : List Char) : Prop :=
  cs.head? ≠ some '-' ∨ cs = ['-']

/-- Arguments that are what they look like. -/
inductive Plain : List Char → Prop where
  | switches {cs : List Char} {ss : List Switch} : Spells cs ss → Plain cs
  | operand {cs : List Char} : IsOperand cs → Plain cs
  | unknown {name : List Char} : name ≠ [] → longSwitch? name = none →
      Plain ('-' :: '-' :: name)

/-! ## Peeling -/

/-- A cluster of letters is peeled down to its last letter, none of them lost. -/
theorem peelCluster_of_letters {c : Char} {s : Switch} (hc : shortSwitch? c = some s)
    (h : List.Forall₂ (fun c s => shortSwitch? c = some s) cs ss) :
    ∃ peeled last switch, peelCluster (c :: cs) = (peeled, ['-', last]) ∧
      shortSwitch? last = some switch ∧ peeled ++ [switch] = s :: ss := by
  induction h generalizing c s with
  | nil => exact ⟨[], c, s, rfl, hc, rfl⟩
  | cons hd _ ih =>
      obtain ⟨peeled, last, switch, hpeel, hlast, hspelled⟩ := ih hd
      have hdash : c ≠ '-' := by
        rintro rfl
        exact nomatch shortSwitch?_dash.symm.trans hc
      refine ⟨s :: peeled, last, switch, ?_, hlast, congrArg (s :: ·) hspelled⟩
      simp only [peelCluster, if_neg hdash, hc, hpeel]

/-- A long option is no cluster and is not peeled. -/
theorem peel_long (name : List Char) : peel ('-' :: '-' :: name) = ([], '-' :: '-' :: name) := by
  cases name with
  | nil => rfl
  | cons c rest => rfl

/-- An operand is read as it stands: nothing is peeled off, it is no switch and
    no option. -/
theorem read_of_operand (h : IsOperand cs) :
    peel cs = ([], cs) ∧ exactSwitch? cs = none ∧ looksLikeOption cs = false ∧
      cs ≠ ['-', '-'] := by
  rcases h with hhead | rfl
  · cases cs with
    | nil => exact ⟨rfl, rfl, rfl, nofun⟩
    | cons c rest =>
        have hdash : c ≠ '-' := fun hc => hhead (congrArg some hc)
        refine ⟨?_, ?_, ?_, fun h => hdash (List.cons.inj h).1⟩
        · simp [peel, hdash]
        · simp [exactSwitch?, hdash]
        · simp [looksLikeOption, hdash]
  · exact ⟨rfl, rfl, rfl, nofun⟩

/-! ## Steps of the scan -/

/-- An argument of switches adds them and leaves the scan as it was. -/
theorem scanFrom_of_switch {peeled : List Switch} {s : Switch}
    (hpeel : peel arg.toList = (peeled, cs)) (hexact : exactSwitch? cs = some s) :
    scanFrom unknown (arg :: rest) = (scanFrom unknown rest).addSwitches (peeled ++ [s]) := by
  have hdashes : cs ≠ ['-', '-'] := by
    rintro rfl
    exact nomatch hexact
  rw [scanFrom, hpeel]
  simp only [if_neg hdashes, hexact]

/-- An argument that is no switch is kept as it stands. -/
theorem scanFrom_of_plain (hpeel : peel arg.toList = ([], arg.toList))
    (hdashes : arg.toList ≠ ['-', '-']) (hexact : exactSwitch? arg.toList = none) :
    scanFrom unknown (arg :: rest) =
      (scanFrom (unknown || looksLikeOption arg.toList) rest).addPlain
        (unknown || looksLikeOption arg.toList) [arg] := by
  rw [scanFrom, hpeel]
  simp only [if_neg hdashes, hexact, String.ofList_toList]
  rfl

/-- **SWITCHES** go to the switches. -/
theorem scanFrom_of_spells (h : Spells arg.toList ss) :
    scanFrom unknown (arg :: rest) = (scanFrom unknown rest).addSwitches ss := by
  generalize harg : arg.toList = cs at h
  cases h with
  | @long name s hlong =>
      have hexact : exactSwitch? ('-' :: '-' :: name) = some s := by
        cases name with
        | nil => exact nomatch hlong
        | cons c rest => exact hlong
      have hpeel : peel arg.toList = ([], '-' :: '-' :: name) := by
        rw [harg]
        exact peel_long name
      exact scanFrom_of_switch hpeel hexact
  | letters hc hcs =>
      obtain ⟨peeled, last, switch, hcluster, hlast, hspelled⟩ := peelCluster_of_letters hc hcs
      have hpeel : peel arg.toList = (peeled, ['-', last]) := by
        rw [harg]
        exact hcluster
      rw [← hspelled]
      exact scanFrom_of_switch hpeel hlast

/-- **OPERANDS** stay operands until an unknown option comes before them. -/
theorem scanFrom_of_operand (h : IsOperand arg.toList) :
    scanFrom unknown (arg :: rest) = (scanFrom unknown rest).addPlain unknown [arg] := by
  obtain ⟨hpeel, hexact, hoption, hdashes⟩ := read_of_operand h
  rw [scanFrom_of_plain hpeel hdashes hexact, hoption, Bool.or_false]

/-- **UNKNOWN OPTIONS** make all operands after them unknown. -/
theorem scanFrom_of_unknown {name : List Char} (harg : arg.toList = '-' :: '-' :: name)
    (hname : name ≠ []) (hlong : longSwitch? name = none) :
    scanFrom unknown (arg :: rest) = (scanFrom true rest).addPlain true [arg] := by
  obtain ⟨c, tail, rfl⟩ := List.exists_cons_of_ne_nil hname
  have hpeel : peel arg.toList = ([], arg.toList) := by
    rw [harg]
    exact peel_long (c :: tail)
  have hdashes : arg.toList ≠ ['-', '-'] := by
    rw [harg]
    exact nofun
  have hexact : exactSwitch? arg.toList = none := by
    rw [harg]
    exact hlong
  have hoption : looksLikeOption arg.toList = true := by
    rw [harg]
    rfl
  rw [scanFrom_of_plain hpeel hdashes hexact, hoption, Bool.or_true]

/-! ## Silence on sight -/

/-- Letters ask for silence exactly if the letter of silence is among them. -/
theorem mem_silent_iff_of_letters
    (h : List.Forall₂ (fun c s => shortSwitch? c = some s) cs ss) :
    .silent ∈ ss ↔ 's' ∈ cs := by
  induction h with
  | nil => exact iff_of_false List.not_mem_nil List.not_mem_nil
  | cons hc _ ih =>
      rw [List.mem_cons, List.mem_cons, ih, eq_comm, shortSwitch?_eq_silent_iff hc, eq_comm]

/-- The letters of switches have no dash among them. -/
theorem dash_not_mem_of_letters
    (h : List.Forall₂ (fun c s => shortSwitch? c = some s) cs ss) : '-' ∉ cs := by
  induction h with
  | nil => exact List.not_mem_nil
  | cons hc _ ih =>
      rw [List.mem_cons, not_or]
      refine ⟨?_, ih⟩
      rintro rfl
      exact nomatch shortSwitch?_dash.symm.trans hc

/-- After a dash, silence is asked for by the long name or by its letter before
    any further dash. -/
theorem asksForSilence_dash_iff (harg : arg.toList = '-' :: cs) :
    asksForSilence arg = true ↔ cs = "-silent".toList ∨ 's' ∈ cs.takeWhile (· ≠ '-') := by
  have hname : arg = "--silent" ↔ cs = "-silent".toList := by
    rw [← String.toList_inj, harg]
    exact ⟨fun h => (List.cons.inj h).2, fun h => congrArg ('-' :: ·) h⟩
  simp only [asksForSilence, harg, hname, Bool.or_eq_true, decide_eq_true_eq,
    List.contains_iff_mem]

/-- On sight a long option asks for silence exactly if it has that name. -/
theorem asksForSilence_long_iff {name : List Char} (harg : arg.toList = '-' :: '-' :: name) :
    asksForSilence arg = true ↔ name = "silent".toList := by
  rw [asksForSilence_dash_iff harg]
  constructor
  · rintro (h | h)
    · exact (List.cons.inj h).2
    · exact nomatch h
  · rintro rfl
    exact Or.inl rfl

/-- An argument that spells switches asks for silence on sight exactly if one of
    them does. -/
theorem asksForSilence_of_spells (h : Spells arg.toList ss) :
    asksForSilence arg = true ↔ .silent ∈ ss := by
  generalize harg : arg.toList = cs at h
  cases h with
  | long hlong =>
      rw [asksForSilence_long_iff harg, List.mem_singleton, eq_comm (a := Switch.silent),
        longSwitch?_eq_silent_iff hlong]
  | letters hc hcs =>
      have hletters : List.Forall₂ (fun c s => shortSwitch? c = some s) _ _ :=
        List.Forall₂.cons hc hcs
      have hdash := dash_not_mem_of_letters hletters
      rw [asksForSilence_dash_iff harg, mem_silent_iff_of_letters hletters,
        List.takeWhile_eq_self_iff.mpr fun c hmem => by simpa using ne_of_mem_of_not_mem hmem hdash]
      refine or_iff_right ?_
      intro hlong
      exact hdash (hlong ▸ List.mem_cons_self)

/-- An operand never asks for silence on sight. -/
theorem asksForSilence_of_operand (h : IsOperand arg.toList) : asksForSilence arg = false := by
  rcases h with hhead | hdash
  · have hlong : arg ≠ "--silent" := by
      rintro rfl
      exact hhead rfl
    rw [asksForSilence, decide_eq_false hlong, Bool.false_or]
    split
    · rename_i harg
      exact absurd (congrArg List.head? harg) hhead
    · rfl
  · rw [Bool.eq_false_iff, ne_eq, asksForSilence_dash_iff hdash]
    exact not_or.mpr ⟨nofun, nofun⟩

/-- A plain argument asks for silence on sight exactly when the scan finds the
    switch in it. -/
theorem Plain.step (unknown : Bool) (rest : List String) (h : Plain arg.toList) :
    ∃ ss later, (scanFrom unknown (arg :: rest)).switches = ss ++ (scanFrom later rest).switches ∧
      (asksForSilence arg = true ↔ .silent ∈ ss) := by
  generalize harg : arg.toList = cs at h
  cases h with
  | switches h =>
      obtain rfl := harg
      refine ⟨_, unknown, ?_, asksForSilence_of_spells h⟩
      rw [scanFrom_of_spells h]
      rfl
  | operand h =>
      obtain rfl := harg
      refine ⟨[], unknown, ?_, by simp [asksForSilence_of_operand h]⟩
      rw [scanFrom_of_operand h]
      cases unknown <;> rfl
  | unknown hname hlong =>
      have hsilent : ¬asksForSilence arg = true := by
        rw [asksForSilence_long_iff harg]
        rintro rfl
        exact nomatch hlong
      refine ⟨[], true, ?_, iff_of_false hsilent List.not_mem_nil⟩
      rw [scanFrom_of_unknown harg hname hlong]
      rfl

/-- **SIGHT AGREES WITH THE SCAN** on plain arguments. -/
theorem exists_asksForSilence_iff {args : List String} (h : ∀ arg ∈ args, Plain arg.toList) :
    (∃ arg ∈ args, asksForSilence arg = true) ↔ .silent ∈ (scanFrom unknown args).switches := by
  induction args generalizing unknown with
  | nil => exact iff_of_false (by simp) List.not_mem_nil
  | cons arg rest ih =>
      obtain ⟨hplain, hrest⟩ := List.forall_mem_cons.mp h
      obtain ⟨ss, later, hswitches, hsight⟩ := hplain.step unknown rest
      rw [List.exists_mem_cons_iff, hswitches, List.mem_append, hsight, ih hrest]

end Subnet.Cli
