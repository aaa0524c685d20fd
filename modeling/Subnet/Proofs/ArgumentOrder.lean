import Subnet.Proofs.Arguments
import Subnet.Proofs.Endings

/-!
# The order of arguments — what a run reads off its command line

    A command line of switches and operands comes down to the set of its
    switches and the sequence of its operands.  The look at the raw arguments,
    the scan and every reader of the switches ask only which switches are there,
    so two command lines with the same switches and the same operands run alike,
    however the switches are spelled, grouped, repeated and placed
    (`run_congr`).
-/

namespace Subnet.Cli

variable {args args' : List String} {ss ss' : List Switch} {operands operands' : List String}
  {s : Settings} {lookup : Lookup}

/-! ## Composed command lines -/

/-- A command line of arguments that spell switches and of operands, with the
    switches and the operands as they come. -/
inductive Composed : List String → List Switch → List String → Prop where
  | nil : Composed [] [] []
  | switches {arg : String} {args : List String} {ss more : List Switch}
      {operands : List String} : Spells arg.toList ss → Composed args more operands →
      Composed (arg :: args) (ss ++ more) operands
  | operand {arg : String} {args : List String} {ss : List Switch} {operands : List String} :
      IsOperand arg.toList → Composed args ss operands →
      Composed (arg :: args) ss (arg :: operands)

namespace Composed

/-- Operands alone compose a command line without switches. -/
theorem of_operands (h : ∀ arg ∈ operands, IsOperand arg.toList) :
    Composed operands [] operands := by
  induction operands with
  | nil => exact Composed.nil
  | cons arg rest ih =>
      obtain ⟨harg, hrest⟩ := List.forall_mem_cons.mp h
      exact Composed.operand harg (ih hrest)

/-- Command lines are composed one after the other. -/
theorem append (h : Composed args ss operands) (h' : Composed args' ss' operands') :
    Composed (args ++ args') (ss ++ ss') (operands ++ operands') := by
  induction h with
  | nil => exact h'
  | switches hspells _ ih =>
      rw [List.append_assoc]
      exact Composed.switches hspells ih
  | operand hoperand _ ih => exact Composed.operand hoperand ih

/-- Operands may stand behind a command line of switches. -/
theorem append_operands (h : Composed args ss []) (hrest : ∀ arg ∈ operands, IsOperand arg.toList) :
    Composed (args ++ operands) ss operands := by
  have happend := h.append (of_operands hrest)
  rw [List.append_nil, List.nil_append] at happend
  exact happend

/-- What stands in front adds its switches and operands to the scan of the rest. -/
theorem scan_append (h : Composed args ss operands) (rest : List String) :
    scan (args ++ rest) = ((scan rest).addPlain false operands).addSwitches ss := by
  unfold scan
  induction h with
  | nil => rfl
  | switches hspells _ ih =>
      rw [List.cons_append, scanFrom_of_spells hspells, ih]
      simp only [Scan.addSwitches, List.append_assoc]
  | operand hoperand _ ih =>
      rw [List.cons_append, scanFrom_of_operand hoperand, ih]
      rfl

/-- The scan finds what the command line is composed of, and nothing unknown. -/
theorem scan_eq (h : Composed args ss operands) : scan args = ⟨ss, operands, []⟩ := by
  have hscan := h.scan_append []
  rw [List.append_nil] at hscan
  rw [hscan]
  show (⟨ss ++ [], operands ++ [], []⟩ : Scan) = ⟨ss, operands, []⟩
  rw [List.append_nil, List.append_nil]

/-- Every argument of a composed command line spells switches or is an operand. -/
theorem plain (h : Composed args ss operands) : ∀ arg ∈ args, Plain arg.toList := by
  induction h with
  | nil => exact nofun
  | switches hspells _ ih => exact List.forall_mem_cons.mpr ⟨Plain.switches hspells, ih⟩
  | operand hoperand _ ih => exact List.forall_mem_cons.mpr ⟨Plain.operand hoperand, ih⟩

/-- Silence is asked for on sight exactly if the switch is there. -/
theorem any_asksForSilence (h : Composed args ss operands) :
    args.any asksForSilence = decide (.silent ∈ ss) := by
  have hsight : (∃ arg ∈ args, asksForSilence arg = true) ↔ .silent ∈ (scan args).switches :=
    exists_asksForSilence_iff h.plain
  rw [h.scan_eq] at hsight
  rw [Bool.eq_iff_iff, List.any_eq_true, hsight, decide_eq_true_eq]

/-- Errors of a composed command line are hidden by the settings or by a switch. -/
theorem hiddenAfterScan_eq (h : Composed args ss operands) (s : Settings) :
    hiddenAfterScan args s = (s.config.silent || decide (.silent ∈ ss)) := by
  -- the look at the raw arguments has already found what the scan finds
  rw [hiddenAfterScan, hiddenOnSight, h.any_asksForSilence, h.scan_eq, Bool.or_assoc, Bool.or_self]

/-- The request is that of the switches and the operands. -/
theorem requested_eq (h : Composed args ss operands) (s : Settings) :
    requested args s =
      Request.ofOperands s (s.config.silent || decide (.silent ∈ ss)) ss operands := by
  rw [requested, h.hiddenAfterScan_eq, h.scan_eq]

/-- A composed command line is well formed unless it asks for the version. -/
theorem wellFormed_iff (h : Composed args ss operands) : WellFormed args ↔ .version ∉ ss := by
  rw [WellFormed, h.scan_eq]
  exact and_iff_left rfl

end Composed

/-! ## Readers of the switches -/

namespace Request

/-- The fields depend on the set of the switches only. -/
theorem fieldsOf_congr (h : ∀ t, t ∈ ss ↔ t ∈ ss') : fieldsOf ss = fieldsOf ss' := by
  simp only [fieldsOf, h]

/-- The family depends on the set of the switches only. -/
theorem familyOf_congr (h : ∀ t, t ∈ ss ↔ t ∈ ss') : familyOf ss = familyOf ss' := by
  funext address
  simp only [familyOf, h]

/-- Whether a netmask may follow depends on the set of the switches only. -/
theorem takesNetmask_congr (h : ∀ t, t ∈ ss ↔ t ∈ ss') (f : Family) :
    takesNetmask f ss = takesNetmask f ss' := by
  simp only [takesNetmask, h]

/-- The request asks of the switches only which of them are there. -/
theorem ofOperands_congr (h : ∀ t, t ∈ ss ↔ t ∈ ss') (silent : Bool) :
    ofOperands s silent ss operands = ofOperands s silent ss' operands := by
  cases operands with
  | nil => rfl
  | cons address rest =>
      have haddress : ofAddress s silent ss address rest = ofAddress s silent ss' address rest := by
        simp only [ofAddress, familyOf_congr h, takesNetmask_congr h, fieldsOf_congr h, h]
      simp only [ofOperands, haddress, h]

end Request

/-! ## Runs -/

/-- A switch that asks for the version decides alone. -/
theorem interpret_of_version (h : .version ∈ (scan args).switches) :
    interpret args s = .finished (.success (programVersion ++ "\n")) := by
  simp only [interpret, if_pos h]

/-- The same set of switches with the same operands is interpreted alike. -/
theorem interpret_congr (h : Composed args ss operands) (h' : Composed args' ss' operands)
    (hset : ∀ t, t ∈ ss ↔ t ∈ ss') : interpret args s = interpret args' s := by
  by_cases hversion : .version ∈ ss
  · have hscan : .version ∈ (scan args).switches := by
      rw [h.scan_eq]
      exact hversion
    have hscan' : .version ∈ (scan args').switches := by
      rw [h'.scan_eq]
      exact (hset _).mp hversion
    rw [interpret_of_version hscan, interpret_of_version hscan']
  · have hformed : WellFormed args := h.wellFormed_iff.mpr hversion
    have hformed' : WellFormed args' := h'.wellFormed_iff.mpr (mt (hset _).mpr hversion)
    have hhidden : hiddenAfterScan args s = hiddenAfterScan args' s := by
      rw [h.hiddenAfterScan_eq, h'.hiddenAfterScan_eq]
      simp only [hset]
    have hrequested : requested args s = requested args' s := by
      rw [h.requested_eq, h'.requested_eq, Request.ofOperands_congr hset]
      simp only [hset]
    rw [interpret_of_wellFormed hformed, interpret_of_wellFormed hformed', hhidden, hrequested]

/-- **ORDER**: two command lines that are composed of the same set of switches
    and the same sequence of operands have the same outcome, with a lookup of
    their own and through a resolver. -/
theorem run_congr (h : Composed args ss operands) (h' : Composed args' ss' operands)
    (hset : ∀ t, t ∈ ss ↔ t ∈ ss') (s : Settings) (lookup : Lookup) (resolve : Resolver) :
    run args s lookup = run args' s lookup ∧
      runWithResolver args s resolve = runWithResolver args' s resolve := by
  have hinterpret : interpret args s = interpret args' s := interpret_congr h h' hset
  constructor
  · rw [run, run, hinterpret]
  · rw [runWithResolver, runWithResolver, hinterpret]

/-- A cluster may be pulled apart and put behind the operands. -/
theorem run_congr_respelled :
    let args := ["-nb", "10.0.0.1", "--silent", "255.0.0.0"]
    let args' := ["10.0.0.1", "-s", "-b", "--network", "-n", "255.0.0.0"]
    let operands := ["10.0.0.1", "255.0.0.0"]
    let s : Settings := ⟨Config.defaults, false, "/cfg/config.json"⟩
    let lookup : Lookup := fun _ => ⟨none, [], []⟩
    let resolve : Resolver := fun _ => .names []
    Composed args [.network, .broadcast, .silent] operands ∧
      Composed args' [.silent, .broadcast, .network, .network] operands ∧
      run args s lookup = run args' s lookup ∧
      runWithResolver args s resolve = runWithResolver args' s resolve := by
  intro args args' operands s lookup resolve
  have haddress : IsOperand "10.0.0.1".toList := Or.inl (by decide)
  have hmask : IsOperand "255.0.0.0".toList := Or.inl (by decide)
  have hcluster : Spells "-nb".toList [.network, .broadcast] :=
    Spells.letters rfl (.cons rfl .nil)
  have hsilent : Spells "--silent".toList [.silent] := Spells.long rfl
  have hshort : Spells "-s".toList [.silent] := Spells.letters rfl .nil
  have hbroadcast : Spells "-b".toList [.broadcast] := Spells.letters rfl .nil
  have hlong : Spells "--network".toList [.network] := Spells.long rfl
  have hnetwork : Spells "-n".toList [.network] := Spells.letters rfl .nil
  have h : Composed args [.network, .broadcast, .silent] operands :=
    .switches hcluster (.operand haddress (.switches hsilent (.operand hmask .nil)))
  have h' : Composed args' [.silent, .broadcast, .network, .network] operands :=
    .operand haddress (.switches hshort (.switches hbroadcast (.switches hlong
      (.switches hnetwork (.operand hmask .nil)))))
  have hset (t : Switch) : t ∈ [Switch.network, .broadcast, .silent] ↔
      t ∈ [Switch.silent, .broadcast, .network, .network] := by
    cases t <;> decide
  exact ⟨h, h', run_congr h h' hset s lookup resolve⟩

end Subnet.Cli
