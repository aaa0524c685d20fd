import Subnet.Proofs.Assignments
import Subnet.Proofs.SettingsLines

/-!
# Settings files — what an environment holds once a file is added

    A file reaches a name only through the values that its lines give to it, and
    these settle as assignments do (`settles_load`).  What a file means is said here
    of its lines alone (`load_settles`); that a file added again changes nothing,
    and what can change a name that is present, are facts about settled values.
-/

namespace Subnet.Environment

variable {env : Environment} {text name value : String} {e : String × String}

/-- Assignments are made in their order, wherever they are cut. -/
theorem assignAll_append (env : Environment) (first second : List (String × String)) :
    env.assignAll (first ++ second) = (env.assignAll first).assignAll second :=
  List.foldl_append

/-- **WHAT A FILE MEANS**: after a settings file each name holds what the values
    that its lines give to it settle to.  A file added again changes no value, and
    two files one after the other do what their texts do when a line feed joins
    them. -/
theorem load_settles (env : Environment) (text : String) :
    (∀ name result, (env.load text).get? name = result ↔
      ∃ es, Makes text es ∧ Settles (env.get? name) (valuesOf es name) result) ∧
    (∀ name, ((env.load text).load text).get? name = (env.load text).get? name) ∧
    ∀ more, (env.load text).load more = env.load (text ++ "\n" ++ more) := by
  refine ⟨?_, ?_, ?_⟩
  · intro name result
    simp only [makes_iff, exists_eq_left']
    constructor
    · rintro rfl
      exact settles_load env text name
    · intro h
      exact (settles_load env text name).unique h
  · intro name
    exact (settles_load (env.load text) text name).unique (settles_load env text name).again
  · intro more
    unfold load
    rw [assignments_append, assignAll_append]

/-- A file assigns what one of its lines does. -/
theorem mem_assignments_iff :
    e ∈ assignments text ↔ ∃ lines, HasLines text lines ∧ ∃ line ∈ lines, Assigns line e := by
  simp only [Text.hasPieces_iff, exists_eq_left', assignments, List.mem_filterMap,
    assignment?_eq_some_iff]

/-- **WHAT STAYS**: a name that has a value has one afterwards, and it is still the
    same exactly if it is not empty or no line of the file assigns another one that
    is not empty. -/
theorem load_keeps_iff (text : String) (h : env.get? name = some value) :
    (∃ after, (env.load text).get? name = some after) ∧
    ((env.load text).get? name = some value ↔ value ≠ "" ∨
      ¬∃ lines, HasLines text lines ∧
        ∃ line ∈ lines, ∃ given, Assigns line (name, given) ∧ given ≠ "") := by
  have hsettles := settles_load env text name
  rw [h] at hsettles
  have hnone : (∀ given ∈ valuesOf (assignments text) name, given = "") ↔
      ¬∃ lines, HasLines text lines ∧
        ∃ line ∈ lines, ∃ given, Assigns line (name, given) ∧ given ≠ "" := by
    simp only [mem_valuesOf_iff, mem_assignments_iff]
    constructor
    · rintro hempty ⟨lines, hlines, line, hline, given, hassigns, hne⟩
      exact hne (hempty given ⟨lines, hlines, line, hline, hassigns⟩)
    · rintro hnot given ⟨lines, hlines, line, hline, hassigns⟩
      by_contra hne
      exact hnot ⟨lines, hlines, line, hline, given, hassigns, hne⟩
  exact ⟨hsettles.exists_of_some, hsettles.eq_iff.trans (or_congr_right hnone)⟩

/-- A value that went away was empty, so a line must have assigned another. -/
theorem load_keeps_iff_quoted :
    let env := ofList [("IPCALC_COLOR", "")]
    let text := "IPCALC_COLOR=\n IPCALC_COLOR = \"never\" \nIPCALC_COLOR=always"
    env.get? "IPCALC_COLOR" = some "" ∧ (env.load text).get? "IPCALC_COLOR" = some "never" ∧
      ∃ lines, HasLines text lines ∧
        ∃ line ∈ lines, ∃ given, Assigns line ("IPCALC_COLOR", given) ∧ given ≠ "" := by
  intro env text
  have hold : env.get? "IPCALC_COLOR" = some "" := by decide +kernel
  have hnew : (env.load text).get? "IPCALC_COLOR" = some "never" := by decide +kernel
  refine ⟨hold, hnew, ?_⟩
  by_contra hnone
  have hkept := (load_keeps_iff text hold).2.mpr (Or.inr hnone)
  exact absurd (hnew.symm.trans hkept) (by decide)

/-- A name that is present without a value is taken for one that is missing. -/
theorem load_replaces_empty :
    let env := ofList [("IPCALC_SILENT", "")]
    env.get? "IPCALC_SILENT" = some "" ∧
      (env.load "IPCALC_SILENT=1\n").get? "IPCALC_SILENT" = some "1" := by
  decide +kernel

end Subnet.Environment
