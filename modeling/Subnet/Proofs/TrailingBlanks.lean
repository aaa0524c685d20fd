import Subnet.Proofs.SettingsFiles

/-!
# Trailing blanks — what they do to the lines of a settings file

    The blanks around a value are trimmed off, but only after the line was cut at
    its first `=`, and a value that holds a line terminator is refused there.  So
    blanks behind a line change nothing unless a line terminator is among them, and
    then the line is passed over (`assignment?_padded`).  A file with blanks behind
    its lines is therefore the file of the lines that stay whole
    (`assignments_padded`), and one in which a carriage return precedes each line
    feed is no more than its last line (`load_padded`).
-/

namespace Subnet

/-- Blanks behind a text change nothing of what is left of it. -/
theorem Text.trim_append_blanks {blanks : List Char} (h : ∀ c ∈ blanks, isBlank c = true)
    (cs : List Char) : trim (cs ++ blanks) = trim cs := by
  obtain ⟨⟨before, after, hcs, hbefore, hafter⟩, hhead, hlast⟩ := trims_trim cs
  refine trims_iff.mp ⟨⟨before, after ++ blanks, ?_, hbefore, ?_⟩, hhead, hlast⟩
  · rw [← List.append_assoc, ← hcs]
  · exact List.forall_mem_append.mpr ⟨hafter, h⟩

namespace Environment

variable {text text' : String} {line last blanks : List Char} {init : List (List Char)}
  {padded : List (List Char × List Char)} {old result : Option String} {values more : List String}

/-- The lines of a text, each with the blanks that stand behind it in another. -/
structure Padded (text text' : String) (padded : List (List Char × List Char)) : Prop where
  original : HasLines text (padded.map Prod.fst)
  result : HasLines text' (padded.map fun p => p.1 ++ p.2)
  blank : ∀ p ∈ padded, ∀ c ∈ p.2, Text.isBlank c = true

/-- The lines that stay whole: no line terminator is among the blanks. -/
def wholeLines (padded : List (List Char × List Char)) : List (List Char) :=
  (padded.filter fun p => !p.2.any isLineTerminator).map Prod.fst

/-- A line feed gets a carriage return before it. -/
def withReturn (c : Char) : List Char :=
  if c = '\n' then ['\r', '\n'] else [c]

/-- A text with a carriage return before each line feed. -/
def withReturns (text : String) : String :=
  String.ofList (text.toList.flatMap withReturn)

/-! ## Lines -/

/-- Blanks behind a line are as if they were not there, or break the line. -/
theorem assignment?_padded (h : ∀ c ∈ blanks, Text.isBlank c = true) (line : List Char) :
    assignment? (line ++ blanks) =
      if blanks.any isLineTerminator then none else assignment? line := by
  have hequals : '=' ∉ blanks := fun hmem => Bool.false_ne_true (h '=' hmem)
  by_cases hmem : '=' ∈ line
  · obtain ⟨left, right, rfl, hleft⟩ := List.eq_append_cons_of_mem hmem
    have htrim : Text.trim (left ++ '=' :: (right ++ blanks)) = Text.trim (left ++ '=' :: right) := by
      rw [← List.cons_append, ← List.append_assoc, Text.trim_append_blanks h]
    rw [List.append_assoc, List.cons_append, assignment?_append hleft, assignment?_append hleft,
      htrim, Text.trim_append_blanks h, List.any_append]
    cases blanks.any isLineTerminator with
    | true => simp
    | false => simp
  · have hnone : '=' ∉ line ++ blanks := fun h => (List.mem_append.mp h).elim hmem hequals
    rw [assignment?_of_not_mem hnone, assignment?_of_not_mem hmem, ite_self]

/-! ## Files -/

/-- **A PADDED FILE** makes the assignments of the lines that stay whole. -/
theorem assignments_padded (h : Padded text text' padded) :
    assignments text' = (wholeLines padded).filterMap assignment? := by
  have hblank := h.blank
  unfold assignments
  rw [Text.hasPieces_iff.mp h.result]
  clear h
  induction padded with
  | nil => rfl
  | cons p rest ih =>
      obtain ⟨hp, hrest⟩ := List.forall_mem_cons.mp hblank
      have htail := ih hrest
      unfold wholeLines at htail ⊢
      rw [List.map_cons, List.filterMap_cons, assignment?_padded hp, htail]
      cases hbreak : p.2.any isLineTerminator with
      | true => simp [hbreak]
      | false => simp [hbreak, List.filterMap_cons]

/-- Lines that assign nothing may be left out. -/
theorem filterMap_wholeLines
    (h : ∀ p ∈ padded, p.2.any isLineTerminator = true → ∀ e, ¬Assigns p.1 e) :
    (wholeLines padded).filterMap assignment? = (padded.map Prod.fst).filterMap assignment? := by
  unfold wholeLines
  induction padded with
  | nil => rfl
  | cons p rest ih =>
      obtain ⟨hp, hrest⟩ := List.forall_mem_cons.mp h
      rw [List.map_cons, List.filterMap_cons, ← ih hrest]
      cases hbreak : p.2.any isLineTerminator with
      | true =>
          have hnone : assignment? p.1 = none :=
            Option.eq_none_iff_forall_ne_some.mpr fun e he =>
              hp hbreak e (assignment?_eq_some_iff.mp he)
          simp [hbreak, hnone]
      | false => simp [hbreak, List.filterMap_cons]

/-! ## Values -/

/-- What values come to where there is one already follows from what they come to
    where there is none. -/
theorem Settles.over (h : Settles none values result) (old : Option String) :
    Settles old values ((old.filter (· ≠ "")).or (result.or old)) := by
  cases hcount : old.filter (· ≠ "") with
  | some value =>
      obtain ⟨rfl, hne⟩ := filter_eq_some.mp hcount
      exact Settles.kept rfl hne
  | none =>
      have hvacant := isVacant_iff.mpr hcount
      cases h with
      | kept hold => exact nomatch hold
      | first _ hbefore hne => exact Settles.first hvacant hbefore hne
      | emptied _ hsome hvalues => exact Settles.emptied hvacant hsome hvalues
      | untouched => exact Settles.untouched

/-- The same result for a missing name is the same result for every name. -/
theorem Settles.congr (h : Settles none values result) (h' : Settles none more result)
    {after after' : Option String} (hafter : Settles old values after)
    (hafter' : Settles old more after') : after = after' :=
  (hafter.unique (h.over old)).trans (hafter'.unique (h'.over old)).symm

/-! ## Carriage returns -/

/-- Without line feeds no carriage return is added. -/
theorem flatMap_of_feed_not_mem (h : '\n' ∉ line) : line.flatMap withReturn = line := by
  induction line with
  | nil => rfl
  | cons c rest ih =>
      rw [List.mem_cons, not_or] at h
      rw [List.flatMap_cons, withReturn, if_neg (Ne.symm h.1), ih h.2]
      rfl

/-- Every line but the last one gets a carriage return. -/
theorem flatMap_intercalate (h : ∀ line ∈ init ++ [last], '\n' ∉ line) :
    (['\n'].intercalate (init ++ [last])).flatMap withReturn =
      ['\n'].intercalate (init.map (· ++ ['\r']) ++ [last]) := by
  induction init with
  | nil =>
      rw [List.map_nil, List.nil_append, List.intercalate_singleton]
      exact flatMap_of_feed_not_mem (h last List.mem_cons_self)
  | cons first rest ih =>
      obtain ⟨hfirst, hrest⟩ := List.forall_mem_cons.mp h
      have hfeed : ['\n'].flatMap withReturn = ['\r'] ++ ['\n'] := rfl
      rw [List.map_cons, List.cons_append, List.cons_append,
        List.intercalate_cons_of_ne_nil (List.concat_ne_nil last rest),
        List.intercalate_cons_of_ne_nil (List.concat_ne_nil last _), List.flatMap_append,
        List.flatMap_append, flatMap_of_feed_not_mem hfirst, ih hrest, hfeed, List.append_assoc,
        List.append_assoc, List.append_assoc, List.append_assoc]

/-- Lines with a carriage return behind each of them but the last. -/
def returnLines (init : List (List Char)) (last : List Char) : List (List Char × List Char) :=
  init.map (fun line => (line, ['\r'])) ++ [(last, [])]

/-- Without their carriage returns the lines are what they were. -/
theorem map_fst_returnLines (init : List (List Char)) (last : List Char) :
    (returnLines init last).map Prod.fst = init ++ [last] := by
  simp [returnLines, Function.comp_def]

/-- All lines but the last one get a carriage return. -/
theorem map_append_returnLines (init : List (List Char)) (last : List Char) :
    ((returnLines init last).map fun p => p.1 ++ p.2) = init.map (· ++ ['\r']) ++ [last] := by
  simp [returnLines, Function.comp_def]

/-- Only the last line got no line terminator. -/
theorem wholeLines_returnLines (init : List (List Char)) (last : List Char) :
    wholeLines (returnLines init last) = [last] := by
  have hbroken : ['\r'].any isLineTerminator = true := rfl
  simp [wholeLines, returnLines, hbroken, List.filter_map, Function.comp_def]

/-- Carriage returns before the line feeds are blanks behind the lines. -/
theorem padded_withReturns (h : HasLines text (init ++ [last])) :
    Padded text (withReturns text) (returnLines init last) := by
  refine ⟨(map_fst_returnLines init last).symm ▸ h, ?_, ?_⟩
  · rw [map_append_returnLines]
    obtain ⟨hinit, hlast⟩ := List.forall_mem_append.mp h.not_mem
    refine ⟨List.concat_ne_nil last _, ?_, ?_⟩
    · rw [List.forall_mem_append, List.forall_mem_map]
      refine ⟨fun line hline => ?_, hlast⟩
      simpa using hinit line hline
    · rw [withReturns, String.toList_ofList, h.eq_joined, flatMap_intercalate h.not_mem]
  · rw [returnLines, List.forall_mem_append, List.forall_mem_map]
    exact ⟨fun _ _ => List.forall_mem_singleton.mpr rfl, List.forall_mem_singleton.mpr nofun⟩

/-- A carriage return at the end of a line breaks it, so the last line is left. -/
theorem load_withReturns (h : HasLines text (init ++ [last])) (env : Environment) :
    env.load (withReturns text) = env.load (String.ofList last) := by
  have hlast : '\n' ∉ last := h.not_mem last (by simp)
  have hlines : assignments (String.ofList last) = [last].filterMap assignment? := by
    rw [assignments, String.toList_ofList, List.splitOn_eq_singleton hlast]
  rw [load, assignments_padded (padded_withReturns h), wholeLines_returnLines, ← hlines]
  rfl

/-! ## Loading -/

/-- **TRAILING BLANKS**: a file with blanks behind its lines settles each name as
    the lines do to which no line terminator was added.  So it loads alike if only
    lines that assign nothing got one, and alike in every environment exactly if
    these lines settle a missing name as all of them do.  With a carriage return
    before each line feed a file loads as its last line alone. -/
theorem load_padded (text : String) :
    (∀ (text' : String) (padded : List (List Char × List Char)), Padded text text' padded →
      (∀ (env : Environment) name result, (env.load text').get? name = result ↔
        ∃ es, Collects (wholeLines padded) es ∧
          Settles (env.get? name) (valuesOf es name) result) ∧
      ((∀ p ∈ padded, (∃ c ∈ p.2, isLineTerminator c = true) → ∀ e, ¬Assigns p.1 e) →
        ∀ env : Environment, env.load text' = env.load text) ∧
      ((∀ (env : Environment) name, (env.load text').get? name = (env.load text).get? name) ↔
        ∀ name, ∃ es es' result, Collects (wholeLines padded) es ∧ Makes text es' ∧
          Settles none (valuesOf es name) result ∧ Settles none (valuesOf es' name) result)) ∧
    ∀ init last, HasLines text (init ++ [last]) →
      ∀ env : Environment, env.load (withReturns text) = env.load (String.ofList last) := by
  refine ⟨?_, fun init last => load_withReturns⟩
  intro text' padded h
  have hwhole := assignments_padded h
  have hall : assignments text = (padded.map Prod.fst).filterMap assignment? := by
    rw [assignments, Text.hasPieces_iff.mp h.original]
  simp only [collects_iff, makes_iff, exists_eq_left', ← hwhole]
  refine ⟨?_, ?_, ?_⟩
  · intro env name result
    constructor
    · rintro rfl
      exact settles_load env text' name
    · intro hsettles
      exact (settles_load env text' name).unique hsettles
  · intro hnothing env
    have hsame := filterMap_wholeLines fun p hp hbreak =>
      hnothing p hp (List.any_eq_true.mp hbreak)
    rw [load, hwhole, hsame, ← hall]
    rfl
  · constructor
    · intro hsame name
      refine ⟨_, _, _, rfl, rfl, settles_load empty text' name, ?_⟩
      rw [hsame empty name]
      exact settles_load empty text name
    · intro hsettles env name
      obtain ⟨_, _, result, rfl, rfl, hwhole, hall⟩ := hsettles name
      exact hwhole.congr hall (settles_load env text' name) (settles_load env text name)

/-- A separator breaks a comment, which assigns nothing anyway, and other blanks
    break nothing; but a carriage return before each line feed leaves one line. -/
theorem load_padded_comment :
    let text := "# output\nIPCALC_COLOR=never\nIPCALC_SILENT=1"
    let text' := "# output \u2028\nIPCALC_COLOR=never\t\u00a0\nIPCALC_SILENT=1"
    let padded := [("# output".toList, " \u2028".toList),
      ("IPCALC_COLOR=never".toList, "\t\u00a0".toList), ("IPCALC_SILENT=1".toList, [])]
    Padded text text' padded ∧ (∀ env : Environment, env.load text' = env.load text) ∧
      ∀ env : Environment, env.load (withReturns text) = env.load "IPCALC_SILENT=1" := by
  intro text text' padded
  have hlines : HasLines text (padded.map Prod.fst) := Text.hasPieces_iff.mpr (by decide +kernel)
  have hblank : padded.all (fun p => p.2.all Text.isBlank) = true := by decide +kernel
  have hpadded : Padded text text' padded :=
    ⟨hlines, Text.hasPieces_iff.mpr (by decide +kernel), fun p hp =>
      List.all_eq_true.mp (List.all_eq_true.mp hblank p hp)⟩
  obtain ⟨hload, hreturns⟩ := load_padded text
  obtain ⟨-, hsame, -⟩ := hload text' padded hpadded
  refine ⟨hpadded, hsame ?_, ?_⟩
  · have hbroken : ∀ p ∈ padded, p.2.any isLineTerminator = true → assignment? p.1 = none := by
      decide +kernel
    intro p hp hbreak e he
    have hnone := hbroken p hp (List.any_eq_true.mpr hbreak)
    exact nomatch hnone.symm.trans (assignment?_eq_some_iff.mpr he)
  · exact hreturns ["# output".toList, "IPCALC_COLOR=never".toList] "IPCALC_SILENT=1".toList hlines

/-- A carriage return behind an assignment, and nothing is assigned. -/
theorem load_carriage_return :
    let text := "IPCALC_SILENT=1\n"
    let text' := "IPCALC_SILENT=1\r\n"
    Padded text text' [("IPCALC_SILENT=1".toList, ['\r']), ([], [])] ∧
      (empty.load text).get? "IPCALC_SILENT" = some "1" ∧
      (empty.load text').get? "IPCALC_SILENT" = none := by
  intro text text'
  have hblank : ([("IPCALC_SILENT=1".toList, ['\r']), ([], [])] : List (List Char × List Char)).all
      (fun p => p.2.all Text.isBlank) = true := by
    decide +kernel
  have hpadded : Padded text text' [("IPCALC_SILENT=1".toList, ['\r']), ([], [])] :=
    ⟨Text.hasPieces_iff.mpr (by decide +kernel), Text.hasPieces_iff.mpr (by decide +kernel),
      fun p hp => List.all_eq_true.mp (List.all_eq_true.mp hblank p hp)⟩
  exact ⟨hpadded, by decide +kernel, by decide +kernel⟩

end Environment

end Subnet
