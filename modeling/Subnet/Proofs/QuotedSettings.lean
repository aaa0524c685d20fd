import Subnet.Proofs.SettingsFiles

/-!
# Quoted settings — an environment written to a file and read back

    A value between double quotes may hold anything but a line terminator: the
    quotes keep its blanks from being trimmed, only the outer pair is dropped, and
    neither `=` nor `#` counts behind the first `=` of the line.  Each quoted line
    makes its one assignment (`assigns_quotedLine`), so a file of them makes the
    assignments that were written.  Their names differ, so each name is given one
    value at most, and a missing name settles on it (`settles_toList`).
-/

namespace Subnet.Environment

variable {env : Environment} {es : List (String × String)} {e : String × String}

/-- The line that assigns a value in quotes. -/
def quotedLine (e : String × String) : String :=
  e.1 ++ "=\"" ++ e.2 ++ "\""

/-- The file of such lines. -/
def quotedFile (es : List (String × String)) : String :=
  "\n".intercalate (es.map quotedLine)

/-- A name that a line can begin with, and a value that fits on a line. -/
structure Quotable (e : String × String) : Prop where
  name_ne_empty : e.1 ≠ ""
  name_trimmed : Text.trim e.1.toList = e.1.toList
  equals_not_mem : '=' ∉ e.1.toList
  feed_not_mem : '\n' ∉ e.1.toList
  hash_not_head : e.1.toList.head? ≠ some '#'
  value_unbroken : e.2.toList.any isLineTerminator = false

instance (e : String × String) : Decidable (Quotable e) :=
  decidable_of_iff
    (e.1 ≠ "" ∧ Text.trim e.1.toList = e.1.toList ∧ '=' ∉ e.1.toList ∧ '\n' ∉ e.1.toList ∧
      e.1.toList.head? ≠ some '#' ∧ e.2.toList.any isLineTerminator = false)
    ⟨fun ⟨hne, htrimmed, hequals, hfeed, hhash, hvalue⟩ =>
      ⟨hne, htrimmed, hequals, hfeed, hhash, hvalue⟩,
    fun h => ⟨h.name_ne_empty, h.name_trimmed, h.equals_not_mem, h.feed_not_mem,
      h.hash_not_head, h.value_unbroken⟩⟩

/-! ## Lines -/

/-- The characters of a line with a quoted value. -/
theorem toList_quotedLine (e : String × String) :
    (quotedLine e).toList = e.1.toList ++ '=' :: '"' :: (e.2.toList ++ ['"']) := by
  simp [quotedLine]

/-- The name of a quotable entry starts with no blank and no number sign. -/
theorem Quotable.exists_cons (h : Quotable e) :
    ∃ c rest, e.1.toList = c :: rest ∧ Text.isBlank c = false ∧ c ≠ '#' := by
  have htrims := Text.trims_iff.mpr h.name_trimmed
  cases hname : e.1.toList with
  | nil => exact absurd (String.toList_eq_nil_iff.mp hname) h.name_ne_empty
  | cons c rest =>
      refine ⟨c, rest, rfl, htrims.head c (hname ▸ rfl), ?_⟩
      rintro rfl
      exact h.hash_not_head (hname ▸ rfl)

/-- The value of a quotable entry has no line terminator. -/
theorem Quotable.not_isLineTerminator (h : Quotable e) :
    ∀ c ∈ e.2.toList, isLineTerminator c = false := by
  intro c hc
  exact Bool.eq_false_of_not_eq_true (List.any_eq_false.mp h.value_unbroken c hc)

/-- A text that a quote closes has no blank at its end. -/
theorem trims_of_quote {cs : List Char} (h : ∀ c ∈ (cs ++ ['"']).head?, Text.isBlank c = false) :
    Text.Trims (cs ++ ['"']) (cs ++ ['"']) := by
  refine Text.trims_self h ?_
  rw [List.getLast?_concat]
  rintro _ ⟨⟩
  rfl

/-- A quoted line is its own trim: it starts with its name and ends with a quote. -/
theorem Quotable.not_isComment (h : Quotable e) : ¬IsComment (quotedLine e).toList := by
  obtain ⟨c, rest, hname, hblank, hne⟩ := h.exists_cons
  have hline : (quotedLine e).toList = c :: (rest ++ '=' :: '"' :: e.2.toList) ++ ['"'] := by
    rw [toList_quotedLine, hname]
    simp
  have htrims : Text.Trims (quotedLine e).toList (quotedLine e).toList := by
    rw [hline]
    refine trims_of_quote ?_
    rintro _ ⟨⟩
    exact hblank
  rw [isComment_iff, Text.trims_iff.mp htrims, hline]
  exact fun hhash => hne (Option.some.inj hhash)

/-- The line of a quotable entry assigns the entry. -/
theorem assigns_quotedLine (h : Quotable e) : Assigns (quotedLine e).toList e := by
  have hcomment := h.not_isComment
  rw [toList_quotedLine] at hcomment ⊢
  have hne : e.1.toList ≠ [] := mt String.toList_eq_nil_iff.mp h.name_ne_empty
  have hunbroken : ∀ c ∈ '"' :: (e.2.toList ++ ['"']), isLineTerminator c = false := by
    rw [List.forall_mem_cons, List.forall_mem_append]
    exact ⟨rfl, h.not_isLineTerminator, List.forall_mem_singleton.mpr rfl⟩
  have hquoted : Text.Trims ('"' :: (e.2.toList ++ ['"'])) ('"' :: (e.2.toList ++ ['"'])) := by
    rw [← List.cons_append]
    refine trims_of_quote ?_
    rintro _ ⟨⟩
    rfl
  exact Assigns.mk hcomment hne h.equals_not_mem hunbroken (Text.trims_iff.mpr h.name_trimmed)
    hquoted Unquotes.enclosed

/-- The line of a quotable entry is one line. -/
theorem Quotable.feed_not_mem_line (h : Quotable e) : '\n' ∉ (quotedLine e).toList := by
  have hvalue : '\n' ∉ e.2.toList := fun hmem => Bool.noConfusion (h.not_isLineTerminator _ hmem)
  rw [toList_quotedLine]
  simp [h.feed_not_mem, hvalue]

/-! ## Files -/

/-- The lines of quotable entries assign them in order. -/
theorem collects_quotedLines (h : ∀ e ∈ es, Quotable e) :
    Collects (es.map fun e => (quotedLine e).toList) es := by
  induction es with
  | nil => exact Collects.nil
  | cons e rest ih =>
      obtain ⟨he, hrest⟩ := List.forall_mem_cons.mp h
      exact Collects.assigned (assigns_quotedLine he) (ih hrest)

/-- A file of quoted lines makes the assignments it is made of. -/
theorem makes_quotedFile (h : ∀ e ∈ es, Quotable e) : Makes (quotedFile es) es := by
  cases es with
  -- a file without assignments still has one line, which is empty
  | nil => exact makes_iff.mpr rfl
  | cons first rest =>
      refine ⟨(first :: rest).map fun e => (quotedLine e).toList, ⟨?_, ?_, ?_⟩,
        collects_quotedLines h⟩
      · exact List.cons_ne_nil _ _
      · rw [List.forall_mem_map]
        intro e he
        exact (h e he).feed_not_mem_line
      · rw [quotedFile, String.toList_intercalate, List.map_map]
        rfl

/-- An environment gives each of its names the one value it has. -/
theorem valuesOf_entries (env : Environment) (name : String) :
    valuesOf env.entries name = (env.get? name).toList := by
  obtain ⟨entries, hnodup⟩ := env
  show valuesOf entries name = (entries.lookup name).toList
  induction entries with
  | nil => rfl
  | cons e rest ih =>
      obtain ⟨hnew, hrest⟩ := List.nodup_cons.mp hnodup
      rw [valuesOf_cons]
      by_cases hname : e.1 = name
      · obtain rfl := hname
        have hnone : valuesOf rest e.1 = [] := by
          rw [List.eq_nil_iff_forall_not_mem]
          intro value hvalue
          exact hnew (List.mem_map.mpr ⟨(e.1, value), mem_valuesOf_iff.mp hvalue, rfl⟩)
        rw [hnone, List.append_nil, valuesOf_self, List.lookup_cons_self]
        rfl
      · have hne : (name == e.1) = false := beq_eq_false_iff_ne.mpr (Ne.symm hname)
        rw [valuesOf_of_ne hname, List.nil_append, ih hrest, List.lookup_cons, hne]

/-- In another order entries give a name the same values in another order. -/
theorem valuesOf_perm {es' : List (String × String)} (h : es.Perm es') (name : String) :
    (valuesOf es name).Perm (valuesOf es' name) :=
  (h.filter _).map _

/-- One value at most is what a missing name comes to hold. -/
theorem settles_toList (value : Option String) : Settles none value.toList value := by
  cases value with
  | none => exact Settles.untouched
  | some value => exact settles_singleton isVacant_none value

/-- **ROUND TRIP**: an environment written as quoted lines, in any order, and
    added to the empty environment is the same environment again. -/
theorem load_quotedFile (hperm : es.Perm env.entries) (hes : ∀ e ∈ es, Quotable e) :
    ∀ name, (empty.load (quotedFile es)).get? name = env.get? name := by
  intro name
  have hsettles := settles_load empty (quotedFile es) name
  have hvalues : valuesOf es name = (env.get? name).toList := by
    have hp := valuesOf_perm hperm name
    rw [valuesOf_entries] at hp
    cases hvalue : env.get? name with
    | none => exact (hvalue ▸ hp).eq_nil
    | some value => exact (hvalue ▸ hp).eq_singleton
  rw [makes_iff.mp (makes_quotedFile hes), get?_empty, hvalues] at hsettles
  exact hsettles.unique (settles_toList _)

/-- Signs, blanks and quotes within values are loaded back. -/
theorem load_quotedFile_signs :
    let env : Environment :=
      ⟨[("IPCALC_COLOR", " = \"#$1\" "), ("a b", ""), ("\u00e9", "\"")], by decide⟩
    let es := env.entries.reverse
    es.Perm env.entries ∧ (∀ e ∈ es, Quotable e) ∧
      ∀ name, (empty.load (quotedFile es)).get? name = env.get? name := by
  intro env es
  have hperm : es.Perm env.entries := List.reverse_perm _
  have hquotable : ∀ e ∈ es, Quotable e := by decide +kernel
  exact ⟨hperm, hquotable, load_quotedFile hperm hquotable⟩

end Subnet.Environment
