import Mathlib.Data.List.DropRight
import Subnet.Environment
import Subnet.Proofs.AddressGrammar

/-!
# Settings lines — what a line of a settings file assigns

    A settings file is cut at its line feeds, and each line is an assignment or
    is passed over.  `Assigns` says which lines assign what, by the pieces that
    such a line is made of: what stands before its first `=` and after it, each
    without the blanks around it, and the value also without one pair of quotes.
    `Makes` reads the assignments of a file off its lines.  Both say what the
    reader does, in both directions (`assignment?_eq_some_iff`, `makes_iff`).
-/

namespace Subnet

namespace Text

variable {cs t : List Char}

/-! ## Trimming -/

/-- A text and what is left of it without the blanks at its ends. -/
structure Trims (cs t : List Char) : Prop where
  exists_blanks : ∃ before after, cs = before ++ t ++ after ∧
    (∀ c ∈ before, isBlank c = true) ∧ ∀ c ∈ after, isBlank c = true
  head : ∀ c ∈ t.head?, isBlank c = false
  last : ∀ c ∈ t.getLast?, isBlank c = false

/-- Blanks in front of a text are trimmed. -/
theorem trimStart_append {before : List Char} (h : ∀ c ∈ before, isBlank c = true)
    (cs : List Char) : trimStart (before ++ cs) = trimStart cs :=
  List.dropWhile_append_of_pos h

/-- Blanks behind a text are trimmed. -/
theorem trimEnd_append {after : List Char} (h : ∀ c ∈ after, isBlank c = true)
    (cs : List Char) : trimEnd (cs ++ after) = trimEnd cs := by
  unfold trimEnd
  rw [List.reverse_append, List.dropWhile_append_of_pos]
  intro c hc
  exact h c (List.mem_reverse.mp hc)

/-- A text that starts with no blank keeps its start. -/
theorem trimStart_of_head (h : ∀ c ∈ t.head?, isBlank c = false) : trimStart t = t := by
  cases t with
  | nil => rfl
  | cons c rest => exact List.dropWhile_cons_of_neg (by rw [h c rfl]; exact Bool.false_ne_true)

/-- A text that ends with no blank keeps its end. -/
theorem trimEnd_of_last (h : ∀ c ∈ t.getLast?, isBlank c = false) : trimEnd t = t := by
  have hhead : ∀ c ∈ t.reverse.head?, isBlank c = false := by
    intro c hc
    rw [List.head?_reverse] at hc
    exact h c hc
  unfold trimEnd
  rw [show t.reverse.dropWhile isBlank = t.reverse from trimStart_of_head hhead,
    List.reverse_reverse]

/-- Trimming leaves a text without the blanks at its ends. -/
theorem trims_trim (cs : List Char) : Trims cs (trim cs) := by
  have hstart : cs.takeWhile isBlank ++ trimStart cs = cs := List.takeWhile_append_dropWhile
  have hend : trim cs ++ (trimStart cs).rtakeWhile isBlank = trimStart cs :=
    List.rdropWhile_append_rtakeWhile
  refine ⟨⟨cs.takeWhile isBlank, (trimStart cs).rtakeWhile isBlank, ?_, ?_, ?_⟩, ?_, ?_⟩
  · rw [List.append_assoc, hend, hstart]
  · intro c hc
    exact List.mem_takeWhile_imp hc
  · intro c hc
    exact List.mem_rtakeWhile_imp hc
  · intro c hc
    -- what trimming leaves at the end starts where the text without its first blanks does
    have hhead : (trimStart cs).head? = some c := by
      rw [← hend, List.head?_append, Option.mem_def.mp hc]
      rfl
    have hnot := List.head?_dropWhile_not isBlank cs
    rw [show (cs.dropWhile isBlank).head? = some c from hhead] at hnot
    exact hnot
  · intro c hc
    obtain ⟨hne, rfl⟩ := List.mem_getLast?_eq_getLast hc
    exact Bool.eq_false_of_not_eq_true (List.rdropWhile_last_not isBlank (trimStart cs) hne)

/-- A text without a blank at its ends is trimmed already. -/
theorem trims_self (hhead : ∀ c ∈ t.head?, isBlank c = false)
    (hlast : ∀ c ∈ t.getLast?, isBlank c = false) : Trims t t :=
  ⟨⟨[], [], (List.append_nil t).symm, nofun, nofun⟩, hhead, hlast⟩

/-- Trimming leaves what is left without the blanks at the ends. -/
theorem trims_iff : Trims cs t ↔ trim cs = t := by
  constructor
  · rintro ⟨⟨before, after, rfl, hbefore, hafter⟩, hhead, hlast⟩
    rw [trim, List.append_assoc, trimStart_append hbefore]
    cases t with
    | nil =>
        have hblank : trimStart after = [] := by
          unfold trimStart
          rw [List.dropWhile_eq_nil_iff]
          exact hafter
        rw [List.nil_append, hblank]
        rfl
    | cons c rest =>
        have hstart : trimStart (c :: rest ++ after) = c :: rest ++ after :=
          trimStart_of_head fun d hd => hhead d hd
        rw [hstart, trimEnd_append hafter, trimEnd_of_last hlast]
  · rintro rfl
    exact trims_trim cs

/-- Exactly the blank texts are trimmed to nothing. -/
theorem trims_nil_iff : Trims cs [] ↔ ∀ c ∈ cs, isBlank c = true := by
  constructor
  · rintro ⟨⟨before, after, rfl, hbefore, hafter⟩, -, -⟩
    rw [List.append_nil, List.forall_mem_append]
    exact ⟨hbefore, hafter⟩
  · intro h
    exact ⟨⟨cs, [], by simp, h, nofun⟩, nofun, nofun⟩

/-! ## Cutting -/

/-- A text and the pieces between its separators. -/
structure HasPieces (separator : Char) (text : String) (pieces : List (List Char)) : Prop where
  ne_nil : pieces ≠ []
  not_mem : ∀ piece ∈ pieces, separator ∉ piece
  eq_joined : text.toList = [separator].intercalate pieces

/-- A piece between separators has none of its own. -/
theorem not_mem_of_mem_splitOn {separator : Char} {piece : List Char}
    (h : piece ∈ cs.splitOn separator) : separator ∉ piece := by
  induction cs generalizing piece with
  | nil =>
      rw [List.splitOn_nil, List.mem_singleton] at h
      rw [h]
      exact List.not_mem_nil
  | cons c rest ih =>
      rw [List.splitOn_cons_eq_if_modifyHead] at h
      split_ifs at h with hc
      · rcases List.mem_cons.mp h with rfl | hmem
        · exact List.not_mem_nil
        · exact ih hmem
      · -- the first character joins the first piece of the rest
        cases hpieces : rest.splitOn separator with
        | nil => exact absurd hpieces (List.splitOn_ne_nil separator rest)
        | cons first others =>
            rw [hpieces] at h
            rcases List.mem_cons.mp h with rfl | hmem
            · have hfirst := ih (hpieces ▸ List.mem_cons_self)
              rw [List.mem_cons, not_or]
              exact ⟨fun heq => hc (beq_iff_eq.mpr heq.symm), hfirst⟩
            · exact ih (hpieces ▸ List.mem_cons_of_mem first hmem)

/-- The pieces of a text are what cutting it gives. -/
theorem hasPieces_iff {separator : Char} {text : String} {pieces : List (List Char)} :
    HasPieces separator text pieces ↔ text.toList.splitOn separator = pieces := by
  constructor
  · rintro ⟨hne, hpieces, htext⟩
    rw [htext]
    exact List.splitOn_intercalate separator hpieces hne
  · rintro rfl
    exact ⟨List.splitOn_ne_nil separator _, fun _ => not_mem_of_mem_splitOn,
      (List.intercalate_splitOn separator).symm⟩

end Text

namespace Environment

variable {cs inner line left right : List Char} {lines : List (List Char)} {text : String}
  {e : String × String} {es : List (String × String)}

/-! ## Quotes -/

/-- A text and what is left of it without one pair of double quotes that
    encloses it, if there is one. -/
inductive Unquotes : List Char → List Char → Prop where
  | enclosed {inner : List Char} : Unquotes ('"' :: (inner ++ ['"'])) inner
  | bare {cs : List Char} : (∀ inner, cs ≠ '"' :: (inner ++ ['"'])) → Unquotes cs cs

/-- The quotes around a text are dropped. -/
theorem unquote_enclosed (inner : List Char) : unquote ('"' :: (inner ++ ['"'])) = inner := by
  simp [unquote]

/-- A text without quotes around it stays as it is. -/
theorem unquote_of_bare (h : ∀ inner, cs ≠ '"' :: (inner ++ ['"'])) : unquote cs = cs := by
  unfold unquote
  split
  · rename_i rest
    split_ifs with hlast
    · have hrest : rest.dropLast ++ ['"'] = rest := List.dropLast_append_getLast? _ hlast
      exact absurd (congrArg ('"' :: ·) hrest.symm) (h rest.dropLast)
    · rfl
  · rfl

/-- Dropping quotes is what the program does. -/
theorem unquotes_iff : Unquotes cs inner ↔ unquote cs = inner := by
  constructor
  · rintro (_ | hbare)
    · exact unquote_enclosed inner
    · exact unquote_of_bare hbare
  · rintro rfl
    by_cases henclosed : ∃ inner, cs = '"' :: (inner ++ ['"'])
    · obtain ⟨inner, rfl⟩ := henclosed
      rw [unquote_enclosed]
      exact Unquotes.enclosed
    · have hbare := not_exists.mp henclosed
      rw [unquote_of_bare hbare]
      exact Unquotes.bare hbare

/-! ## Lines -/

/-- The first character of a line other than a blank is `#`. -/
def IsComment (line : List Char) : Prop :=
  ∃ rest, Text.Trims line ('#' :: rest)

/-- The lines that assign, and the name and value of each: what stands before
    the first `=` and is not empty, and what stands behind it and has no line
    terminator, both trimmed, and the value unquoted. -/
inductive Assigns : List Char → String × String → Prop where
  | mk {left right quoted : List Char} {name value : String} :
      ¬IsComment (left ++ '=' :: right) → left ≠ [] → '=' ∉ left →
      (∀ c ∈ right, isLineTerminator c = false) →
      Text.Trims left name.toList → Text.Trims right quoted → Unquotes quoted value.toList →
      Assigns (left ++ '=' :: right) (name, value)

/-- A comment is found by its first character behind the blanks. -/
theorem isComment_iff : IsComment line ↔ (Text.trim line).head? = some '#' := by
  rw [List.head?_eq_some_iff]
  exact exists_congr fun _ => Text.trims_iff

/-- A line without an equals sign assigns nothing. -/
theorem assignment?_of_not_mem (h : '=' ∉ line) : assignment? line = none := by
  unfold assignment?
  rw [Grammar.cut_of_not_mem h]
  exact ite_self none

/-- A line is read by what stands before its first equals sign and behind it. -/
theorem assignment?_append (h : '=' ∉ left) :
    assignment? (left ++ '=' :: right) =
      if (Text.trim (left ++ '=' :: right)).head? = some '#' then none
      else if left = [] ∨ right.any isLineTerminator then none
      else some (String.ofList (Text.trim left), String.ofList (unquote (Text.trim right))) := by
  obtain ⟨hbefore, hafter⟩ := Grammar.cut_append h right
  unfold assignment?
  rw [hbefore, hafter]

/-- A line is read exactly as the assignment it is. -/
theorem assignment?_eq_some_iff : assignment? line = some e ↔ Assigns line e := by
  constructor
  · intro h
    by_cases hmem : '=' ∈ line
    · obtain ⟨left, right, rfl, hleft⟩ := List.eq_append_cons_of_mem hmem
      rw [assignment?_append hleft] at h
      split_ifs at h with hcomment hrefused
      obtain ⟨hne, hright⟩ := not_or.mp hrefused
      obtain rfl := Option.some.inj h
      have hunquotes : Unquotes (Text.trim right) (unquote (Text.trim right)) :=
        unquotes_iff.mpr rfl
      refine Assigns.mk (mt isComment_iff.mp hcomment) hne hleft ?_ ?_ (Text.trims_trim right) ?_
      · intro c hc
        exact Bool.eq_false_of_not_eq_true fun hbreak =>
          hright (List.any_eq_true.mpr ⟨c, hc, hbreak⟩)
      · rw [String.toList_ofList]
        exact Text.trims_trim left
      · rw [String.toList_ofList]
        exact hunquotes
    · rw [assignment?_of_not_mem hmem] at h
      exact nomatch h
  · rintro ⟨hcomment, hne, hleft, hright, hname, hquoted, hvalue⟩
    rename_i left right quoted name value
    have hbreak : ¬right.any isLineTerminator = true := by
      rw [List.any_eq_true]
      rintro ⟨c, hc, hbreak⟩
      rw [hright c hc] at hbreak
      exact Bool.false_ne_true hbreak
    rw [assignment?_append hleft, if_neg (mt isComment_iff.mpr hcomment),
      if_neg (not_or.mpr ⟨hne, hbreak⟩), Text.trims_iff.mp hname, Text.trims_iff.mp hquoted,
      unquotes_iff.mp hvalue, String.ofList_toList, String.ofList_toList]

/-! ## Files -/

/-- A text and the lines between its line feeds. -/
abbrev HasLines (text : String) (lines : List (List Char)) : Prop :=
  Text.HasPieces '\n' text lines

/-- Lines and their assignments in order. -/
inductive Collects : List (List Char) → List (String × String) → Prop where
  | nil : Collects [] []
  | assigned {line : List Char} {lines : List (List Char)} {e : String × String}
      {es : List (String × String)} :
      Assigns line e → Collects lines es → Collects (line :: lines) (e :: es)
  | passed {line : List Char} {lines : List (List Char)} {es : List (String × String)} :
      (∀ e, ¬Assigns line e) → Collects lines es → Collects (line :: lines) es

/-- A settings file and the assignments that its lines make. -/
def Makes (text : String) (es : List (String × String)) : Prop :=
  ∃ lines, HasLines text lines ∧ Collects lines es

/-- The assignments of lines are what the reader takes from them one by one. -/
theorem collects_iff : Collects lines es ↔ lines.filterMap assignment? = es := by
  constructor
  · intro h
    induction h with
    | nil => rfl
    | assigned he _ ih => rw [List.filterMap_cons_some (assignment?_eq_some_iff.mpr he), ih]
    | passed hnone _ ih =>
        have hread := Option.eq_none_iff_forall_ne_some.mpr fun e he =>
          hnone e (assignment?_eq_some_iff.mp he)
        rw [List.filterMap_cons_none hread, ih]
  · rintro rfl
    induction lines with
    | nil => exact Collects.nil
    | cons line rest ih =>
        cases hread : assignment? line with
        | some e =>
            rw [List.filterMap_cons_some hread]
            exact Collects.assigned (assignment?_eq_some_iff.mp hread) ih
        | none =>
            rw [List.filterMap_cons_none hread]
            refine Collects.passed ?_ ih
            intro e he
            exact nomatch hread.symm.trans (assignment?_eq_some_iff.mpr he)

/-- The assignments of a file are those that its lines make. -/
theorem makes_iff : Makes text es ↔ assignments text = es := by
  unfold Makes
  simp only [Text.hasPieces_iff, collects_iff, exists_eq_left']
  exact Iff.rfl

/-- Files that a line feed joins assign one after the other. -/
theorem assignments_append (first second : String) :
    assignments (first ++ "\n" ++ second) = assignments first ++ assignments second := by
  have hbreak : (first ++ "\n" ++ second).toList = first.toList ++ '\n' :: second.toList := by
    simp
  unfold assignments
  rw [hbreak, List.splitOn_append_cons_self, List.filterMap_append]

end Environment

end Subnet
