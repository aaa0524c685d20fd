import Subnet.Config
import Subnet.Proofs.SettingsLines

/-!
# Entries — what a list holds whose items are separated by commas

    A list is cut at its commas.  Each piece leaves an entry, which is the piece
    without the blanks at its ends, but a blank piece leaves none.  `HasEntries`
    says which entries a text has and in which order, and `HasEntry` whether it has
    an entry at all; both say what the reader does (`hasEntries_iff`,
    `hasEntry_iff`).
-/

namespace Subnet.Config

variable {raw s : String} {pieces : List (List Char)} {entries : List String}

/-- Pieces and the entries that they leave. -/
inductive Leaves : List (List Char) → List String → Prop where
  | nil : Leaves [] []
  | entry {piece : List Char} {entry : String} {pieces : List (List Char)}
      {entries : List String} :
      Text.Trims piece entry.toList → entry ≠ "" → Leaves pieces entries →
      Leaves (piece :: pieces) (entry :: entries)
  | blank {piece : List Char} {pieces : List (List Char)} {entries : List String} :
      (∀ c ∈ piece, Text.isBlank c = true) → Leaves pieces entries →
      Leaves (piece :: pieces) entries

/-- A text and its entries, in order. -/
def HasEntries (raw : String) (entries : List String) : Prop :=
  ∃ pieces, Text.HasPieces ',' raw pieces ∧ Leaves pieces entries

/-- An entry of a text: what is left of a piece between commas without the blanks
    at its ends, if anything is. -/
def HasEntry (raw s : String) : Prop :=
  ∃ pieces, Text.HasPieces ',' raw pieces ∧
    (∃ piece ∈ pieces, Text.Trims piece s.toList) ∧ s ≠ ""

/-- Pieces leave what trimming makes of them where it makes anything. -/
theorem leaves_iff :
    Leaves pieces entries ↔
      ((pieces.map Text.trim).filter (· ≠ [])).map String.ofList = entries := by
  constructor
  · intro h
    induction h with
    | nil => rfl
    | @entry piece entry _ _ htrims hne _ ih =>
        have hkept : entry.toList ≠ [] := mt String.toList_eq_nil_iff.mp hne
        rw [List.map_cons, Text.trims_iff.mp htrims, List.filter_cons_of_pos (by simpa using hkept),
          List.map_cons, String.ofList_toList, ih]
    | blank hblank _ ih =>
        rw [List.map_cons, Text.trims_iff.mp (Text.trims_nil_iff.mpr hblank),
          List.filter_cons_of_neg (by simp), ih]
  · rintro rfl
    induction pieces with
    | nil => exact Leaves.nil
    | cons piece rest ih =>
        rw [List.map_cons]
        by_cases htrim : Text.trim piece = []
        · rw [htrim, List.filter_cons_of_neg (by simp)]
          exact Leaves.blank (Text.trims_nil_iff.mp (Text.trims_iff.mpr htrim)) ih
        · rw [List.filter_cons_of_pos (by simpa using htrim), List.map_cons]
          refine Leaves.entry ?_ (mt String.ofList_eq_empty_iff.mp htrim) ih
          rw [String.toList_ofList]
          exact Text.trims_trim piece

/-- The entries of a text are those that the reader finds. -/
theorem hasEntries_iff : HasEntries raw entries ↔ listEntries raw = entries := by
  unfold HasEntries
  simp only [Text.hasPieces_iff, leaves_iff, exists_eq_left']
  exact Iff.rfl

/-- A text has its entries one by one. -/
theorem hasEntry_iff : HasEntry raw s ↔ s ∈ listEntries raw := by
  unfold HasEntry listEntries
  simp only [Text.hasPieces_iff, exists_eq_left', Text.trims_iff, List.mem_map, List.mem_filter,
    decide_eq_true_iff]
  constructor
  · rintro ⟨⟨piece, hpiece, htrim⟩, hne⟩
    exact ⟨s.toList, ⟨⟨piece, hpiece, htrim⟩, mt String.toList_eq_nil_iff.mp hne⟩,
      String.ofList_toList⟩
  · rintro ⟨kept, ⟨⟨piece, hpiece, rfl⟩, hne⟩, rfl⟩
    refine ⟨⟨piece, hpiece, ?_⟩, mt String.ofList_eq_empty_iff.mp hne⟩
    rw [String.toList_ofList]

/-- The entries of a list are found in its text one by one. -/
theorem HasEntries.mem_iff (h : HasEntries raw entries) : s ∈ entries ↔ HasEntry raw s := by
  rw [hasEntry_iff, hasEntries_iff.mp h]

end Subnet.Config
