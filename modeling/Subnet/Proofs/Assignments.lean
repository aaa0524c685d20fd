import Mathlib.Data.List.Basic
import Subnet.Environment

/-!
# Assignments — what a name holds once they are made

    An assignment reaches a name only while its value is missing or empty.
    `Settles` says what values that are assigned in order come to: the value there
    was, unless it is missing or empty, else the first one that is not empty, else
    the empty text if there is any.  One assignment is the step
    (`settles_assign`), more values settle on top of the first ones
    (`Settles.trans`), and a whole file follows by induction (`settles_load`).
    The value that counts afterwards, the empty text counting as none, is read off
    the result (`nonempty?_load`).
-/

namespace Subnet.Environment

variable {env : Environment} {text name value : String} {old mid result other : Option String}
  {values more : List String} {e : String × String} {es : List (String × String)}

/-- The values that assignments give a name, in their order. -/
def valuesOf (es : List (String × String)) (name : String) : List String :=
  (es.filter fun e => e.1 = name).map Prod.snd

/-- No value, or the empty one. -/
def IsVacant (old : Option String) : Prop :=
  ∀ value ∈ old, value = ""

/-- What a name holds after values are assigned to it in their order, `old` being
    what it held before. -/
inductive Settles (old : Option String) : List String → Option String → Prop where
  /-- It keeps the value it had. -/
  | kept {values : List String} {value : String} :
      old = some value → value ≠ "" → Settles old values old
  /-- It takes the first value that is not empty. -/
  | first {before after : List String} {value : String} :
      IsVacant old → (∀ v ∈ before, v = "") → value ≠ "" →
      Settles old (before ++ value :: after) (some value)
  /-- It takes the empty value where it is assigned no other. -/
  | emptied {values : List String} :
      IsVacant old → values ≠ [] → (∀ v ∈ values, v = "") → Settles old values (some "")
  /-- It stays as it was without an assignment. -/
  | untouched : Settles old [] old

/-! ## Values -/

/-- A missing value counts as none. -/
theorem isVacant_none : IsVacant none :=
  nofun

/-- An empty value counts as none. -/
theorem isVacant_empty : IsVacant (some "") := by
  rintro _ ⟨⟩
  rfl

/-- Nothing counts exactly if nothing is left of the value but an empty text. -/
theorem isVacant_iff : IsVacant old ↔ old.filter (· ≠ "") = none := by
  rw [Option.filter_eq_none_iff]
  simp [IsVacant]

/-- Among empty values none counts. -/
theorem find?_of_empty (h : ∀ v ∈ values, v = "") : values.find? (· ≠ "") = none := by
  rw [List.find?_eq_none]
  intro v hv
  simpa using h v hv

/-- A value counts exactly if it is there and not empty. -/
theorem filter_eq_some : old.filter (· ≠ "") = some value ↔ old = some value ∧ value ≠ "" := by
  rw [Option.filter_eq_some_iff, decide_eq_true_iff]

/-- Where nothing counts yet, a single value is taken as it is. -/
theorem settles_singleton (h : IsVacant old) (value : String) :
    Settles old [value] (some value) := by
  by_cases hempty : value = ""
  · obtain rfl := hempty
    exact Settles.emptied h (List.cons_ne_nil _ _) (List.forall_mem_singleton.mpr rfl)
  · have hfirst : Settles old ([] ++ value :: []) (some value) := Settles.first h nofun hempty
    exact hfirst

/-- What counts of the result is what counted before, or else the first value
    that counts. -/
theorem Settles.filter_eq (h : Settles old values result) :
    result.filter (· ≠ "") = (old.filter (· ≠ "")).or (values.find? (· ≠ "")) := by
  cases h with
  | kept hold hne =>
      rw [filter_eq_some.mpr ⟨hold, hne⟩]
      rfl
  | first hvacant hbefore hne =>
      rw [filter_eq_some.mpr ⟨rfl, hne⟩, isVacant_iff.mp hvacant, List.find?_append,
        find?_of_empty hbefore, List.find?_cons_of_pos (by simpa using hne)]
      rfl
  | emptied hvacant _ hvalues =>
      rw [isVacant_iff.mp hvacant, find?_of_empty hvalues]
      rfl
  | untouched => rw [List.find?_nil, Option.or_none]

/-- A result that does not count is the empty text, or what there was if no value
    is assigned. -/
theorem Settles.eq_of_isVacant (h : Settles old values result) (hresult : IsVacant result) :
    result = if values = [] then old else some "" := by
  cases h with
  | kept hold hne => exact absurd (hresult _ hold) hne
  | first _ _ hne => exact absurd (hresult _ rfl) hne
  | emptied _ hsome _ => rw [if_neg hsome]
  | untouched => rw [if_pos rfl]

/-- Values come to one result only. -/
theorem Settles.unique (h : Settles old values result) (h' : Settles old values other) :
    result = other := by
  have hsame : result.filter (· ≠ "") = other.filter (· ≠ "") :=
    h.filter_eq.trans h'.filter_eq.symm
  cases hcount : result.filter (· ≠ "") with
  | some value =>
      have hresult := (filter_eq_some.mp hcount).1
      have hother := (filter_eq_some.mp (hsame.symm.trans hcount)).1
      exact hresult.trans hother.symm
  | none =>
      have hresult := h.eq_of_isVacant (isVacant_iff.mpr hcount)
      have hother := h'.eq_of_isVacant (isVacant_iff.mpr (hsame.symm.trans hcount))
      exact hresult.trans hother.symm

/-- A value that counts stays, whatever is assigned. -/
theorem Settles.eq_of_ne_empty (h : Settles (some value) values result) (hne : value ≠ "") :
    result = some value :=
  h.unique (Settles.kept rfl hne)

/-- A name that is present stays present. -/
theorem Settles.exists_of_some (h : Settles (some value) values result) :
    ∃ after, result = some after := by
  cases h with
  | kept hold hne => exact ⟨value, rfl⟩
  | first => exact ⟨_, rfl⟩
  | emptied => exact ⟨"", rfl⟩
  | untouched => exact ⟨value, rfl⟩

/-- More values settle on top of the first ones. -/
theorem Settles.trans (h : Settles old values mid) (h' : Settles mid more result) :
    Settles old (values ++ more) result := by
  cases h with
  | kept hold hne =>
      obtain rfl := hold
      rw [h'.eq_of_ne_empty hne]
      exact Settles.kept rfl hne
  | first hold hbefore hne =>
      rw [h'.eq_of_ne_empty hne, List.append_assoc, List.cons_append]
      exact Settles.first hold hbefore hne
  | emptied hold hsome hvalues =>
      have hleft : values ++ more ≠ [] := List.append_ne_nil_of_left_ne_nil hsome more
      cases h' with
      | kept hmid hne => exact absurd (Option.some.inj hmid).symm hne
      | first _ hbefore hne =>
          rw [← List.append_assoc]
          refine Settles.first hold ?_ hne
          exact List.forall_mem_append.mpr ⟨hvalues, hbefore⟩
      | emptied _ _ hmore =>
          exact Settles.emptied hold hleft (List.forall_mem_append.mpr ⟨hvalues, hmore⟩)
      | untouched =>
          rw [List.append_nil]
          exact Settles.emptied hold hsome hvalues
  | untouched => exact h'

/-- The same values change nothing once they have settled. -/
theorem Settles.again (h : Settles old values result) : Settles result values result := by
  cases h with
  | kept hold hne => exact Settles.kept hold hne
  | first hold hbefore hne => exact Settles.kept rfl hne
  | emptied hold hsome hvalues => exact Settles.emptied isVacant_empty hsome hvalues
  | untouched => exact Settles.untouched

/-- A value that is present stays if it is not empty, or no other one is assigned. -/
theorem Settles.eq_iff (h : Settles (some value) values result) :
    result = some value ↔ value ≠ "" ∨ ∀ v ∈ values, v = "" := by
  constructor
  · rintro rfl
    cases h with
    | kept hold hne => exact Or.inl (Option.some.inj hold ▸ hne)
    | first _ _ hne => exact Or.inl hne
    | emptied _ _ hvalues => exact Or.inr hvalues
    | untouched => exact Or.inr nofun
  · intro hcase
    by_cases hempty : value = ""
    · obtain rfl := hempty
      have hvalues := hcase.resolve_left (not_not.mpr rfl)
      by_cases hnil : values = []
      · obtain rfl := hnil
        exact h.unique Settles.untouched
      · exact h.unique (Settles.emptied isVacant_empty hnil hvalues)
    · exact h.eq_of_ne_empty hempty

/-! ## Assignments -/

/-- The values of assignments are those of the first one and then those of the
    others. -/
theorem valuesOf_cons (e : String × String) (es : List (String × String)) (name : String) :
    valuesOf (e :: es) name = valuesOf [e] name ++ valuesOf es name := by
  unfold valuesOf
  rw [← List.map_append, ← List.filter_append, List.singleton_append]

/-- An assignment gives its own name its value. -/
theorem valuesOf_self (e : String × String) : valuesOf [e] e.1 = [e.2] := by
  simp [valuesOf]

/-- An assignment gives no value to another name. -/
theorem valuesOf_of_ne (h : e.1 ≠ name) : valuesOf [e] name = [] := by
  simp [valuesOf, h]

/-- The values of a name are those that it is assigned. -/
theorem mem_valuesOf_iff :
    value ∈ valuesOf es name ↔ (name, value) ∈ es := by
  simp [valuesOf]

/-- The value that counts is the value of the name unless it is empty. -/
theorem nonempty?_eq_filter (env : Environment) (name : String) :
    env.nonempty? name = (env.get? name).filter (· ≠ "") := by
  unfold nonempty?
  cases env.get? name with
  | none => rfl
  | some value =>
      by_cases hempty : value = ""
      · rw [isVacant_iff.mp (hempty ▸ isVacant_empty)]
        exact if_pos hempty
      · rw [filter_eq_some.mpr ⟨rfl, hempty⟩]
        exact if_neg hempty

/-- An assignment settles its own name by its value, and every other name by none. -/
theorem settles_assign (env : Environment) (e : String × String) (name : String) :
    Settles (env.get? name) (valuesOf [e] name) ((env.assign e.1 e.2).get? name) := by
  unfold assign
  by_cases hname : e.1 = name
  · obtain rfl := hname
    rw [valuesOf_self]
    cases hold : env.nonempty? e.1 with
    | some old =>
        rw [nonempty?_eq_filter] at hold
        obtain ⟨hget, hne⟩ := filter_eq_some.mp hold
        exact Settles.kept hget hne
    | none =>
        rw [nonempty?_eq_filter] at hold
        show Settles (env.get? e.1) [e.2] ((env.set e.1 e.2).get? e.1)
        rw [get?_set_self]
        exact settles_singleton (isVacant_iff.mpr hold) e.2
  · rw [valuesOf_of_ne hname]
    cases env.nonempty? e.1 with
    | some old => exact Settles.untouched
    | none =>
        show Settles (env.get? name) [] ((env.set e.1 e.2).get? name)
        rw [get?_set_of_ne env (Ne.symm hname)]
        exact Settles.untouched

/-- Assignments in order settle each name by the values that they give it. -/
theorem settles_assignAll (env : Environment) (es : List (String × String)) (name : String) :
    Settles (env.get? name) (valuesOf es name) ((env.assignAll es).get? name) := by
  induction es generalizing env with
  | nil => exact Settles.untouched
  | cons e rest ih =>
      rw [valuesOf_cons]
      exact (settles_assign env e name).trans (ih (env.assign e.1 e.2))

/-- A settings file settles each name by the values that its assignments give it. -/
theorem settles_load (env : Environment) (text name : String) :
    Settles (env.get? name) (valuesOf (assignments text) name) ((env.load text).get? name) :=
  settles_assignAll env (assignments text) name

-- an empty assignment is passed over, and the first one that is not empty stays
example : (empty.load "IPCALC_COLOR=\nIPCALC_COLOR=never\nIPCALC_COLOR=always").nonempty?
    "IPCALC_COLOR" = some "never" := by decide +kernel

end Subnet.Environment
