import Subnet.Query

/-!
# Answers — the ways a query is answered

    A query fails before any lookup, or it wants no hostname, or a lookup is
    called once with the parsed address and finds a name or not.  `Responds`
    lists these ways with the answer each gives, and `answer_eq_iff` inverts
    `answer` once for all.
-/

namespace Subnet.Query

variable {q : Query} {lookup : Option Lookup} {answer : Answer}

/-- The ways a query can be answered with a lookup, and with each the answer. -/
inductive Responds (q : Query) (lookup : Option Lookup) : Answer → Prop where
  | refused {e : QueryError} : q.assemble = .error e →
      Responds q lookup ⟨.error e, [], [], q.report e⟩
  | unasked {a : Address} {r : Record} : q.assemble = .ok (a, r) → .hostname ∉ q.fields →
      Responds q lookup ⟨.ok r, [], [], []⟩
  | unaided {a : Address} {r : Record} : q.assemble = .ok (a, r) → .hostname ∈ q.fields →
      lookup = none →
      Responds q lookup
        ⟨.error (.hostnameUnavailable q.address), [], [],
          q.report (.hostnameUnavailable q.address)⟩
  | found {a : Address} {r : Record} {find : Lookup} {name : String} :
      q.assemble = .ok (a, r) → .hostname ∈ q.fields → lookup = some find →
      (find a).name = some name → name ≠ "" →
      Responds q lookup
        ⟨.ok { r with hostname := some name }, [a], (find a).asked, (find a).logs⟩
  | missing {a : Address} {r : Record} {find : Lookup} :
      q.assemble = .ok (a, r) → .hostname ∈ q.fields → lookup = some find →
      ((find a).name = none ∨ (find a).name = some "") →
      Responds q lookup
        ⟨.error (.hostnameUnavailable q.address), [a], (find a).asked,
          (find a).logs ++ q.report (.hostnameUnavailable q.address)⟩

/-- Every query is answered in one of the ways. -/
theorem exists_responds (q : Query) (lookup : Option Lookup) :
    ∃ answer, q.Responds lookup answer := by
  cases hassemble : q.assemble with
  | error e => exact ⟨_, Responds.refused hassemble⟩
  | ok found =>
      obtain ⟨a, r⟩ := found
      by_cases hfield : .hostname ∈ q.fields
      · cases lookup with
        | none => exact ⟨_, Responds.unaided hassemble hfield rfl⟩
        | some find =>
            cases hname : (find a).name with
            | none => exact ⟨_, Responds.missing hassemble hfield rfl (Or.inl hname)⟩
            | some name =>
                by_cases hempty : name = ""
                · exact ⟨_, Responds.missing hassemble hfield rfl (Or.inr (hempty ▸ hname))⟩
                · exact ⟨_, Responds.found hassemble hfield rfl hname hempty⟩
      · exact ⟨_, Responds.unasked hassemble hfield⟩

/-- The answer of a query is that of the way in which it is answered. -/
theorem Responds.answer_eq (h : q.Responds lookup answer) : q.answer lookup = answer := by
  cases h with
  | refused hassemble => simp only [Query.answer, hassemble]
  | unasked hassemble hfield => simp only [Query.answer, hassemble, if_pos hfield]
  | unaided hassemble hfield hlookup =>
      obtain rfl := hlookup
      simp only [Query.answer, hassemble, if_neg (not_not_intro hfield)]
      rfl
  | found hassemble hfield hlookup hname hempty =>
      obtain rfl := hlookup
      simp only [Query.answer, hassemble, if_neg (not_not_intro hfield), hname, if_neg hempty]
      rfl
  | missing hassemble hfield hlookup hname =>
      obtain rfl := hlookup
      simp only [Query.answer, hassemble, if_neg (not_not_intro hfield)]
      rcases hname with hname | hname
      · simp only [hname]
        rfl
      · simp only [hname]
        rfl

/-- **INVERSION**: the answer of a query is what one of the ways gives. -/
theorem answer_eq_iff : q.answer lookup = answer ↔ q.Responds lookup answer := by
  constructor
  · rintro rfl
    obtain ⟨answer, h⟩ := exists_responds q lookup
    rw [h.answer_eq]
    exact h
  · exact Responds.answer_eq

end Subnet.Query
