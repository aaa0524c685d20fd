import Subnet.Diagnostics
import Subnet.Hostname
import Subnet.Proofs.Answers
import Subnet.Proofs.Outcomes

/-!
# Lookups — what a hostname adds to a query, and what it logs

    A query is calculated first, and the lookup comes after it: an error or a
    record that wants no hostname is the answer as it stands, and otherwise the
    lookup is put one question, the address that was parsed.  So answering
    refines calculating (`answer_refines`).

    A silent query logs nothing of its own, but what the lookup logs is passed
    on, and a lookup through a resolver logs every failure.  Its log is empty
    exactly if the resolver was not asked or did not fail (`silent_log_iff`).
-/

namespace Subnet

namespace Query

variable {q : Query} {lookup : Option Lookup} {a : Address} {r : Record}

/-! ## Answering refines calculating -/

/-- Calculating fails exactly as finding the address and its record does. -/
theorem calculate_eq_error_iff {e : QueryError} :
    q.calculate = .error e ↔ q.assemble = .error e := by
  unfold calculate
  cases q.assemble with
  | error e' =>
      constructor
      · intro h
        obtain rfl := Except.error.inj h
        rfl
      · intro h
        obtain rfl := Except.error.inj h
        rfl
  | ok found => exact ⟨fun h => (nomatch h), fun h => (nomatch h)⟩

/-- A calculated record comes with the address that it is about. -/
theorem calculate_eq_ok_iff : q.calculate = .ok r ↔ ∃ a, q.assemble = .ok (a, r) := by
  unfold calculate
  cases q.assemble with
  | error e => exact ⟨fun h => (nomatch h), fun ⟨_, h⟩ => (nomatch h)⟩
  | ok found =>
      constructor
      · intro h
        obtain rfl := Except.ok.inj h
        exact ⟨found.1, rfl⟩
      · rintro ⟨a, h⟩
        obtain rfl := Except.ok.inj h
        rfl

/-- The address that comes with a record is the one that was read, and the
    record is about it. -/
theorem reads_of_assemble (h : q.assemble = .ok (a, r)) :
    q.Reads a ∧ ∃ n block, r = q.record a n block := by
  simp only [assemble] at h
  split_ifs at h with hambiguous hmaskless
  have hposed : q.Posed := ⟨mt ambiguous_iff.mpr hambiguous, mt maskless_iff.mpr hmaskless⟩
  cases hparse : Address.parse q.addressText q.effectiveFamily with
  | error e => exact nomatch hparse ▸ h
  | ok b =>
      simp only [hparse] at h
      cases hlength : q.resolveLength b with
      | error e => exact nomatch hlength ▸ h
      | ok n =>
          simp only [hlength] at h
          cases hblock : Network.ofNumber b (.ofNat n) with
          | error e => exact nomatch hblock ▸ h
          | ok block =>
              rw [hblock] at h
              obtain ⟨rfl, rfl⟩ := Prod.mk.inj (Except.ok.inj h)
              exact ⟨reads_iff.mpr ⟨hposed, Address.parse_eq_ok_iff.mp hparse⟩, n, block, rfl⟩

/-- A query that comes to its lookup calls it once, with the parsed address. -/
theorem calls_of_assemble {find : Lookup} (hassemble : q.assemble = .ok (a, r))
    (hfield : .hostname ∈ q.fields) :
    (q.answer (some find)).calls = [a] ∧ (q.answer (some find)).asked = (find a).asked := by
  obtain ⟨answer, hresponds⟩ := exists_responds q (some find)
  rw [hresponds.answer_eq]
  cases hresponds with
  | refused h => exact nomatch hassemble.symm.trans h
  | unasked _ h => exact absurd hfield h
  | unaided _ _ h => exact nomatch h
  | found h _ hfind | missing h _ hfind =>
      obtain rfl := Option.some.inj hfind
      obtain ⟨rfl, -⟩ := Prod.mk.inj (Except.ok.inj (hassemble.symm.trans h))
      exact ⟨rfl, rfl⟩

/-- A record that is answered is the calculated one, up to the hostname. -/
theorem calculate_of_answer_ok (h : (q.answer lookup).result = .ok r) :
    ∃ r' name, q.calculate = .ok r' ∧ r = { r' with hostname := name } := by
  obtain ⟨answer, hresponds⟩ := exists_responds q lookup
  rw [hresponds.answer_eq] at h
  cases hresponds with
  | refused _ | unaided _ _ _ | missing _ _ _ _ => exact nomatch h
  | unasked hassemble _ | found hassemble _ _ _ _ =>
      obtain rfl := Except.ok.inj h
      exact ⟨_, _, calculate_eq_ok_iff.mpr ⟨_, hassemble⟩, rfl⟩

/-- A query that is answered has a calculated record. -/
theorem exists_of_answer_ok (h : (q.answer lookup).result = .ok r) :
    ∃ r', q.calculate = .ok r' := by
  obtain ⟨r', -, hcalculate, -⟩ := calculate_of_answer_ok h
  exact ⟨r', hcalculate⟩

/-- Without a hostname to find, the calculated record is the answer. -/
theorem answer_of_calculate (h : q.calculate = .ok r) (hfield : .hostname ∉ q.fields) :
    q.answer lookup = ⟨.ok r, [], [], []⟩ := by
  obtain ⟨a, hassemble⟩ := calculate_eq_ok_iff.mp h
  exact (Responds.unasked hassemble hfield).answer_eq

/-- A record that is answered without a hostname is the calculated one. -/
theorem calculate_of_answer (h : (q.answer lookup).result = .ok r)
    (hfield : .hostname ∉ q.fields) : q.calculate = .ok r := by
  obtain ⟨r', hcalculate⟩ := exists_of_answer_ok h
  rw [answer_of_calculate hcalculate hfield] at h
  rw [hcalculate, Except.ok.inj h]

end Query

/-! ## What a silent query logs -/

/-- No line is written exactly if none is wanted or there is no message. -/
theorem Diagnostics.lines_eq_nil_iff {debug : Bool} {messages : List String} :
    lines debug messages = [] ↔ debug = false ∨ messages = [] := by
  cases debug with
  | false => exact iff_of_true rfl (Or.inl rfl)
  | true => simp [lines]

namespace Hostname

variable {resolve : Resolver} {find : Lookup}

/-- A lookup goes through a resolver, which may have been told nameservers. -/
inductive Via (resolve : Resolver) : Lookup → Prop where
  | untold : Via resolve (reverse resolve)
  | told {servers : List String} {find : Lookup} : viaServers servers resolve = .ok find →
      Via resolve find

/-- Nameservers only change who answers: the lookup itself is the same. -/
theorem Via.eq_reverse (h : Via resolve find) : find = reverse resolve := by
  cases h with
  | untold => rfl
  | told h =>
      unfold viaServers at h
      split at h
      · exact nomatch h
      · exact (Except.ok.inj h).symm

/-- A resolver that gives names leaves nothing to log. -/
theorem logs_of_names {a : Address} {names : List String} (h : resolve a.text = .names names) :
    (reverse resolve a).logs = [] := by
  simp only [reverse, h]

/-- A resolver that fails has its reason logged. -/
theorem logs_of_failed {a : Address} {reason : String} (h : resolve a.text = .failed reason) :
    (reverse resolve a).logs = ["Reverse lookup for " ++ a.text ++ " failed: " ++ reason] := by
  simp only [reverse, h]

/-- A lookup logs nothing exactly if the resolver does not fail. -/
theorem logs_reverse_eq_nil_iff {a : Address} :
    (reverse resolve a).logs = [] ↔ ¬∃ reason, resolve a.text = .failed reason := by
  cases h : resolve a.text with
  | names names => exact iff_of_true (logs_of_names h) nofun
  | failed reason =>
      rw [logs_of_failed h]
      exact iff_of_false (List.cons_ne_nil _ _) (not_not_intro ⟨reason, rfl⟩)

end Hostname

namespace Query

variable {q : Query} {find : Lookup} {a : Address} {r : Record} {resolve : Resolver}
  {reason : String}

/-- The lookup is called with the address that was read, where the hostname is
    wanted. -/
theorem mem_calls_iff :
    a ∈ (q.answer (some find)).calls ↔ (∃ r, q.assemble = .ok (a, r)) ∧ .hostname ∈ q.fields := by
  constructor
  · intro h
    obtain ⟨answer, hresponds⟩ := exists_responds q (some find)
    rw [hresponds.answer_eq] at h
    cases hresponds with
    | refused _ | unasked _ _ | unaided _ _ _ => exact nomatch h
    | found hassemble hfield _ | missing hassemble hfield _ =>
        obtain rfl := List.mem_singleton.mp h
        exact ⟨⟨_, hassemble⟩, hfield⟩
  · rintro ⟨⟨r, hassemble⟩, hfield⟩
    rw [(calls_of_assemble hassemble hfield).1]
    exact List.mem_singleton.mpr rfl

/-- A silent query passes on what its calls log and adds nothing. -/
theorem logs_of_silent (hquiet : q.silent = true) :
    (q.answer (some find)).logs =
      (q.answer (some find)).calls.flatMap fun a => (find a).logs := by
  have hreport (e : QueryError) : q.report e = [] := if_pos hquiet
  obtain ⟨answer, hresponds⟩ := exists_responds q (some find)
  rw [hresponds.answer_eq]
  cases hresponds with
  | refused _ | unaided _ _ _ => exact hreport _
  | unasked _ _ => rfl
  | found _ _ hfind | missing _ _ hfind =>
      obtain rfl := Option.some.inj hfind
      simp [hreport]

/-- The query gets as far as its lookup, and there the resolver fails on the
    address that was read. -/
structure LookupFails (q : Query) (resolve : Resolver) (a : Address) (reason : String) : Prop where
  calculated : ∃ r, q.calculate = .ok r
  wanted : .hostname ∈ q.fields
  read : q.Reads a
  failed : resolve a.text = .failed reason

/-- A lookup fails exactly if it is called and the resolver fails on the address. -/
theorem lookupFails_iff (find : Lookup) :
    q.LookupFails resolve a reason ↔
      a ∈ (q.answer (some find)).calls ∧ resolve a.text = .failed reason := by
  rw [mem_calls_iff]
  constructor
  · rintro ⟨⟨r, hr⟩, hfield, hreads, hfailed⟩
    obtain ⟨b, hassemble⟩ := calculate_eq_ok_iff.mp hr
    obtain rfl := hreads.unique (reads_of_assemble hassemble).1
    exact ⟨⟨⟨r, hassemble⟩, hfield⟩, hfailed⟩
  · rintro ⟨⟨⟨r, hassemble⟩, hfield⟩, hfailed⟩
    exact ⟨⟨r, calculate_eq_ok_iff.mpr ⟨a, hassemble⟩⟩, hfield, (reads_of_assemble hassemble).1,
      hfailed⟩

/-- **SILENT QUERIES**: with a lookup through a resolver, a silent query writes
    no line exactly if log messages are not wanted or its lookup does not fail.
    If it fails, that is the one line. -/
theorem silent_log_iff (hquiet : q.silent = true) (hvia : Hostname.Via resolve find)
    (env : Environment) :
    let lines := Diagnostics.lines (Diagnostics.wanted env) (q.answer (some find)).logs
    (lines = [] ↔
      Diagnostics.wanted env = false ∨ ¬∃ a reason, q.LookupFails resolve a reason) ∧
    ∀ a reason, Diagnostics.wanted env = true → q.LookupFails resolve a reason →
      lines = ["[ipcalc] " ++ ("Reverse lookup for " ++ a.text ++ " failed: " ++ reason)] := by
  obtain rfl := hvia.eq_reverse
  constructor
  · -- nothing is logged exactly if no call logs anything
    rw [Diagnostics.lines_eq_nil_iff, logs_of_silent hquiet, List.flatMap_eq_nil_iff]
    refine or_congr_right ?_
    simp only [Hostname.logs_reverse_eq_nil_iff, lookupFails_iff (Hostname.reverse resolve)]
    push Not
    exact ⟨fun h a reason ha => h a ha reason, fun h a ha reason => h a reason ha⟩
  · intro a reason hdebug hfails
    obtain ⟨ha, hfailed⟩ := (lookupFails_iff (Hostname.reverse resolve)).mp hfails
    obtain ⟨⟨r, hassemble⟩, hfield⟩ := mem_calls_iff.mp ha
    rw [hdebug, logs_of_silent hquiet, (calls_of_assemble hassemble hfield).1,
      List.flatMap_singleton, Hostname.logs_of_failed hfailed]
    rfl

/-- A silent query with nameservers logs the failure of its lookup. -/
theorem silent_log_iff_told :
    let q : Query := ⟨"2001:db8::1", none, some (.ofNat 64), none, [.hostname], false, true⟩
    let resolve : Resolver := fun _ => .failed "queryPtr ENOTFOUND"
    let find := Hostname.reverse resolve
    let env := Environment.ofList [("IPCALC_DEBUG", "1")]
    q.silent = true ∧ Hostname.viaServers ["192.0.2.53"] resolve = .ok find ∧
      ∃ a, q.LookupFails resolve a "queryPtr ENOTFOUND" ∧
        Diagnostics.lines (Diagnostics.wanted env) (q.answer (some find)).logs =
          ["[ipcalc] " ++ ("Reverse lookup for " ++ a.text ++ " failed: " ++
            "queryPtr ENOTFOUND")] := by
  intro q resolve find env
  let a : Address := ⟨.v6, 0x20010db8000000000000000000000001, by decide⟩
  have hfails : q.LookupFails resolve a "queryPtr ENOTFOUND" := {
    calculated := ⟨q.record a 64 (Network.containing a 64), by decide +kernel⟩
    wanted := List.mem_singleton.mpr rfl
    read := ⟨posed_of_mask rfl (Or.inr rfl), _, Puts.six (InFamily.colon rfl (by decide)),
      by decide +kernel⟩
    failed := rfl }
  have husable : Nameserver.isUsable "192.0.2.53" = true := by decide +kernel
  have htold : Hostname.viaServers ["192.0.2.53"] resolve = .ok find := by
    simp [Hostname.viaServers, husable, find]
  have hdebug : Diagnostics.wanted env = true := by decide +kernel
  exact ⟨rfl, htold, a, hfails,
    (silent_log_iff rfl (Hostname.Via.told htold) env).2 a "queryPtr ENOTFOUND" hdebug hfails⟩

/-- A silent query writes a line when the resolver does not know its address. -/
theorem failed_lookup_logs :
    let q : Query := ⟨"192.0.2.1", none, none, none, [.hostname], false, true⟩
    let resolve : Resolver := fun _ => .failed "queryPtr ENOTFOUND"
    let env := Environment.ofList [("IPCALC_DEBUG", "1")]
    q.silent = true ∧ Diagnostics.wanted env = true ∧
      Diagnostics.lines (Diagnostics.wanted env)
          (q.answer (some (Hostname.reverse resolve))).logs =
        ["[ipcalc] Reverse lookup for 192.0.2.1 failed: queryPtr ENOTFOUND"] := by
  decide +kernel

end Query

end Subnet
