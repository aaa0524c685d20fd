import Subnet.Nameserver
import Subnet.Proofs.CanonicalText

/-!
# Nameservers — which texts the settings accept

    The settings test a nameserver by a grammar of their own.  `Server` states
    it apart from the test, form by form: an address of either family without a
    dot after a colon is written as the address grammar has it, a quad may follow
    a few leads and may have superfluous zeros there, and a link-local address
    may have a zone.  The test accepts exactly these texts (`isAccepted_iff`).
-/

namespace Subnet.Grammar

/-! ## The grammar -/

/-- An octet, or a single digit with a superfluous zero in front. -/
inductive LooseOctet : List Char → Prop where
  | canonical {cs : List Char} {n : Nat} : Octet cs n → LooseOctet cs
  | padded {c : Char} {d : Nat} : Digit 10 c d → LooseOctet ['0', c]

/-- Four loose octets joined by dots. -/
inductive LooseQuad : List Char → Prop where
  | mk {p q r s : List Char} : LooseOctet p → LooseOctet q → LooseOctet r → LooseOctet s →
      LooseQuad (p ++ '.' :: (q ++ '.' :: (r ++ '.' :: s)))

/-- What may stand in front of a loose quad: `::`, `::ffff:` possibly with a zero
    group after it, or up to four groups and `::`. -/
inductive QuadLead : List Char → Prop where
  | gap : QuadLead "::".toList
  | mapped : QuadLead "::ffff:".toList
  | translated {zeros : List Char} : zeros ≠ [] → zeros.length ≤ 4 → (∀ c ∈ zeros, c = '0') →
      QuadLead ("::ffff:".toList ++ zeros ++ [':'])
  | groups {left : List Char} {ls : List Nat} : Items false left ls → ls.length ≤ 4 →
      QuadLead (left ++ "::".toList)

/-- At most four hexadecimal digits, possibly none. -/
def ShortGroup (cs : List Char) : Prop :=
  cs.length ≤ 4 ∧ ∀ c ∈ cs, ∃ d, Digit 16 c d

/-- A link-local address with a zone: `fe80:`, up to four short groups that each
    follow a colon, and letters and digits after a percent sign. -/
inductive Zoned : List Char → Prop where
  | mk {groups : List (List Char)} {zone : List Char} : groups.length ≤ 4 →
      (∀ g ∈ groups, ShortGroup g) → zone ≠ [] → (∀ c ∈ zone, c.isAlphanum = true) →
      Zoned ("fe80:".toList ++ groups.flatMap (':' :: ·) ++ '%' :: zone)

/-- The texts that the settings accept as a nameserver. -/
inductive Server : List Char → Prop where
  | quad {cs : List Char} {os : List Nat} : Quad cs os → Server cs
  | full {cs : List Char} {ws : List Nat} : Items false cs ws → ws.length = 8 → Server cs
  | gap {left right : List Char} {ls rs : List Nat} : Side false left ls → Side false right rs →
      ls.length + rs.length ≤ 7 → Server (left ++ "::".toList ++ right)
  | embedded {lead quad : List Char} : QuadLead lead → LooseQuad quad → Server (lead ++ quad)
  | zoned {cs : List Char} : Zoned cs → Server cs

/-! ## Loose quads -/

/-- A leading zero adds nothing to a number but a digit. -/
theorem Digits.lt_of_zero {cs : List Char} {n : Nat} (h : Digits 10 ('0' :: cs) n) :
    n < 10 ^ cs.length := by
  obtain ⟨-, ds, hds, rfl⟩ := h
  obtain ⟨d, rest, hd, hrest, rfl⟩ := List.forall₂_cons_left_iff.mp hds
  have hzero : d = 0 := (digit_ten_iff.mp hd).2
  rw [Radix.value_cons, hzero, Nat.zero_mul, Nat.zero_add, hrest.length_eq]
  exact Radix.value_lt (lt_of_forall₂_digit hrest)

/-- An octet has at most three digits, and with three it counts a hundred at least. -/
theorem Octet.length_le {cs : List Char} {n : Nat} (h : Octet cs n) :
    cs.length < 3 ∨ cs.length = 3 ∧ 100 ≤ n := by
  have hthree : cs.length ≤ 3 := by
    rw [h.eq_toDigits, Nat.length_toDigits_le_iff (by decide) (by decide)]
    exact Nat.lt_of_le_of_lt h.le (by decide)
  have htwo : cs.length ≤ 2 ↔ n < 10 ^ 2 := by
    rw [h.eq_toDigits, Nat.length_toDigits_le_iff (by decide) (by decide)]
  omega

/-- A zero in front of a digit changes nothing. -/
theorem digits_padded {c : Char} {d : Nat} (h : Digit 10 c d) : Digits 10 ['0', c] d :=
  (digits_singleton h).replicate_zero_append (by decide) 1

/-- A superfluous zero leaves room for one more digit only. -/
theorem looseOctet_of_digits {cs : List Char} {n : Nat} (hdigits : Digits 10 cs n)
    (hlt : n < 256) (hlength : cs.length < 3 ∨ cs.length = 3 ∧ 100 ≤ n) : LooseOctet cs := by
  by_cases hcanonical : cs.head? = some '0' → cs = ['0']
  · exact LooseOctet.canonical ⟨hdigits, hcanonical, Nat.le_of_lt_succ hlt⟩
  · obtain ⟨hhead, hne⟩ := Classical.not_imp.mp hcanonical
    obtain ⟨rest, rfl⟩ := List.head?_eq_some_iff.mp hhead
    match rest, hlength with
    | [], _ => exact absurd rfl hne
    | [c], _ =>
        obtain ⟨-, ds, hds, -⟩ := hdigits
        obtain ⟨_, rest, -, hrest, -⟩ := List.forall₂_cons_left_iff.mp hds
        obtain ⟨d, _, hd, -, -⟩ := List.forall₂_cons_left_iff.mp hrest
        exact LooseOctet.padded hd
    | c :: e :: more, hlength =>
        -- a leading zero and two digits make a number below 100, and three
        -- characters need one from there on
        have hsmall := hdigits.lt_of_zero
        simp only [List.length_cons] at hlength hsmall
        obtain rfl : more = [] := List.length_eq_zero_iff.mp (by omega)
        simp only [List.length_nil] at hlength hsmall
        omega

/-- The matcher takes exactly the loose octets. -/
theorem looseOctet_iff {cs : List Char} : Nameserver.looseOctet cs = true ↔ LooseOctet cs := by
  have hread : Nameserver.looseOctet cs = true ↔
      ∃ n, Digits 10 cs n ∧ n < 256 ∧ (cs.length < 3 ∨ cs.length = 3 ∧ 100 ≤ n) := by
    simp only [← decimal?_eq_some_iff]
    unfold Nameserver.looseOctet
    cases Numeral.decimal? cs <;> simp
  rw [hread]
  constructor
  · rintro ⟨n, hdigits, hlt, hlength⟩
    exact looseOctet_of_digits hdigits hlt hlength
  · intro h
    cases h with
    | canonical h => exact ⟨_, h.digits, Nat.lt_succ_of_le h.le, h.length_le⟩
    | padded h =>
        exact ⟨_, digits_padded h, Nat.lt_trans h.1 (by decide), Or.inl (Nat.lt_succ_self 2)⟩

/-- A loose octet has no character but letters and digits. -/
theorem LooseOctet.not_mem {cs : List Char} (h : LooseOctet cs) {c : Char}
    (hc : c.isAlphanum = false) : c ∉ cs := by
  cases h with
  | canonical h => exact h.not_mem hc
  | padded h => exact (digits_padded h).not_mem hc

/-- Four pieces without dots are what a text is split into that joins them. -/
theorem four_pieces_iff {P : List Char → Prop} (hP : ∀ cs, P cs → '.' ∉ cs) {cs : List Char} :
    ((cs.splitOn '.').length = 4 ∧ ∀ piece ∈ cs.splitOn '.', P piece) ↔
      ∃ p q r s, P p ∧ P q ∧ P r ∧ P s ∧ cs = p ++ '.' :: (q ++ '.' :: (r ++ '.' :: s)) := by
  constructor
  · rintro ⟨hlength, hall⟩
    have hjoin : ['.'].intercalate (cs.splitOn '.') = cs := List.intercalate_splitOn '.'
    match cs.splitOn '.', hlength, hall, hjoin with
    | [p, q, r, s], _, hall, hjoin =>
        obtain ⟨hp, hq, hr, hs⟩ : P p ∧ P q ∧ P r ∧ P s := by simpa using hall
        exact ⟨p, q, r, s, hp, hq, hr, hs, by simpa using hjoin.symm⟩
  · rintro ⟨p, q, r, s, hp, hq, hr, hs, rfl⟩
    rw [splitOn_four (hP p hp) (hP q hq) (hP r hr) (hP s hs)]
    simp [hp, hq, hr, hs]

/-- A loose quad is cut at its dots into four loose octets. -/
theorem looseQuad_iff_pieces {cs : List Char} :
    LooseQuad cs ↔ (cs.splitOn '.').length = 4 ∧ ∀ octet ∈ cs.splitOn '.', LooseOctet octet := by
  rw [four_pieces_iff fun _ h => h.not_mem rfl]
  constructor
  · rintro ⟨hp, hq, hr, hs⟩
    exact ⟨_, _, _, _, hp, hq, hr, hs, rfl⟩
  · rintro ⟨_, _, _, _, hp, hq, hr, hs, rfl⟩
    exact LooseQuad.mk hp hq hr hs

/-- The matcher takes exactly the loose quads. -/
theorem looseQuad_iff {cs : List Char} : Nameserver.looseQuad cs = true ↔ LooseQuad cs := by
  rw [looseQuad_iff_pieces]
  simp only [Nameserver.looseQuad, Bool.and_eq_true, beq_iff_eq, List.all_eq_true, looseOctet_iff]

/-- A loose quad has no character but letters, digits and dots. -/
theorem LooseQuad.not_mem {cs : List Char} (h : LooseQuad cs) {c : Char}
    (hc : c.isAlphanum = false) (hdot : c ≠ '.') : c ∉ cs := by
  obtain ⟨hp, hq, hr, hs⟩ := h
  simp [hp.not_mem hc, hq.not_mem hc, hr.not_mem hc, hs.not_mem hc, hdot]

/-! ## The test -/

/-- What is left after a start is what follows it. -/
theorem after?_eq_some_iff {start cs rest : List Char} :
    Nameserver.after? start cs = some rest ↔ cs = start ++ rest := by
  unfold Nameserver.after?
  split
  · rename_i hstart
    obtain ⟨tail, rfl⟩ := List.isPrefixOf_iff_prefix.mp hstart
    rw [List.drop_left, Option.some.injEq, List.append_cancel_left_eq]
  · rename_i hstart
    refine iff_of_false nofun ?_
    rintro rfl
    exact hstart (List.isPrefixOf_iff_prefix.mpr (List.prefix_append start rest))

/-- Plain groups that the matcher takes are a text of the grammar. -/
theorem server_of_plainGroups {cs : List Char} (h : Nameserver.plainGroups cs = true) :
    Server cs := by
  unfold Nameserver.plainGroups at h
  split at h
  · rename_i left right hcut
    split at h
    · rename_i ls rs hls hrs
      rw [eq_append_of_cutGap? hcut]
      refine Server.gap (groups?_eq_some_iff.mp hls) (groups?_eq_some_iff.mp hrs) ?_
      simpa using h
    · exact nomatch h
  · split at h
    · rename_i ws hws
      have hlength : (ws.map UInt16.toNat).length = 8 := by simpa using h
      have hside := groups?_eq_some_iff.mp hws
      generalize ws.map UInt16.toNat = ns at hlength hside
      cases hside with
      | empty => exact nomatch hlength
      | items hitems => exact Server.full hitems hlength
    · exact nomatch h

/-- Eight groups without a gap are taken by the matcher. -/
theorem plainGroups_of_items {cs : List Char} {ws : List Nat} (h : Items false cs ws)
    (hlength : ws.length = 8) : Nameserver.plainGroups cs = true := by
  obtain ⟨ws, rfl⟩ := (Side.items h).exists_words
  have hread := groups?_eq_some_iff.mpr (Side.items h)
  rw [List.length_map] at hlength
  simp [Nameserver.plainGroups, cutGap?_items h, hread, hlength]

/-- Groups around a gap, seven at most, are taken by the matcher. -/
theorem plainGroups_of_sides {left right : List Char} {ls rs : List Nat} (hl : Side false left ls)
    (hr : Side false right rs) (hlength : ls.length + rs.length ≤ 7) :
    Nameserver.plainGroups (left ++ "::".toList ++ right) = true := by
  obtain ⟨ls, rfl⟩ := hl.exists_words
  obtain ⟨rs, rfl⟩ := hr.exists_words
  simp only [List.length_map] at hlength
  simp only [Nameserver.plainGroups, cutGap?_side hl, groups?_eq_some_iff.mpr hl,
    groups?_eq_some_iff.mpr hr, hlength, decide_true]

/-- The matcher takes exactly the short groups. -/
theorem shortGroup_iff {cs : List Char} : Nameserver.shortGroup cs = true ↔ ShortGroup cs := by
  simp only [Nameserver.shortGroup, ShortGroup, Bool.and_eq_true, decide_eq_true_eq,
    List.all_eq_true, Option.isSome_iff_exists, hexDigit?_eq_some_iff]

/-- A short group has no character but letters and digits. -/
theorem ShortGroup.not_mem {cs : List Char} (h : ShortGroup cs) {c : Char}
    (hc : c.isAlphanum = false) : c ∉ cs := by
  intro hmem
  obtain ⟨d, hd⟩ := h.2 c hmem
  exact Bool.false_ne_true (hc.symm.trans hd.isAlphanum)

/-- Pieces that each follow a colon are what a text that starts with one splits
    into, after nothing. -/
theorem splitOn_flatMap {groups : List (List Char)} (h : ∀ g ∈ groups, ':' ∉ g) :
    (groups.flatMap (':' :: ·)).splitOn ':' = [] :: groups := by
  have hjoin : [':'].intercalate ([] :: groups) = groups.flatMap (':' :: ·) :=
    intercalate_cons_flatMap [] groups
  rw [← hjoin]
  refine List.splitOn_intercalate ':' ?_ (List.cons_ne_nil _ _)
  exact List.forall_mem_cons.mpr ⟨List.not_mem_nil, h⟩

/-- A link-local text that the matcher takes has a zone as the grammar says. -/
theorem zoned_of_linkLocal {cs : List Char} (h : Nameserver.linkLocal cs = true) :
    Zoned cs := by
  unfold Nameserver.linkLocal at h
  split at h
  · exact nomatch h
  · rename_i rest hrest
    obtain rfl := after?_eq_some_iff.mp hrest
    split at h
    · rename_i groups mark zone hgroups hzone
      simp only [Bool.and_eq_true, decide_eq_true_eq, List.all_eq_true, shortGroup_iff] at h
      obtain ⟨⟨⟨hcount, hshort⟩, hne⟩, hall⟩ := h
      -- the groups and the zone are what the text was cut into at the first mark
      obtain rfl : mark = '%' := by
        have hhead := List.head?_dropWhile_not (fun c => decide (c ≠ '%')) rest
        rw [hzone] at hhead
        simpa using hhead
      have hbefore : groups.flatMap (':' :: ·) = rest.takeWhile (· ≠ '%') := by
        have hjoin : [':'].intercalate ((rest.takeWhile (· ≠ '%')).splitOn ':') = _ :=
          List.intercalate_splitOn ':'
        rwa [hgroups, intercalate_cons_flatMap] at hjoin
      have hparts : rest = groups.flatMap (':' :: ·) ++ '%' :: zone := by
        rw [hbefore, ← hzone]
        exact List.takeWhile_append_dropWhile.symm
      rw [hparts, ← List.append_assoc]
      exact Zoned.mk hcount hshort hne hall
    · exact nomatch h

/-- A text with a zone as the grammar says is taken by the matcher. -/
theorem linkLocal_of_zoned {cs : List Char} (h : Zoned cs) : Nameserver.linkLocal cs = true := by
  cases h with
  | @mk groups zone hcount hshort hne hall =>
      have hpercent : '%' ∉ groups.flatMap (':' :: ·) := by
        intro hmem
        obtain ⟨g, hg, hmem⟩ := List.mem_flatMap.mp hmem
        rcases List.mem_cons.mp hmem with hcolon | hmem
        · exact absurd hcolon (by decide)
        · exact (hshort g hg).not_mem rfl hmem
      obtain ⟨hbefore, hzone⟩ := cut_append hpercent zone
      have hrest := after?_eq_some_iff.mpr
        (List.append_assoc "fe80:".toList (groups.flatMap (':' :: ·)) ('%' :: zone))
      have hsplit := splitOn_flatMap fun g hg => (hshort g hg).not_mem (c := ':') rfl
      simp only [Nameserver.linkLocal, hrest, hbefore, hzone, hsplit, Bool.and_eq_true,
        decide_eq_true_eq, List.all_eq_true, shortGroup_iff]
      exact ⟨⟨⟨hcount, hshort⟩, hne⟩, hall⟩

/-- A quad behind a mark that the matcher takes is a text of the grammar. -/
theorem server_of_mappedQuad {cs : List Char} (h : Nameserver.mappedQuad cs = true) :
    Server cs := by
  unfold Nameserver.mappedQuad at h
  split at h
  · exact nomatch h
  · rename_i rest hrest
    obtain rfl := after?_eq_some_iff.mp hrest
    have hjoin : [':'].intercalate (rest.splitOn ':') = rest := List.intercalate_splitOn ':'
    split at h
    · rename_i quad hpieces
      rw [hpieces] at hjoin
      rw [← hjoin, List.intercalate_singleton]
      exact Server.embedded QuadLead.gap (looseQuad_iff.mp h)
    · rename_i mark quad hpieces
      simp only [Bool.and_eq_true, decide_eq_true_eq] at h
      obtain ⟨rfl, hquad⟩ := h
      rw [hpieces] at hjoin
      rw [← hjoin]
      have hserver := Server.embedded QuadLead.mapped (looseQuad_iff.mp hquad)
      simpa using hserver
    · rename_i mark zeros quad hpieces
      simp only [Bool.and_eq_true, decide_eq_true_eq, List.all_eq_true] at h
      obtain ⟨⟨⟨⟨rfl, hne⟩, hlength⟩, hzeros⟩, hquad⟩ := h
      rw [hpieces] at hjoin
      rw [← hjoin]
      have hserver := Server.embedded (QuadLead.translated hne hlength hzeros) (looseQuad_iff.mp hquad)
      simpa using hserver
    · exact nomatch h

/-- A quad behind groups and a gap that the matcher takes is a text of the grammar. -/
theorem server_of_embeddedQuad {cs : List Char} (h : Nameserver.embeddedQuad cs = true) :
    Server cs := by
  unfold Nameserver.embeddedQuad at h
  split at h
  · rename_i left right hcut
    split at h
    · rename_i ls hls
      simp only [Bool.and_eq_true, decide_eq_true_eq] at h
      obtain ⟨⟨hpos, hle⟩, hquad⟩ := h
      rw [eq_append_of_cutGap? hcut]
      have hside := groups?_eq_some_iff.mp hls
      -- the grammar speaks of numbers, the reader of words
      rw [← List.length_map (f := UInt16.toNat)] at hpos hle
      generalize ls.map UInt16.toNat = ns at hside hpos hle
      cases hside with
      | empty => exact nomatch hpos
      | items hitems => exact Server.embedded (QuadLead.groups hitems hle) (looseQuad_iff.mp hquad)
    · exact nomatch h
  · exact nomatch h

/-- A loose quad has no colon. -/
theorem LooseQuad.not_mem_colon {cs : List Char} (h : LooseQuad cs) : ':' ∉ cs :=
  h.not_mem rfl (by decide)

/-- Up to four groups, a gap and a loose quad are taken by the matcher. -/
theorem embeddedQuad_of_items {left quad : List Char} {ls : List Nat} (hitems : Items false left ls)
    (hlength : ls.length ≤ 4) (hquad : LooseQuad quad) :
    Nameserver.embeddedQuad (left ++ "::".toList ++ quad) = true := by
  obtain ⟨ls, rfl⟩ := (Side.items hitems).exists_words
  have hread := groups?_eq_some_iff.mpr (Side.items hitems)
  have hpos : 1 ≤ ls.length := by
    cases ls with
    | nil => exact nomatch hitems
    | cons w rest => exact Nat.le_add_left 1 rest.length
  rw [List.length_map] at hlength
  simp only [Nameserver.embeddedQuad, cutGap?_side (Side.items hitems), hread, hpos, hlength,
    looseQuad_iff.mpr hquad, decide_true, Bool.and_self]

/-- A quad after any of its leads is accepted. -/
theorem embedded_of_lead {lead quad : List Char} (hlead : QuadLead lead) (hquad : LooseQuad quad) :
    Nameserver.mappedQuad (lead ++ quad) = true ∨ Nameserver.embeddedQuad (lead ++ quad) = true := by
  have hloose := looseQuad_iff.mpr hquad
  have hcolon := hquad.not_mem_colon
  -- the pieces between the colons tell the leads apart
  cases hlead with
  | gap =>
      left
      have hrest : Nameserver.after? "::".toList ("::".toList ++ quad) = some quad :=
        after?_eq_some_iff.mpr rfl
      simp only [Nameserver.mappedQuad, hrest, List.splitOn_eq_singleton hcolon, hloose]
  | mapped =>
      left
      have hrest : Nameserver.after? "::".toList ("::ffff:".toList ++ quad) =
          some ("ffff".toList ++ ':' :: quad) := after?_eq_some_iff.mpr rfl
      have hsplit : ("ffff".toList ++ ':' :: quad).splitOn ':' = ["ffff".toList, quad] := by
        rw [List.splitOn_append_cons_self_of_not_mem (by decide), List.splitOn_eq_singleton hcolon]
      simp only [Nameserver.mappedQuad, hrest, hsplit, hloose, decide_true, Bool.and_self]
  | @translated zeros hne hlength hzeros =>
      left
      have hrest : Nameserver.after? "::".toList ("::ffff:".toList ++ zeros ++ [':'] ++ quad) =
          some ("ffff".toList ++ ':' :: (zeros ++ ':' :: quad)) :=
        after?_eq_some_iff.mpr (by simp)
      have hcolon' : ':' ∉ zeros := fun hmem => absurd (hzeros ':' hmem) (by decide)
      have hsplit : ("ffff".toList ++ ':' :: (zeros ++ ':' :: quad)).splitOn ':' =
          ["ffff".toList, zeros, quad] := by
        rw [List.splitOn_append_cons_self_of_not_mem (by decide),
          List.splitOn_append_cons_self_of_not_mem hcolon', List.splitOn_eq_singleton hcolon]
      simp only [Nameserver.mappedQuad, hrest, hsplit, hloose]
      simpa [hne, hlength] using hzeros
  | groups hitems hlength => exact Or.inr (embeddedQuad_of_items hitems hlength hquad)

/-- The matcher takes exactly the texts of the grammar. -/
theorem isAccepted_iff {text : String} :
    Nameserver.isAccepted text = true ↔ Server text.toList := by
  simp only [Nameserver.isAccepted, Bool.or_eq_true]
  constructor
  · rintro ((((h | h) | h) | h) | h)
    · obtain ⟨os, hos⟩ := Option.isSome_iff_exists.mp h
      exact Server.quad (quad?_eq_some_iff.mp hos)
    · exact server_of_plainGroups h
    · exact Server.zoned (zoned_of_linkLocal h)
    · exact server_of_mappedQuad h
    · exact server_of_embeddedQuad h
  · intro h
    generalize text.toList = cs at h ⊢
    cases h with
    | quad hquad =>
        obtain ⟨os, -, hread⟩ := hquad.read
        simp only [hread, Option.isSome_some, true_or]
    | full hitems hlength => simp only [plainGroups_of_items hitems hlength, true_or, or_true]
    | gap hl hr hlength => simp only [plainGroups_of_sides hl hr hlength, true_or, or_true]
    | embedded hlead hquad =>
        rcases embedded_of_lead hlead hquad with h | h
        · simp only [h, true_or, or_true]
        · simp only [h, or_true]
    | zoned hzoned => simp only [linkLocal_of_zoned hzoned, true_or, or_true]

end Subnet.Grammar
