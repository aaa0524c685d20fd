import Mathlib.Data.List.TakeWhile
import Subnet.Address.Parser
import Subnet.Proofs.Numerals

/-!
# The address grammar — which texts are addresses, and of what value

    The grammar is stated apart from the parser: `Quad` for dotted quads,
    `Items` for colon-separated groups of which a quad may be the last, and
    `Words` for an IPv6 text, with `::` standing for the zero words that
    complete eight.  The parser accepts exactly these texts, with these words.

    The only step that is not local is the cut at `::`.  Items neither start
    nor end with a colon and hold no two in a row (`cutGap?_items_append`), so
    the first `::` of a text is the one the grammar means.
-/

namespace Subnet.Grammar

/-! ## The grammar -/

/-- A group: one to four hexadecimal digits of either case. -/
def Group (cs : List Char) (w : Nat) : Prop :=
  cs.length ≤ 4 ∧ Digits 16 cs w

/-- An octet: a decimal numeral up to 255 without superfluous zeros. -/
structure Octet (cs : List Char) (n : Nat) : Prop where
  digits : Digits 10 cs n
  canonical : cs.head? = some '0' → cs = ['0']
  le : n ≤ 255

/-- A dotted quad: four octets joined by dots. -/
inductive Quad : List Char → List Nat → Prop where
  | mk {p q r s : List Char} {a b c d : Nat} : Octet p a → Octet q b → Octet r c → Octet s d →
      Quad (p ++ '.' :: (q ++ '.' :: (r ++ '.' :: s))) [a, b, c, d]

/-- Groups joined by colons, and the words they are worth; the last item may be
    a dotted quad, worth two words, where one may close the text. -/
inductive Items (closing : Bool) : List Char → List Nat → Prop where
  | group {cs : List Char} {w : Nat} : Group cs w → Items closing cs [w]
  | quad {cs : List Char} {a b c d : Nat} : closing = true → Quad cs [a, b, c, d] →
      Items closing cs [a * 256 + b, c * 256 + d]
  | cons {cs rest : List Char} {w : Nat} {ws : List Nat} : Group cs w → Items closing rest ws →
      Items closing (cs ++ ':' :: rest) (w :: ws)

/-- A possibly empty list of items: what may stand on a side of `::`. -/
inductive Side (closing : Bool) : List Char → List Nat → Prop where
  | empty : Side closing [] []
  | items {cs : List Char} {ws : List Nat} : Items closing cs ws → Side closing cs ws

/-- An IPv6 text and its eight words: items worth eight, or two sides worth at
    most seven around `::`, which stands for the missing zero words. -/
inductive Words : List Char → List Nat → Prop where
  | full {cs : List Char} {ws : List Nat} : Items true cs ws → ws.length = 8 → Words cs ws
  | gap {left right : List Char} {ls rs : List Nat} : Side false left ls → Side true right rs →
      ls.length + rs.length ≤ 7 →
      Words (left ++ "::".toList ++ right)
        (ls ++ List.replicate (8 - (ls.length + rs.length)) 0 ++ rs)

/-! ## Separators -/

/-- A text is cut at its first separator. -/
theorem cut_append {separator : Char} {before : List Char} (h : separator ∉ before)
    (after : List Char) :
    (before ++ separator :: after).takeWhile (· ≠ separator) = before ∧
      (before ++ separator :: after).dropWhile (· ≠ separator) = separator :: after := by
  have hall : ∀ c ∈ before, decide (c ≠ separator) = true := fun c hc =>
    decide_eq_true (ne_of_mem_of_not_mem hc h)
  rw [List.takeWhile_append_of_pos hall, List.dropWhile_append_of_pos hall]
  simp

/-- Nothing is cut off a text without the separator. -/
theorem cut_of_not_mem {separator : Char} {cs : List Char} (h : separator ∉ cs) :
    cs.dropWhile (· ≠ separator) = [] := by
  rw [List.dropWhile_eq_nil_iff]
  intro c hc
  exact decide_eq_true (ne_of_mem_of_not_mem hc h)

/-- Of joined groups each but the first follows a colon. -/
theorem intercalate_cons_flatMap (g : List Char) (groups : List (List Char)) :
    [':'].intercalate (g :: groups) = g ++ groups.flatMap (':' :: ·) := by
  induction groups generalizing g with
  | nil => simp
  | cons next rest ih =>
      rw [List.intercalate_cons_cons, ih, List.flatMap_cons]
      simp

/-- Joined pieces are pieces that a separator follows, and a last one. -/
theorem intercalate_concat_flatMap {separator : Char} (pieces : List (List Char))
    (last : List Char) :
    [separator].intercalate (pieces ++ [last]) = pieces.flatMap (· ++ [separator]) ++ last := by
  induction pieces with
  | nil => simp
  | cons first rest ih =>
      obtain ⟨next, more, hmore⟩ : ∃ next more, rest ++ [last] = next :: more :=
        List.exists_cons_of_ne_nil (by simp)
      rw [List.cons_append, hmore, List.intercalate_cons_cons, ← hmore, ih, List.flatMap_cons]
      simp

/-! ## Octets and quads -/

/-- The octet reader takes exactly the octets of the grammar. -/
theorem octet?_eq_some_iff {cs : List Char} {o : UInt8} :
    Address.octet? cs = some o ↔ Octet cs o.toNat := by
  unfold Address.octet?
  constructor
  · intro h
    split at h
    · rename_i n hn
      split at h
      · rename_i hlt
        obtain rfl := Option.some.inj h
        obtain ⟨hd, hc⟩ := canonicalDecimal?_eq_some_iff.mp hn
        have htoNat : (UInt8.ofNat n).toNat = n := by
          rw [UInt8.toNat_ofNat', Nat.mod_eq_of_lt hlt]
        rw [htoNat]
        exact ⟨hd, hc, Nat.le_of_lt_succ hlt⟩
      · exact nomatch h
    · exact nomatch h
  · intro h
    rw [canonicalDecimal?_eq_some_iff.mpr ⟨h.digits, h.canonical⟩]
    show (if o.toNat < 256 then some (UInt8.ofNat o.toNat) else none) = some o
    rw [if_pos o.toNat_lt, UInt8.ofNat_toNat]

/-- An octet has no character but letters and digits. -/
theorem Octet.not_mem {cs : List Char} {n : Nat} (h : Octet cs n) {c : Char}
    (hc : c.isAlphanum = false) : c ∉ cs :=
  h.digits.not_mem hc

/-- Four pieces joined by dots are cut at the three dots. -/
theorem splitOn_four {p q r s : List Char} (hp : '.' ∉ p) (hq : '.' ∉ q) (hr : '.' ∉ r)
    (hs : '.' ∉ s) : (p ++ '.' :: (q ++ '.' :: (r ++ '.' :: s))).splitOn '.' = [p, q, r, s] := by
  rw [List.splitOn_append_cons_self_of_not_mem hp, List.splitOn_append_cons_self_of_not_mem hq,
    List.splitOn_append_cons_self_of_not_mem hr, List.splitOn_eq_singleton hs]

/-- The quad reader takes exactly four octets joined by dots. -/
theorem quad?_eq_some_iff {cs : List Char} {os : List UInt8} :
    Address.quad? cs = some os ↔ Quad cs (os.map UInt8.toNat) := by
  unfold Address.quad?
  constructor
  · intro h
    split at h
    · rename_i ps hps
      split at h
      · rename_i hlen
        obtain rfl := Option.some.inj h
        have hread := (mapM_eq_some_iff_forall₂ octet?_eq_some_iff).mp hps
        have hjoin : ['.'].intercalate (cs.splitOn '.') = cs := List.intercalate_splitOn '.'
        rw [← hjoin]
        -- four octets were read, so there are four pieces
        match ps, hlen with
        | [a, b, c, d], _ =>
            generalize cs.splitOn '.' = pieces at hread ⊢
            cases hread with
            | cons ha hread => cases hread with
              | cons hb hread => cases hread with
                | cons hc hread => cases hread with
                  | cons hd hread =>
                      cases hread
                      have hquad := Quad.mk ha hb hc hd
                      simpa using hquad
      · exact nomatch h
    · exact nomatch h
  · intro h
    generalize hns : os.map UInt8.toNat = ns at h
    cases h with
    | mk hp hq hr hs =>
        match os, hns with
        | [o₁, o₂, o₃, o₄], hns =>
            obtain ⟨rfl, rfl, rfl, rfl⟩ : o₁.toNat = _ ∧ o₂.toNat = _ ∧ o₃.toNat = _ ∧
                o₄.toNat = _ := by simpa using hns
            -- the text splits into the octets it was joined from
            have hread : [_, _, _, _].mapM Address.octet? = some [o₁, o₂, o₃, o₄] :=
              (mapM_eq_some_iff_forall₂ octet?_eq_some_iff).mpr
                (.cons hp (.cons hq (.cons hr (.cons hs .nil))))
            rw [splitOn_four (hp.not_mem rfl) (hq.not_mem rfl) (hr.not_mem rfl) (hs.not_mem rfl), hread]
            rfl

/-! ## Groups and items -/

/-- A group fits into a word. -/
theorem Group.lt {cs : List Char} {w : Nat} (h : Group cs w) : w < 65536 := by
  have hpow : 16 ^ cs.length ≤ 16 ^ 4 := Nat.pow_le_pow_right (by decide) h.1
  have := h.2.lt
  omega

/-- The group reader takes exactly the groups of the grammar. -/
theorem group?_eq_some_iff {cs : List Char} {w : UInt16} :
    Address.group? cs = some w ↔ Group cs w.toNat := by
  unfold Address.group?
  by_cases hlen : cs.length ≤ 4
  · rw [if_pos hlen, Option.map_eq_some_iff]
    constructor
    · rintro ⟨n, hn, rfl⟩
      have hgroup : Group cs n := ⟨hlen, hexadecimal?_eq_some_iff.mp hn⟩
      rw [UInt16.toNat_ofNat', Nat.mod_eq_of_lt hgroup.lt]
      exact hgroup
    · intro h
      exact ⟨w.toNat, hexadecimal?_eq_some_iff.mpr h.2, UInt16.ofNat_toNat⟩
  · rw [if_neg hlen]
    exact ⟨nofun, fun h => absurd h.1 hlen⟩

/-- Groups have no character but letters and digits. -/
theorem Group.not_mem {cs : List Char} {w : Nat} (h : Group cs w) {c : Char}
    (hc : c.isAlphanum = false) : c ∉ cs :=
  h.2.not_mem hc

/-- A quad has four octets. -/
theorem Quad.length_eq {cs : List Char} {os : List Nat} (h : Quad cs os) : os.length = 4 := by
  cases h with
  | mk => rfl

/-- Octets that a quad denotes are four. -/
theorem Quad.length_octets {cs : List Char} {os : List UInt8}
    (h : Quad cs (os.map UInt8.toNat)) : os.length = 4 := by
  rw [← List.length_map (f := UInt8.toNat)]
  exact h.length_eq

/-- A quad has no character but letters, digits and dots. -/
theorem Quad.not_mem {cs : List Char} {os : List Nat} (h : Quad cs os) {c : Char}
    (hc : c.isAlphanum = false) (hdot : c ≠ '.') : c ∉ cs := by
  cases h with
  | mk hp hq hr hs => simp [hp.not_mem hc, hq.not_mem hc, hr.not_mem hc, hs.not_mem hc, hdot]

/-- A quad has no colon, so it is told from an IPv6 text. -/
theorem Quad.not_mem_colon {cs : List Char} {os : List Nat} (h : Quad cs os) : ':' ∉ cs :=
  h.not_mem rfl (by decide)

/-- A quad has three dots. -/
theorem Quad.count_dot {cs : List Char} {os : List Nat} (h : Quad cs os) : cs.count '.' = 3 := by
  cases h with
  | mk hp hq hr hs =>
      have hp := List.count_eq_zero.mpr (hp.not_mem (c := '.') rfl)
      have hq := List.count_eq_zero.mpr (hq.not_mem (c := '.') rfl)
      have hr := List.count_eq_zero.mpr (hr.not_mem (c := '.') rfl)
      have hs := List.count_eq_zero.mpr (hs.not_mem (c := '.') rfl)
      simp [hp, hq, hr, hs]

/-- A quad is no group: it has a dot. -/
theorem Quad.not_group {cs : List Char} {os : List Nat} (h : Quad cs os) {w : Nat} :
    ¬ Group cs w := by
  intro hg
  cases h with
  | mk => exact hg.not_mem (c := '.') rfl (by simp)

/-- Four octets make the two words at the end of an IPv6 address. -/
theorem words_of_quad {o₁ o₂ o₃ o₄ : UInt8} :
    (Address.pairOctets [o₁, o₂, o₃, o₄]).map UInt16.toNat =
      [o₁.toNat * 256 + o₂.toNat, o₃.toNat * 256 + o₄.toNat] := by
  simp only [Address.pairOctets, List.map_cons, List.map_nil, Address.toNat_pair]

/-- A quad that is read gives the two words of its octets. -/
theorem quad?_words {cs : List Char} {os : List UInt8} (h : Address.quad? cs = some os) :
    Items true cs ((Address.pairOctets os).map UInt16.toNat) := by
  have hquad := quad?_eq_some_iff.mp h
  match os, hquad.length_octets with
  | [o₁, o₂, o₃, o₄], _ =>
      rw [words_of_quad]
      exact Items.quad rfl hquad

/-- Pieces that are all read as groups are items. -/
theorem items_of_mapM_group {pieces : List (List Char)} {ws : List UInt16}
    (hne : pieces ≠ []) (h : pieces.mapM Address.group? = some ws) (closing : Bool) :
    Items closing ([':'].intercalate pieces) (ws.map UInt16.toNat) := by
  have hread := (mapM_eq_some_iff_forall₂ group?_eq_some_iff).mp h
  induction hread with
  | nil => exact absurd rfl hne
  | @cons piece w rest ws hg hread ih =>
      cases hread with
      | nil =>
          rw [List.intercalate_singleton]
          exact Items.group hg
      | cons hg' hread' =>
          have hrest := ih (List.cons_ne_nil _ _)
            ((mapM_eq_some_iff_forall₂ group?_eq_some_iff).mpr (.cons hg' hread'))
          rw [List.intercalate_cons_cons]
          simpa using Items.cons hg hrest

/-- A piece that is not the last one is read as a group. -/
theorem pieceWords?_cons {piece : List Char} {rest : List (List Char)} (h : rest ≠ []) :
    Address.pieceWords? (piece :: rest) =
      match Address.group? piece, Address.pieceWords? rest with
      | some w, some ws => some (w :: ws)
      | _, _ => none := by
  cases rest with
  | nil => exact absurd rfl h
  | cons next rest => rfl

/-- Pieces of which a quad may be the last are items that may close a text. -/
theorem items_of_pieceWords? {pieces : List (List Char)} {ws : List UInt16}
    (hne : pieces ≠ []) (h : Address.pieceWords? pieces = some ws) :
    Items true ([':'].intercalate pieces) (ws.map UInt16.toNat) := by
  induction pieces generalizing ws with
  | nil => exact absurd rfl hne
  | cons piece rest ih =>
      cases rest with
      | nil =>
          rw [List.intercalate_singleton]
          rw [Address.pieceWords?] at h
          split at h
          · rename_i w hw
            obtain rfl := Option.some.inj h
            exact Items.group (group?_eq_some_iff.mp hw)
          · obtain ⟨os, hos, rfl⟩ := Option.map_eq_some_iff.mp h
            exact quad?_words hos
      | cons next rest =>
          rw [pieceWords?_cons (List.cons_ne_nil _ _)] at h
          split at h
          · rename_i w us hw hus
            obtain rfl := Option.some.inj h
            have hrest := ih (List.cons_ne_nil _ _) hus
            rw [List.intercalate_cons_cons]
            simpa using Items.cons (group?_eq_some_iff.mp hw) hrest
          · cases h

/-- A group of the grammar is read. -/
theorem Group.read {cs : List Char} {w : Nat} (h : Group cs w) :
    ∃ u : UInt16, u.toNat = w ∧ Address.group? cs = some u := by
  have htoNat : (UInt16.ofNat w).toNat = w := by
    rw [UInt16.toNat_ofNat', Nat.mod_eq_of_lt h.lt]
  exact ⟨UInt16.ofNat w, htoNat, group?_eq_some_iff.mpr (htoNat.symm ▸ h)⟩

/-- The number of an octet fits into eight bits. -/
theorem Octet.read {cs : List Char} {n : Nat} (h : Octet cs n) :
    ∃ o : UInt8, o.toNat = n ∧ Octet cs o.toNat := by
  have htoNat : (UInt8.ofNat n).toNat = n := by
    rw [UInt8.toNat_ofNat', Nat.mod_eq_of_lt (Nat.lt_succ_of_le h.le)]
  exact ⟨UInt8.ofNat n, htoNat, htoNat.symm ▸ h⟩

/-- A quad of the grammar is read. -/
theorem Quad.read {cs : List Char} {ns : List Nat} (h : Quad cs ns) :
    ∃ os : List UInt8, os.map UInt8.toNat = ns ∧ Address.quad? cs = some os := by
  cases h with
  | mk hp hq hr hs =>
      obtain ⟨o₁, rfl, hp⟩ := hp.read
      obtain ⟨o₂, rfl, hq⟩ := hq.read
      obtain ⟨o₃, rfl, hr⟩ := hr.read
      obtain ⟨o₄, rfl, hs⟩ := hs.read
      exact ⟨[o₁, o₂, o₃, o₄], rfl, quad?_eq_some_iff.mpr (Quad.mk hp hq hr hs)⟩

/-- Groups alone are read piece by piece between the colons. -/
theorem mapM_group?_of_items {cs : List Char} {ns : List Nat} (h : Items false cs ns) :
    ∃ ws : List UInt16, ws.map UInt16.toNat = ns ∧
      (cs.splitOn ':').mapM Address.group? = some ws := by
  induction h with
  | group hg =>
      obtain ⟨u, rfl, hu⟩ := hg.read
      refine ⟨[u], rfl, ?_⟩
      rw [List.splitOn_eq_singleton (hg.not_mem rfl), List.mapM_cons, hu]
      rfl
  | quad hclosing => exact Bool.noConfusion hclosing
  | cons hg _ ih =>
      obtain ⟨u, rfl, hu⟩ := hg.read
      obtain ⟨ws, rfl, hws⟩ := ih
      refine ⟨u :: ws, rfl, ?_⟩
      rw [List.splitOn_append_cons_self_of_not_mem (hg.not_mem rfl), List.mapM_cons, hu, hws]
      rfl

/-- Items are read piece by piece, groups everywhere and a quad at the end. -/
theorem pieceWords?_of_items {cs : List Char} {ns : List Nat} (h : Items true cs ns) :
    ∃ ws : List UInt16, ws.map UInt16.toNat = ns ∧
      Address.pieceWords? (cs.splitOn ':') = some ws := by
  induction h with
  | group hg =>
      obtain ⟨u, rfl, hu⟩ := hg.read
      refine ⟨[u], rfl, ?_⟩
      rw [List.splitOn_eq_singleton (hg.not_mem rfl), Address.pieceWords?, hu]
  | @quad cs a b c d _ hq =>
      obtain ⟨os, hos, hread⟩ := hq.read
      -- a quad is no group, so the last piece is read as a quad
      have hnone : Address.group? cs = none := by
        refine Option.eq_none_iff_forall_ne_some.mpr fun w hw => ?_
        exact hq.not_group (group?_eq_some_iff.mp hw)
      refine ⟨Address.pairOctets os, ?_, ?_⟩
      · match os, hos with
        | [o₁, o₂, o₃, o₄], hos =>
            obtain ⟨rfl, rfl, rfl, rfl⟩ : o₁.toNat = a ∧ o₂.toNat = b ∧ o₃.toNat = c ∧
                o₄.toNat = d := by simpa using hos
            exact words_of_quad
      · rw [List.splitOn_eq_singleton hq.not_mem_colon, Address.pieceWords?, hnone, hread]
        rfl
  | cons hg _ ih =>
      obtain ⟨u, rfl, hu⟩ := hg.read
      obtain ⟨ws, rfl, hws⟩ := ih
      refine ⟨u :: ws, rfl, ?_⟩
      rw [List.splitOn_append_cons_self_of_not_mem (hg.not_mem rfl),
        pieceWords?_cons (List.splitOn_ne_nil _ _), hu, hws]

/-! ## Sides of the gap -/

/-- Words are determined by their numbers. -/
theorem eq_of_map_toNat_eq {us ws : List UInt16}
    (h : us.map UInt16.toNat = ws.map UInt16.toNat) : us = ws :=
  List.map_injective_iff.mpr (fun _ _ => UInt16.toNat_inj.mp) h

/-- Items start with a digit: they are not empty, and their first character is
    no colon. -/
theorem Items.exists_cons {closing : Bool} {cs : List Char} {ws : List Nat}
    (h : Items closing cs ws) : ∃ c rest, cs = c :: rest ∧ c ≠ ':' := by
  have key : ∀ {ds : List Char} {base n : Nat}, Digits base ds n →
      ∀ tail, ∃ c rest, ds ++ tail = c :: rest ∧ c ≠ ':' := by
    intro ds base n hds tail
    cases ds with
    | nil => exact absurd rfl hds.1
    | cons c ds =>
        refine ⟨c, ds ++ tail, rfl, ?_⟩
        rintro rfl
        exact hds.not_mem (c := ':') rfl List.mem_cons_self
  cases h with
  | group hg =>
      obtain ⟨c, rest, h⟩ := key hg.2 []
      rw [List.append_nil] at h
      exact ⟨c, rest, h⟩
  | quad _ hq =>
      cases hq with
      | mk hp => exact key hp.digits _
  | cons hg _ => exact key hg.2 _

/-- A reader of pieces that reads exactly the items reads exactly the sides,
    once it takes the empty text for no items at all. -/
theorem side_iff_of_read {closing : Bool} {read : List (List Char) → Option (List UInt16)}
    (hsound : ∀ {pieces ws}, pieces ≠ [] → read pieces = some ws →
      Items closing ([':'].intercalate pieces) (ws.map UInt16.toNat))
    (hcomplete : ∀ {cs ns}, Items closing cs ns →
      ∃ ws : List UInt16, ws.map UInt16.toNat = ns ∧ read (cs.splitOn ':') = some ws)
    {cs : List Char} {ws : List UInt16} :
    (if cs = [] then some [] else read (cs.splitOn ':')) = some ws ↔
      Side closing cs (ws.map UInt16.toNat) := by
  constructor
  · intro h
    split at h
    · rename_i hcs
      obtain rfl := Option.some.inj h
      rw [hcs]
      exact Side.empty
    · have hitems := hsound (List.splitOn_ne_nil ':' cs) h
      rw [List.intercalate_splitOn] at hitems
      exact Side.items hitems
  · intro h
    generalize hns : ws.map UInt16.toNat = ns at h
    cases h with
    | empty => rw [if_pos rfl, List.map_eq_nil_iff.mp hns]
    | items hitems =>
        obtain ⟨us, hus, hread⟩ := hcomplete hitems
        obtain ⟨c, rest, hcs, -⟩ := hitems.exists_cons
        rw [if_neg (by rw [hcs]; exact List.cons_ne_nil c rest), hread,
          eq_of_map_toNat_eq (hus.trans hns.symm)]

/-- Exactly the lists of groups are read on the left of `::`. -/
theorem groups?_eq_some_iff {cs : List Char} {ws : List UInt16} :
    Address.groups? cs = some ws ↔ Side false cs (ws.map UInt16.toNat) :=
  side_iff_of_read (fun hne h => items_of_mapM_group hne h false) mapM_group?_of_items

/-- Exactly the lists of groups that a quad may close are read on the right of
    `::`, and where there is none. -/
theorem groupsOrQuad?_eq_some_iff {cs : List Char} {ws : List UInt16} :
    Address.groupsOrQuad? cs = some ws ↔ Side true cs (ws.map UInt16.toNat) :=
  side_iff_of_read items_of_pieceWords? pieceWords?_of_items

/-! ## The cut at the gap -/

/-- A cut puts the two sides around the first `::`. -/
theorem eq_append_of_cutGap? {cs left right : List Char}
    (h : Address.cutGap? cs = some (left, right)) : cs = left ++ "::".toList ++ right := by
  fun_induction Address.cutGap? cs generalizing left with
  | case1 rest =>
      obtain ⟨rfl, rfl⟩ := Prod.mk.inj (Option.some.inj h)
      rfl
  | case2 c rest _ ih =>
      obtain ⟨⟨l, r⟩, hlr, hpair⟩ := Option.map_eq_some_iff.mp h
      obtain ⟨rfl, rfl⟩ := Prod.mk.inj hpair
      rw [ih hlr]
      rfl
  | case3 => exact nomatch h

/-- A character that starts no gap stays in front of the cut. -/
theorem cutGap?_cons {c : Char} {rest : List Char} (h : c ≠ ':' ∨ rest.head? ≠ some ':') :
    Address.cutGap? (c :: rest) =
      (Address.cutGap? rest).map fun sides => (c :: sides.1, sides.2) := by
  refine Address.cutGap?.eq_2 c rest fun rest' hc hrest => ?_
  rcases h with h | h
  · exact h hc
  · exact h (by rw [hrest]; rfl)

/-- A text without colons stays in front of the cut. -/
theorem cutGap?_append {cs : List Char} (h : ':' ∉ cs) (rest : List Char) :
    Address.cutGap? (cs ++ rest) =
      (Address.cutGap? rest).map fun sides => (cs ++ sides.1, sides.2) := by
  induction cs with
  | nil => simp
  | cons c cs ih =>
      have hc : c ≠ ':' := fun hc => h (hc ▸ List.mem_cons_self)
      have hcs : ':' ∉ cs := fun hmem => h (List.mem_cons_of_mem c hmem)
      rw [List.cons_append, cutGap?_cons (Or.inl hc), ih hcs, Option.map_map]
      rfl

/-- **Items hold no gap**: whatever follows them, they go to the left side as a
    whole. -/
theorem cutGap?_items_append {closing : Bool} {cs : List Char} {ws : List Nat}
    (h : Items closing cs ws) (rest : List Char) :
    Address.cutGap? (cs ++ rest) =
      (Address.cutGap? rest).map fun sides => (cs ++ sides.1, sides.2) := by
  induction h with
  | group hg => exact cutGap?_append (hg.not_mem rfl) rest
  | quad _ hq => exact cutGap?_append hq.not_mem_colon rest
  | @cons cs items w ws hg hitems ih =>
      obtain ⟨c, tail, hcons, hc⟩ := hitems.exists_cons
      -- the colon between two items is alone: a digit follows it
      have hhead : (items ++ rest).head? ≠ some ':' := by
        rw [hcons]
        exact fun h => hc (Option.some.inj h)
      rw [List.append_assoc, List.cons_append, cutGap?_append (hg.not_mem rfl),
        cutGap?_cons (Or.inr hhead), ih, Option.map_map, Option.map_map]
      refine congrArg (Option.map · _) (funext fun sides => ?_)
      simp

/-- Groups joined by single colons have no gap. -/
theorem cutGap?_items {closing : Bool} {cs : List Char} {ws : List Nat}
    (h : Items closing cs ws) : Address.cutGap? cs = none := by
  have hcut := cutGap?_items_append h []
  rwa [List.append_nil] at hcut

/-- A side on the left of `::` is cut off there. -/
theorem cutGap?_side {left : List Char} {ls : List Nat} (h : Side false left ls)
    (right : List Char) :
    Address.cutGap? (left ++ "::".toList ++ right) = some (left, right) := by
  cases h with
  | empty => rfl
  | items hitems =>
      rw [List.append_assoc, cutGap?_items_append hitems]
      simp [Address.cutGap?]

/-! ## IPv6 texts -/

/-- What a side of a gap denotes fits into words. -/
theorem Side.exists_words {closing : Bool} {cs : List Char} {ns : List Nat}
    (h : Side closing cs ns) : ∃ ws : List UInt16, ws.map UInt16.toNat = ns := by
  cases h with
  | empty => exact ⟨[], rfl⟩
  | items hitems =>
      cases closing with
      | false =>
          obtain ⟨ws, hws, -⟩ := mapM_group?_of_items hitems
          exact ⟨ws, hws⟩
      | true =>
          obtain ⟨ws, hws, -⟩ := pieceWords?_of_items hitems
          exact ⟨ws, hws⟩

/-- A text of the grammar is read, as words of the numbers it is worth. -/
theorem Words.read {cs : List Char} {ns : List Nat} (h : Words cs ns) :
    ∃ ws : List UInt16, ws.map UInt16.toNat = ns ∧ Address.wordsOfText? cs = some ws := by
  cases h with
  | full hitems hlen =>
      obtain ⟨ws, rfl⟩ := (Side.items hitems).exists_words
      -- items hold no gap, so there is nothing to cut at
      have hcut := cutGap?_items hitems
      have hread := groupsOrQuad?_eq_some_iff.mpr (Side.items hitems)
      rw [List.length_map] at hlen
      refine ⟨ws, rfl, ?_⟩
      simp only [Address.wordsOfText?, hcut, hread, hlen, if_true]
  | @gap left right _ _ hleft hright hlen =>
      obtain ⟨ls, rfl⟩ := hleft.exists_words
      obtain ⟨rs, rfl⟩ := hright.exists_words
      simp only [List.length_map] at hlen ⊢
      -- the cut is at the gap, and each side is read by its own reader
      refine ⟨ls ++ List.replicate (8 - (ls.length + rs.length)) 0 ++ rs, by simp, ?_⟩
      simp only [Address.wordsOfText?, cutGap?_side hleft, groups?_eq_some_iff.mpr hleft,
        groupsOrQuad?_eq_some_iff.mpr hright]
      rw [if_pos (by omega)]

/-- A text that is read is one of the grammar, worth the words it is read as. -/
theorem words_of_wordsOfText? {cs : List Char} {ws : List UInt16}
    (h : Address.wordsOfText? cs = some ws) : Words cs (ws.map UInt16.toNat) := by
  unfold Address.wordsOfText? at h
  split at h
  · rename_i left right hcut
    split at h
    · rename_i ls rs hls hrs
      split at h
      · rename_i hlen
        obtain rfl := Option.some.inj h
        have hgap := Words.gap (groups?_eq_some_iff.mp hls) (groupsOrQuad?_eq_some_iff.mp hrs)
          (by simp only [List.length_map]; omega)
        rw [eq_append_of_cutGap? hcut]
        simpa using hgap
      · exact nomatch h
    · exact nomatch h
  · split at h
    · rename_i us hus
      split at h
      · rename_i hlen
        obtain rfl := Option.some.inj h
        have hside := groupsOrQuad?_eq_some_iff.mp hus
        rw [← List.length_map (f := UInt16.toNat)] at hlen
        generalize us.map UInt16.toNat = ns at hlen hside ⊢
        cases hside with
        | empty => exact nomatch hlen
        | items hitems => exact Words.full hitems hlen
      · exact nomatch h
    · exact nomatch h

/-- The IPv6 reader takes exactly the texts of the grammar, with their words. -/
theorem wordsOfText?_eq_some_iff {cs : List Char} {ws : List UInt16} :
    Address.wordsOfText? cs = some ws ↔ Words cs (ws.map UInt16.toNat) := by
  refine ⟨words_of_wordsOfText?, fun h => ?_⟩
  obtain ⟨us, hus, hread⟩ := h.read
  rw [hread, eq_of_map_toNat_eq hus]

/-- An IPv6 text denotes eight words. -/
theorem Words.length_eq {cs : List Char} {ns : List Nat} (h : Words cs ns) : ns.length = 8 := by
  cases h with
  | full _ hlen => exact hlen
  | gap _ _ hlen =>
      simp only [List.length_append, List.length_replicate]
      omega

/-- Eight words make the address with their value. -/
theorem value_ofWords {ws : List UInt16} (h : ws.length = 8) :
    (Address.ofWords ws).value = Radix.value 65536 (ws.map UInt16.toNat) := by
  have hlt := Radix.value_lt (Address.lt_of_mem_map_toNat_words ws)
  rw [List.length_map, h] at hlt
  exact Nat.mod_eq_of_lt hlt

/-- The IPv6 addresses that are read are those of the grammar's words. -/
theorem parse?_v6_eq_some_iff {text : String} {a : Address} :
    Address.parse? text .v6 = some a ↔
      a.family = .v6 ∧ ∃ ns, Words text.toList ns ∧ a.value = Radix.value 65536 ns := by
  unfold Address.parse? Address.ofChars?
  rw [Option.map_eq_some_iff]
  constructor
  · rintro ⟨ws, hread, rfl⟩
    have hwords := wordsOfText?_eq_some_iff.mp hread
    have hlen := hwords.length_eq
    rw [List.length_map] at hlen
    exact ⟨rfl, _, hwords, value_ofWords hlen⟩
  · rintro ⟨hfamily, ns, hwords, hvalue⟩
    obtain ⟨ws, rfl, hread⟩ := hwords.read
    have hlen := hwords.length_eq
    rw [List.length_map] at hlen
    exact ⟨ws, hread, Address.ext hfamily.symm ((value_ofWords hlen).trans hvalue.symm)⟩

/-- **The IPv6 reader is exact**: the texts of the grammar are read, as the
    big-endian concatenation of their words, and every other text is refused as
    a malformed address. -/
theorem parse_v6_exact (text : String) :
    (∀ a, Address.parse text .v6 = .ok a ↔
      a.family = .v6 ∧ ∃ ns, Words text.toList ns ∧ a.value = Radix.value 65536 ns) ∧
    (∀ e, Address.parse text .v6 = .error e ↔
      e = .malformedAddress .v6 text ∧ ¬ ∃ ns, Words text.toList ns) := by
  refine ⟨fun a => Address.parse_eq_ok_iff.trans parse?_v6_eq_some_iff, fun e => ?_⟩
  rw [Address.parse_eq_error_iff]
  refine and_congr_right fun _ => ⟨?_, ?_⟩
  · rintro hnone ⟨ns, hwords⟩
    obtain ⟨ws, -, hread⟩ := hwords.read
    have hsome : Address.parse? text .v6 = some (Address.ofWords ws) :=
      congrArg (Option.map Address.ofWords) hread
    rw [hnone] at hsome
    exact nomatch hsome
  · intro hno
    refine Option.eq_none_iff_forall_ne_some.mpr fun a ha => hno ?_
    obtain ⟨-, ns, hwords, -⟩ := parse?_v6_eq_some_iff.mp ha
    exact ⟨ns, hwords⟩

end Subnet.Grammar
