import Subnet.Proofs.Nameservers

/-!
# Addresses among nameservers — where the two grammars differ

    Not every nameserver is an address.  A zone is none of the address grammar,
    and the octets of a quad that follows a colon may have a superfluous zero
    (`Lax`).  There is no other difference in this direction: a nameserver is an
    address unless it is lax (`Server.isAddress_iff`).

    What decides about a quad is the piece after the last colon: a dot stands
    nowhere else in an address, so this piece must be a quad as the address
    grammar has it (`Words.quad_of_lastPiece`).
-/

namespace Subnet.Grammar

/-! ## Addresses among them -/

/-- The text is an address of the family that it suggests. -/
def IsAddress (text : String) : Prop :=
  ∃ a, Address.parse text (Family.detect text) = .ok a

/-- A text is an address exactly if it is a quad or an IPv6 text. -/
theorem isAddress_iff {text : String} :
    IsAddress text ↔ (∃ os, Quad text.toList os) ∨ ∃ ws, Words text.toList ws := by
  unfold IsAddress
  simp only [Address.parse_eq_ok_iff]
  constructor
  · rintro ⟨a, ha⟩
    cases hf : Family.detect text with
    | v4 =>
        rw [hf] at ha
        obtain ⟨os, hos, -⟩ := Option.map_eq_some_iff.mp ha
        exact Or.inl ⟨_, quad?_eq_some_iff.mp hos⟩
    | v6 =>
        rw [hf] at ha
        obtain ⟨-, ws, hws, -⟩ := parse?_v6_eq_some_iff.mp ha
        exact Or.inr ⟨ws, hws⟩
  · rintro (⟨os, hquad⟩ | ⟨ws, hwords⟩)
    · obtain ⟨os, -, hread⟩ := hquad.read
      have hparse : Address.parse? text .v4 = some (Address.ofOctets .v4 os) :=
        congrArg (Option.map (Address.ofOctets .v4)) hread
      exact ⟨_, (detect_of_parse? hparse).symm ▸ hparse⟩
    · obtain ⟨ws, -, hread⟩ := hwords.read
      have hparse : Address.parse? text .v6 = some (Address.ofWords ws) :=
        congrArg (Option.map Address.ofWords) hread
      exact ⟨_, (detect_of_parse? hparse).symm ▸ hparse⟩

/-- Groups without a quad are groups that a quad might close. -/
theorem Items.closing {cs : List Char} {ws : List Nat} (h : Items false cs ws) :
    Items true cs ws := by
  induction h with
  | group hg => exact Items.group hg
  | quad hclosing => exact Bool.noConfusion hclosing
  | cons hg _ ih => exact Items.cons hg ih

/-- A side without a quad is a side that a quad might close. -/
theorem Side.closing {cs : List Char} {ws : List Nat} (h : Side false cs ws) :
    Side true cs ws := by
  cases h with
  | empty => exact Side.empty
  | items hitems => exact Side.items hitems.closing

/-- Up to four zeros are a group that denotes zero. -/
theorem group_zeros {zeros : List Char} (hne : zeros ≠ []) (hlength : zeros.length ≤ 4)
    (hzeros : ∀ c ∈ zeros, c = '0') : Group zeros 0 := by
  have hpos := List.length_pos_iff.mpr hne
  have hlast : zeros = List.replicate (zeros.length - 1) '0' ++ Nat.toDigits 16 0 := by
    refine (List.eq_replicate_of_mem hzeros).trans ?_
    conv_lhs => rw [← Nat.sub_add_cancel hpos, List.replicate_succ']
    rfl
  refine ⟨hlength, ?_⟩
  rw [hlast]
  exact (digits_toDigits (by decide) (by decide) 0).replicate_zero_append (by decide) _

/-- A quad after any of its leads closes an IPv6 text. -/
theorem QuadLead.words {lead quad : List Char} {os : List Nat} (hlead : QuadLead lead)
    (hquad : Quad quad os) : ∃ ws, Words (lead ++ quad) ws := by
  match os, hquad.length_eq with
  | [a, b, c, d], _ =>
      have hitems := Items.quad rfl hquad
      have hmark : Group "ffff".toList 0xffff := group_toDigits 0xffff
      cases hlead with
      | gap => exact ⟨_, Words.gap Side.empty (Side.items hitems) (by simp)⟩
      | mapped => exact ⟨_, Words.gap Side.empty (Side.items (Items.cons hmark hitems)) (by simp)⟩
      | translated hne hlength hzeros =>
          have hzero := group_zeros hne hlength hzeros
          have hwords := Words.gap Side.empty
            (Side.items (Items.cons hmark (Items.cons hzero hitems))) (by simp)
          rw [List.append_assoc, List.append_assoc]
          exact ⟨_, hwords⟩
      | groups hleft hlength =>
          have hsum : _ + 2 ≤ 7 := Nat.add_le_add_right (Nat.le_trans hlength (by decide)) 2
          exact ⟨_, Words.gap (Side.items hleft) (Side.items hitems) hsum⟩

/-! ## The piece after the last colon -/

/-- What stands after the last colon of a text. -/
def LastPiece (cs tail : List Char) : Prop :=
  ':' ∉ tail ∧ (cs = tail ∨ ∃ before, cs = before ++ ':' :: tail)

/-- Without colons a text is its own last piece. -/
theorem lastPiece_iff_of_not_mem {cs tail : List Char} (h : ':' ∉ cs) :
    LastPiece cs tail ↔ cs = tail := by
  constructor
  · rintro ⟨-, hcs | ⟨before, rfl⟩⟩
    · exact hcs
    · simp at h
  · rintro rfl
    exact ⟨h, Or.inl rfl⟩

/-- What stands in front of a colon does not matter to the last piece. -/
theorem lastPiece_append_iff {before cs tail : List Char} :
    LastPiece (before ++ ':' :: cs) tail ↔ LastPiece cs tail := by
  unfold LastPiece
  refine and_congr_right fun hcolon => ?_
  constructor
  · rintro (rfl | ⟨before', h⟩)
    · simp at hcolon
    · rcases List.append_eq_append_iff.mp h with ⟨as, -, has⟩ | ⟨bs, -, hbs⟩
      · rcases List.cons_eq_append_iff.mp has with ⟨rfl, htail⟩ | ⟨more, rfl, rfl⟩
        · exact Or.inl (List.cons.inj htail).2.symm
        · exact Or.inr ⟨more, rfl⟩
      · rcases List.cons_eq_append_iff.mp hbs with ⟨rfl, htail⟩ | ⟨more, rfl, rfl⟩
        · exact Or.inl (List.cons.inj htail).2
        · simp at hcolon
  · rintro (rfl | ⟨before', rfl⟩)
    · exact Or.inr ⟨before, rfl⟩
    · exact Or.inr ⟨before ++ ':' :: before', by simp⟩

/-- Where a dot stands after the last colon of items, a quad does. -/
theorem Items.quad_of_lastPiece {closing : Bool} {cs tail : List Char} {ws : List Nat}
    (h : Items closing cs ws) (hlast : LastPiece cs tail) (hdot : '.' ∈ tail) :
    ∃ os, Quad tail os := by
  induction h with
  | group hg =>
      obtain rfl := (lastPiece_iff_of_not_mem (hg.not_mem rfl)).mp hlast
      exact absurd hdot (hg.not_mem rfl)
  | quad _ hquad =>
      obtain rfl := (lastPiece_iff_of_not_mem hquad.not_mem_colon).mp hlast
      exact ⟨_, hquad⟩
  | cons _ _ ih => exact ih (lastPiece_append_iff.mp hlast)

/-- The last piece of an IPv6 text is a quad if it has a dot. -/
theorem Words.quad_of_lastPiece {cs tail : List Char} {ws : List Nat} (h : Words cs ws)
    (hlast : LastPiece cs tail) (hdot : '.' ∈ tail) : ∃ os, Quad tail os := by
  cases h with
  | full hitems => exact hitems.quad_of_lastPiece hlast hdot
  | @gap left right _ _ _ hright =>
      -- the second colon of the gap is one before the last piece
      have hcs : left ++ "::".toList ++ right = (left ++ [':']) ++ ':' :: right := by simp
      rw [hcs, lastPiece_append_iff] at hlast
      cases hright with
      | empty =>
          obtain rfl := (lastPiece_iff_of_not_mem List.not_mem_nil).mp hlast
          exact nomatch hdot
      | items hitems => exact hitems.quad_of_lastPiece hlast hdot

/-- What stands in front of a quad ends in a colon. -/
theorem QuadLead.exists_colon {lead : List Char} (h : QuadLead lead) :
    ∃ before, lead = before ++ [':'] := by
  cases h with
  | gap => exact ⟨[':'], rfl⟩
  | mapped => exact ⟨"::ffff".toList, rfl⟩
  | translated => exact ⟨_, rfl⟩
  | @groups left => exact ⟨left ++ [':'], by simp⟩

/-- A loose quad has a dot. -/
theorem LooseQuad.mem_dot {cs : List Char} (h : LooseQuad cs) : '.' ∈ cs := by
  cases h with
  | mk => simp

/-- A text with a zone has a percent sign. -/
theorem Zoned.mem_percent {cs : List Char} (h : Zoned cs) : '%' ∈ cs := by
  cases h with
  | mk => simp

/-! ## Lax texts -/

/-- An octet of the text has a superfluous zero. -/
def HasPaddedOctet (quad : List Char) : Prop :=
  ∃ octet ∈ quad.splitOn '.', octet.head? = some '0' ∧ octet ≠ ['0']

/-- The accepted texts that are no addresses: those with a zone, and those with
    a superfluous zero in their quad. -/
inductive Lax : List Char → Prop where
  | zoned {cs : List Char} : Zoned cs → Lax cs
  | padded {lead quad : List Char} : QuadLead lead → LooseQuad quad → HasPaddedOctet quad →
      Lax (lead ++ quad)

/-- A loose octet is an octet unless it has a superfluous zero. -/
theorem LooseOctet.exists_octet_iff {cs : List Char} (h : LooseOctet cs) :
    (∃ n, Octet cs n) ↔ ¬(cs.head? = some '0' ∧ cs ≠ ['0']) := by
  cases h with
  | canonical h => exact iff_of_true ⟨_, h⟩ fun hpadded => hpadded.2 (h.canonical hpadded.1)
  | padded =>
      refine iff_of_false ?_ (not_not_intro ⟨rfl, nofun⟩)
      rintro ⟨n, hn⟩
      exact nomatch hn.canonical rfl

/-- A quad is cut at its dots into four octets. -/
theorem exists_quad_iff {cs : List Char} :
    (∃ os, Quad cs os) ↔
      (cs.splitOn '.').length = 4 ∧ ∀ octet ∈ cs.splitOn '.', ∃ n, Octet octet n := by
  rw [four_pieces_iff fun _ ⟨_, h⟩ => h.not_mem rfl]
  constructor
  · rintro ⟨_, hp, hq, hr, hs⟩
    exact ⟨_, _, _, _, ⟨_, hp⟩, ⟨_, hq⟩, ⟨_, hr⟩, ⟨_, hs⟩, rfl⟩
  · rintro ⟨_, _, _, _, ⟨_, hp⟩, ⟨_, hq⟩, ⟨_, hr⟩, ⟨_, hs⟩, rfl⟩
    exact ⟨_, Quad.mk hp hq hr hs⟩

/-- A loose quad is a quad unless an octet has a superfluous zero. -/
theorem LooseQuad.exists_quad_iff {cs : List Char} (h : LooseQuad cs) :
    (∃ os, Quad cs os) ↔ ¬HasPaddedOctet cs := by
  obtain ⟨hlength, hloose⟩ := looseQuad_iff_pieces.mp h
  rw [Grammar.exists_quad_iff]
  constructor
  · rintro ⟨-, hoctets⟩ ⟨octet, hmem, hpadded⟩
    exact (hloose octet hmem).exists_octet_iff.mp (hoctets octet hmem) hpadded
  · intro hnone
    refine ⟨hlength, fun octet hmem => (hloose octet hmem).exists_octet_iff.mpr ?_⟩
    exact fun hpadded => hnone ⟨octet, hmem, hpadded⟩

/-- No text with a zone or a superfluous zero is an address. -/
theorem Lax.not_isAddress {text : String} (h : Lax text.toList) : ¬IsAddress text := by
  rw [isAddress_iff, not_or]
  generalize text.toList = cs at h ⊢
  cases h with
  | zoned hzoned =>
      have hpercent := hzoned.mem_percent
      constructor
      · rintro ⟨os, hquad⟩
        exact hquad.not_mem rfl (by decide) hpercent
      · rintro ⟨ws, hwords⟩
        exact hwords.not_mem rfl (by decide) (by decide) hpercent
  | padded hlead hquad hpadded =>
      obtain ⟨before, rfl⟩ := hlead.exists_colon
      have hnone := not_imp_not.mpr hquad.exists_quad_iff.mp (not_not_intro hpadded)
      constructor
      · rintro ⟨os, hos⟩
        exact hos.not_mem_colon (by simp)
      · rintro ⟨ws, hwords⟩
        -- the quad is the last piece, so an address would read it strictly
        refine hnone (hwords.quad_of_lastPiece ⟨hquad.not_mem_colon, Or.inr ⟨before, ?_⟩⟩ hquad.mem_dot)
        simp

/-- A text of the grammar is an address exactly if it is not lax. -/
theorem Server.isAddress_iff {text : String} (h : Server text.toList) :
    IsAddress text ↔ ¬Lax text.toList := by
  refine ⟨fun haddress hlax => hlax.not_isAddress haddress, fun hstrict => ?_⟩
  rw [Grammar.isAddress_iff]
  generalize text.toList = cs at h hstrict ⊢
  cases h with
  | quad hquad => exact Or.inl ⟨_, hquad⟩
  | full hitems hlength => exact Or.inr ⟨_, Words.full hitems.closing hlength⟩
  | gap hl hr hlength => exact Or.inr ⟨_, Words.gap hl hr.closing hlength⟩
  | embedded hlead hquad =>
      obtain ⟨os, hos⟩ := hquad.exists_quad_iff.mpr fun hpadded =>
        hstrict (Lax.padded hlead hquad hpadded)
      exact Or.inr (hlead.words hos)
  | zoned hzoned => exact absurd (Lax.zoned hzoned) hstrict

end Subnet.Grammar
