import Subnet.Proofs.PrintableTexts
import Subnet.Text.Style

/-!
# Control sequences — painting adds them, deleting them undoes it

    A sequence that selects a rendition is an escape, a bracket, digits and an
    `m`; `withoutSgr` deletes the sequences of a text, and only what is one
    (`sgr_take_sgrLength`).  A text decorates another one if it is that text,
    which has no escape, with sequences added anywhere.  Deleting them gives the
    text back (`withoutSgr_of_decorates`), and a painted text decorates the text
    that was painted, over however many lines (`Style.decorates_paint`).
-/

namespace Subnet.Text

/-- The character that opens control sequences. -/
def escape : Char :=
  '\x1b'

/-! ## Inert texts -/

/-- The text opens no control sequence. -/
def Inert (text : String) : Prop :=
  escape ∉ text.toList

instance (text : String) : Decidable (Inert text) :=
  inferInstanceAs (Decidable (escape ∉ text.toList))

/-- Two texts are inert together exactly if both are. -/
theorem inert_append {s t : String} : Inert (s ++ t) ↔ Inert s ∧ Inert t := by
  simp only [Inert, String.toList_append, List.mem_append, not_or]

/-- Inert texts are inert together. -/
theorem Inert.append {s t : String} (hs : Inert s) (ht : Inert t) : Inert (s ++ t) :=
  inert_append.mpr ⟨hs, ht⟩

/-- Printable texts are inert. -/
theorem inert_of_isPrintable {text : String} (h : isPrintable text = true) : Inert text :=
  not_mem_of_isPrintable h (by decide)

/-! ## Sequences -/

/-- The sequences that select a rendition. -/
inductive Sgr : List Char → Prop where
  | mk {digits : List Char} : digits ≠ [] → (∀ c ∈ digits, c.isDigit = true) →
      Sgr (escape :: '[' :: (digits ++ ['m']))

/-- The length of the sequence at the start of a text, zero if there is none. -/
def sgrLength : List Char → Nat
  | c :: '[' :: cs =>
      let digits := cs.takeWhile Char.isDigit
      if c = escape ∧ digits ≠ [] ∧ (cs.dropWhile Char.isDigit).head? = some 'm' then
        digits.length + 3
      else 0
  | _ => 0

/-- A text without its first `skipped` characters and without the sequences
    behind them. -/
def dropSgr : (skipped : Nat) → List Char → List Char
  | _, [] => []
  | skipped + 1, _ :: cs => dropSgr skipped cs
  | 0, c :: cs =>
      match sgrLength (c :: cs) with
      | 0 => c :: dropSgr 0 cs
      | more + 1 => dropSgr more cs

/-- A text without its sequences. -/
def withoutSgr (text : String) : String :=
  String.ofList (dropSgr 0 text.toList)

variable {seq cs ds cs' ds' : List Char} {c : Char}

/-- A control sequence starts with the escape character. -/
theorem Sgr.head?_eq (h : Sgr seq) : seq.head? = some escape := by
  cases h
  rfl

/-- A control sequence is found in front of any text, with its length. -/
theorem Sgr.sgrLength_append (h : Sgr seq) (cs : List Char) :
    sgrLength (seq ++ cs) = seq.length := by
  cases h with
  | @mk digits hne hdigits =>
      have hseq : escape :: '[' :: (digits ++ ['m']) ++ cs =
          escape :: '[' :: (digits ++ 'm' :: cs) := by
        simp
      -- the digits end at the `m`, whatever stands behind the sequence
      have htake : (digits ++ 'm' :: cs).takeWhile Char.isDigit = digits := by
        rw [List.takeWhile_append_of_pos hdigits, List.takeWhile_cons_of_neg (by decide),
          List.append_nil]
      have hdrop : (digits ++ 'm' :: cs).dropWhile Char.isDigit = 'm' :: cs := by
        rw [List.dropWhile_append_of_pos hdigits, List.dropWhile_cons_of_neg (by decide)]
      rw [hseq, sgrLength]
      simp [htake, hdrop, hne]

/-- What is taken for a sequence is one. -/
theorem sgr_take_sgrLength (h : sgrLength cs ≠ 0) : Sgr (cs.take (sgrLength cs)) := by
  unfold sgrLength at h ⊢
  split at h
  · rename_i c cs
    dsimp only at h ⊢
    by_cases hseq : c = escape ∧ cs.takeWhile Char.isDigit ≠ [] ∧
        (cs.dropWhile Char.isDigit).head? = some 'm'
    · obtain ⟨rest, hrest⟩ := List.head?_eq_some_iff.mp hseq.2.2
      have hcs : cs = cs.takeWhile Char.isDigit ++ ['m'] ++ rest := by
        rw [List.append_assoc, List.singleton_append, ← hrest, List.takeWhile_append_dropWhile]
      have htake {digits : List Char} (h : cs = digits ++ ['m'] ++ rest) :
          cs.take (digits.length + 1) = digits ++ ['m'] := by
        rw [h]
        exact List.take_left' List.length_append
      rw [if_pos hseq, hseq.1]
      show Sgr (escape :: '[' :: cs.take ((cs.takeWhile Char.isDigit).length + 1))
      rw [htake hcs]
      exact Sgr.mk hseq.2.1 fun c hc => List.mem_takeWhile_imp hc
    · exact absurd (if_neg hseq) h
  · exact absurd rfl h

/-- No control sequence starts with another character. -/
theorem sgrLength_cons_of_ne (hc : c ≠ escape) (cs : List Char) : sgrLength (c :: cs) = 0 := by
  unfold sgrLength
  split
  · rename_i hcons
    obtain ⟨rfl, -⟩ := List.cons.inj hcons
    exact if_neg fun h => hc h.1
  · rfl

/-- Characters of a sequence that is being dropped are passed over. -/
theorem dropSgr_eq_drop (n : Nat) (cs : List Char) : dropSgr n cs = dropSgr 0 (cs.drop n) := by
  induction cs generalizing n with
  | nil => rw [List.drop_nil, dropSgr, dropSgr]
  | cons c cs ih =>
      cases n with
      | zero => rfl
      | succ n => exact ih n

/-- A character stays unless a control sequence starts with it. -/
theorem dropSgr_cons (c : Char) (cs : List Char) :
    dropSgr 0 (c :: cs) = if sgrLength (c :: cs) = 0 then c :: dropSgr 0 cs
      else dropSgr 0 ((c :: cs).drop (sgrLength (c :: cs))) := by
  rw [dropSgr]
  cases sgrLength (c :: cs) with
  | zero => rfl
  | succ more => exact dropSgr_eq_drop more cs

/-- A control sequence in front of a text is dropped. -/
theorem Sgr.dropSgr_append (h : Sgr seq) (cs : List Char) :
    dropSgr 0 (seq ++ cs) = dropSgr 0 cs := by
  have hlength := h.sgrLength_append cs
  cases h with
  | mk hne hdigits =>
      rw [List.cons_append] at hlength ⊢
      rw [dropSgr_cons, hlength, if_neg nofun]
      exact congrArg (dropSgr 0) List.drop_left

/-- Another character than the escape character stays. -/
theorem dropSgr_cons_of_ne (hc : c ≠ escape) (cs : List Char) :
    dropSgr 0 (c :: cs) = c :: dropSgr 0 cs := by
  rw [dropSgr_cons, if_pos (sgrLength_cons_of_ne hc cs)]

/-! ## Decorations -/

/-- The first text is the second one, which has no escape, with sequences
    added. -/
inductive Decorates : List Char → List Char → Prop where
  | nil : Decorates [] []
  | char {c : Char} {cs ds : List Char} : c ≠ escape → Decorates cs ds →
      Decorates (c :: cs) (c :: ds)
  | sgr {seq cs ds : List Char} : Sgr seq → Decorates cs ds → Decorates (seq ++ cs) ds

namespace Decorates

/-- A text without escape characters decorates itself. -/
theorem refl (h : escape ∉ cs) : Decorates cs cs := by
  induction cs with
  | nil => exact nil
  | cons c cs ih =>
      obtain ⟨hc, hrest⟩ := List.ne_and_not_mem_of_not_mem_cons h
      exact char hc.symm (ih hrest)

/-- Decorations are put one after the other. -/
theorem append (h : Decorates cs ds) (h' : Decorates cs' ds') :
    Decorates (cs ++ cs') (ds ++ ds') := by
  induction h with
  | nil => exact h'
  | char hc _ ih => exact char hc ih
  | sgr hseq _ ih =>
      rw [List.append_assoc]
      exact sgr hseq ih

/-- Nothing but a decoration. -/
theorem of_sgr (h : Sgr seq) : Decorates seq [] :=
  List.append_nil seq ▸ sgr h nil

/-- Dropping the control sequences leaves what was decorated. -/
theorem dropSgr_eq (h : Decorates cs ds) : dropSgr 0 cs = ds := by
  induction h with
  | nil => rfl
  | char hc _ ih => rw [dropSgr_cons_of_ne hc, ih]
  | sgr hseq _ ih => rw [hseq.dropSgr_append, ih]

end Decorates

/-- Decorated texts are joined to a decorated text. -/
theorem decorates_append {s s' t t' : String} (h : Decorates s.toList t.toList)
    (h' : Decorates s'.toList t'.toList) : Decorates (s ++ s').toList (t ++ t').toList := by
  rw [String.toList_append, String.toList_append]
  exact h.append h'

/-- Deleting the sequences of a text gives what it decorates. -/
theorem withoutSgr_of_decorates {coloured plain : String}
    (h : Decorates coloured.toList plain.toList) : withoutSgr coloured = plain := by
  rw [withoutSgr, h.dropSgr_eq, String.ofList_toList]

example : withoutSgr "\x1b[1mHosts:\x1b[22m\t2" = "Hosts:\t2" := by decide

-- neither sequence here selects a rendition by number
example : withoutSgr "\x1b[m \x1b[2K" = "\x1b[m \x1b[2K" := by decide

/-! ## Lines -/

/-- Each coloured line decorates its plain one. -/
def LinesDecorate : List String → List String → Prop :=
  List.Forall₂ fun coloured plain => Decorates coloured.toList plain.toList

namespace LinesDecorate

variable {coloured plain coloured' plain' : List String}

/-- Decorated lines are put one after the other. -/
theorem append (h : LinesDecorate coloured plain) (h' : LinesDecorate coloured' plain') :
    LinesDecorate (coloured ++ coloured') (plain ++ plain') := by
  induction h with
  | nil => exact h'
  | cons hline _ ih => exact .cons hline ih

/-- Inert lines decorate themselves. -/
theorem refl (h : ∀ line ∈ plain, Inert line) : LinesDecorate plain plain :=
  List.forall₂_same.mpr fun line hline => .refl (h line hline)

/-- Closing the lines keeps the decoration. -/
theorem decorates (h : LinesDecorate coloured plain) :
    Decorates ((coloured.map String.toList).flatMap (· ++ ['\n']))
      ((plain.map String.toList).flatMap (· ++ ['\n'])) := by
  induction h with
  | nil => exact .nil
  | cons hline _ ih => exact (hline.append (.refl (by decide))).append ih

end LinesDecorate

/-! ## Painting -/

namespace Style

variable {style : Style}

/-- The style is switched on and off by sequences. -/
structure Selects (style : Style) : Prop where
  opening : Sgr style.opening
  closing : Sgr style.closing

/-- The red style selects a colour and resets it. -/
theorem selects_red : red.Selects where
  opening := @Sgr.mk ['3', '1'] nofun (List.all_eq_true.mp rfl)
  closing := @Sgr.mk ['3', '9'] nofun (List.all_eq_true.mp rfl)

/-- The bold style selects a weight and resets it. -/
theorem selects_bold : bold.Selects where
  opening := @Sgr.mk ['1'] nofun (List.all_eq_true.mp rfl)
  closing := @Sgr.mk ['2', '2'] nofun (List.all_eq_true.mp rfl)

/-- A text without escapes does not close the style. -/
theorem reopen_of_not_mem (h : style.Selects) (hcs : escape ∉ cs) : style.reopen cs = cs := by
  induction cs with
  | nil => rw [reopen]
  | cons c cs ih =>
      obtain ⟨hc, hrest⟩ := List.ne_and_not_mem_of_not_mem_cons hcs
      -- every closing sequence starts with an escape
      have hopen : ¬style.closing.isPrefixOf (c :: cs) = true := by
        intro hprefix
        obtain ⟨after, hafter⟩ := List.isPrefixOf_iff_prefix.mp hprefix
        have hhead := congrArg List.head? hafter
        rw [List.head?_append, h.closing.head?_eq] at hhead
        exact hc (Option.some.inj hhead)
      rw [reopen, if_neg hopen, ih hrest]

/-- Closing and opening a style around a line break adds sequences only. -/
theorem decorates_break (h : style.Selects) {feed : List Char} (hfeed : escape ∉ feed)
    (hrest : Decorates cs ds) :
    Decorates (style.closing ++ feed ++ style.opening ++ cs) (feed ++ ds) := by
  rw [List.append_assoc, List.append_assoc]
  exact .sgr h.closing (.append (.refl hfeed) (.sgr h.opening hrest))

/-- A style around each line adds control sequences only. -/
theorem decorates_encaseLines (h : style.Selects) (hcs : escape ∉ cs) :
    Decorates (style.encaseLines cs) cs := by
  fun_induction encaseLines style cs with
  | case1 => exact .nil
  | case2 rest ih =>
      have hrest := List.not_mem_of_not_mem_cons (List.not_mem_of_not_mem_cons hcs)
      exact decorates_break h (by decide) (ih hrest)
  | case3 rest ih => exact decorates_break h (by decide) (ih (List.not_mem_of_not_mem_cons hcs))
  | case4 c rest _ _ ih =>
      obtain ⟨hc, hrest⟩ := List.ne_and_not_mem_of_not_mem_cons hcs
      exact .char hc.symm (ih hrest)

/-- A style that is applied adds control sequences only. -/
theorem decorates_apply (h : style.Selects) (hcs : escape ∉ cs) :
    Decorates (style.apply cs) cs := by
  unfold apply
  split
  · rename_i hempty
    rw [hempty]
    exact .nil
  · rw [reopen_of_not_mem h hcs, List.append_assoc]
    have hclosed := (decorates_encaseLines h hcs).append (.of_sgr h.closing)
    rw [List.append_nil] at hclosed
    exact .sgr h.opening hclosed

/-- **PAINTING DECORATES**: a painted text is the text with sequences added. -/
theorem decorates_paint (h : style.Selects) {text : String} (htext : Inert text) :
    Decorates (style.paint true text).toList text.toList := by
  rw [paint, if_pos rfl, String.toList_ofList]
  exact decorates_apply h htext

end Style

end Subnet.Text
