import Subnet.Path
import Subnet.Proofs.ControlSequences
import Subnet.Proofs.Lookups
import Subnet.Proofs.Requests

/-!
# Quotations — errors open no control sequence that was not given

    Errors quote arguments, and help quotes the path of a file.  Scanning adds
    nothing but dashes to the arguments, joining nothing but slashes and dots to
    a path, and completing a shorthand nothing but zeros, so what is quoted from
    inert texts is inert; the rest of an error is fixed, a number or an address.
-/

namespace Subnet

open Text (Inert escape)

/-! ## Joined texts -/

namespace Text

variable {c : Char} {separator piece : List Char} {pieces : List (List Char)}

/-- A character of joined pieces is in the separator or in a piece. -/
theorem mem_intercalate (h : c ∈ separator.intercalate pieces) :
    c ∈ separator ∨ ∃ piece ∈ pieces, c ∈ piece := by
  induction pieces with
  | nil => exact absurd h List.not_mem_nil
  | cons piece rest ih =>
      cases rest with
      | nil =>
          rw [List.intercalate_singleton] at h
          exact Or.inr ⟨piece, List.mem_cons_self, h⟩
      | cons next more =>
          rw [List.intercalate_cons_cons, List.append_assoc, List.mem_append, List.mem_append] at h
          rcases h with h | h | h
          · exact Or.inr ⟨piece, List.mem_cons_self, h⟩
          · exact Or.inl h
          · refine (ih h).imp_right ?_
            rintro ⟨later, hlater, hc⟩
            exact ⟨later, List.mem_cons_of_mem _ hlater, hc⟩

/-- A character of a piece is in the joined pieces. -/
theorem mem_intercalate_of_mem (hpiece : piece ∈ pieces) (hc : c ∈ piece) :
    c ∈ separator.intercalate pieces := by
  induction pieces with
  | nil => exact absurd hpiece List.not_mem_nil
  | cons first rest ih =>
      cases rest with
      | nil =>
          obtain rfl := List.mem_singleton.mp hpiece
          rwa [List.intercalate_singleton]
      | cons next more =>
          rw [List.intercalate_cons_cons, List.append_assoc, List.mem_append, List.mem_append]
          rcases List.mem_cons.mp hpiece with rfl | hpiece
          · exact Or.inl hc
          · exact Or.inr (Or.inr (ih hpiece))

/-- Inert pieces are inert when they are joined. -/
theorem inert_intercalate {separator : String} {pieces : List String} (h : Inert separator)
    (hpieces : ∀ piece ∈ pieces, Inert piece) : Inert (separator.intercalate pieces) := by
  intro hmem
  rw [String.toList_intercalate] at hmem
  rcases mem_intercalate hmem with hseparator | ⟨piece, hpiece, hc⟩
  · exact h hseparator
  · obtain ⟨text, htext, rfl⟩ := List.mem_map.mp hpiece
    exact hpieces text htext hc

end Text

/-! ## Paths -/

namespace Path

variable {c : Char} {cs : List Char} {stack segments : List (List Char)}

/-- Nothing gets on the stack but the segment that is pushed. -/
theorem push_subset (absolute : Bool) (stack : List (List Char)) (segment : List Char) :
    push absolute stack segment ⊆ segment :: stack := by
  unfold push
  split
  · exact List.subset_cons_self _ _
  split
  · cases stack with
    | nil =>
        dsimp only
        split
        · exact List.nil_subset _
        · exact List.Subset.refl _
    | cons top below =>
        dsimp only
        split
        · exact List.Subset.refl _
        · exact List.subset_cons_of_subset _ (List.subset_cons_self _ _)
  · exact List.Subset.refl _

/-- Every segment of a path that is left was there before. -/
theorem mem_of_mem_foldl_push {absolute : Bool} {segment : List Char}
    (h : segment ∈ segments.foldl (push absolute) stack) :
    segment ∈ stack ∨ segment ∈ segments := by
  induction segments generalizing stack with
  | nil => exact Or.inl h
  | cons first rest ih =>
      rcases ih h with hpushed | hrest
      · rcases List.mem_cons.mp (push_subset absolute stack first hpushed) with rfl | hstack
        · exact Or.inr List.mem_cons_self
        · exact Or.inl hstack
      · exact Or.inr (List.mem_cons_of_mem _ hrest)

/-- Normalising adds no character but a slash or a dot. -/
theorem mem_of_mem_normalize (h : c ∈ normalize cs) : c ∈ cs ∨ c = '/' ∨ c = '.' := by
  have hbody (absolute : Bool)
      (h : c ∈ ['/'].intercalate ((cs.splitOn '/').foldl (push absolute) []).reverse) :
      c ∈ cs ∨ c = '/' := by
    rcases Text.mem_intercalate h with hslash | ⟨segment, hsegment, hc⟩
    · exact Or.inr (List.mem_singleton.mp hslash)
    · rcases mem_of_mem_foldl_push (List.mem_reverse.mp hsegment) with hnil | hmem
      · exact absurd hnil List.not_mem_nil
      · have hjoined : ['/'].intercalate (cs.splitOn '/') = cs := List.intercalate_splitOn '/'
        exact Or.inl (hjoined ▸ Text.mem_intercalate_of_mem hmem hc)
  unfold normalize at h
  dsimp only at h
  split_ifs at h
  · rcases List.mem_cons.mp h with hslash | h
    · exact Or.inr (Or.inl hslash)
    · exact (hbody _ h).imp_right Or.inl
  · exact Or.inr (Or.inr (List.mem_singleton.mp h))
  · exact (hbody _ h).imp_right Or.inl

/-- Normalising a path adds no escape character. -/
theorem inert_normalize (h : escape ∉ cs) : escape ∉ normalize cs := by
  intro hmem
  rcases mem_of_mem_normalize hmem with hcs | hslash | hdot
  · exact h hcs
  · exact absurd hslash (by decide)
  · exact absurd hdot (by decide)

/-- A path is inert if its parts are. -/
theorem inert_join {directory name : String} (hdirectory : Inert directory) (hname : Inert name) :
    Inert (join directory name) := by
  unfold join Inert
  split
  · rw [String.toList_ofList]
    exact inert_normalize hname
  · rw [String.toList_ofList]
    refine inert_normalize ?_
    simp only [List.mem_append, List.mem_cons, not_or]
    exact ⟨hdirectory, by decide, hname⟩

end Path

/-! ## Arguments -/

namespace Cli

variable {args : List String} {cs : List Char}

/-- What is left of a cluster is a dash and its end. -/
theorem peelCluster_suffix (cs : List Char) :
    ∃ rest, (peelCluster cs).2 = '-' :: rest ∧ rest <:+ cs := by
  fun_induction peelCluster cs with
  | case1 c d rest s hs more remaining hpeel ih =>
      obtain ⟨kept, hkept, hsuffix⟩ := ih
      rw [hpeel] at hkept
      exact ⟨kept, hkept, hsuffix.trans (List.suffix_cons c _)⟩
  | case2 => exact ⟨_, rfl, List.suffix_refl _⟩
  | case3 => exact ⟨_, rfl, List.suffix_refl _⟩

/-- Peeling a cluster adds no escape character. -/
theorem inert_peel (h : escape ∉ cs) : escape ∉ (peel cs).2 := by
  unfold peel
  split
  · rename_i cs
    obtain ⟨rest, hrest, hsuffix⟩ := peelCluster_suffix cs
    rw [hrest]
    refine List.not_mem_cons_of_ne_of_not_mem (by decide) ?_
    exact fun hmem => h (List.mem_cons_of_mem _ (hsuffix.mem hmem))
  · exact h

/-- The texts that a scan leaves are inert. -/
structure Scan.Inert (scanned : Scan) : Prop where
  operands : ∀ text ∈ scanned.operands, Text.Inert text
  unknown : ∀ text ∈ scanned.unknown, Text.Inert text

namespace Scan.Inert

variable {scanned : Scan} {more : List String}

/-- The scan of nothing is inert. -/
theorem empty : Scan.empty.Inert :=
  ⟨nofun, nofun⟩

/-- Switches quote nothing. -/
theorem addSwitches (h : scanned.Inert) (ss : List Switch) : (scanned.addSwitches ss).Inert :=
  ⟨h.operands, h.unknown⟩

/-- Inert arguments may be kept. -/
theorem addPlain (h : scanned.Inert) (hmore : ∀ text ∈ more, Text.Inert text) (unknown : Bool) :
    (scanned.addPlain unknown more).Inert := by
  cases unknown with
  | true => exact ⟨h.operands, List.forall_mem_append.mpr ⟨hmore, h.unknown⟩⟩
  | false => exact ⟨List.forall_mem_append.mpr ⟨hmore, h.operands⟩, h.unknown⟩

end Scan.Inert

/-- The scan of inert arguments is inert. -/
theorem inert_scanFrom (h : ∀ arg ∈ args, Inert arg) (unknown : Bool) :
    (scanFrom unknown args).Inert := by
  induction args generalizing unknown with
  | nil => exact .empty
  | cons arg rest ih =>
      obtain ⟨harg, hrest⟩ := List.forall_mem_cons.mp h
      have hpeel : Inert (String.ofList (peel arg.toList).2) := by
        rw [Inert, String.toList_ofList]
        exact inert_peel harg
      rw [scanFrom]
      dsimp only
      split
      · -- behind two dashes the arguments are kept as they are
        refine (Scan.Inert.empty.addPlain ?_ unknown).addSwitches _
        split
        · exact List.forall_mem_cons.mpr ⟨hpeel, hrest⟩
        · exact hrest
      · split
        · exact (ih hrest unknown).addSwitches _
        · exact ((ih hrest _).addPlain (List.forall_mem_singleton.mpr hpeel) _).addSwitches _

end Cli

/-! ## Queries -/

/-- A text cut at its slash has inert parts if it is inert. -/
theorem Cidr.Splits.inert {f : Family} {text : String} {parts : Cidr.Parts}
    (h : Splits f text parts) (htext : Inert text) :
    Inert parts.address ∧ ∀ mask, parts.suffix.netmask? = some mask → Inert mask := by
  cases h with
  | alone _ => exact ⟨htext, nofun⟩
  | length _ _ => exact ⟨(Text.inert_append.mp (Text.inert_append.mp htext).1).1, nofun⟩
  | netmask _ _ _ =>
      obtain ⟨haddress, hmask⟩ := Text.inert_append.mp htext
      refine ⟨(Text.inert_append.mp haddress).1, ?_⟩
      rintro _ ⟨⟩
      exact hmask

namespace Query

variable {q : Query} {e : QueryError} {lookup : Option Lookup}

/-- The texts of the query are inert. -/
structure Inert (q : Query) : Prop where
  address : Text.Inert q.address
  netmask : ∀ mask, q.netmask = some mask → Text.Inert mask

/-- The text of an inert query that is parsed is inert. -/
theorem Inert.addressText (h : q.Inert) : Text.Inert q.addressText := by
  unfold Query.addressText
  split
  · refine h.address.append ?_
    rw [Text.Inert, String.toList_ofList]
    intro hmem
    obtain ⟨zero, hzero, hc⟩ := List.mem_flatten.mp hmem
    rw [List.eq_of_mem_replicate hzero] at hc
    exact absurd hc (by decide)
  · exact h.address

/-- A refusal quotes the query, a number or the text of an address. -/
theorem Refused.inert {kind : QueryErrorKind} {message : String} {input : Option String}
    (h : q.Refused kind message input) (hq : q.Inert) : Text.Inert message := by
  have hname (f : Family) : Text.Inert f.name := by cases f <;> decide
  cases h with
  | ambiguous _ => decide
  | maskless _ _ => decide
  | address _ hputs _ =>
      exact (((by decide : Text.Inert "bad ").append (hname _)).append (by decide)).append
        ((puts_iff.mp hputs).2 ▸ hq.addressText)
  | netmask _ hmask _ => exact (by decide : Text.Inert "bad netmask: ").append (hq.netmask _ hmask)
  | @run _ m _ _ _ _ _ =>
      have hm : Text.Inert m.text := Text.inert_of_isPrintable (Text.isPrintable_addressText m)
      exact ((by decide : Text.Inert "bad netmask: ").append hm).append (by decide)
  | length _ _ _ =>
      exact (((by decide : Text.Inert "bad ").append (hname _)).append (by decide)).append
        (Text.inert_of_isPrintable (Binary64.isPrintable_text _))

/-- The error of an inert query is inert. -/
theorem inert_of_answer (hq : q.Inert) (h : (q.answer lookup).result = .error e) :
    Text.Inert e.message := by
  obtain ⟨answer, hresponds⟩ := exists_responds q lookup
  rw [hresponds.answer_eq] at h
  cases hresponds with
  | unasked _ _ | found _ _ _ _ _ => exact nomatch h
  | refused hassemble =>
      obtain rfl := Except.error.inj h
      exact (refused_of_calculate (calculate_eq_error_iff.mpr hassemble)).inert hq
  | unaided _ _ _ | missing _ _ _ _ =>
      obtain rfl := Except.error.inj h
      exact (by decide : Text.Inert "cannot find hostname for ").append hq.address

end Query

/-! ## Requests -/

namespace Cli

variable {s : Settings} {silent : Bool} {ss : List Switch} {operands : List String}

/-- Inert operands make an inert query. -/
theorem Request.Made.inert {r : Request} (h : Made s silent ss operands r)
    (hoperands : ∀ text ∈ operands, Inert text) : r.query.Inert := by
  cases h with
  | alone haddressed =>
      obtain ⟨haddress, hmask⟩ :=
        haddressed.splits.inert (List.forall_mem_singleton.mp hoperands)
      exact ⟨haddress, hmask⟩
  | masked haddressed _ _ =>
      obtain ⟨htext, hmask⟩ := List.forall_mem_cons.mp hoperands
      refine ⟨(haddressed.splits.inert htext).1, ?_⟩
      rintro _ ⟨⟩
      exact List.forall_mem_singleton.mp hmask

/-- An operand behind the address is quoted, or the error is fixed. -/
theorem UsageError.inert_of_netmaskOf {takes : Bool} {suffix : Option String} {e : UsageError}
    (h : Request.netmaskOf takes suffix operands = .error e)
    (hoperands : ∀ text ∈ operands, Inert text) : Inert e.message := by
  have hquoted {text : String} (htext : Inert text) : Inert (unexpectedOperand text).message :=
    (by decide : Inert "unexpected argument: ").append htext
  unfold Request.netmaskOf at h
  cases operands with
  | nil => exact nomatch h
  | cons operand rest =>
      obtain ⟨hoperand, hrest⟩ := List.forall_mem_cons.mp hoperands
      dsimp only at h
      split_ifs at h
      · obtain rfl := Except.error.inj h
        exact hquoted hoperand
      · obtain rfl := Except.error.inj h
        decide
      · cases rest with
        | nil => exact nomatch h
        | cons extra more =>
            obtain rfl := Except.error.inj h
            exact hquoted (List.forall_mem_cons.mp hrest).1

/-- An address that makes no request is quoted by its suffix, or an operand behind
    it is. -/
theorem UsageError.inert_of_ofAddress {address : String} {e : UsageError}
    (h : Request.ofAddress s silent ss address operands = .error e) (haddress : Inert address)
    (hoperands : ∀ text ∈ operands, Inert text) : Inert e.message := by
  cases hsplit : Cidr.split address (Request.familyOf ss address) with
  | error cause =>
      simp only [Request.ofAddress, hsplit] at h
      obtain rfl := Except.error.inj h
      obtain ⟨suffix, ⟨-, -, -⟩, rfl⟩ := Cidr.split_eq_error_iff.mp hsplit
      exact (by decide : Inert "bad prefix: ").append (Text.inert_append.mp haddress).2
  | ok parts =>
      simp only [Request.ofAddress, hsplit] at h
      cases hnetmask : Request.netmaskOf (Request.takesNetmask (Request.familyOf ss address) ss)
          parts.suffix.netmask? operands with
      | ok netmask => simp only [hnetmask, Except.map, reduceCtorEq] at h
      | error e' =>
          rw [hnetmask] at h
          obtain rfl := Except.error.inj h
          exact inert_of_netmaskOf hnetmask hoperands

/-- Operands that make no request are quoted, or the error is fixed. -/
theorem UsageError.inert_of_ofOperands {e : UsageError}
    (h : Request.ofOperands s silent ss operands = .error e)
    (hoperands : ∀ text ∈ operands, Inert text) : Inert e.message := by
  cases operands with
  | nil =>
      obtain rfl := Except.error.inj h
      decide
  | cons address rest =>
      obtain ⟨haddress, hrest⟩ := List.forall_mem_cons.mp hoperands
      simp only [Request.ofOperands] at h
      split_ifs at h
      · obtain rfl := Except.error.inj h
        decide
      · obtain rfl := Except.error.inj h
        decide
      · exact inert_of_ofAddress h haddress hrest

/-! ## Suggestions -/

/-- What is suggested is a long name. -/
theorem mem_longNames_of_mem_closest {word : List Char} {name : String}
    (h : name ∈ closest word) : name ∈ longNames := by
  obtain ⟨candidate, hcandidate, rfl⟩ := List.mem_map.mp (List.mem_mergeSort.mp h)
  obtain ⟨long, hlong, hnear⟩ := List.mem_filterMap.mp (List.mem_of_mem_filter hcandidate)
  dsimp only at hnear
  split_ifs at hnear
  obtain rfl := Option.some.inj hnear
  exact hlong

/-- What is suggested is inert, whatever was typed. -/
theorem inert_suggestion (arg : String) : Inert (suggestion arg) := by
  have hlong : ∀ name ∈ longNames, Inert name := by decide
  unfold suggestion
  split
  · rename_i word _
    have hclosest : ∀ name ∈ closest word, Inert name := fun name hname =>
      hlong name (mem_longNames_of_mem_closest hname)
    split
    · decide
    · rename_i name hone
      rw [hone] at hclosest
      exact ((by decide : Inert "\n(Did you mean --").append
        (List.forall_mem_singleton.mp hclosest)).append (by decide)
    · refine ((by decide : Inert "\n(Did you mean one of ").append ?_).append (by decide)
      refine Text.inert_intercalate (by decide) (List.forall_mem_map.mpr ?_)
      exact fun name hname => (by decide : Inert "--").append (hclosest name hname)
  · decide

/-! ## Help -/

/-- An item is laid out with blanks. -/
theorem HelpItem.inert_line {item : HelpItem} (hterm : Inert item.term)
    (hdescription : Inert item.description) : Inert item.line := by
  have hgap (n : Nat) : Inert (String.ofList (List.replicate n ' ')) := by
    rw [Inert, String.toList_ofList]
    intro hmem
    exact absurd (List.eq_of_mem_replicate hmem) (by decide)
  exact (((by decide : Inert "  ").append hterm).append (hgap _)).append hdescription

/-- The text of the help is inert. -/
theorem inert_helpText : Inert helpText := by
  -- terms and descriptions are looked at one by one: the whole text is too long to be searched
  have hitems : ∀ item ∈ argumentItems ++ optionItems,
      Inert item.term ∧ Inert item.description := by
    decide +kernel
  obtain ⟨harguments, hoptions⟩ := List.forall_mem_append.mp hitems
  have hline {item : HelpItem} (h : Inert item.term ∧ Inert item.description) : Inert item.line :=
    HelpItem.inert_line h.1 h.2
  refine (Text.inert_intercalate (by decide) ?_).append (by decide)
  refine List.forall_mem_append.mpr ⟨List.forall_mem_append.mpr ⟨List.forall_mem_append.mpr
    ⟨by decide, List.forall_mem_map.mpr ?_⟩, by decide⟩, List.forall_mem_map.mpr ?_⟩
  · exact fun item hitem => hline (harguments item hitem)
  · exact fun item hitem => hline (hoptions item hitem)

/-- The closing remark quotes the path of the configuration file. -/
theorem inert_helpRemark {configFile : String} (h : Inert configFile) :
    Inert (helpRemark configFile) :=
  ((by decide : Inert "\nDefaults are read from ").append h).append (by decide)

end Cli

end Subnet
