import Subnet.Address.Printer

/-!
# Zero runs — the search finds the leftmost of the longest runs

    A run is a stretch of words that are all zero.  A word put in front shifts
    the runs behind it and may start one new run, whose length the search
    counts directly; so each step keeps the leftmost longest run of the words
    it has gone through (`LongestZeroRun.cons`), and the search as a whole
    returns that of all words.
-/

namespace Subnet.Grammar

variable {ws : List UInt16} {w : UInt16} {start length : Nat}

/-! ## Runs -/

/-- The `length` words from `start` on are there and are zero. -/
def ZeroRun (ws : List UInt16) (start length : Nat) : Prop :=
  start + length ≤ ws.length ∧ ∀ i, start ≤ i → i < start + length → ws[i]? = some 0

/-- The leftmost among the longest runs of zero words. -/
structure LongestZeroRun (ws : List UInt16) (start length : Nat) : Prop where
  run : ZeroRun ws start length
  longest : ∀ s l, ZeroRun ws s l → l ≤ length
  leftmost : ∀ s, ZeroRun ws s length → start ≤ s

/-- There is only one leftmost longest run. -/
theorem LongestZeroRun.unique {s l : Nat} (h : LongestZeroRun ws start length)
    (h' : LongestZeroRun ws s l) : start = s ∧ length = l := by
  obtain rfl : length = l := Nat.le_antisymm (h'.longest start length h.run) (h.longest s l h'.run)
  exact ⟨Nat.le_antisymm (h.leftmost s h'.run) (h'.leftmost start h.run), rfl⟩

/-- What a run stands for can be put back as zeros. -/
theorem ZeroRun.take_append_drop (h : ZeroRun ws start length) :
    ws.take start ++ (List.replicate length 0 ++ ws.drop (start + length)) = ws := by
  have hrun : (ws.drop start).take length = List.replicate length 0 := by
    refine List.ext_getElem? fun i => ?_
    by_cases hi : i < length
    · rw [List.getElem?_take_of_lt hi, List.getElem?_drop, List.getElem?_replicate_of_lt hi]
      exact h.2 (start + i) (Nat.le_add_right start i) (Nat.add_lt_add_left hi start)
    · rw [List.getElem?_take_eq_none (Nat.le_of_not_lt hi), List.getElem?_replicate, if_neg hi]
  rw [← hrun, ← List.drop_drop, List.take_append_drop, List.take_append_drop]

/-- A run is a zero word and the run behind it. -/
theorem zeroRun_succ :
    ZeroRun ws start (length + 1) ↔ ws[start]? = some 0 ∧ ZeroRun ws (start + 1) length := by
  constructor
  · rintro ⟨hend, hzero⟩
    exact ⟨hzero start (Nat.le_refl start) (by omega), by omega,
      fun i hlow hhigh => hzero i (by omega) (by omega)⟩
  · rintro ⟨hfirst, hend, hzero⟩
    refine ⟨by omega, ?_⟩
    intro i hlow hhigh
    rcases Nat.eq_or_lt_of_le hlow with rfl | hlt
    · exact hfirst
    · exact hzero i hlt (by omega)

/-- An empty run may stand anywhere in the list. -/
theorem zeroRun_zero_length : ZeroRun ws start 0 ↔ start ≤ ws.length :=
  ⟨fun h => h.1, fun h => ⟨h, by omega⟩⟩

/-! ## A word in front -/

/-- A run behind the first word is one of the rest. -/
theorem zeroRun_cons_succ : ZeroRun (w :: ws) (start + 1) length ↔ ZeroRun ws start length := by
  constructor
  · rintro ⟨hend, hzero⟩
    refine ⟨by rw [List.length_cons] at hend; omega, ?_⟩
    intro i hlow hhigh
    have hshift := hzero (i + 1) (by omega) (by omega)
    rwa [List.getElem?_cons_succ] at hshift
  · rintro ⟨hend, hzero⟩
    refine ⟨by rw [List.length_cons]; omega, ?_⟩
    intro i hlow hhigh
    obtain ⟨j, rfl⟩ := Nat.exists_eq_succ_of_ne_zero (n := i) (by omega)
    rw [List.getElem?_cons_succ]
    exact hzero j (by omega) (by omega)

/-- A run at the start begins with a zero word. -/
theorem zeroRun_cons_zero :
    ZeroRun (w :: ws) 0 (length + 1) ↔ w = 0 ∧ ZeroRun ws 0 length := by
  rw [zeroRun_succ, zeroRun_cons_succ, List.getElem?_cons_zero, Option.some_inj]

/-- The runs at the front are those that the leading zero words allow. -/
theorem zeroRun_zero_iff : ZeroRun ws 0 length ↔ length ≤ (ws.takeWhile (· = 0)).length := by
  induction ws generalizing length with
  | nil =>
      constructor
      · rintro ⟨hend, -⟩
        simpa using hend
      · intro hle
        obtain rfl : length = 0 := by simpa using hle
        exact zeroRun_zero_length.mpr (Nat.le_refl 0)
  | cons w ws ih =>
      cases length with
      | zero => exact ⟨fun _ => Nat.zero_le _, fun _ => zeroRun_zero_length.mpr (Nat.zero_le _)⟩
      | succ length =>
          rw [zeroRun_cons_zero, ih]
          by_cases hw : w = 0
          · rw [List.takeWhile_cons_of_pos (by simpa using hw), List.length_cons,
              Nat.succ_le_succ_iff, and_iff_right hw]
          · rw [List.takeWhile_cons_of_neg (by simpa using hw)]
            exact ⟨fun h => absurd h.1 hw, fun h => absurd h (Nat.not_succ_le_zero length)⟩

/-- **ONE STEP**: of the run at the front and the leftmost longest run behind
    it, the longer one is the leftmost longest, and the front wins a tie. -/
theorem LongestZeroRun.cons (h : LongestZeroRun ws start length) :
    if length ≤ ((w :: ws).takeWhile (· = 0)).length then
      LongestZeroRun (w :: ws) 0 ((w :: ws).takeWhile (· = 0)).length
    else LongestZeroRun (w :: ws) (start + 1) length := by
  generalize hhere : ((w :: ws).takeWhile (· = 0)).length = here
  have hfront : ∀ l, ZeroRun (w :: ws) 0 l ↔ l ≤ here := by
    intro l
    rw [zeroRun_zero_iff, hhere]
  split
  · rename_i hle
    refine ⟨(hfront here).mpr (Nat.le_refl here), ?_, fun s _ => Nat.zero_le s⟩
    intro s l hrun
    cases s with
    | zero => exact (hfront l).mp hrun
    | succ s => exact Nat.le_trans (h.longest s l (zeroRun_cons_succ.mp hrun)) hle
  · rename_i hlt
    refine ⟨zeroRun_cons_succ.mpr h.run, ?_, ?_⟩
    · intro s l hrun
      cases s with
      | zero => exact Nat.le_trans ((hfront l).mp hrun) (Nat.le_of_not_le hlt)
      | succ s => exact h.longest s l (zeroRun_cons_succ.mp hrun)
    · intro s hrun
      cases s with
      | zero => exact absurd ((hfront length).mp hrun) hlt
      | succ s => exact Nat.succ_le_succ (h.leftmost s (zeroRun_cons_succ.mp hrun))

/-! ## The search -/

/-- **THE WHOLE SEARCH** returns the leftmost longest run. -/
theorem longestZeroRun_spec (ws : List UInt16) :
    LongestZeroRun ws (Address.longestZeroRun ws).1 (Address.longestZeroRun ws).2 := by
  induction ws with
  | nil =>
      refine ⟨zeroRun_zero_length.mpr (Nat.le_refl 0), ?_, fun s _ => Nat.zero_le s⟩
      intro s l hrun
      have hend : s + l ≤ 0 := hrun.1
      exact Nat.le_trans (Nat.le_add_left l s) hend
  | cons w ws ih =>
      have hstep := ih.cons (w := w)
      rw [Address.longestZeroRun]
      generalize Address.longestZeroRun ws = run at hstep ⊢
      obtain ⟨start, length⟩ := run
      dsimp only at hstep ⊢
      split
      · rename_i hle
        rwa [if_pos hle] at hstep
      · rename_i hlt
        rwa [if_neg hlt] at hstep

/-! ## Mapped words -/

/-- A run of five words in front of `ffff` leaves the last two words open. -/
theorem ZeroRun.eq_mapped (h : ZeroRun ws 0 5) (hmark : ws[5]? = some 0xffff) :
    ws = List.replicate 5 0 ++ 0xffff :: ws.drop 6 := by
  obtain ⟨hlt, hget⟩ := List.getElem?_eq_some_iff.mp hmark
  have hwords := h.take_append_drop
  rw [List.take_zero, List.nil_append, Nat.zero_add, List.drop_eq_getElem_cons hlt, hget] at hwords
  exact hwords.symm

/-- Behind five zero words and `ffff` there is no room for a longer run. -/
theorem longestZeroRun_mapped {low : List UInt16} (hlow : low.length ≤ 5) :
    LongestZeroRun (List.replicate 5 0 ++ 0xffff :: low) 0 5 := by
  refine ⟨⟨by simp, ?_⟩, ?_, fun s _ => Nat.zero_le s⟩
  · intro i _ hi
    rw [List.getElem?_append_left (by simpa using hi), List.getElem?_replicate_of_lt hi]
  · intro s l hrun
    refine Nat.le_of_not_lt fun hlong => ?_
    have hend := hrun.1
    simp only [List.length_append, List.length_replicate, List.length_cons] at hend
    -- a run of six words would reach over the sixth
    have hmark : some (0xffff : UInt16) = some 0 := hrun.2 5 (by omega) (by omega)
    exact absurd hmark (by decide)

/-! ## Adjacent zeros -/

/-- Two zero words stand side by side. -/
def AdjacentZeros (ws : List UInt16) : Prop :=
  ∃ i : Nat, ws[i]? = some 0 ∧ ws[i + 1]? = some 0

/-- A run of two is two adjacent zero words. -/
theorem zeroRun_two_iff : ZeroRun ws start 2 ↔ ws[start]? = some 0 ∧ ws[start + 1]? = some 0 := by
  rw [zeroRun_succ, zeroRun_succ, zeroRun_zero_length]
  refine and_congr_right fun _ => and_iff_left_of_imp fun hsecond => ?_
  exact (List.getElem?_eq_some_iff.mp hsecond).1

/-- The longest run has at least two words exactly where two zero words stand
    side by side. -/
theorem LongestZeroRun.two_le_iff (h : LongestZeroRun ws start length) :
    2 ≤ length ↔ AdjacentZeros ws := by
  constructor
  · intro hle
    have hend := h.run.1
    have htwo : ZeroRun ws start 2 :=
      ⟨by omega, fun i hlow hhigh => h.run.2 i hlow (by omega)⟩
    exact ⟨start, zeroRun_two_iff.mp htwo⟩
  · rintro ⟨s, hzeros⟩
    exact h.longest s 2 (zeroRun_two_iff.mpr hzeros)

end Subnet.Grammar
