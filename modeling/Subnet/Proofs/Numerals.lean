import Mathlib.Data.List.Forall2
import Mathlib.Tactic.IntervalCases
import Subnet.Numeral
import Subnet.Proofs.Digits

/-!
# Numerals — what a run of digits denotes, said once for reading and writing

    `Digit` is the table of digits, `Digits` a run of them with its value.  The
    readers of `Numeral` accept exactly such runs, and `Nat.toDigits` writes
    one, so that neither the address grammar nor the round trip has to look at
    characters again.
-/

namespace Subnet.Grammar

/-! ## Digits -/

/-- A character is the digit `d` of a base up to sixteen, in either case. -/
def Digit (base : Nat) (c : Char) (d : Nat) : Prop :=
  d < base ∧ ("0123456789abcdef".toList[d]? = some c ∨ "0123456789ABCDEF".toList[d]? = some c)

/-- A non-empty run of digits of a base and the number it denotes. -/
def Digits (base : Nat) (cs : List Char) (n : Nat) : Prop :=
  cs ≠ [] ∧ ∃ ds, List.Forall₂ (Digit base) cs ds ∧ n = Radix.value base ds

variable {base : Nat}

/-- No digit counts more than fifteen, whatever the base. -/
theorem Digit.lt_sixteen {c : Char} {d : Nat} (h : Digit base c d) : d < 16 := by
  rcases h.2 with h | h
  · exact (List.getElem?_eq_some_iff.mp h).1
  · exact (List.getElem?_eq_some_iff.mp h).1

/-- Digits are letters and figures, never separators. -/
theorem Digit.isAlphanum {c : Char} {d : Nat} (h : Digit base c d) : c.isAlphanum := by
  have hlt := h.lt_sixteen
  obtain ⟨-, h | h⟩ := h
  all_goals
    interval_cases d
    all_goals
      obtain rfl := Option.some.inj h
      decide

/-- Numerals consist of letters and digits. -/
theorem Digits.isAlphanum {cs : List Char} {n : Nat} (h : Digits base cs n) :
    ∀ c ∈ cs, c.isAlphanum := by
  obtain ⟨-, ds, hds, -⟩ := h
  induction hds with
  | nil => intro c hc; exact nomatch hc
  | cons hd _ ih =>
      intro c hc
      rcases List.mem_cons.mp hc with rfl | hmem
      · exact hd.isAlphanum
      · exact ih c hmem

/-- A character that is no letter and no digit is in no numeral. -/
theorem Digits.not_mem {cs : List Char} {n : Nat} (h : Digits base cs n) {c : Char}
    (hc : c.isAlphanum = false) : c ∉ cs := by
  intro hmem
  rw [h.isAlphanum c hmem] at hc
  exact Bool.noConfusion hc

/-- A digit is a numeral. -/
theorem digits_singleton {c : Char} {d : Nat} (h : Digit base c d) : Digits base [c] d :=
  ⟨List.cons_ne_nil _ _, [d], .cons h .nil, by simp [Radix.value]⟩

/-- A digit in front counts by the number of digits behind it. -/
theorem Digits.cons {c : Char} {cs : List Char} {d n : Nat} (hc : Digit base c d)
    (h : Digits base cs n) : Digits base (c :: cs) (d * base ^ cs.length + n) := by
  obtain ⟨-, ds, hds, rfl⟩ := h
  refine ⟨List.cons_ne_nil _ _, d :: ds, .cons hc hds, ?_⟩
  rw [Radix.value_cons, hds.length_eq]

/-- Digits in a row are a numeral unless there are none. -/
theorem exists_digits_iff {cs : List Char} :
    (∃ n, Digits base cs n) ↔ cs ≠ [] ∧ ∀ c ∈ cs, ∃ d, Digit base c d := by
  have hall : (∃ ds, List.Forall₂ (Digit base) cs ds) ↔ ∀ c ∈ cs, ∃ d, Digit base c d := by
    induction cs with
    | nil => exact iff_of_true ⟨[], .nil⟩ nofun
    | cons c rest ih =>
        rw [List.forall_mem_cons, ← ih]
        constructor
        · rintro ⟨_, hds⟩
          cases hds with
          | cons hd htail => exact ⟨⟨_, hd⟩, _, htail⟩
        · rintro ⟨⟨d, hd⟩, ds, hds⟩
          exact ⟨d :: ds, .cons hd hds⟩
  rw [← hall]
  constructor
  · rintro ⟨_, hne, ds, hds, -⟩
    exact ⟨hne, ds, hds⟩
  · rintro ⟨hne, ds, hds⟩
    exact ⟨_, hne, ds, hds, rfl⟩

/-- What digits count is less than the base. -/
theorem lt_of_forall₂_digit {cs : List Char} {ds : List Nat}
    (h : List.Forall₂ (Digit base) cs ds) : ∀ d ∈ ds, d < base := by
  induction h with
  | nil => intro d hd; exact nomatch hd
  | cons hd _ ih =>
      intro d hmem
      rcases List.mem_cons.mp hmem with rfl | hmem
      · exact hd.1
      · exact ih d hmem

/-- The number of a numeral is bounded by its length. -/
theorem Digits.lt {cs : List Char} {n : Nat} (h : Digits base cs n) : n < base ^ cs.length := by
  obtain ⟨-, ds, hds, rfl⟩ := h
  rw [hds.length_eq]
  exact Radix.value_lt (lt_of_forall₂_digit hds)

/-! ## Reading -/

/-- A hexadecimal digit is read exactly as what it counts. -/
theorem hexDigit?_eq_some_iff {c : Char} {d : Nat} :
    Numeral.hexDigit? c = some d ↔ Digit 16 c d := by
  constructor
  · intro h
    -- the three ranges of characters that are read at all
    have hranges : (48 ≤ c.toNat ∧ c.toNat ≤ 57) ∨ (97 ≤ c.toNat ∧ c.toNat ≤ 102) ∨
        (65 ≤ c.toNat ∧ c.toNat ≤ 70) := by
      unfold Numeral.hexDigit? at h
      split at h
      · rename_i hc
        simp only [Char.isDigit, Bool.and_eq_true, decide_eq_true_eq] at hc
        exact Or.inl hc
      · split at h
        · rename_i hc
          exact Or.inr (Or.inl hc)
        · split at h
          · rename_i hc
            exact Or.inr (Or.inr hc)
          · exact nomatch h
    have hchar : Char.ofNat c.toNat = c := Char.ofNat_toNat c
    rcases hranges with ⟨hlo, hhi⟩ | ⟨hlo, hhi⟩ | ⟨hlo, hhi⟩
    all_goals
      interval_cases hn : c.toNat
      all_goals
        rw [← hchar] at h ⊢
        obtain rfl := Option.some.inj h
        exact ⟨by decide, by decide⟩
  · rintro ⟨hd, h | h⟩
    all_goals
      interval_cases d
      all_goals
        obtain rfl := Option.some.inj h
        rfl

/-- The decimal digits are those that count from `0`. -/
theorem digit_ten_iff {c : Char} {d : Nat} :
    Digit 10 c d ↔ c.isDigit ∧ d = c.toNat - '0'.toNat := by
  constructor
  · rintro ⟨hd, h | h⟩
    all_goals
      interval_cases d
      all_goals
        obtain rfl := Option.some.inj h
        exact ⟨rfl, rfl⟩
  · rintro ⟨hc, rfl⟩
    have hhex : Numeral.hexDigit? c = some (c.toNat - '0'.toNat) := if_pos hc
    simp only [Char.isDigit, Bool.and_eq_true, decide_eq_true_eq] at hc
    refine ⟨?_, (hexDigit?_eq_some_iff.mp hhex).2⟩
    have hhi : c.toNat ≤ 57 := hc.2
    show c.toNat - 48 < 10
    omega

/-- A reader of single items reads a list of them item by item. -/
theorem mapM_eq_some_iff_forall₂ {α β : Type} {read : α → Option β} {R : α → β → Prop}
    (hread : ∀ {a b}, read a = some b ↔ R a b) {as : List α} {bs : List β} :
    as.mapM read = some bs ↔ List.Forall₂ R as bs := by
  induction as generalizing bs with
  | nil =>
      rw [List.mapM_nil, List.forall₂_nil_left_iff]
      exact ⟨fun h => (Option.some.inj h).symm, fun h => by rw [h]; rfl⟩
  | cons a as ih =>
      rw [List.mapM_cons, List.forall₂_cons_left_iff]
      simp only [Option.bind_eq_bind, Option.bind_eq_some_iff, Option.pure_def, Option.some.injEq]
      constructor
      · rintro ⟨b, hb, cs, hcs, rfl⟩
        exact ⟨b, cs, hread.mp hb, ih.mp hcs, rfl⟩
      · rintro ⟨b, cs, hb, hcs, rfl⟩
        exact ⟨b, hread.mpr hb, cs, ih.mpr hcs, rfl⟩

/-- A hexadecimal numeral is read exactly as its number. -/
theorem hexadecimal?_eq_some_iff {cs : List Char} {n : Nat} :
    Numeral.hexadecimal? cs = some n ↔ Digits 16 cs n := by
  unfold Numeral.hexadecimal? Digits
  by_cases hcs : cs = []
  · rw [if_pos hcs]
    exact ⟨nofun, fun h => absurd hcs h.1⟩
  · rw [if_neg hcs, Option.map_eq_some_iff]
    simp only [mapM_eq_some_iff_forall₂ hexDigit?_eq_some_iff]
    constructor
    · rintro ⟨ds, hds, rfl⟩
      exact ⟨hcs, ds, hds, rfl⟩
    · rintro ⟨-, ds, hds, rfl⟩
      exact ⟨ds, hds, rfl⟩

/-- The accumulating reader agrees with the value of the digits. -/
theorem ofDigitChars_eq_value {cs : List Char} {ds : List Nat}
    (h : List.Forall₂ (Digit 10) cs ds) :
    Nat.ofDigitChars 10 cs 0 = Radix.value 10 ds := by
  have hstep : ∀ n, Nat.ofDigitChars 10 cs n = ds.foldl (fun v d => v * 10 + d) n := by
    induction h with
    | nil => intro n; rfl
    | cons hd _ ih =>
        intro n
        rw [Nat.ofDigitChars_cons, ih, List.foldl_cons, (digit_ten_iff.mp hd).2, Nat.mul_comm]
  exact hstep 0

/-- A decimal numeral is read exactly as its number. -/
theorem decimal?_eq_some_iff {cs : List Char} {n : Nat} :
    Numeral.decimal? cs = some n ↔ Digits 10 cs n := by
  unfold Numeral.decimal?
  constructor
  · intro h
    split at h
    · rename_i hcs
      obtain rfl := Option.some.inj h
      have hds : List.Forall₂ (Digit 10) cs (cs.map fun c => c.toNat - '0'.toNat) := by
        rw [List.forall₂_map_right_iff, List.forall₂_same]
        intro c hc
        exact digit_ten_iff.mpr ⟨List.all_eq_true.mp hcs.2 c hc, rfl⟩
      exact ⟨hcs.1, _, hds, ofDigitChars_eq_value hds⟩
    · exact nomatch h
  · rintro ⟨hcs, ds, hds, rfl⟩
    have hall : cs.all Char.isDigit = true := by
      clear hcs
      induction hds with
      | nil => rfl
      | cons hd _ ih => rw [List.all_cons, (digit_ten_iff.mp hd).1, ih]; rfl
    rw [if_pos ⟨hcs, hall⟩, ofDigitChars_eq_value hds]

/-- Canonical numerals start with a zero only where they are one. -/
theorem canonicalDecimal?_eq_some_iff {cs : List Char} {n : Nat} :
    Numeral.canonicalDecimal? cs = some n ↔
      Digits 10 cs n ∧ (cs.head? = some '0' → cs = ['0']) := by
  unfold Numeral.canonicalDecimal?
  rw [← decimal?_eq_some_iff]
  by_cases h : cs.head? = some '0' ∧ cs ≠ ['0']
  · rw [if_pos h]
    exact ⟨nofun, fun hn => absurd (hn.2 h.1) h.2⟩
  · rw [if_neg h]
    exact ⟨fun hn => ⟨hn, fun h0 => by_contra fun hne => h ⟨h0, hne⟩⟩, fun hn => hn.1⟩

/-! ## Writing -/

/-- The character that is written for a digit counts that digit. -/
theorem digit_digitChar (hle : base ≤ 16) {d : Nat} (hd : d < base) :
    Digit base d.digitChar d := by
  refine ⟨hd, Or.inl ?_⟩
  have hlt : d < 16 := by omega
  interval_cases d
  all_goals rfl

/-- Zeros in front of a numeral change its number in no way. -/
theorem Digits.replicate_zero_append {cs : List Char} {n : Nat} (h : Digits base cs n)
    (hb : 0 < base) (count : Nat) : Digits base (List.replicate count '0' ++ cs) n := by
  obtain ⟨hcs, ds, hds, rfl⟩ := h
  refine ⟨List.append_ne_nil_of_right_ne_nil _ hcs, List.replicate count 0 ++ ds, ?_, ?_⟩
  · induction count with
    | zero => exact hds
    | succ count ih => exact List.Forall₂.cons ⟨hb, Or.inl rfl⟩ ih
  · rw [Radix.value_append, Radix.value_replicate_zero, Nat.zero_mul, Nat.zero_add]

/-- A written number is a run of digits that denotes it. -/
theorem digits_toDigits (hb : 1 < base) (hle : base ≤ 16) (n : Nat) :
    Digits base (Nat.toDigits base n) n := by
  induction n using Nat.strong_induction_on with
  | _ n ih =>
      by_cases hn : n < base
      · rw [Nat.toDigits_of_lt_base hn]
        refine ⟨List.cons_ne_nil _ _, [n], ?_, ?_⟩
        · exact List.Forall₂.cons (digit_digitChar hle hn) List.Forall₂.nil
        · simp [Radix.value]
      · have hle' : base ≤ n := Nat.le_of_not_lt hn
        rw [Nat.toDigits_of_base_le hb hle']
        obtain ⟨-, ds, hds, hv⟩ := ih (n / base) (Nat.div_lt_self (by omega) hb)
        refine ⟨List.append_ne_nil_of_right_ne_nil _ (List.cons_ne_nil _ _),
          ds ++ [n % base], ?_, ?_⟩
        · exact List.rel_append hds (List.Forall₂.cons
            (digit_digitChar hle (Nat.mod_lt n (by omega))) List.Forall₂.nil)
        · rw [Radix.value_concat, ← hv, Nat.mul_comm]
          exact (Nat.div_add_mod n base).symm

/-- A number is written as a numeral of its own. -/
theorem digits_toString (n : Nat) : Digits 10 (toString n).toList n := by
  show Digits 10 (String.ofList (Nat.toDigits 10 n)).toList n
  rw [String.toList_ofList]
  exact digits_toDigits (by decide) (by decide) n

/-- A written number has no superfluous zero. -/
theorem head?_toDigits (hb : 1 < base) (n : Nat)
    (h : (Nat.toDigits base n).head? = some '0') : Nat.toDigits base n = ['0'] := by
  induction n using Nat.strong_induction_on with
  | _ n ih =>
      by_cases hn : n < base
      · rw [Nat.toDigits_of_lt_base hn] at h ⊢
        exact congrArg (· :: []) (Option.some.inj h)
      · have hle : base ≤ n := Nat.le_of_not_lt hn
        have hquot : 0 < n / base := Nat.div_pos hle (by omega)
        rw [Nat.toDigits_of_base_le hb hle,
          List.head?_append_of_ne_nil _ Nat.toDigits_ne_nil] at h
        -- a zero in front would be the whole quotient, which is positive
        have hzero := ih (n / base) (Nat.div_lt_self (by omega) hb) h
        exfalso
        by_cases hq : n / base < base
        · rw [Nat.toDigits_of_lt_base hq] at hzero
          have := Nat.digitChar_eq_zero.mp (List.head_eq_of_cons_eq hzero)
          omega
        · have hlen := congrArg List.length hzero
          rw [Nat.toDigits_of_base_le hb (Nat.le_of_not_lt hq), List.length_append] at hlen
          have := Nat.length_toDigits_pos (b := base) (n := n / base / base)
          simp only [List.length_singleton] at hlen
          omega

/-! ## Canonical numerals -/

/-- Apart from capital letters, a digit has one character. -/
theorem Digit.eq_digitChar {c : Char} {d : Nat} (h : Digit base c d)
    (hcase : base ≤ 10 ∨ c.isUpper = false) : c = d.digitChar := by
  have hlt := h.lt_sixteen
  obtain ⟨hd, h | h⟩ := h
  · interval_cases d
    all_goals exact (Option.some.inj h).symm
  · by_cases hten : d < 10
    · interval_cases d
      all_goals exact (Option.some.inj h).symm
    · -- only here the two tables differ, and this one has capital letters
      have hlower := hcase.resolve_left (by omega)
      interval_cases d
      all_goals
        obtain rfl := Option.some.inj h
        exact absurd hlower (by decide)

/-- Digits without a leading zero are the ones that are written for their value. -/
theorem toDigits_value (hb : 1 < base) {ds : List Nat} (hds : ∀ d ∈ ds, d < base)
    (hne : ds ≠ []) (hcanonical : ds.head? = some 0 → ds = [0]) :
    Nat.toDigits base (Radix.value base ds) = ds.map Nat.digitChar := by
  induction ds using List.reverseRecOn with
  | nil => exact absurd rfl hne
  | append_singleton ds d ih =>
      have hd : d < base := hds d (by simp)
      cases ds with
      | nil => simp [Radix.value, Nat.toDigits_of_lt_base hd]
      | cons e es =>
          -- a numeral of several digits starts with a positive one
          have he : e ≠ 0 := by
            rintro rfl
            have hlen := congrArg List.length (hcanonical rfl)
            simp at hlen
          have hpos : 0 < Radix.value base (e :: es) := by
            rw [Radix.value_cons]
            have hplace : 0 < base ^ es.length := Nat.pow_pos (by omega)
            have := Nat.mul_pos (Nat.pos_of_ne_zero he) hplace
            omega
          have hinit := ih (fun d hd => hds d (List.mem_append_left _ hd)) (List.cons_ne_nil e es)
            (fun h => absurd (Option.some.inj h) he)
          rw [Radix.value_concat, Nat.mul_comm, ← Nat.toDigits_append_toDigits hb hpos hd, hinit,
            Nat.toDigits_of_lt_base hd, List.map_append, List.map_singleton]

/-- **Canonical numerals are the written ones**: without superfluous zeros and
    capital letters, a number has one numeral. -/
theorem Digits.eq_toDigits {cs : List Char} {n : Nat} (h : Digits base cs n) (hb : 1 < base)
    (hcase : base ≤ 10 ∨ ∀ c ∈ cs, c.isUpper = false)
    (hcanonical : cs.head? = some '0' → cs = ['0']) : cs = Nat.toDigits base n := by
  obtain ⟨hne, ds, hds, rfl⟩ := h
  have hchars : cs = ds.map Nat.digitChar := by
    clear hne hcanonical
    induction hds with
    | nil => rfl
    | @cons c d cs ds hd _ ih =>
        have hc := hd.eq_digitChar (hcase.imp_right fun h => h c List.mem_cons_self)
        have hcs := ih (hcase.imp_right fun h e he => h e (List.mem_cons_of_mem c he))
        rw [List.map_cons, ← hc, ← hcs]
  rw [hchars, toDigits_value hb (lt_of_forall₂_digit hds)]
  · rintro rfl
    exact hne hchars
  · intro hhead
    have hcs : cs = ['0'] := by
      refine hcanonical ?_
      rw [hchars, List.head?_map, hhead]
      rfl
    obtain ⟨d, es, hd, hes, rfl⟩ := List.forall₂_cons_left_iff.mp (hcs ▸ hds)
    rw [List.forall₂_nil_left_iff.mp hes] at hhead ⊢
    rw [Option.some.inj hhead]

end Subnet.Grammar
