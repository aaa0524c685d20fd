import Mathlib.Data.Nat.Bitwise
import Subnet.Netmask
import Subnet.Proofs.Digits

/-!
# Masks — a netmask is a run of leading ones, and its length is read back

    Masks are compared bit by bit: `testBit_ofLength` says what the mask of a
    length is, `leadingOnes_eq` that counting from the top finds the length, and
    `length_eq_ok_iff` that a netmask is accepted exactly when it is a non-empty
    run.
-/

namespace Subnet

/-- Where the results of a check are known and it has one error, it fails
    exactly when there is no result. -/
theorem eq_error_iff_of_ok_iff {E V : Type} {result : Except E V} {P : V → Prop} {cause : E}
    (hok : ∀ v, result = .ok v ↔ P v) (herror : ∀ e, result = .error e → e = cause) (e : E) :
    result = .error e ↔ e = cause ∧ ¬∃ v, P v := by
  constructor
  · intro h
    refine ⟨herror e h, ?_⟩
    rintro ⟨v, hv⟩
    rw [(hok v).mpr hv] at h
    exact nomatch h
  · rintro ⟨rfl, hnone⟩
    cases hresult : result with
    | ok v => exact absurd ⟨v, (hok v).mp hresult⟩ hnone
    | error e' => rw [herror e' hresult]

/-- Above the width all bits of an address are clear. -/
theorem Address.testBit_of_width_le (a : Address) {i : Nat} (h : a.family.width ≤ i) :
    a.value.testBit i = false :=
  Nat.testBit_lt_two_pow (Nat.lt_of_lt_of_le a.value_lt (Nat.pow_le_pow_right (by decide) h))

/-- Addresses of one family are equal when their bits within the width are. -/
theorem Address.eq_of_testBit_eq {a b : Address} (hf : a.family = b.family)
    (h : ∀ i < a.family.width, a.value.testBit i = b.value.testBit i) : a = b := by
  refine Address.ext hf (Nat.eq_of_testBit_eq ?_)
  intro i
  by_cases hi : i < a.family.width
  · exact h i hi
  · have hle := Nat.le_of_not_lt hi
    rw [a.testBit_of_width_le hle, b.testBit_of_width_le (hf ▸ hle)]

namespace Netmask

/-- The set bits of a mask are exactly its top `n` bits. -/
def IsRun (m : Address) (n : Nat) : Prop :=
  ∀ i < m.family.width, m.value.testBit i = decide (m.family.width ≤ i + n)

/-- A mask is of the family that was named. -/
@[simp] theorem family_ofLength (f : Family) (n : Nat) : (ofLength f n).family = f := rfl

/-- The bits of a mask are set from its length on upwards, and none above the width. -/
theorem testBit_ofLength (f : Family) (n i : Nat) :
    (ofLength f n).value.testBit i = (decide (i < f.width) && decide (f.width ≤ i + n)) := by
  rw [ofLength, Address.value_ofNat, Family.allOnes, Family.size_eq, Nat.testBit_mod_two_pow,
    Nat.testBit_shiftLeft, Nat.testBit_two_pow_sub_one]
  by_cases hi : i < f.width
  · have hshift : i - (f.width - n) < f.width := by omega
    have hrun : i ≥ f.width - n ↔ f.width ≤ i + n := by omega
    simp only [hi, hshift, hrun, decide_true, Bool.true_and, Bool.and_true]
  · simp only [hi, decide_false, Bool.false_and]

/-- The mask of a length is a run of that many leading ones. -/
theorem isRun_ofLength (f : Family) (n : Nat) : IsRun (ofLength f n) n := by
  intro i hi
  rw [testBit_ofLength]
  exact (congrArg (· && _) (decide_eq_true hi)).trans (Bool.true_and _)

/-- A mask is the one of a length exactly when its bits are that run. -/
theorem eq_ofLength_iff {m : Address} {n : Nat} : m = ofLength m.family n ↔ IsRun m n := by
  constructor
  · intro h
    rw [h]
    exact isRun_ofLength m.family n
  · intro h
    refine Address.eq_of_testBit_eq rfl ?_
    intro i hi
    rw [h i hi]
    exact (isRun_ofLength m.family n i hi).symm

/-! ## Counting from the top -/

/-- There are no more leading ones than bits are looked at. -/
theorem leadingOnes_le (count v : Nat) : leadingOnes count v ≤ count := by
  induction count with
  | zero => exact Nat.le_refl 0
  | succ count ih =>
      rw [leadingOnes]
      split
      · exact Nat.succ_le_succ ih
      · exact Nat.zero_le _

/-- Counting finds the length of a run. -/
theorem leadingOnes_eq {count n v : Nat} (hn : n ≤ count)
    (h : ∀ i < count, v.testBit i = decide (count ≤ i + n)) : leadingOnes count v = n := by
  induction count generalizing n with
  | zero => exact (Nat.le_zero.mp hn).symm
  | succ count ih =>
      have htop := h count (Nat.lt_succ_self count)
      rw [leadingOnes, htop]
      -- the top bit is set exactly when the run is not empty
      cases n with
      | zero => simp
      | succ n =>
          rw [if_pos (by simp), ih (Nat.le_of_succ_le_succ hn)]
          intro i hi
          rw [h i (Nat.lt_succ_of_lt hi)]
          exact decide_eq_decide.mpr (by omega)

/-! ## The length of a netmask -/

/-- A netmask is accepted exactly when it is a non-empty run, with the length
    of that run. -/
theorem length_eq_ok_iff {m : Address} {n : Nat} :
    length m = .ok n ↔ 1 ≤ n ∧ n ≤ m.family.width ∧ IsRun m n := by
  unfold length
  dsimp only
  constructor
  · intro h
    split at h
    · exact nomatch h
    · rename_i hgood
      obtain ⟨hpos, hmask⟩ := not_or.mp hgood
      obtain rfl := Except.ok.inj h
      exact ⟨Nat.one_le_iff_ne_zero.mpr hpos, leadingOnes_le _ _,
        eq_ofLength_iff.mp (not_not.mp hmask)⟩
  · rintro ⟨hpos, hle, hrun⟩
    rw [leadingOnes_eq hle hrun]
    exact if_neg (not_or.mpr ⟨Nat.one_le_iff_ne_zero.mp hpos,
      not_not.mpr (eq_ofLength_iff.mpr hrun)⟩)

/-- A mask without a length is refused with its own text. -/
theorem length_error {m : Address} {e : QueryError} (h : length m = .error e) :
    e = .nonContiguous m.text := by
  unfold length at h
  dsimp only at h
  split at h
  · exact (Except.error.inj h).symm
  · exact nomatch h

/-- Every other netmask is refused, and its canonical text is quoted. -/
theorem length_eq_error_iff {m : Address} {e : QueryError} :
    length m = .error e ↔
      e = .nonContiguous m.text ∧ ¬∃ n, 1 ≤ n ∧ n ≤ m.family.width ∧ IsRun m n :=
  eq_error_iff_of_ok_iff (fun _ => length_eq_ok_iff) (fun _ => length_error) e

/-! ## The length of an address class -/

/-- The class of an address gives a length between eight and twenty-four. -/
theorem classfulLength_bounds (a : Address) : 8 ≤ classfulLength a ∧ classfulLength a ≤ 24 := by
  unfold classfulLength
  dsimp only
  split
  · decide
  · split
    · decide
    · decide

end Netmask

end Subnet
