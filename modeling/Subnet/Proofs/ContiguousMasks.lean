import Subnet.Proofs.Interchange

/-!
# Contiguous masks — the masks whose length is read back, and all the others

    A mask has a length when its set bits are a non-empty run at the top.  This
    fails in two ways only: no bit is set, or a set bit has a clear one above it.
    For the rest the lowest set bit is where the run ends, so counting the bits
    from there up gives the length.
-/

namespace Subnet.Netmask

variable {f : Family} {m : Address} {n : Nat}

/-- A set bit of the mask has a clear one above it. -/
def Broken (m : Address) : Prop :=
  ∃ low high, low < high ∧ high < m.family.width ∧
    m.value.testBit low = true ∧ m.value.testBit high = false

/-! ## Runs -/

/-- The bits of a run are set from the length below the top on. -/
theorem isRun_iff :
    IsRun m n ↔
      ∀ i < m.family.width, (m.value.testBit i = true ↔ m.family.width - n ≤ i) := by
  refine forall₂_congr fun i _ => ?_
  rw [Bool.eq_iff_iff, decide_eq_true_iff, Nat.sub_le_iff_le_add]

/-- A mask of a positive length is not zero. -/
theorem IsRun.value_ne_zero (h : IsRun m n) (hpos : 1 ≤ n) (hle : n ≤ m.family.width) :
    m.value ≠ 0 := by
  intro hzero
  have htop := h (m.family.width - 1) (by omega)
  rw [hzero, Nat.zero_testBit, eq_comm, decide_eq_false_iff_not] at htop
  omega

/-- A run of leading ones has no gap. -/
theorem IsRun.not_broken (h : IsRun m n) : ¬Broken m := by
  rintro ⟨low, high, hlt, hhigh, hset, hclear⟩
  rw [isRun_iff] at h
  have hend := (h low (Nat.lt_trans hlt hhigh)).mp hset
  have hset' := (h high hhigh).mpr (Nat.le_trans hend (Nat.le_of_lt hlt))
  rw [hclear] at hset'
  exact nomatch hset'

/-- From the lowest set bit up, a mask that is not broken is a run. -/
theorem isRun_of_lowest {low : Nat} (hset : m.value.testBit low = true)
    (hlow : ∀ i < low, ¬m.value.testBit i = true) (hwhole : ¬Broken m) :
    IsRun m (m.family.width - low) := by
  rw [isRun_iff]
  intro i hi
  constructor
  · intro hbit
    have hle : low ≤ i := Nat.le_of_not_lt fun hlt => hlow i hlt hbit
    omega
  · intro hend
    rcases Nat.lt_or_ge low i with hlt | hge
    · by_contra hclear
      exact hwhole ⟨low, i, hlt, hi, hset, Bool.eq_false_of_not_eq_true hclear⟩
    · obtain rfl : i = low := by omega
      exact hset

/-- A non-empty run is what a mask is unless it is zero or broken. -/
theorem exists_isRun_iff :
    (∃ n, 1 ≤ n ∧ n ≤ m.family.width ∧ IsRun m n) ↔ ¬(m.value = 0 ∨ Broken m) := by
  constructor
  · rintro ⟨n, hpos, hle, hrun⟩ (hzero | hbroken)
    · exact hrun.value_ne_zero hpos hle hzero
    · exact hrun.not_broken hbroken
  · intro h
    obtain ⟨hne, hwhole⟩ := not_or.mp h
    have hbit : ∃ i, m.value.testBit i = true := Nat.exists_testBit_of_ne_zero hne
    have hset := Nat.find_spec hbit
    have hlt : Nat.find hbit < m.family.width := by
      by_contra hge
      rw [m.testBit_of_width_le (Nat.le_of_not_lt hge)] at hset
      exact nomatch hset
    have hrun := isRun_of_lowest hset (fun i hi => Nat.find_min hbit hi) hwhole
    exact ⟨_, by omega, by omega, hrun⟩

/-! ## Numbers -/

/-- A number that has a mask is a length, and the mask is that of the length. -/
theorem exists_of_ofNumber {x : Binary64} (h : ofNumber f x = .ok m) :
    ∃ n, checkLength f x = .ok n ∧ m = ofLength f n := by
  cases hn : checkLength f x with
  | error e => simp [ofNumber, hn, Except.map] at h
  | ok n =>
      rw [ofNumber, hn] at h
      exact ⟨n, rfl, (Except.ok.inj h).symm⟩

/-- The numbers from one to the width that have the mask are the lengths of its run. -/
theorem ofNumber_self_iff {x : Binary64} :
    x.atLeast 1 = true ∧ x.atMost m.family.width = true ∧ ofNumber m.family x = .ok m ↔
      ∃ n, 1 ≤ n ∧ n ≤ m.family.width ∧ x = .ofNat n ∧ IsRun m n := by
  constructor
  · rintro ⟨hpos, -, hmask⟩
    obtain ⟨n, hn, hm⟩ := exists_of_ofNumber hmask
    obtain ⟨rfl, hrange⟩ := checkLength_eq_ok_iff.mp hn
    rw [Binary64.atLeast_finite, decide_eq_true_iff] at hpos
    exact ⟨n, hpos, hrange.2, (ofNat_of_admits hrange).symm, eq_ofLength_iff.mp hm⟩
  · rintro ⟨n, hpos, hle, rfl, hrun⟩
    have hrange := Family.admits_of_pos hpos hle
    refine ⟨?_, ?_, (ofNumber_eq_ok_iff hrange).mpr (eq_ofLength_iff.mpr hrun)⟩
    · rw [ofNat_of_admits hrange, Binary64.atLeast_finite]
      exact decide_eq_true hpos
    · rw [ofNat_of_admits hrange, Binary64.atMost_finite]
      exact decide_eq_true hle

/-- **CONTIGUOUS MASKS**: a mask has the length `x` exactly if `x` is a number
    from one to the width and the mask is that of `x`; its bits are then set
    exactly from `x` below the top on.  Every other mask, zero or with a clear
    bit above a set one, is refused as not contiguous. -/
theorem length_contiguous (m : Address) :
    (∀ x : Binary64, (∃ n, length m = .ok n ∧ x = .ofNat n) ↔
      x.atLeast 1 = true ∧ x.atMost m.family.width = true ∧ ofNumber m.family x = .ok m) ∧
    (∀ n, length m = .ok n ↔ 1 ≤ n ∧ n ≤ m.family.width ∧
      ∀ i < m.family.width, (m.value.testBit i = true ↔ m.family.width - n ≤ i)) ∧
    ∀ e, length m = .error e ↔ e = .nonContiguous m.text ∧ (m.value = 0 ∨ Broken m) := by
  refine ⟨?_, ?_, ?_⟩
  · intro x
    rw [ofNumber_self_iff]
    constructor
    · rintro ⟨n, hn, hx⟩
      obtain ⟨hpos, hle, hrun⟩ := length_eq_ok_iff.mp hn
      exact ⟨n, hpos, hle, hx, hrun⟩
    · rintro ⟨n, hpos, hle, hx, hrun⟩
      exact ⟨n, length_eq_ok_iff.mpr ⟨hpos, hle, hrun⟩, hx⟩
  · intro n
    rw [length_eq_ok_iff, isRun_iff]
  · intro e
    rw [length_eq_error_iff, exists_isRun_iff, not_not]

end Subnet.Netmask
