import Subnet.AddressSpace
import Subnet.Proofs.BlockMembers

/-!
# Masked tests — a rule is one comparison under one mask

    Each test of a rule compares a number of one or two octets under a mask; a
    range does so too, where it is a run of open bits under fixed ones.  Read one
    after the other the tests compare the whole address (`matches_iff_land`):
    the masks and the values of the tests, placed like the octets they read, are
    the mask and the value of the rule.
-/

namespace Subnet

/-! ## Comparisons in two places -/

/-- Numbers of two places are compared place by place. -/
theorem land_places_eq_iff {k x y m n u v : Nat} (hy : y < 2 ^ k) (hn : n < 2 ^ k)
    (hv : v < 2 ^ k) :
    (x * 2 ^ k + y) &&& (m * 2 ^ k + n) = u * 2 ^ k + v ↔ x &&& m = u ∧ y &&& n = v := by
  have hdiv : ∀ {a b : Nat}, b < 2 ^ k → (a * 2 ^ k + b) / 2 ^ k = a := by
    intro a b hb
    rw [Nat.mul_comm, Nat.mul_add_div (Nat.two_pow_pos k), Nat.div_eq_of_lt hb, Nat.add_zero]
  have hmod : ∀ {a b : Nat}, b < 2 ^ k → (a * 2 ^ k + b) % 2 ^ k = b := by
    intro a b hb
    rw [Nat.mul_comm, Nat.mul_add_mod, Nat.mod_eq_of_lt hb]
  have hland : (x * 2 ^ k + y) &&& (m * 2 ^ k + n) = (x &&& m) * 2 ^ k + (y &&& n) := by
    rw [← Nat.div_add_mod ((x * 2 ^ k + y) &&& (m * 2 ^ k + n)) (2 ^ k), Nat.and_div_two_pow,
      Nat.and_mod_two_pow, hdiv hy, hdiv hn, hmod hy, hmod hn, Nat.mul_comm]
  have hlow : y &&& n < 2 ^ k := Nat.and_lt_two_pow y hn
  rw [hland]
  constructor
  · intro h
    refine ⟨?_, ?_⟩
    · rw [← hdiv (a := x &&& m) hlow, h, hdiv hv]
    · rw [← hmod (a := x &&& m) hlow, h, hmod hv]
  · rintro ⟨rfl, rfl⟩
    rfl

/-- The places of octets. -/
theorem land_octets_eq_iff {count x y m n u v : Nat} (hy : y < 256 ^ count)
    (hn : n < 256 ^ count) (hv : v < 256 ^ count) :
    (x * 256 ^ count + y) &&& (m * 256 ^ count + n) = u * 256 ^ count + v ↔
      x &&& m = u ∧ y &&& n = v := by
  have hbits : 256 ^ count = 2 ^ (8 * count) := by rw [Nat.pow_mul]
  rw [hbits] at hy hn hv ⊢
  exact land_places_eq_iff hy hn hv

/-- Keeping only the leading bits rounds down. -/
theorem land_leading {n k x : Nat} (hk : k ≤ n) (hx : x < 2 ^ n) :
    x &&& (2 ^ n - 2 ^ k) = x / 2 ^ k * 2 ^ k := by
  have hpos := Nat.two_pow_pos k
  have hsplit : 2 ^ n = 2 ^ (n - k) * 2 ^ k := by rw [← Nat.pow_add, Nat.sub_add_cancel hk]
  have hmask : 2 ^ n - 2 ^ k = (2 ^ (n - k) - 1) * 2 ^ k + 0 := by
    rw [hsplit, Nat.sub_one_mul, Nat.add_zero]
  have hlead : x / 2 ^ k < 2 ^ (n - k) := by
    rw [Nat.div_lt_iff_lt_mul hpos, ← hsplit]
    exact hx
  have hopen : x / 2 ^ k &&& (2 ^ (n - k) - 1) = x / 2 ^ k := by
    rw [Nat.and_two_pow_sub_one_eq_mod, Nat.mod_eq_of_lt hlead]
  have h := (land_places_eq_iff (Nat.mod_lt x hpos) hpos hpos).mpr
    ⟨hopen, Nat.and_zero (x % 2 ^ k)⟩
  rw [Nat.div_add_mod', ← hmask, Nat.add_zero] at h
  exact h

namespace AddressSpace

/-! ## Octets as one number -/

/-- The value of octets is bounded by their number. -/
theorem value_octets_lt (os : List UInt8) :
    Radix.value 256 (os.map UInt8.toNat) < 256 ^ os.length := by
  have hlt := Radix.value_lt (Address.lt_of_mem_map_toNat_octets os)
  rw [List.length_map] at hlt
  exact hlt

/-- The first octets stand in front of the others. -/
theorem value_take_drop (os : List UInt8) (k : Nat) :
    Radix.value 256 (os.map UInt8.toNat) =
      Radix.value 256 ((os.take k).map UInt8.toNat) * 256 ^ (os.drop k).length +
        Radix.value 256 ((os.drop k).map UInt8.toNat) := by
  conv_lhs => rw [← List.take_append_drop k os]
  rw [List.map_append, Radix.value_append, List.length_map]

/-! ## One test -/

namespace OctetTest

/-- The bits that a test looks at, of the octets it reads as one number. -/
def mask : OctetTest → Nat
  | octet mask _ => mask.toNat
  | range low high => 255 - (high.toNat - low.toNat)
  | word mask _ => mask.toNat

/-- What these bits are to be. -/
def value : OctetTest → Nat
  | octet _ value => value.toNat
  | range low _ => low.toNat
  | word _ value => value.toNat

/-- A range is a run of open bits under fixed ones. -/
def Aligned : OctetTest → Prop
  | range low high => ∃ k ≤ 8, high.toNat + 1 = low.toNat + 2 ^ k ∧ low.toNat % 2 ^ k = 0
  | _ => True

/-- Whether the range of a test is aligned is found among its eight possible sizes. -/
instance decidableAligned : (t : OctetTest) → Decidable t.Aligned
  | range low high =>
      inferInstanceAs (Decidable (∃ k ≤ 8, high.toNat + 1 = low.toNat + 2 ^ k ∧
        low.toNat % 2 ^ k = 0))
  | octet _ _ => inferInstanceAs (Decidable True)
  | word _ _ => inferInstanceAs (Decidable True)

/-- The mask of a test fits into the octets that it reads. -/
theorem mask_lt (t : OctetTest) : t.mask < 256 ^ t.size := by
  cases t with
  | octet mask _ => exact mask.toNat_lt
  | range low high =>
      show 255 - (high.toNat - low.toNat) < 256
      omega
  | word mask _ => exact mask.toNat_lt

/-- The value of a test fits into the octets that it reads. -/
theorem value_lt (t : OctetTest) : t.value < 256 ^ t.size := by
  cases t with
  | octet _ value => exact value.toNat_lt
  | range low _ => exact low.toNat_lt
  | word _ value => exact value.toNat_lt

/-- An aligned range is a test of the bits above its size. -/
theorem range_iff_land {low high o : UInt8} (h : (range low high).Aligned) :
    low ≤ o ∧ o ≤ high ↔ o.toNat &&& (range low high).mask = (range low high).value := by
  obtain ⟨k, hk, hsize, hmod⟩ := h
  have hpos := Nat.two_pow_pos k
  have hhigh := high.toNat_lt
  have hmask : (range low high).mask = 2 ^ 8 - 2 ^ k := by
    show 255 - (high.toNat - low.toNat) = 256 - 2 ^ k
    omega
  have hvalue : low.toNat / 2 ^ k * 2 ^ k = low.toNat :=
    Nat.div_mul_cancel (Nat.dvd_of_mod_eq_zero hmod)
  show low ≤ o ∧ o ≤ high ↔ o.toNat &&& (range low high).mask = low.toNat
  rw [hmask, land_leading hk o.toNat_lt, ← hvalue, div_mul_eq_iff hpos, hvalue,
    UInt8.le_iff_toNat_le, UInt8.le_iff_toNat_le]
  omega

/-- A test of the octets it reads is one comparison under a mask. -/
theorem passes_iff_land {t : OctetTest} (haligned : t.Aligned) {os : List UInt8}
    (hlen : os.length = t.size) :
    t.passes os = true ↔ Radix.value 256 (os.map UInt8.toNat) &&& t.mask = t.value := by
  cases t with
  | octet mask value =>
      obtain ⟨o, rfl⟩ := List.length_eq_one_iff.mp hlen
      have hread : Radix.value 256 ([o].map UInt8.toNat) = o.toNat := by simp [Radix.value]
      show decide (o &&& mask = value) = true ↔ _ &&& mask.toNat = value.toNat
      rw [hread, decide_eq_true_iff, ← UInt8.toNat_inj, UInt8.toNat_and]
  | range low high =>
      obtain ⟨o, rfl⟩ := List.length_eq_one_iff.mp hlen
      have hread : Radix.value 256 ([o].map UInt8.toNat) = o.toNat := by simp [Radix.value]
      show decide (low ≤ o ∧ o ≤ high) = true ↔ _
      rw [hread, decide_eq_true_iff]
      exact range_iff_land haligned
  | word mask value =>
      obtain ⟨o, p, rfl⟩ := List.length_eq_two.mp hlen
      have hread : Radix.value 256 ([o, p].map UInt8.toNat) = o.toNat * 256 + p.toNat := by
        simp [Radix.value]
      show decide (UInt16.ofNat (o.toNat * 256 + p.toNat) &&& mask = value) = true ↔
        _ &&& mask.toNat = value.toNat
      rw [hread, decide_eq_true_iff, ← UInt16.toNat_inj, UInt16.toNat_and, Address.toNat_pair]

end OctetTest

/-! ## All tests of a rule -/

/-- How many octets the tests read. -/
def reach (ts : List OctetTest) : Nat :=
  (ts.map OctetTest.size).sum

/-- One number for each test, placed like the octets it reads among `count`;
    the octets behind the last test are left zero. -/
def placed (part : OctetTest → Nat) : List OctetTest → (count : Nat) → Nat
  | [], _ => 0
  | t :: ts, count => part t * 256 ^ (count - t.size) + placed part ts (count - t.size)

/-- Tests that reach no further than the octets there are give a number of that
    many octets. -/
theorem placed_lt {part : OctetTest → Nat} (hpart : ∀ t, part t < 256 ^ t.size)
    {ts : List OctetTest} {count : Nat} (h : reach ts ≤ count) :
    placed part ts count < 256 ^ count := by
  induction ts generalizing count with
  | nil => exact Nat.pow_pos (by decide)
  | cons t ts ih =>
      have hreach : t.size + reach ts ≤ count := h
      have hrest : placed part ts (count - t.size) < 256 ^ (count - t.size) := ih (by omega)
      have hplace : 256 ^ count = 256 ^ t.size * 256 ^ (count - t.size) := by
        rw [← Nat.pow_add]
        congr 1
        omega
      have hfull := Nat.mul_le_mul_right (256 ^ (count - t.size)) (hpart t)
      rw [Nat.succ_mul] at hfull
      show part t * 256 ^ (count - t.size) + placed part ts (count - t.size) < 256 ^ count
      omega

/-- Tests that fit are one comparison under one mask. -/
theorem passAll_iff_land {ts : List OctetTest} {os : List UInt8} (h : ∀ t ∈ ts, t.Aligned)
    (hreach : reach ts ≤ os.length) :
    passAll ts os = true ↔
      Radix.value 256 (os.map UInt8.toNat) &&& placed OctetTest.mask ts os.length =
        placed OctetTest.value ts os.length := by
  induction ts generalizing os with
  | nil => simp [passAll, placed]
  | cons t ts ih =>
      have hfits : t.size + reach ts ≤ os.length := hreach
      have hrest : reach ts ≤ (os.drop t.size).length := by
        rw [List.length_drop]
        omega
      have htake : (os.take t.size).length = t.size := List.length_take_of_le (by omega)
      have htest := OctetTest.passes_iff_land (h t List.mem_cons_self) htake
      have htests := ih (fun u hu => h u (List.mem_cons_of_mem t hu)) hrest
      show (t.passes (os.take t.size) && passAll ts (os.drop t.size)) = true ↔
        _ &&& (t.mask * 256 ^ (os.length - t.size) + placed _ ts (os.length - t.size)) =
          t.value * 256 ^ (os.length - t.size) + placed _ ts (os.length - t.size)
      rw [Bool.and_eq_true, htest, htests, value_take_drop os t.size, ← List.length_drop,
        land_octets_eq_iff (value_octets_lt _) (placed_lt OctetTest.mask_lt hrest)
          (placed_lt OctetTest.value_lt hrest)]

/-- The mask of a rule for the addresses of a family. -/
def Rule.mask (r : Rule) (f : Family) : Nat :=
  placed OctetTest.mask r.tests f.octetCount

/-- What the bits under the mask are to be. -/
def Rule.value (r : Rule) (f : Family) : Nat :=
  placed OctetTest.value r.tests f.octetCount

/-- The tests of a rule can be read on the addresses of a family. -/
def Rule.Fits (r : Rule) (f : Family) : Prop :=
  (∀ t ∈ r.tests, t.Aligned) ∧ reach r.tests ≤ f.octetCount

/-- **ONE COMPARISON**: a rule matches the addresses that have its value under
    its mask. -/
theorem Rule.matches_iff_land {r : Rule} {a : Address} (h : r.Fits a.family) :
    r.matchesAddress a = true ↔ a.value &&& r.mask a.family = r.value a.family := by
  have hreach : reach r.tests ≤ a.octets.length := by
    rw [Address.length_octets]
    exact h.2
  have hall := passAll_iff_land h.1 hreach
  rw [Address.value_octets, Address.length_octets] at hall
  exact hall

end AddressSpace

end Subnet
