import Mathlib.Data.List.Induction
import Mathlib.Data.Nat.Bitwise
import Mathlib.Tactic.Ring
import Subnet.Address.Octets

/-!
# Digits — writing and reading a number are inverse

    `Radix.digits` keeps the lowest digits of a number and `Radix.value` reads
    digits back, so one undoes the other up to the digits that are cut off.
    Octets are digits of base 256, and pairing them gives the digits of base
    65536.  Both the wire form and the text form of an address rest on this.
-/

namespace Subnet.Radix

variable {base : Nat}

/-! ## The value of a list of digits -/

@[simp] theorem value_nil : value base [] = 0 := rfl

/-- One more digit at the end multiplies what stands before it by the base. -/
@[simp] theorem value_concat (ds : List Nat) (d : Nat) :
    value base (ds ++ [d]) = value base ds * base + d := by
  simp [value]

/-- The digits in front count for the places behind them. -/
theorem value_append (ds es : List Nat) :
    value base (ds ++ es) = value base ds * base ^ es.length + value base es := by
  induction es using List.reverseRecOn with
  | nil => simp
  | append_singleton es e ih =>
      rw [← List.append_assoc, value_concat, value_concat, ih, List.length_append,
        List.length_singleton, pow_succ]
      ring

/-- The first digit counts by the number of digits behind it. -/
theorem value_cons (d : Nat) (ds : List Nat) :
    value base (d :: ds) = d * base ^ ds.length + value base ds := by
  have h : value base ([d] ++ ds) = value base [d] * base ^ ds.length + value base ds :=
    value_append [d] ds
  rw [List.singleton_append] at h
  rw [h]
  simp [value]

/-- Zeros count nothing. -/
theorem value_replicate_zero (count : Nat) : value base (List.replicate count 0) = 0 := by
  induction count with
  | zero => rfl
  | succ count ih => rw [List.replicate_succ, value_cons, ih, Nat.zero_mul]

/-- Digits denote less than the first place they do not reach. -/
theorem value_lt {ds : List Nat} (h : ∀ d ∈ ds, d < base) :
    value base ds < base ^ ds.length := by
  induction ds with
  | nil => simp
  | cons d ds ih =>
      rw [value_cons, List.length_cons, pow_succ]
      have hd : d + 1 ≤ base := h d List.mem_cons_self
      have hds := ih fun e he => h e (List.mem_cons_of_mem d he)
      have := Nat.mul_le_mul_right (base ^ ds.length) hd
      rw [Nat.add_mul, Nat.one_mul] at this
      rw [Nat.mul_comm (base ^ ds.length) base]
      omega

/-! ## The digits of a number -/

/-- Digits are less than their base. -/
theorem lt_of_mem_digits (hb : 0 < base) {count v d : Nat} (h : d ∈ digits base count v) :
    d < base := by
  induction count generalizing v with
  | zero => exact nomatch h
  | succ count ih =>
      rcases List.mem_append.mp h with hinit | hlast
      · exact ih hinit
      · rw [List.mem_singleton.mp hlast]
        exact Nat.mod_lt v hb

/-- Reading written digits back keeps the number up to the digits cut off. -/
theorem value_digits (count v : Nat) : value base (digits base count v) = v % base ^ count := by
  induction count generalizing v with
  | zero => simp [digits, Nat.mod_one]
  | succ count ih =>
      rw [digits, value_concat, ih, pow_succ, Nat.mul_comm (base ^ count) base, Nat.mod_mul]
      ring

/-- Writing the value of digits gives the digits. -/
theorem digits_value {ds : List Nat} (h : ∀ d ∈ ds, d < base) :
    digits base ds.length (value base ds) = ds := by
  induction ds using List.reverseRecOn with
  | nil => rfl
  | append_singleton ds d ih =>
      have hd : d < base := h d (by simp)
      have hds := ih fun e he => h e (List.mem_append_left [d] he)
      have hb : 0 < base := by omega
      rw [List.length_append, List.length_singleton, digits, value_concat]
      rw [Nat.mul_comm, Nat.mul_add_div hb, Nat.div_eq_of_lt hd, Nat.add_zero, hds,
        Nat.mul_add_mod, Nat.mod_eq_of_lt hd]

/-- As many digits with the same value are the same digits. -/
theorem value_injective {ds es : List Nat} (hd : ∀ d ∈ ds, d < base) (he : ∀ e ∈ es, e < base)
    (hlen : ds.length = es.length) (h : value base ds = value base es) : ds = es := by
  rw [← digits_value hd, ← digits_value he, hlen, h]

/-- The low digits do not depend on what lies above them. -/
theorem digits_mod {count n : Nat} (h : count ≤ n) (v : Nat) :
    digits base count (v % base ^ n) = digits base count v := by
  rcases Nat.eq_zero_or_pos base with rfl | hb
  · cases n with
    | zero => rw [Nat.le_zero.mp h]; rfl
    | succ n => simp
  · refine value_injective (fun d => lt_of_mem_digits hb) (fun d => lt_of_mem_digits hb)
      (by simp) ?_
    rw [value_digits, value_digits]
    exact Nat.mod_mod_of_dvd v (pow_dvd_pow base h)

/-- More digits are those of the quotient in front of the low ones. -/
theorem digits_add (m n v : Nat) :
    digits base (m + n) v = digits base m (v / base ^ n) ++ digits base n v := by
  induction n generalizing v with
  | zero => simp [digits]
  | succ n ih =>
      rw [← Nat.add_assoc, digits, ih, digits, ← List.append_assoc, Nat.div_div_eq_div_mul,
        pow_succ, Nat.mul_comm base]

end Subnet.Radix

namespace Subnet

/-- The number of addresses is the power that the width says. -/
theorem Family.size_eq (f : Family) : f.size = 2 ^ f.width := rfl

/-- An address has eight bits to the octet. -/
theorem Family.size_eq_pow_octetCount (f : Family) : f.size = 256 ^ f.octetCount := by
  cases f <;> decide

namespace Address

/-! ## Octets -/

/-- The octets of an address are its digits to the base 256. -/
theorem map_toNat_octets (a : Address) :
    a.octets.map UInt8.toNat = Radix.digits 256 a.family.octetCount a.value := by
  rw [octets, List.map_map]
  refine (List.map_congr_left fun d hd => ?_).trans (List.map_id _)
  show (UInt8.ofNat d).toNat = d
  rw [UInt8.toNat_ofNat', Nat.mod_eq_of_lt (Radix.lt_of_mem_digits (by decide) hd)]

/-- The octets of an address have its value. -/
theorem value_octets (a : Address) : Radix.value 256 (a.octets.map UInt8.toNat) = a.value := by
  rw [map_toNat_octets, Radix.value_digits, ← Family.size_eq_pow_octetCount]
  exact Nat.mod_eq_of_lt a.value_lt

/-- An address comes back from its octets. -/
theorem ofOctets_octets (a : Address) : ofOctets a.family a.octets = a := by
  rw [ofOctets, value_octets, ofNat_value]

/-- Octets are digits to the base 256. -/
theorem lt_of_mem_map_toNat_octets (os : List UInt8) : ∀ d ∈ os.map UInt8.toNat, d < 256 := by
  intro d hd
  obtain ⟨o, -, rfl⟩ := List.mem_map.mp hd
  exact o.toNat_lt

/-- As many octets as an address has are all kept. -/
theorem octets_ofOctets {f : Family} {os : List UInt8} (h : os.length = f.octetCount) :
    (ofOctets f os).octets = os := by
  have hdigits := Radix.digits_value (lt_of_mem_map_toNat_octets os)
  rw [List.length_map, h] at hdigits
  rw [octets, ofOctets, value_ofNat, family_ofNat, Family.size_eq_pow_octetCount,
    Radix.digits_mod (Nat.le_refl _), hdigits, List.map_map]
  exact (List.map_congr_left fun o _ => UInt8.ofNat_toNat).trans (List.map_id os)

/-! ## Words -/

/-- Octets are paired up to an even place, and the rest is paired on its own. -/
theorem pairOctets_append : ∀ {os ps : List UInt8}, os.length % 2 = 0 →
    pairOctets (os ++ ps) = pairOctets os ++ pairOctets ps
  | [], _, _ => rfl
  | [_], _, h => absurd h (by simp)
  | high :: low :: rest, ps, h => by
      have heven : rest.length % 2 = 0 := by
        simp only [List.length_cons] at h
        omega
      have ih : pairOctets (rest ++ ps) = pairOctets rest ++ pairOctets ps :=
        pairOctets_append heven
      simp only [List.cons_append, pairOctets, ih]

/-- There is one word for two octets. -/
theorem length_pairOctets : ∀ os : List UInt8, (pairOctets os).length = os.length / 2
  | [] => rfl
  | [_] => by simp [pairOctets]
  | high :: low :: rest => by
      simp only [pairOctets, List.length_cons, length_pairOctets rest]
      omega

/-- Two octets make a word without overflow. -/
theorem toNat_pair (high low : UInt8) :
    (UInt16.ofNat (high.toNat * 256 + low.toNat)).toNat = high.toNat * 256 + low.toNat := by
  have := high.toNat_lt
  have := low.toNat_lt
  rw [UInt16.toNat_ofNat', Nat.mod_eq_of_lt (by omega)]

/-- Pairing an even number of octets keeps the number they denote. -/
theorem value_pairOctets : ∀ {os : List UInt8}, os.length % 2 = 0 →
    Radix.value 65536 ((pairOctets os).map UInt16.toNat) = Radix.value 256 (os.map UInt8.toNat)
  | [], _ => by simp [pairOctets]
  | [_], h => absurd h (by simp)
  | high :: low :: rest, h => by
      have heven : rest.length % 2 = 0 := by
        simp only [List.length_cons] at h
        omega
      have hpow : 65536 ^ (rest.length / 2) = 256 ^ rest.length := by
        rw [show (65536 : Nat) = 256 ^ 2 from rfl, ← pow_mul, Nat.mul_div_cancel' (by omega)]
      simp only [pairOctets, List.map_cons, Radix.value_cons, toNat_pair, List.length_map,
        List.length_cons, length_pairOctets, value_pairOctets heven, hpow, pow_succ]
      ring

/-- Words are digits to the base 65536. -/
theorem lt_of_mem_map_toNat_words (ws : List UInt16) : ∀ d ∈ ws.map UInt16.toNat, d < 65536 := by
  intro d hd
  obtain ⟨w, -, rfl⟩ := List.mem_map.mp hd
  exact w.toNat_lt

/-- The octets of either family come in pairs. -/
theorem even_octetCount (f : Family) : f.octetCount % 2 = 0 := by
  cases f <;> rfl

/-- An address has half as many words as octets. -/
theorem length_words (a : Address) : a.words.length = a.family.octetCount / 2 := by
  rw [words, length_pairOctets, length_octets]

/-- An IPv6 address has eight words. -/
theorem length_words_v6 {a : Address} (h : a.family = .v6) : a.words.length = 8 := by
  rw [length_words, h]
  rfl

/-- The words of an address have its value. -/
theorem value_words (a : Address) : Radix.value 65536 (a.words.map UInt16.toNat) = a.value := by
  rw [words, value_pairOctets (by rw [length_octets]; exact even_octetCount a.family),
    value_octets]

/-- The words are the digits of base 65536. -/
theorem map_toNat_words (a : Address) :
    a.words.map UInt16.toNat = Radix.digits 65536 (a.family.octetCount / 2) a.value := by
  have hdigits := Radix.digits_value (lt_of_mem_map_toNat_words a.words)
  rw [List.length_map, length_words, value_words] at hdigits
  exact hdigits.symm

/-- An IPv6 address comes back from its words. -/
theorem ofWords_words {a : Address} (h : a.family = .v6) : ofWords a.words = a := by
  rw [ofWords, value_words, ← h, ofNat_value]

/-- The four low octets pair up to the last words. -/
theorem pairOctets_low_octets {a : Address} (h : a.family = .v6) :
    pairOctets (ofNat .v4 a.value).octets = a.words.drop 6 := by
  have hlow : (ofNat .v4 a.value).octets = (Radix.digits 256 4 a.value).map UInt8.ofNat := by
    rw [octets, value_ofNat, family_ofNat, Family.size_eq_pow_octetCount,
      Radix.digits_mod (Nat.le_refl _)]
    rfl
  have hsplit : a.octets = (Radix.digits 256 12 (a.value / 256 ^ 4)).map UInt8.ofNat ++
      (ofNat .v4 a.value).octets := by
    rw [hlow, octets, h, ← List.map_append, ← Radix.digits_add]
    rfl
  have hfront :
      (pairOctets ((Radix.digits 256 12 (a.value / 256 ^ 4)).map UInt8.ofNat)).length = 6 := by
    rw [length_pairOctets, List.length_map, Radix.length_digits]
  rw [words, hsplit, pairOctets_append (by simp), List.drop_append_of_le_length hfront.ge,
    List.drop_eq_nil_of_le hfront.le, List.nil_append]

end Address

end Subnet
