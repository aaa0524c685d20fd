import Mathlib.Data.List.DropRight
import Mathlib.Data.Nat.Digits.Defs
import Subnet.Proofs.Blocks

/-!
# Octets — what is done to addresses is done to their octets

    Octets are digits of base 256.  Reading more of them than an address has
    keeps the last ones, and fewer count as low ones behind zeros, so writing
    what was read keeps the end of the list (`octets_codec`).

    The base is a power of two, so a bitwise operation is done digit by digit,
    and the complement takes each digit from the greatest one.  Steps wrap at
    the width, from which the complement is the negation less one
    (`octets_operations`).
-/

namespace Subnet

/-! ## Digits -/

namespace Radix

variable {base : Nat}

/-- Zeros in front do not count. -/
theorem value_zeros_append (count : Nat) (ds : List Nat) :
    value base (List.replicate count 0 ++ ds) = value base ds := by
  rw [value_append, value_replicate_zero, Nat.zero_mul, Nat.zero_add]

/-- Of the digits of a number, the low ones are the last. -/
theorem digits_value_of_le {count : Nat} {ds : List Nat} (h : ∀ d ∈ ds, d < base)
    (hcount : count ≤ ds.length) : digits base count (value base ds) = ds.rtake count := by
  have hlast : ∀ d ∈ ds.rtake count, d < base := fun d hd => h d (List.mem_of_mem_drop hd)
  have hlength : (ds.rtake count).length = count := by
    rw [List.rtake, List.length_drop]
    omega
  have hvalue : value base ds =
      value base (ds.take (ds.length - count)) * base ^ count + value base (ds.rtake count) := by
    conv_lhs => rw [← List.take_append_drop (ds.length - count) ds, value_append]
    rw [← List.rtake, hlength]
  have hlow : value base ds % base ^ count = value base (ds.rtake count) := by
    have hlt := value_lt hlast
    rw [hlength] at hlt
    rw [hvalue, Nat.mul_add_mod_self_right, Nat.mod_eq_of_lt hlt]
  have hdigits := digits_value hlast
  rw [hlength] at hdigits
  rw [← digits_mod (Nat.le_refl count), hlow, hdigits]

/-- The digits of a number from the least significant one on. -/
theorem value_eq_ofDigits (ds : List Nat) : value base ds = Nat.ofDigits base ds.reverse := by
  induction ds using List.reverseRecOn with
  | nil => rfl
  | append_singleton ds d ih =>
      rw [value_concat, List.reverse_concat, Nat.ofDigits_cons, ← ih, Nat.mul_comm, Nat.add_comm]

/-- What is done to quotients and to remainders is done to each digit. -/
theorem digits_zipWith {op : Nat → Nat → Nat}
    (hquot : ∀ v w, op v w / base = op (v / base) (w / base))
    (hrest : ∀ v w, op v w % base = op (v % base) (w % base)) (count v w : Nat) :
    digits base count (op v w) = List.zipWith op (digits base count v) (digits base count w) := by
  induction count generalizing v w with
  | zero => rfl
  | succ count ih =>
      rw [digits, digits, digits, hquot, hrest, ih,
        List.zipWith_append (by rw [length_digits, length_digits])]
      rfl

/-- Taking a number from the greatest one takes each digit from the greatest
    digit. -/
theorem digits_allOnes_sub {count v : Nat} (h : v < base ^ count) :
    digits base count (base ^ count - 1 - v) = (digits base count v).map (base - 1 - ·) := by
  induction count generalizing v with
  | zero => rfl
  | succ count ih =>
      have hb : 0 < base := by
        refine Nat.pos_of_ne_zero ?_
        rintro rfl
        rw [Nat.zero_pow (Nat.succ_pos count)] at h
        exact Nat.not_lt_zero v h
      have hquot : v / base < base ^ count := (Nat.div_lt_iff_lt_mul hb).mpr h
      have hdigit : base - 1 - v % base < base := by omega
      have hsplit : base ^ (count + 1) - 1 - v =
          base * (base ^ count - 1 - v / base) + (base - 1 - v % base) := by
        have hrest := Nat.mod_lt v hb
        obtain ⟨k, hk⟩ := Nat.exists_eq_add_of_lt hquot
        have hv := Nat.div_add_mod v base
        have hsub : v / base + k + 1 - 1 - v / base = k := by omega
        have hpow : base * (v / base + k + 1) = base * (v / base) + base * k + base := by ring
        rw [pow_succ, Nat.mul_comm, hk, hsub, hpow]
        omega
      rw [digits, digits, hsplit, Nat.mul_add_div hb, Nat.mul_add_mod,
        Nat.div_eq_of_lt hdigit, Nat.mod_eq_of_lt hdigit, Nat.add_zero, ih hquot, List.map_append]
      rfl

end Radix

namespace Address

variable {a b : Address}

/-! ## Reading and writing octets -/

/-- Writing what was read keeps the last octets, behind zeros if there were too
    few. -/
theorem octets_ofOctets_rtake (f : Family) (os : List UInt8) :
    (ofOctets f os).octets = (List.replicate f.octetCount 0 ++ os).rtake f.octetCount := by
  have hzeros : (List.replicate f.octetCount 0 ++ os).map UInt8.toNat =
      List.replicate f.octetCount 0 ++ os.map UInt8.toNat := by
    rw [List.map_append, List.map_replicate]
    rfl
  have hbound : ∀ d ∈ List.replicate f.octetCount 0 ++ os.map UInt8.toNat, d < 256 := by
    rw [← hzeros]
    exact lt_of_mem_map_toNat_octets _
  have hcount : f.octetCount ≤ (List.replicate f.octetCount 0 ++ os.map UInt8.toNat).length := by
    rw [List.length_append, List.length_replicate]
    exact Nat.le_add_right _ _
  rw [octets, ofOctets, family_ofNat, value_ofNat, Family.size_eq_pow_octetCount,
    Radix.digits_mod (Nat.le_refl _), ← Radix.value_zeros_append f.octetCount,
    Radix.digits_value_of_le hbound hcount, ← hzeros, List.rtake, List.rtake, List.map_drop,
    List.length_map, List.map_map]
  exact congrArg _ ((List.map_congr_left fun o _ => UInt8.ofNat_toNat).trans (List.map_id _))

/-- The octets of an address, read in either family, are its low bits. -/
theorem ofOctets_octets_eq_ofNat (f : Family) (a : Address) :
    ofOctets f a.octets = ofNat f a.value := by
  rw [ofOctets, value_octets]

/-- **THE OCTET CODEC**: octets are written as they were read, but for those that
    do not fit and zeros for those that were missing; an address is read back
    from its octets, and in the other family its value is kept as far as it fits;
    its words are its digits of base 65536. -/
theorem octets_codec (f : Family) (os : List UInt8) (a : Address) :
    (ofOctets f os).octets = (List.replicate f.octetCount 0 ++ os).rtake f.octetCount ∧
    ofOctets a.family a.octets = a ∧
    (a.family = .v4 → (ofOctets .v6 a.octets).value = a.value) ∧
    (a.family = .v6 → (ofOctets .v4 a.octets).value = a.value % 2 ^ 32) ∧
    a.words.length = a.family.octetCount / 2 ∧
    Nat.ofDigits 65536 (a.words.map UInt16.toNat).reverse = a.value := by
  refine ⟨octets_ofOctets_rtake f os, ofOctets_octets a, ?_, ?_, length_words a, ?_⟩
  · intro hv4
    have hlt := a.value_lt
    rw [hv4] at hlt
    rw [ofOctets_octets_eq_ofNat, value_ofNat]
    exact Nat.mod_eq_of_lt (Nat.lt_trans hlt (by decide))
  · intro _
    rw [ofOctets_octets_eq_ofNat]
    rfl
  · rw [← Radix.value_eq_ofDigits, value_words]

/-- An IPv4 address comes back from the octets of its IPv6 counterpart. -/
theorem octets_codec_mapped :
    let a : Address := ⟨.v4, 0xc000024d, by decide⟩
    let b : Address := ⟨.v6, 0x20010db80000000000000000c000024d, by decide⟩
    a.family = .v4 ∧ (ofOctets .v6 a.octets).value = 0xc000024d ∧
      b.family = .v6 ∧ (ofOctets .v4 b.octets).value = 0xc000024d := by
  intro a b
  have ha : a.family = .v4 := rfl
  have hb : b.family = .v6 := rfl
  have hkept : (ofOctets .v6 a.octets).value = a.value := (octets_codec .v4 [] a).2.2.1 ha
  have hcut : (ofOctets .v4 b.octets).value = b.value % 2 ^ 32 := (octets_codec .v4 [] b).2.2.2.1 hb
  exact ⟨ha, hkept, hb, hcut.trans (by decide)⟩

/-! ## Bitwise operations -/

/-- An operation on values that is one on digits is done octet by octet. -/
theorem octets_zipWith {c : Address} {op : Nat → Nat → Nat} {opOctet : UInt8 → UInt8 → UInt8}
    (hquot : ∀ v w, op v w / 256 = op (v / 256) (w / 256))
    (hrest : ∀ v w, op v w % 256 = op (v % 256) (w % 256))
    (hoctet : ∀ d e, UInt8.ofNat (op d e) = opOctet (.ofNat d) (.ofNat e))
    (hc : c.family = a.family) (hb : b.family = a.family) (hvalue : c.value = op a.value b.value) :
    c.octets = List.zipWith opOctet a.octets b.octets := by
  rw [octets, octets, octets, hc, hb, hvalue, Radix.digits_zipWith hquot hrest,
    List.map_zipWith, List.zipWith_map]
  simp only [hoctet]

/-- Bits in common are taken octet by octet. -/
theorem octets_land (h : b.family = a.family) :
    (a.land b).octets = List.zipWith (· &&& ·) a.octets b.octets :=
  octets_zipWith (fun _ _ => Nat.and_div_two_pow (n := 8)) (fun _ _ => Nat.and_mod_two_pow (n := 8))
    UInt8.ofNat_and rfl h (value_land a b)

/-- Bits of either are taken octet by octet. -/
theorem octets_lor (h : b.family = a.family) :
    (a.lor b).octets = List.zipWith (· ||| ·) a.octets b.octets :=
  octets_zipWith (fun _ _ => Nat.or_div_two_pow (n := 8)) (fun _ _ => Nat.or_mod_two_pow (n := 8))
    UInt8.ofNat_or rfl h (value_lor h.symm)

/-- The complement has what is missing to the greatest value. -/
theorem value_complement (a : Address) : a.complement.value = a.family.size - 1 - a.value := by
  have hpos := a.family.size_pos
  rw [complement, value_ofNat, Family.allOnes]
  exact Nat.mod_eq_of_lt (by omega)

/-- What is missing to the greatest octet is its complement. -/
theorem not_ofNat {d : Nat} (h : d < 256) : UInt8.ofNat (255 - d) = ~~~UInt8.ofNat d := by
  refine UInt8.toNat_inj.mp ?_
  rw [UInt8.toNat_not, UInt8.toNat_ofNat', UInt8.toNat_ofNat', Nat.mod_eq_of_lt h]
  exact Nat.mod_eq_of_lt (by omega)

/-- The complement is taken octet by octet. -/
theorem octets_complement (a : Address) : a.complement.octets = a.octets.map (~~~·) := by
  have hlt := a.value_lt
  rw [Family.size_eq_pow_octetCount] at hlt
  rw [octets, octets, value_complement, family_complement, Family.size_eq_pow_octetCount,
    Radix.digits_allOnes_sub hlt, List.map_map, List.map_map]
  exact List.map_congr_left fun d hd => not_ofNat (Radix.lt_of_mem_digits (by decide) hd)

/-- Bits of either address are bits of the result within its width. -/
theorem testBit_lor (a b : Address) (i : Nat) :
    (a.lor b).value.testBit i =
      (decide (i < a.family.width) && (a.value.testBit i || b.value.testBit i)) := by
  rw [lor, value_ofNat, Family.size_eq, Nat.testBit_mod_two_pow]
  exact congrArg _ (Nat.testBit_or a.value b.value i)

/-- **DE MORGAN**: bits not in common are missing from one of the two, if the
    second address is at least as wide as the first. -/
theorem complement_land (h : a.family.width ≤ b.family.width) :
    (a.land b).complement = a.complement.lor b.complement := by
  refine eq_of_testBit_eq rfl ?_
  intro i hi
  have ha : i < a.family.width := hi
  have hb : i < b.family.width := Nat.lt_of_lt_of_le ha h
  rw [testBit_complement, testBit_lor, testBit_complement, testBit_complement, value_land,
    Nat.testBit_and]
  simp [ha, hb, Bool.not_and]

/-! ## Steps -/

/-- An integer counts modulo the number of addresses. -/
theorem natCast_value_ofInt (f : Family) (n : Int) :
    ((ofInt f n).value : Int) = n % 2 ^ f.width := by
  have hpos : (f.size : Int) ≠ 0 := Int.natCast_ne_zero.mpr f.size_pos.ne'
  have hlow := Int.emod_nonneg n hpos
  have hhigh := Int.emod_lt_of_pos n (Int.natCast_pos.mpr f.size_pos)
  rw [ofInt, value_ofNat, Nat.mod_eq_of_lt (by omega), Int.toNat_of_nonneg hlow, Family.size_eq]
  rfl

/-- Integers give one address exactly if they differ by a multiple of its range. -/
theorem ofInt_eq_iff {f : Family} {n m : Int} :
    ofInt f n = ofInt f m ↔ n % 2 ^ f.width = m % 2 ^ f.width := by
  rw [← natCast_value_ofInt, ← natCast_value_ofInt, Int.natCast_inj]
  exact ⟨congrArg value, Address.ext rfl⟩

/-- Two steps add up. -/
theorem offset_offset (a : Address) (n m : Int) : (a.offset n).offset m = a.offset (n + m) := by
  have hvalue : ((a.offset n).value : Int) = (a.value + n) % 2 ^ a.family.width :=
    natCast_value_ofInt a.family (a.value + n)
  refine ofInt_eq_iff.mpr ?_
  rw [hvalue, family_offset, Int.emod_add_emod, Int.add_assoc]

/-- The complement of a number is its negative less one. -/
theorem not_natCast (v : Nat) : ~~~(v : Int) = -(v : Int) - 1 :=
  (Int.negSucc_eq v).trans Int.neg_add

/-- The complement is that of the integers, cut off at the width. -/
theorem complement_eq_ofInt (a : Address) : a.complement = ofInt a.family (~~~(a.value : Int)) := by
  refine Address.ext rfl (Int.natCast_inj.mp ?_)
  have hlt := a.value_lt
  have hsize : ((2 ^ a.family.width : Nat) : Int) = 2 ^ a.family.width := by push_cast; rfl
  rw [natCast_value_ofInt, value_complement, not_natCast, ← Int.add_emod_right, ← hsize,
    ← Family.size_eq, Int.emod_eq_of_lt (by omega) (by omega)]
  omega

/-- One more than the complement is the negation. -/
theorem complement_offset_one (a : Address) :
    ((a.complement.offset 1).value : Int) = -(a.value : Int) % 2 ^ a.family.width := by
  have hcomplement : (a.complement.value : Int) = ~~~(a.value : Int) % 2 ^ a.family.width := by
    rw [complement_eq_ofInt, natCast_value_ofInt]
  have hnot : ~~~(a.value : Int) + 1 = -(a.value : Int) := by
    rw [not_natCast]
    omega
  rw [offset, natCast_value_ofInt, hcomplement, family_complement, Int.emod_add_emod, hnot]

/-- **OPERATIONS**: bitwise operations on addresses of one family are done octet
    by octet, and the complement is; steps count modulo the number of addresses,
    so they add up, and one more than the complement is the negation; every
    result is an address of the first one's family; and De Morgan's law holds
    within a family and for an IPv4 address with an IPv6 one. -/
theorem octets_operations (a b : Address) (n m : Int) :
    (b.family = a.family →
      (a.land b).octets = List.zipWith (· &&& ·) a.octets b.octets ∧
      (a.lor b).octets = List.zipWith (· ||| ·) a.octets b.octets) ∧
    a.complement.octets = a.octets.map (~~~·) ∧
    ((a.offset n).value : Int) = (a.value + n) % 2 ^ a.family.width ∧
    (a.offset n).offset m = a.offset (n + m) ∧
    ((a.complement.offset 1).value : Int) = -(a.value : Int) % 2 ^ a.family.width ∧
    (∀ result ∈ [a.land b, a.lor b, a.complement, a.offset n],
      result.family = a.family ∧ result.value < 2 ^ a.family.width) ∧
    (b.family = a.family ∨ (a.family = .v4 ∧ b.family = .v6) →
      (a.land b).complement = a.complement.lor b.complement) := by
  refine ⟨fun h => ⟨octets_land h, octets_lor h⟩, octets_complement a,
    natCast_value_ofInt a.family (a.value + n), offset_offset a n m, complement_offset_one a,
    ?_, ?_⟩
  · have hwithin (result : Address) (h : result.family = a.family) :
        result.family = a.family ∧ result.value < 2 ^ a.family.width :=
      ⟨h, h ▸ result.value_lt⟩
    simp only [List.forall_mem_cons, List.not_mem_nil, false_imp_iff, implies_true, and_true]
    exact ⟨hwithin _ rfl, hwithin _ rfl, hwithin _ rfl, hwithin _ rfl⟩
  · rintro (h | ⟨ha, hb⟩)
    · exact complement_land (by rw [h])
    · exact complement_land (by rw [ha, hb]; decide)

/-- The operations agree with octets on an IPv4 address with an IPv6 operand. -/
theorem octets_operations_mixed :
    let a : Address := ⟨.v4, 0xc0a80105, by decide⟩
    let b : Address := ⟨.v4, 0xffffff00, by decide⟩
    let c : Address := ⟨.v6, 0xffff00000000fffffff0, by decide⟩
    b.family = a.family ∧
      (a.land b).octets = List.zipWith (· &&& ·) a.octets b.octets ∧
      (a.lor b).octets = List.zipWith (· ||| ·) a.octets b.octets ∧
      (a.land b).complement = a.complement.lor b.complement ∧
      a.family = .v4 ∧ c.family = .v6 ∧
      (a.land c).complement = a.complement.lor c.complement := by
  intro a b c
  have hsame : b.family = a.family := rfl
  have ha : a.family = .v4 := rfl
  have hc : c.family = .v6 := rfl
  obtain ⟨hoctets, -, -, -, -, -, hwithin⟩ := octets_operations a b 0 0
  obtain ⟨-, -, -, -, -, -, hmixed⟩ := octets_operations a c 0 0
  exact ⟨hsame, (hoctets hsame).1, (hoctets hsame).2, hwithin (Or.inl hsame), ha, hc,
    hmixed (Or.inr ⟨ha, hc⟩)⟩

end Address

end Subnet
