import Subnet.Cidr
import Subnet.Proofs.AddressRoundTrip

/-!
# Suffixes — what a CIDR text is cut into

    A text is cut at its first slash, and what follows must be digits or, for
    IPv4, have a dot.  `Splits` lists the texts that are cut with their parts,
    `Unsplit` the others, and `split_eq_ok_iff` and `split_eq_error_iff` invert
    the cut once for all.  Digits have no colon,
    and neither has the zero padding of an IPv4 shorthand, so the family that a
    text shows is that of its address part.
-/

namespace Subnet

namespace Cidr

variable {text address suffix : String} {f : Family} {parts : Parts}

/-- The texts that are cut, and their parts: an address alone, or one with a run
    of digits or with the text of an IPv4 netmask after the slash. -/
inductive Splits (f : Family) : String → Parts → Prop where
  | alone {address : String} : '/' ∉ address.toList → Splits f address ⟨address, .absent⟩
  | length {address digits : String} {n : Nat} : '/' ∉ address.toList →
      Grammar.Digits 10 digits.toList n →
      Splits f (address ++ "/" ++ digits) ⟨address, .length (.ofNat n)⟩
  | netmask {address mask : String} : '/' ∉ address.toList → f = .v4 → '.' ∈ mask.toList →
      Splits f (address ++ "/" ++ mask) ⟨address, .netmask mask⟩

/-- The texts that are not cut, and the suffix of each: neither digits nor, for
    IPv4, with a dot. -/
inductive Unsplit (f : Family) : String → String → Prop where
  | mk {address suffix : String} : '/' ∉ address.toList →
      (∀ n, ¬Grammar.Digits 10 suffix.toList n) → ¬(f = .v4 ∧ '.' ∈ suffix.toList) →
      Unsplit f (address ++ "/" ++ suffix) suffix

/-! ## The cut -/

/-- The characters of two texts that a slash joins. -/
theorem toList_append_slash (address suffix : String) :
    (address ++ "/" ++ suffix).toList = address.toList ++ '/' :: suffix.toList := by
  simp

/-- A text with a slash is not empty. -/
theorem append_slash_ne_empty (address suffix : String) : address ++ "/" ++ suffix ≠ "" := by
  intro hempty
  have hlist := congrArg String.toList hempty
  rw [toList_append_slash] at hlist
  exact List.append_ne_nil_of_right_ne_nil _ (List.cons_ne_nil _ _) hlist

/-- A text without a slash has no suffix. -/
theorem split_of_not_mem (h : '/' ∉ text.toList) : split text f = .ok ⟨text, .absent⟩ := by
  simp only [split, Grammar.cut_of_not_mem h]

/-- Digits behind the first slash are a length. -/
theorem split_append_of_decimal {n : Nat} (h : '/' ∉ address.toList)
    (hn : Numeral.decimal? suffix.toList = some n) :
    split (address ++ "/" ++ suffix) f = .ok ⟨address, .length (.ofNat n)⟩ := by
  obtain ⟨hbefore, hafter⟩ := Grammar.cut_append h suffix.toList
  simp only [split, toList_append_slash, hbefore, hafter, hn, String.ofList_toList]

/-- Anything else there is a netmask or an error. -/
theorem split_append_of_none (h : '/' ∉ address.toList)
    (hn : Numeral.decimal? suffix.toList = none) :
    split (address ++ "/" ++ suffix) f =
      if f = .v4 ∧ '.' ∈ suffix.toList then .ok ⟨address, .netmask suffix⟩
      else .error (.malformedSuffix suffix) := by
  obtain ⟨hbefore, hafter⟩ := Grammar.cut_append h suffix.toList
  simp only [split, toList_append_slash, hbefore, hafter, hn, String.ofList_toList]

/-- Digits have no dot. -/
theorem decimal?_of_dot {cs : List Char} (h : '.' ∈ cs) : Numeral.decimal? cs = none := by
  rw [Option.eq_none_iff_forall_ne_some]
  intro n hn
  exact (Grammar.decimal?_eq_some_iff.mp hn).not_mem rfl h

/-- A text with a slash is cut at the first one. -/
theorem exists_slash (h : '/' ∈ text.toList) :
    ∃ address suffix : String, '/' ∉ address.toList ∧ text = address ++ "/" ++ suffix := by
  obtain ⟨before, after, htext, hbefore⟩ := List.eq_append_cons_of_mem h
  refine ⟨String.ofList before, String.ofList after, ?_, ?_⟩
  · rw [String.toList_ofList]
    exact hbefore
  · rw [← String.toList_inj, toList_append_slash, String.toList_ofList, String.toList_ofList]
    exact htext

/-- A text that can be cut is cut into its parts. -/
theorem Splits.split_eq (h : Splits f text parts) : split text f = .ok parts := by
  cases h with
  | alone hslash => exact split_of_not_mem hslash
  | length hslash hdigits =>
      exact split_append_of_decimal hslash (Grammar.decimal?_eq_some_iff.mpr hdigits)
  | netmask hslash hfamily hdot =>
      rw [split_append_of_none hslash (decimal?_of_dot hdot)]
      exact if_pos ⟨hfamily, hdot⟩

/-- A suffix that is neither a number nor a netmask is the error. -/
theorem Unsplit.split_eq (h : Unsplit f text suffix) :
    split text f = .error (.malformedSuffix suffix) := by
  obtain ⟨haddress, hdigits, hmask⟩ := h
  have hn : Numeral.decimal? suffix.toList = none := by
    rw [Option.eq_none_iff_forall_ne_some]
    intro n hn
    exact hdigits n (Grammar.decimal?_eq_some_iff.mp hn)
  rw [split_append_of_none haddress hn, if_neg hmask]

/-- Every text can be cut or has a bad suffix. -/
theorem splits_or_unsplit (f : Family) (text : String) :
    (∃ parts, Splits f text parts) ∨ ∃ suffix, Unsplit f text suffix := by
  by_cases hslash : '/' ∈ text.toList
  · obtain ⟨address, suffix, haddress, rfl⟩ := exists_slash hslash
    by_cases hdigits : ∃ n, Grammar.Digits 10 suffix.toList n
    · obtain ⟨n, hn⟩ := hdigits
      exact Or.inl ⟨_, Splits.length haddress hn⟩
    · by_cases hmask : f = .v4 ∧ '.' ∈ suffix.toList
      · exact Or.inl ⟨_, Splits.netmask haddress hmask.1 hmask.2⟩
      · exact Or.inr ⟨suffix, Unsplit.mk haddress (not_exists.mp hdigits) hmask⟩
  · exact Or.inl ⟨_, Splits.alone hslash⟩

/-- **INVERSION**: a text is cut exactly as it is written. -/
theorem split_eq_ok_iff : split text f = .ok parts ↔ Splits f text parts := by
  constructor
  · intro h
    rcases splits_or_unsplit f text with ⟨parts', hsplits⟩ | ⟨suffix, hunsplit⟩
    · obtain rfl := Except.ok.inj (hsplits.split_eq.symm.trans h)
      exact hsplits
    · exact nomatch hunsplit.split_eq.symm.trans h
  · exact Splits.split_eq

/-- Cutting fails exactly on a bad suffix, and quotes it. -/
theorem split_eq_error_iff {e : QueryError} :
    split text f = .error e ↔ ∃ suffix, Unsplit f text suffix ∧ e = .malformedSuffix suffix := by
  constructor
  · intro h
    rcases splits_or_unsplit f text with ⟨parts, hsplits⟩ | ⟨suffix, hunsplit⟩
    · exact nomatch hsplits.split_eq.symm.trans h
    · exact ⟨suffix, hunsplit, (Except.error.inj (hunsplit.split_eq.symm.trans h)).symm⟩
  · rintro ⟨suffix, hunsplit, rfl⟩
    exact hunsplit.split_eq

/-- A number is written in digits. -/
theorem splits_toString (h : '/' ∉ address.toList) (n : Nat) :
    Splits f (address ++ "/" ++ toString n) ⟨address, .length (.ofNat n)⟩ :=
  Splits.length h (Grammar.digits_toString n)

end Cidr

/-! ## The family that a text shows -/

namespace Family

variable {text other : String}

/-- Texts show one family exactly if both have a colon or none has. -/
theorem detect_eq_iff : detect text = detect other ↔ (':' ∈ text.toList ↔ ':' ∈ other.toList) := by
  unfold detect
  split_ifs with htext hother hother
  · exact iff_of_true rfl (iff_of_true htext hother)
  · exact iff_of_false nofun fun h => hother (h.mp htext)
  · exact iff_of_false nofun fun h => htext (h.mpr hother)
  · exact iff_of_true rfl (iff_of_false htext hother)

/-- A suffix without a colon does not change the family of a text. -/
theorem detect_append_slash {address suffix : String} (h : ':' ∉ suffix.toList) :
    detect (address ++ "/" ++ suffix) = detect address := by
  rw [detect_eq_iff, Cidr.toList_append_slash]
  simp [h]

/-- Neither does the padding of a shorthand. -/
theorem detect_padShorthand (text : String) : detect (Cidr.padShorthand text) = detect text := by
  rw [detect_eq_iff]
  simp [Cidr.padShorthand]

end Family

end Subnet
