import Subnet.Proofs.NameserverPatterns
import Subnet.Proofs.Records

/-!
# Printable texts — no record holds a control character

    Control characters break lines and open control sequences, so texts without
    them can be put on lines and be coloured without harm.  Letters, digits and
    the separators of addresses are printable, numerals and labels consist of
    printable characters, and every text of a record is one of these: even the
    address, which is quoted as it was given, since it was read
    (`printable_of_calculate`).
-/

namespace Subnet

/-! ## Texts -/

namespace Text

variable {text : String}

/-- The text has no control character. -/
def isPrintable (text : String) : Bool :=
  text.toList.all fun c => decide (0x20 ≤ c.toNat)

/-- A text is printable exactly if it has no control character. -/
theorem isPrintable_iff : isPrintable text = true ↔ ∀ c ∈ text.toList, 0x20 ≤ c.toNat := by
  simp only [isPrintable, List.all_eq_true, decide_eq_true_eq]

/-- Characters make a printable text exactly if none is a control character. -/
theorem isPrintable_ofList_iff {cs : List Char} :
    isPrintable (String.ofList cs) = true ↔ ∀ c ∈ cs, 0x20 ≤ c.toNat := by
  rw [isPrintable_iff, String.toList_ofList]

/-- Two texts make a printable one exactly if both are. -/
theorem isPrintable_append (s t : String) :
    isPrintable (s ++ t) = (isPrintable s && isPrintable t) := by
  simp only [isPrintable, String.toList_append, List.all_append]

/-- A control character is in no printable text. -/
theorem not_mem_of_isPrintable (h : isPrintable text = true) {c : Char} (hc : c.toNat < 0x20) :
    c ∉ text.toList := fun hmem =>
  absurd (isPrintable_iff.mp h c hmem) (Nat.not_le_of_lt hc)

/-- Letters and digits are printable. -/
theorem isPrintable_of_isAlphanum {cs : List Char} (h : ∀ c ∈ cs, c.isAlphanum = true) :
    isPrintable (String.ofList cs) = true := by
  rw [isPrintable_ofList_iff]
  intro c hc
  have hrange := Pattern.toNat_of_isAlphanum (h c hc)
  omega

/-- Numerals are printable. -/
theorem isPrintable_toDigits (n : Nat) : isPrintable (String.ofList (Nat.toDigits 10 n)) = true :=
  isPrintable_of_isAlphanum (Grammar.digits_toDigits (by decide) (by decide) n).isAlphanum

/-- A number is printable. -/
theorem isPrintable_toString (n : Nat) : isPrintable (toString n) = true :=
  isPrintable_toDigits n

/-- What is read as an address is printable. -/
theorem isPrintable_of_parse {f : Family} {a : Address} (h : Address.parse text f = .ok a) :
    isPrintable text = true := by
  rw [isPrintable_iff]
  intro c hmem
  refine Nat.le_of_not_lt fun hc => ?_
  have halnum : c.isAlphanum = false := by
    refine Bool.eq_false_of_not_eq_true fun halnum => ?_
    have hrange := Pattern.toNat_of_isAlphanum halnum
    omega
  refine Grammar.not_mem_of_parse? (Address.parse_eq_ok_iff.mp h) halnum ?_ ?_ hmem
  all_goals
    rintro rfl
    exact absurd hc (by decide)

/-- The text of an address is printable. -/
theorem isPrintable_addressText (a : Address) : isPrintable a.text = true :=
  isPrintable_of_parse (Address.parse_text_family (a := a) rfl)

end Text

/-! ## Numbers -/

namespace Binary64

/-- What stands around the digits of a number is printable. -/
theorem printable_layout {ds : List Char} (h : ∀ c ∈ ds, 0x20 ≤ c.toNat) (point : Int) :
    ∀ c ∈ layout ds point, 0x20 ≤ c.toNat := by
  have hzeros (n : Nat) : ∀ c ∈ List.replicate n '0', 0x20 ≤ c.toNat := by
    intro c hc
    rw [List.eq_of_mem_replicate hc]
    decide
  have htake (n : Nat) : ∀ c ∈ ds.take n, 0x20 ≤ c.toNat := fun c hc =>
    h c (List.mem_of_mem_take hc)
  have hdrop (n : Nat) : ∀ c ∈ ds.drop n, 0x20 ≤ c.toNat := fun c hc =>
    h c (List.mem_of_mem_drop hc)
  unfold layout
  dsimp only
  split
  · exact List.forall_mem_append.mpr ⟨h, hzeros _⟩
  split
  · exact List.forall_mem_append.mpr
      ⟨List.forall_mem_append.mpr ⟨htake _, Text.isPrintable_ofList_iff.mp (by decide)⟩, hdrop _⟩
  split
  · exact List.forall_mem_append.mpr
      ⟨List.forall_mem_append.mpr ⟨Text.isPrintable_iff.mp (by decide), hzeros _⟩, h⟩
  · have hfraction : ∀ c ∈ if ds.length = 1 then [] else '.' :: ds.drop 1, 0x20 ≤ c.toNat := by
      split
      · exact nofun
      · exact List.forall_mem_cons.mpr ⟨by decide, hdrop 1⟩
    have hsign : ∀ c ∈ ['e', if point - 1 < 0 then '-' else '+'], 0x20 ≤ c.toNat := by
      split <;> exact Text.isPrintable_ofList_iff.mp (by decide)
    have hexponent := Text.isPrintable_ofList_iff.mp (Text.isPrintable_toDigits (point - 1).natAbs)
    exact List.forall_mem_append.mpr ⟨List.forall_mem_append.mpr
      ⟨List.forall_mem_append.mpr ⟨htake 1, hfraction⟩, hsign⟩, hexponent⟩

/-- The text of a number is printable. -/
theorem isPrintable_text (x : Binary64) : Text.isPrintable x.text = true := by
  cases x with
  | nan => decide
  | infinite negative => cases negative <;> decide
  | finite q =>
      have hdigits (n : Nat) : ∀ c ∈ ((Nat.toDigits 10 n).reverse.dropWhile (· = '0')).reverse,
          0x20 ≤ c.toNat := by
        intro c hc
        have hmem : c ∈ (Nat.toDigits 10 n).reverse :=
          (List.dropWhile_sublist _).mem (List.mem_reverse.mp hc)
        exact Text.isPrintable_ofList_iff.mp (Text.isPrintable_toDigits n) c
          (List.mem_reverse.mp hmem)
      have hsign : ∀ c ∈ if q.num < 0 then ['-'] else [], 0x20 ≤ c.toNat := by
        split
        · exact Text.isPrintable_ofList_iff.mp (by decide)
        · exact nofun
      show Text.isPrintable (if q.num = 0 then "0" else String.ofList _) = true
      split
      · decide
      · exact Text.isPrintable_ofList_iff.mpr
          (List.forall_mem_append.mpr ⟨hsign, printable_layout (hdigits _) _⟩)

end Binary64

/-! ## Labels -/

/-- Every address has one of the labels of its family. -/
theorem AddressSpace.classify_mem_labels (a : Address) : classify a ∈ labels a.family := by
  unfold classify
  cases hfind : (rules a.family).find? fun r => r.matchesAddress a with
  | some r => exact List.mem_append_left _ (List.mem_map_of_mem (List.mem_of_find?_eq_some hfind))
  | none => exact List.mem_append_right _ (List.mem_singleton_self _)

/-- Labels are printable. -/
theorem AddressSpace.isPrintable_classify (a : Address) : Text.isPrintable (classify a) = true := by
  have hall : ∀ label ∈ labels a.family, Text.isPrintable label = true := by
    cases a.family with
    | v4 => decide +kernel
    | v6 => decide +kernel
  exact hall _ (classify_mem_labels a)

/-! ## Records -/

/-- No text of the record has a control character; the hostname is left out, since
    it comes from elsewhere. -/
structure Record.Printable (r : Record) : Prop where
  address : Text.isPrintable r.address = true
  expandedAddress : ∀ text, r.expandedAddress = some text → Text.isPrintable text = true
  netmask : Text.isPrintable r.netmask = true
  network : Text.isPrintable r.network = true
  expandedNetwork : ∀ text, r.expandedNetwork = some text → Text.isPrintable text = true
  broadcast : ∀ text, r.broadcast = some text → Text.isPrintable text = true
  hostMin : Text.isPrintable r.hostMin = true
  hostMax : Text.isPrintable r.hostMax = true
  hostCount : Text.isPrintable r.hostCount = true
  addressSpace : Text.isPrintable r.addressSpace = true

/-- The text of a number of hosts is printable. -/
theorem Network.Counts.isPrintable {text : String} {count : Nat} (h : Counts text count) :
    Text.isPrintable text = true := by
  cases h with
  | decimal count => exact Text.isPrintable_toString count
  | power exponent =>
      rw [Text.isPrintable_append, Text.isPrintable_append, Text.isPrintable_toString]
      decide

/-- Completing a shorthand adds zeros behind it. -/
theorem Query.isPrintable_address {q : Query} (h : Text.isPrintable q.addressText = true) :
    Text.isPrintable q.address = true := by
  unfold addressText at h
  split at h
  · rw [Cidr.padShorthand, Text.isPrintable_append, Bool.and_eq_true] at h
    exact h.1
  · exact h

/-- **RECORDS ARE PRINTABLE**: no text of a calculated record has a control
    character. -/
theorem Query.printable_of_calculate {q : Query} {r : Record} (h : q.calculate = .ok r) :
    r.Printable := by
  obtain ⟨a, n, hread, hn, rfl⟩ := exists_of_calculate_ok h
  have hreads := q.record_reads (resolveLength_admits hn)
  obtain ⟨count, hcounts, -⟩ := hreads.hostCount
  exact {
    address :=
      isPrintable_address (Text.isPrintable_of_parse (Address.parse_eq_ok_iff.mpr hread.parse?_eq))
    expandedAddress := fun text htext =>
      Text.isPrintable_of_parse (hreads.expandedAddress.2 text htext)
    netmask := Text.isPrintable_of_parse hreads.netmask
    network := Text.isPrintable_of_parse hreads.network
    expandedNetwork := fun text htext =>
      Text.isPrintable_of_parse (hreads.expandedNetwork.2 text htext)
    broadcast := fun text htext => Text.isPrintable_of_parse (hreads.broadcast.2 text htext)
    hostMin := Text.isPrintable_of_parse hreads.hostMin
    hostMax := Text.isPrintable_of_parse hreads.hostMax
    hostCount := hcounts.isPrintable
    addressSpace := hreads.addressSpace ▸ AddressSpace.isPrintable_classify _ }

end Subnet
