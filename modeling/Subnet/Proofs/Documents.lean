import Mathlib.Data.List.Basic
import Subnet.Config

/-!
# Documents — the settings that a configuration file gives

    A file gives some of the settings and leaves the others open.  There is no
    file, or its text is an object; then each known member has the type of its
    setting, and there is no other member (`Given.Written`).  Such files have
    settings, the defaults filling what is open, and all other files have an
    error that names the file (`ofFile_eq_ok_iff`, `source_of_ofFile`).  The
    readers of the single members come first, each with what it accepts.
-/

namespace Subnet

section Except

variable {ε α β : Type} {x : Except ε α} {f : α → Except ε β}

/-- Two steps succeed exactly if both do, one after the other. -/
theorem bind_eq_ok_iff {b : β} : (x >>= f) = .ok b ↔ ∃ a, x = .ok a ∧ f a = .ok b := by
  cases x with
  | error e => exact ⟨nofun, nofun⟩
  | ok a => exact ⟨fun h => ⟨a, rfl, h⟩, fun ⟨_, ha, h⟩ => Except.ok.inj ha ▸ h⟩

/-- A changed result is that of a step that succeeds. -/
theorem map_eq_ok_iff {g : α → β} {b : β} : x.map g = .ok b ↔ ∃ a, x = .ok a ∧ b = g a := by
  cases x with
  | error e => exact ⟨nofun, nofun⟩
  | ok a =>
      exact ⟨fun h => ⟨a, rfl, (Except.ok.inj h).symm⟩,
        fun ⟨_, ha, h⟩ => Except.ok.inj ha ▸ h ▸ rfl⟩

/-- Wording an error leaves success as it is. -/
theorem mapError_eq_ok_iff {ε' : Type} {g : ε → ε'} {a : α} :
    x.mapError g = .ok a ↔ x = .ok a := by
  cases x with
  | error e => exact ⟨nofun, nofun⟩
  | ok b => exact ⟨fun h => congrArg _ (Except.ok.inj h), fun h => congrArg _ (Except.ok.inj h)⟩

end Except

/-- The walk over the members adds each of their keys to those seen. -/
theorem Json.mem_seen_iff {members : List (Json.Key × Json)} {seen : List Json.Key}
    {key : Json.Key} :
    key ∈ members.foldl (fun seen m => if m.1 ∈ seen then seen else seen ++ [m.1]) seen ↔
      key ∈ seen ∨ key ∈ members.map Prod.fst := by
  induction members generalizing seen with
  | nil => simp
  | cons m rest ih =>
      rw [List.foldl_cons, ih, List.map_cons, List.mem_cons]
      by_cases hm : m.1 ∈ seen
      · rw [if_pos hm]
        constructor
        · rintro (h | h)
          · exact Or.inl h
          · exact Or.inr (Or.inr h)
        · rintro (h | rfl | h)
          · exact Or.inl h
          · exact Or.inl hm
          · exact Or.inr h
      · rw [if_neg hm, List.mem_append, List.mem_singleton, or_assoc]

/-- The keys of an object are those of its members. -/
theorem Json.mem_keys_iff {members : List (Json.Key × Json)} {key : Json.Key} :
    key ∈ Json.keys members ↔ key ∈ members.map Prod.fst := by
  rw [Json.keys, List.mem_mergeSort, mem_seen_iff]
  exact or_iff_right List.not_mem_nil

/-- A colour mode is read from its own name and from no other text. -/
theorem ColorMode.ofName?_eq_some_iff {text : String} {mode : ColorMode} :
    ofName? text = some mode ↔ text = mode.name := by
  constructor
  · intro h
    have hfound := List.find?_some h
    exact (of_decide_eq_true hfound).symm
  · rintro rfl
    cases mode <;> decide

namespace Config

/-- The settings that a file gives; it may leave each one open. -/
structure Given where
  silent : Option Bool
  color : Option ColorMode
  classful : Option Bool
  dnsServers : Option (List String)

/-- The members of an object write the settings: every known member that is
    there is one of them, with the type of its setting, and every nameserver is
    accepted. -/
structure Given.Written (g : Given) (members : List (Json.Key × Json)) : Prop where
  silent : member? members "silent" = g.silent.map .bool
  color : member? members "color" = g.color.map fun mode => .string mode.name
  classful : member? members "classful" = g.classful.map .bool
  dnsServers : member? members "dnsServers" = g.dnsServers.map fun l => .array (l.map .string)
  accepted : ∀ servers, g.dnsServers = some servers →
    ∀ s ∈ servers, Nameserver.isAccepted s = true
  known : ∀ key ∈ members.map Prod.fst, key.text ∈ knownKeys

/-- What a file contains gives the settings; a missing file leaves all open. -/
inductive Given.Of : Given → FileContents → Prop where
  | missing : Of ⟨none, none, none, none⟩ .missing
  | document {g : Given} {text : String} {members : List (Json.Key × Json)} :
      Json.parse? text = some (.object members) → g.Written members → Of g (.text text)

/-- The settings, with the default where one is open. -/
def Given.complete (g : Given) : Config where
  silent := g.silent.getD defaults.silent
  color := g.color.getD defaults.color
  classful := g.classful.getD defaults.classful
  dnsServers := g.dnsServers.getD defaults.dnsServers

/-! ## Members -/

/-- A truth value is read where one is written or none is, and then it is false. -/
theorem readBool_eq_ok_iff {key : String} {member : Option Json} {b : Bool} :
    readBool key member = .ok b ↔ ∃ g : Option Bool, member = g.map .bool ∧ b = g.getD false := by
  constructor
  · intro h
    cases member with
    | none => exact ⟨none, rfl, (Except.ok.inj h).symm⟩
    | some v =>
        cases v with
        | bool value => exact ⟨some value, rfl, (Except.ok.inj h).symm⟩
        | _ => exact nomatch h
  · rintro ⟨g, rfl, rfl⟩
    cases g <;> rfl

/-- A colour mode is read where the name of one is written or nothing is. -/
theorem readColor_eq_ok_iff {member : Option Json} {mode : ColorMode} :
    readColor member = .ok mode ↔
      ∃ g : Option ColorMode, member = g.map (fun mode => .string mode.name) ∧
        mode = g.getD .auto := by
  constructor
  · intro h
    cases member with
    | none => exact ⟨none, rfl, (Except.ok.inj h).symm⟩
    | some v =>
        cases v with
        | string text =>
            simp only [readColor] at h
            split at h
            · rename_i named hnamed
              obtain rfl := ColorMode.ofName?_eq_some_iff.mp hnamed
              exact ⟨some named, rfl, (Except.ok.inj h).symm⟩
            · exact nomatch h
        | _ => exact nomatch h
  · rintro ⟨g, rfl, rfl⟩
    cases g with
    | none => rfl
    | some mode =>
        simp only [readColor, Option.map_some, ColorMode.ofName?_eq_some_iff.mpr rfl]
        rfl

/-- Nameservers that pass the test are read in their order. -/
theorem readServerList_of_accepted {servers : List String} (index : Nat)
    (h : ∀ s ∈ servers, Nameserver.isAccepted s = true) :
    readServerList index (servers.map .string) = .ok servers := by
  induction servers generalizing index with
  | nil => rfl
  | cons s rest ih =>
      obtain ⟨hs, hrest⟩ := List.forall_mem_cons.mp h
      rw [List.map_cons, readServerList, if_pos hs, ih (index + 1) hrest]
      rfl

/-- What is read as nameservers are texts that pass the test. -/
theorem accepted_of_readServerList {items : List Json} {index : Nat} {servers : List String}
    (h : readServerList index items = .ok servers) :
    items = servers.map .string ∧ ∀ s ∈ servers, Nameserver.isAccepted s = true := by
  induction items generalizing index servers with
  | nil =>
      obtain rfl := Except.ok.inj h
      exact ⟨rfl, nofun⟩
  | cons v rest ih =>
      cases v with
      | string text =>
          rw [readServerList] at h
          split_ifs at h with hok
          obtain ⟨tail, htail, rfl⟩ := map_eq_ok_iff.mp h
          obtain ⟨rfl, haccepted⟩ := ih htail
          exact ⟨rfl, List.forall_mem_cons.mpr ⟨hok, haccepted⟩⟩
      | _ => exact nomatch h

/-- Nameservers are read if all items are texts and each one is accepted. -/
theorem readServerList_eq_ok_iff {items : List Json} {index : Nat} {servers : List String} :
    readServerList index items = .ok servers ↔
      items = servers.map .string ∧ ∀ s ∈ servers, Nameserver.isAccepted s = true := by
  constructor
  · exact accepted_of_readServerList
  · rintro ⟨rfl, haccepted⟩
    exact readServerList_of_accepted index haccepted

/-- Nameservers are read where a list of accepted texts is written or nothing is. -/
theorem readServers_eq_ok_iff {member : Option Json} {servers : List String} :
    readServers member = .ok servers ↔
      ∃ g : Option (List String), member = g.map (fun l => .array (l.map .string)) ∧
        (∀ l, g = some l → ∀ s ∈ l, Nameserver.isAccepted s = true) ∧ servers = g.getD [] := by
  constructor
  · intro h
    cases member with
    | none => exact ⟨none, rfl, nofun, (Except.ok.inj h).symm⟩
    | some v =>
        cases v with
        | array items =>
            obtain ⟨rfl, haccepted⟩ := readServerList_eq_ok_iff.mp h
            exact ⟨some servers, rfl, fun l hl => Option.some.inj hl ▸ haccepted, rfl⟩
        | _ => exact nomatch h
  · rintro ⟨g, rfl, haccepted, rfl⟩
    cases g with
    | none => rfl
    | some l => exact readServerList_eq_ok_iff.mpr ⟨rfl, haccepted l rfl⟩

/-- No key is unknown exactly if every member has a known key. -/
theorem unknown_eq_nil_iff {members : List (Json.Key × Json)} :
    ((Json.keys members).map Json.Key.text).filter (· ∉ knownKeys) = [] ↔
      ∀ key ∈ members.map Prod.fst, key.text ∈ knownKeys := by
  simp only [List.filter_eq_nil_iff, List.forall_mem_map, decide_eq_true_eq, not_not,
    Json.mem_keys_iff]

/-! ## The whole document -/

/-- An object is read exactly as the settings that are written in it. -/
theorem ofJson_object_eq_ok_iff {members : List (Json.Key × Json)} {c : Config} :
    ofJson (.object members) = .ok c ↔ ∃ g : Given, g.Written members ∧ c = g.complete := by
  simp only [ofJson, bind_eq_ok_iff, readBool_eq_ok_iff, readColor_eq_ok_iff,
    readServers_eq_ok_iff]
  constructor
  · rintro ⟨_, ⟨silent, hsilent, rfl⟩, _, ⟨color, hcolor, rfl⟩, _, ⟨classful, hclassful, rfl⟩, _,
      ⟨servers, hservers, haccepted, rfl⟩, h⟩
    split at h
    · rename_i hunknown
      exact ⟨⟨silent, color, classful, servers⟩,
        ⟨hsilent, hcolor, hclassful, hservers, haccepted, unknown_eq_nil_iff.mp hunknown⟩,
        (Except.ok.inj h).symm⟩
    · exact nomatch h
  · rintro ⟨g, hg, rfl⟩
    refine ⟨_, ⟨_, hg.silent, rfl⟩, _, ⟨_, hg.color, rfl⟩, _, ⟨_, hg.classful, rfl⟩, _,
      ⟨_, hg.dnsServers, hg.accepted, rfl⟩, ?_⟩
    rw [unknown_eq_nil_iff.mpr hg.known]
    rfl

/-- Only objects are read, and each as the settings that are written in it. -/
theorem ofJson_eq_ok_iff {v : Json} {c : Config} :
    ofJson v = .ok c ↔
      ∃ members, v = .object members ∧ ∃ g : Given, g.Written members ∧ c = g.complete := by
  cases v with
  | object members =>
      rw [ofJson_object_eq_ok_iff]
      constructor
      · intro h
        exact ⟨members, rfl, h⟩
      · rintro ⟨_, hmembers, h⟩
        exact Json.object.inj hmembers ▸ h
  | _ =>
      constructor
      · exact nofun
      · rintro ⟨_, h, -⟩
        exact nomatch h

/-- A file has settings exactly when it gives some, and these are completed by
    the defaults. -/
theorem ofFile_eq_ok_iff {file : String} {contents : FileContents} {c : Config} :
    ofFile file contents = .ok c ↔ ∃ g : Given, g.Of contents ∧ c = g.complete := by
  constructor
  · intro h
    cases contents with
    | missing => exact ⟨_, Given.Of.missing, (Except.ok.inj h).symm⟩
    | unreadable reason => exact nomatch h
    | text text =>
        simp only [ofFile] at h
        split at h
        · exact nomatch h
        · rename_i v hparse
          obtain ⟨members, rfl, g, hg, rfl⟩ := ofJson_eq_ok_iff.mp (mapError_eq_ok_iff.mp h)
          exact ⟨g, Given.Of.document hparse hg, rfl⟩
  · rintro ⟨g, hg, rfl⟩
    cases hg with
    | missing => rfl
    | document hparse hg =>
        simp only [ofFile, hparse]
        exact mapError_eq_ok_iff.mpr (ofJson_eq_ok_iff.mpr ⟨_, rfl, g, hg, rfl⟩)

/-- The error of a file names the file. -/
theorem source_of_ofFile {file : String} {contents : FileContents} {e : ConfigError}
    (h : ofFile file contents = .error e) : e.source = file := by
  cases contents with
  | missing => exact nomatch h
  | unreadable reason => exact Except.error.inj h ▸ rfl
  | text text =>
      simp only [ofFile] at h
      split at h
      · exact Except.error.inj h ▸ rfl
      · rename_i v _
        cases hv : ofJson v with
        | ok c => exact nomatch hv ▸ h
        | error issue =>
            rw [hv] at h
            exact Except.error.inj h ▸ rfl

end Config

end Subnet
