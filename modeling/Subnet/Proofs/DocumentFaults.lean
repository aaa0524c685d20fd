import Subnet.Proofs.DocumentTexts
import Subnet.Proofs.Precedence

/-!
# Document faults — which fault of a document is reported

    A document sets the settings by its known members, each of which admits some
    values and has a fault in every other one (`Setting`).  A document is well
    typed if its members are admitted and it has no others; else the first fault
    is that of the first setting that has one, and an unknown member comes last
    (`FaultAt`).  The reader follows the settings one by one, so it takes exactly
    the well-typed documents and reports the place of the first fault in all others
    (`wellTyped_iff`, `ofJson_of_faultAt`).
-/

namespace Subnet.Config

variable {v w : Json} {items before : List Json} {members : List (Json.Key × Json)}
  {path : List String}

/-! ## The settings -/

/-- A member that sets something: the values it admits, and where the fault of
    any other value lies below the member. -/
structure Setting where
  key : String
  Admits : Json → Prop
  Fault : Json → List String → Prop
  fault_iff : ∀ v, (∃ path, Fault v path) ↔ ¬Admits v

/-- A setting whose values have no parts: the fault lies in the value itself. -/
def Setting.plain (key : String) (Admits : Json → Prop) : Setting where
  key := key
  Admits := Admits
  Fault v path := ¬Admits v ∧ path = []
  fault_iff _ := ⟨fun ⟨_, hnot, _⟩ => hnot, fun hnot => ⟨[], hnot, rfl⟩⟩

/-- A truth value. -/
def IsBool (v : Json) : Prop :=
  ∃ b, v = .bool b

/-- The name of a colour mode. -/
def IsColor (v : Json) : Prop :=
  ∃ name ∈ ["auto", "always", "never"], v = .string name

/-- A text that is accepted as a nameserver. -/
def IsServer (v : Json) : Prop :=
  ∃ text, v = .string text ∧ Nameserver.isAccepted text = true

/-- A list of nameservers. -/
def IsServers (v : Json) : Prop :=
  ∃ items, v = .array items ∧ ∀ w ∈ items, IsServer w

/-- The fault of a value that is no list of nameservers: it is no list, or an
    item is the first one that is no nameserver. -/
inductive ServersFault : Json → List String → Prop where
  | notList {v : Json} : (∀ items, v ≠ .array items) → ServersFault v []
  | item {before after : List Json} {w : Json} : (∀ u ∈ before, IsServer u) → ¬IsServer w →
      ServersFault (.array (before ++ w :: after)) [toString before.length]

/-- Items are all nameservers, or there is a first one that is none. -/
theorem servers_or_first (items : List Json) :
    (∀ w ∈ items, IsServer w) ∨
      ∃ before w after, items = before ++ w :: after ∧ (∀ u ∈ before, IsServer u) ∧
        ¬IsServer w := by
  induction items with
  | nil => exact Or.inl nofun
  | cons v rest ih =>
      by_cases hv : IsServer v
      · rcases ih with hall | ⟨before, w, after, rfl, hbefore, hw⟩
        · exact Or.inl (List.forall_mem_cons.mpr ⟨hv, hall⟩)
        · exact Or.inr ⟨v :: before, w, after, rfl, List.forall_mem_cons.mpr ⟨hv, hbefore⟩, hw⟩
      · exact Or.inr ⟨[], v, rest, rfl, nofun, hv⟩

/-- A value has a fault exactly if it is no list of nameservers. -/
theorem serversFault_iff (v : Json) : (∃ path, ServersFault v path) ↔ ¬IsServers v := by
  constructor
  · rintro ⟨path, hfault⟩ ⟨items, rfl, hall⟩
    cases hfault with
    | notList hnone => exact hnone items rfl
    | item _ hw => exact hw (hall _ (List.mem_append_right _ List.mem_cons_self))
  · intro hnot
    by_cases hlist : ∃ items, v = .array items
    · obtain ⟨items, rfl⟩ := hlist
      rcases servers_or_first items with hall | ⟨before, w, after, rfl, hbefore, hw⟩
      · exact absurd ⟨items, rfl, hall⟩ hnot
      · exact ⟨_, ServersFault.item hbefore hw⟩
    · exact ⟨[], ServersFault.notList fun items h => hlist ⟨items, h⟩⟩

/-- The setting whose values have parts. -/
def serversSetting : Setting :=
  ⟨"dnsServers", IsServers, ServersFault, serversFault_iff⟩

/-- The settings in the order in which they are read. -/
def settings : List Setting :=
  [.plain "silent" IsBool, .plain "color" IsColor, .plain "classful" IsBool, serversSetting]

/-- The member of the setting, if there is one, is admitted. -/
def Setting.Fits (s : Setting) (members : List (Json.Key × Json)) : Prop :=
  ∀ v, member? members s.key = some v → s.Admits v

/-- The key is that of a setting. -/
def Known (key : Json.Key) : Prop :=
  ∃ s ∈ settings, key = .ofText s.key

/-- The place of the first fault in the members of the settings. -/
inductive FaultIn (members : List (Json.Key × Json)) : List Setting → List String → Prop where
  | here {s : Setting} {rest : List Setting} {v : Json} {path : List String} :
      member? members s.key = some v → s.Fault v path →
        FaultIn members (s :: rest) (s.key :: path)
  | later {s : Setting} {rest : List Setting} {path : List String} :
      s.Fits members → FaultIn members rest path → FaultIn members (s :: rest) path

/-- The place of the first fault of a document: the settings come first, and for
    an unknown member it is the document itself. -/
inductive FaultAt : Json → List String → Prop where
  | notObject {v : Json} : (∀ members, v ≠ .object members) → FaultAt v []
  | member {members : List (Json.Key × Json)} {path : List String} :
      FaultIn members settings path → FaultAt (.object members) path
  | unknown {members : List (Json.Key × Json)} {key : Json.Key} :
      (∀ s ∈ settings, s.Fits members) → key ∈ members.map Prod.fst → ¬Known key →
        FaultAt (.object members) []

/-- An object whose members are those of settings, each with a value that its
    setting admits. -/
def WellTyped (v : Json) : Prop :=
  ∃ members, v = .object members ∧ (∀ s ∈ settings, s.Fits members) ∧
    ∀ key ∈ members.map Prod.fst, Known key

/-- If a setting does not fit there is a first fault. -/
theorem exists_faultIn {ss : List Setting} (h : ¬∀ s ∈ ss, s.Fits members) :
    ∃ path, FaultIn members ss path := by
  induction ss with
  | nil => exact absurd nofun h
  | cons s rest ih =>
      by_cases hfits : s.Fits members
      · have hrest : ¬∀ s ∈ rest, s.Fits members :=
          fun hall => h (List.forall_mem_cons.mpr ⟨hfits, hall⟩)
        obtain ⟨path, hpath⟩ := ih hrest
        exact ⟨path, FaultIn.later hfits hpath⟩
      · obtain ⟨v, hv, hnot⟩ : ∃ v, member? members s.key = some v ∧ ¬s.Admits v := by
          simpa [Setting.Fits] using hfits
        obtain ⟨path, hpath⟩ := (s.fault_iff v).mpr hnot
        exact ⟨_, FaultIn.here hv hpath⟩

/-- A document that is not well typed has a first fault. -/
theorem exists_faultAt (h : ¬WellTyped v) : ∃ path, FaultAt v path := by
  by_cases hobject : ∃ members, v = .object members
  · obtain ⟨members, rfl⟩ := hobject
    by_cases hfits : ∀ s ∈ settings, s.Fits members
    · by_cases hknown : ∀ key ∈ members.map Prod.fst, Known key
      · exact absurd ⟨members, rfl, hfits, hknown⟩ h
      · push Not at hknown
        obtain ⟨key, hkey, hunknown⟩ := hknown
        exact ⟨[], FaultAt.unknown hfits hkey hunknown⟩
    · obtain ⟨path, hpath⟩ := exists_faultIn hfits
      exact ⟨path, FaultAt.member hpath⟩
  · exact ⟨[], FaultAt.notObject fun members h => hobject ⟨members, h⟩⟩

/-! ## Reading one setting -/

section Read

variable {α β : Type} {s : Setting} {read : Option Json → Except ConfigIssue α}

/-- The reader of a member takes the values that the setting admits, and reports
    the place of the fault of any other. -/
structure Setting.ReadBy (s : Setting) (read : Option Json → Except ConfigIssue α) : Prop where
  fits : ∀ member, (∀ v, member = some v → s.Admits v) → ∃ a, read member = .ok a
  fault : ∀ v path, s.Fault v path →
    ∃ issue, read (some v) = .error issue ∧ issue.path = s.key :: path

/-- A setting that fits is read, and the rest goes on with its value. -/
theorem Setting.ReadBy.bind_of_fits {f : α → Except ConfigIssue β} (hread : s.ReadBy read)
    (hfits : s.Fits members) : ∃ a, (read (member? members s.key) >>= f) = f a := by
  obtain ⟨a, ha⟩ := hread.fits _ hfits
  exact ⟨a, by rw [ha]; rfl⟩

/-- The first fault is in this setting, or the rest fails because of it. -/
theorem Setting.ReadBy.bind_of_faultIn {f : α → Except ConfigIssue β} {rest : List Setting}
    (hread : s.ReadBy read) (h : FaultIn members (s :: rest) path)
    (hrest : ∀ a, FaultIn members rest path → ∃ issue, f a = .error issue ∧ issue.path = path) :
    ∃ issue, (read (member? members s.key) >>= f) = .error issue ∧ issue.path = path := by
  cases h with
  | here hv hfault =>
      obtain ⟨issue, herror, hpath⟩ := hread.fault _ _ hfault
      rw [hv, herror]
      exact ⟨issue, rfl, hpath⟩
  | later hfits h =>
      obtain ⟨a, ha⟩ := hread.bind_of_fits hfits
      rw [ha]
      exact hrest a h

end Read

/-- The reader of truth values takes them and reports the setting otherwise. -/
theorem readBool_reads (key : String) : (Setting.plain key IsBool).ReadBy (readBool key) where
  fits member h := by
    cases member with
    | none => exact ⟨false, rfl⟩
    | some v =>
        obtain ⟨b, rfl⟩ := h v rfl
        exact ⟨b, rfl⟩
  fault v path h := by
    obtain ⟨hnot, rfl⟩ := h
    cases v with
    | bool b => exact absurd ⟨b, rfl⟩ hnot
    | _ => exact ⟨_, rfl, rfl⟩

/-- The names of colour modes are those that the program writes. -/
theorem isColor_iff : IsColor v ↔ ∃ mode : ColorMode, v = .string mode.name := by
  constructor
  · rintro ⟨name, hname, rfl⟩
    simp only [List.mem_cons, List.not_mem_nil, or_false] at hname
    rcases hname with rfl | rfl | rfl
    · exact ⟨.auto, rfl⟩
    · exact ⟨.always, rfl⟩
    · exact ⟨.never, rfl⟩
  · rintro ⟨mode, rfl⟩
    refine ⟨mode.name, ?_, rfl⟩
    cases mode <;> decide

/-- The reader of colour modes takes their names and reports the setting otherwise. -/
theorem readColor_reads : (Setting.plain "color" IsColor).ReadBy readColor where
  fits member h := by
    cases member with
    | none => exact ⟨.auto, rfl⟩
    | some v =>
        obtain ⟨mode, rfl⟩ := isColor_iff.mp (h v rfl)
        exact ⟨mode, readColor_eq_ok_iff.mpr ⟨some mode, rfl, rfl⟩⟩
  fault v path h := by
    obtain ⟨hnot, rfl⟩ := h
    cases v with
    | string text =>
        cases hname : ColorMode.ofName? text with
        | none => exact ⟨.unknownColor text, by simp only [readColor, hname], rfl⟩
        | some mode =>
            obtain rfl := ColorMode.ofName?_eq_some_iff.mp hname
            exact absurd (isColor_iff.mpr ⟨mode, rfl⟩) hnot
    | _ => exact ⟨_, rfl, rfl⟩

/-- A list of nameservers is read wherever its first index is. -/
theorem readServerList_of_servers (h : ∀ w ∈ items, IsServer w) (index : Nat) :
    ∃ servers, readServerList index items = .ok servers := by
  induction items generalizing index with
  | nil => exact ⟨[], rfl⟩
  | cons v rest ih =>
      obtain ⟨⟨text, rfl, haccepted⟩, hrest⟩ := List.forall_mem_cons.mp h
      obtain ⟨servers, hservers⟩ := ih hrest (index + 1)
      rw [readServerList, if_pos haccepted, hservers]
      exact ⟨text :: servers, rfl⟩

/-- The first item that is no nameserver is reported by its place in the list. -/
theorem readServerList_of_first (hbefore : ∀ u ∈ before, IsServer u) (hw : ¬IsServer w)
    (after : List Json) (index : Nat) :
    ∃ issue, readServerList index (before ++ w :: after) = .error issue ∧
      issue.path = ["dnsServers", toString (index + before.length)] := by
  induction before generalizing index with
  | nil =>
      cases w with
      | string text =>
          have hrefused : ¬Nameserver.isAccepted text = true := fun h => hw ⟨text, rfl, h⟩
          rw [List.nil_append, readServerList, if_neg hrefused]
          exact ⟨_, rfl, rfl⟩
      | _ => exact ⟨_, rfl, rfl⟩
  | cons v rest ih =>
      obtain ⟨⟨text, rfl, haccepted⟩, hrest⟩ := List.forall_mem_cons.mp hbefore
      obtain ⟨issue, herror, hpath⟩ := ih hrest (index + 1)
      rw [List.cons_append, readServerList, if_pos haccepted, herror]
      refine ⟨issue, rfl, ?_⟩
      rw [hpath, List.length_cons, Nat.add_assoc, Nat.add_comm 1]

/-- The reader of nameservers takes lists of them and reports the first bad item. -/
theorem readServers_reads : serversSetting.ReadBy readServers where
  fits member h := by
    cases member with
    | none => exact ⟨[], rfl⟩
    | some v =>
        obtain ⟨items, rfl, hall⟩ := h v rfl
        exact readServerList_of_servers hall 0
  fault v path h := by
    cases h with
    | notList hnone =>
        cases v with
        | array items => exact absurd rfl (hnone items)
        | _ => exact ⟨_, rfl, rfl⟩
    | @item before after w hbefore hw =>
        obtain ⟨issue, herror, hpath⟩ := readServerList_of_first hbefore hw after 0
        rw [Nat.zero_add] at hpath
        exact ⟨issue, herror, hpath⟩

/-! ## The whole document -/

/-- The known keys are plain names. -/
theorem isPlain_of_mem_knownKeys :
    ∀ name ∈ knownKeys, ∀ c ∈ name.toList, Text.IsPlain c := by
  have hall : knownKeys.all (fun name => name.toList.all fun c =>
      0 < c.toNat && c.toNat < 0x80) = true := by
    decide +kernel
  intro name hname c hc
  have hc := List.all_eq_true.mp (List.all_eq_true.mp hall name hname) c hc
  rwa [Bool.and_eq_true, decide_eq_true_iff, decide_eq_true_iff] at hc

/-- The names of the settings are plain, so a key is known by its text. -/
theorem known_iff {key : Json.Key} : Known key ↔ key.text ∈ knownKeys := by
  have hname : ∀ s ∈ settings, key.text = s.key ↔ key = .ofText s.key := fun s hs =>
    Json.Key.text_eq_iff_of_isPlain (isPlain_of_mem_knownKeys s.key (List.mem_map_of_mem hs))
  show _ ↔ key.text ∈ settings.map Setting.key
  rw [List.mem_map]
  constructor
  · rintro ⟨s, hs, hkey⟩
    exact ⟨s, hs, ((hname s hs).mpr hkey).symm⟩
  · rintro ⟨s, hs, hkey⟩
    exact ⟨s, hs, (hname s hs).mp hkey.symm⟩

/-- If all settings fit, the other members decide. -/
theorem ofJson_of_fits (hfits : ∀ s ∈ settings, s.Fits members) :
    ((∀ key ∈ members.map Prod.fst, Known key) → ∃ c, ofJson (.object members) = .ok c) ∧
    ∀ key ∈ members.map Prod.fst, ¬Known key →
      ∃ issue, ofJson (.object members) = .error issue ∧ issue.path = [] := by
  simp only [settings, List.forall_mem_cons] at hfits
  obtain ⟨hsilent, hcolor, hclassful, hservers, -⟩ := hfits
  obtain ⟨silent, hsilent⟩ : ∃ b, readBool "silent" (member? members "silent") = .ok b :=
    (readBool_reads "silent").fits _ hsilent
  obtain ⟨color, hcolor⟩ : ∃ mode, readColor (member? members "color") = .ok mode :=
    readColor_reads.fits _ hcolor
  obtain ⟨classful, hclassful⟩ : ∃ b, readBool "classful" (member? members "classful") = .ok b :=
    (readBool_reads "classful").fits _ hclassful
  obtain ⟨servers, hservers⟩ : ∃ l, readServers (member? members "dnsServers") = .ok l :=
    readServers_reads.fits _ hservers
  simp only [ofJson, hsilent, hcolor, hclassful, hservers, known_iff]
  constructor
  · intro hknown
    rw [unknown_eq_nil_iff.mpr hknown]
    exact ⟨_, rfl⟩
  · intro key hkey hunknown
    cases hkeys : ((Json.keys members).map Json.Key.text).filter (· ∉ knownKeys) with
    | nil => exact absurd (unknown_eq_nil_iff.mp hkeys key hkey) hunknown
    | cons name names => exact ⟨.unknownKeys (name :: names), rfl, rfl⟩

/-- The first fault of the settings is the issue that is reported, by its path. -/
theorem ofJson_of_faultIn (h : FaultIn members settings path) :
    ∃ issue, ofJson (.object members) = .error issue ∧ issue.path = path := by
  refine (readBool_reads "silent").bind_of_faultIn h fun _ h => ?_
  refine readColor_reads.bind_of_faultIn h fun _ h => ?_
  refine (readBool_reads "classful").bind_of_faultIn h fun _ h => ?_
  refine readServers_reads.bind_of_faultIn h fun _ h => ?_
  exact nomatch h

/-- **THE FIRST FAULT** is reported with its place. -/
theorem ofJson_of_faultAt (h : FaultAt v path) :
    ∃ issue, ofJson v = .error issue ∧ issue.path = path := by
  cases h with
  | notObject hnone =>
      cases v with
      | object members => exact absurd rfl (hnone members)
      | _ => exact ⟨_, rfl, rfl⟩
  | member hfault => exact ofJson_of_faultIn hfault
  | unknown hfits hkey hunknown => exact (ofJson_of_fits hfits).2 _ hkey hunknown

/-- The reader takes exactly the well-typed documents. -/
theorem wellTyped_iff : WellTyped v ↔ ∃ c, ofJson v = .ok c := by
  constructor
  · rintro ⟨members, rfl, hfits, hknown⟩
    exact (ofJson_of_fits hfits).1 hknown
  · rintro ⟨c, hc⟩
    by_contra hnot
    obtain ⟨path, hfault⟩ := exists_faultAt hnot
    obtain ⟨issue, herror, -⟩ := ofJson_of_faultAt hfault
    exact nomatch hc.symm.trans herror

/-! ## Loading -/

variable {env : Environment} {file text : String} {contents : FileContents}

/-- Without variables that override it the file decides. -/
theorem load_of_unset (h : ∀ o ∈ overrides, env.nonempty? o.name = none) :
    load file contents env = ofFile file contents := by
  simp only [overrides, List.forall_mem_cons] at h
  obtain ⟨hservers, hsilent, hcolor, hclassful, -⟩ := h
  have hkeep (c : Config) : c.override env = .ok c := by
    simp only [serversVariable, silentVariable, colorVariable, classfulVariable] at *
    simp only [override, readVariable, hservers, hsilent, hcolor, hclassful]
    rfl
  rw [load]
  cases ofFile file contents with
  | ok c => exact hkeep c
  | error e => rfl

/-- The error names the file, and in its document the place. -/
structure Reports (e : ConfigError) (file : String) (path : List String) : Prop where
  source : e.source = file
  issue : ∃ issue, e = .invalid file issue ∧ issue.path = path
  message : ∃ detail, e.message = "invalid config in " ++ file ++ ": " ++
    ((if path = [] then "config" else ".".intercalate path) ++ ": " ++ detail)

/-- An invalid document is reported with its file and the path of its issue. -/
theorem reports_invalid (file : String) (issue : ConfigIssue) :
    Reports (.invalid file issue) file issue.path where
  source := rfl
  issue := ⟨issue, rfl, rfl⟩
  message := ⟨issue.detail, congrArg ("invalid config in " ++ file ++ ": " ++ ·) rfl⟩

/-- The document that holds settings is read back from its text. -/
theorem readable_toJson (c : Config) : (toJson c).Readable := by
  refine Json.readable_object fun m hm => ?_
  simp only [List.mem_cons, List.not_mem_nil, or_false] at hm
  rcases hm with rfl | rfl | rfl | rfl
  · exact ⟨Json.Key.proper_ofText _, Json.readable_bool _⟩
  · exact ⟨Json.Key.proper_ofText _, Json.readable_string _⟩
  · exact ⟨Json.Key.proper_ofText _, Json.readable_bool _⟩
  · refine ⟨Json.Key.proper_ofText _, Json.readable_array fun v hv => ?_⟩
    obtain ⟨s, -, rfl⟩ := List.mem_map.mp hv
    exact Json.readable_string s

/-- Settings whose nameservers pass the test are read back from their document. -/
theorem ofJson_toJson {c : Config} (h : ∀ s ∈ c.dnsServers, Nameserver.isAccepted s = true) :
    ofJson (toJson c) = .ok c := by
  refine ofJson_object_eq_ok_iff.mpr
    ⟨⟨some c.silent, some c.color, some c.classful, some c.dnsServers⟩, ⟨rfl, rfl, rfl, rfl, ?_, ?_⟩,
      rfl⟩
  · intro servers hservers
    exact Option.some.inj hservers ▸ h
  · intro key hkey
    have hkeys : key ∈ settings.map fun s => Json.Key.ofText s.key := hkey
    obtain ⟨s, hs, rfl⟩ := List.mem_map.mp hkeys
    exact known_iff.mp ⟨s, hs, rfl⟩

/-- **DOCUMENTS** without variables that override them: a document has settings
    exactly if it is well typed, and they are the values it gives, completed by
    the defaults; otherwise the first fault is reported with the file and its
    place.  The document that holds settings gives them back. -/
theorem load_document (file : String) (env : Environment)
    (henv : ∀ name : String, "IPCALC_".toList <+: name.toList → env.get? name = none) :
    (∀ text v, Json.parse? text = some v →
      ((∃ c, load file (.text text) env = .ok c) ↔ WellTyped v) ∧
      (∀ c, load file (.text text) env = .ok c ↔
        ∃ members g, v = .object members ∧ Given.Written g members ∧ c = g.complete) ∧
      (¬WellTyped v → ∃ path, FaultAt v path) ∧
      ∀ path, FaultAt v path → ∃ e, load file (.text text) env = .error e ∧ Reports e file path) ∧
    ∀ c : Config, (∀ s ∈ c.dnsServers, Nameserver.isAccepted s = true) →
      load file (.text (toJson c).text) env = .ok c := by
  have hunset : ∀ o ∈ overrides, env.nonempty? o.name = none := by
    have hnamed : ∀ o ∈ overrides, "IPCALC_".toList <+: o.name.toList := by
      simp only [overrides, List.forall_mem_cons]
      decide +kernel
    intro o ho
    simp only [Environment.nonempty?, henv o.name (hnamed o ho)]
  have hload {text : String} {v : Json} (h : Json.parse? text = some v) :
      load file (.text text) env = (ofJson v).mapError (.invalid file) := by
    rw [load_of_unset hunset]
    simp only [ofFile, h]
  refine ⟨fun text v hparse => ?_, fun c haccepted => ?_⟩
  · rw [hload hparse]
    refine ⟨?_, fun c => ?_, exists_faultAt, fun path hfault => ?_⟩
    · simp only [mapError_eq_ok_iff]
      exact wellTyped_iff.symm
    · rw [mapError_eq_ok_iff, ofJson_eq_ok_iff]
      simp only [exists_and_left]
    · obtain ⟨issue, herror, rfl⟩ := ofJson_of_faultAt hfault
      rw [herror]
      exact ⟨_, rfl, reports_invalid file issue⟩
  · rw [hload (Json.parse?_text (readable_toJson c)), mapError_eq_ok_iff]
    exact ofJson_toJson haccepted

/-- The last of two colours counts, and of two faults that of the nameservers. -/
theorem load_document_repeated :
    let v : Json := .object [(.ofText "color", .null),
      (.ofText "dnsServers", .array [.string "1.1.1.1", .null]),
      (.ofText "__proto__", .array []), (.ofText "color", .string "never")]
    let text := "\x7b\"color\":null,\"dnsServers\":[\"1.1.1.1\",null]," ++
      "\"__proto__\":[],\"color\":\"never\"\x7d"
    Json.parse? text = some v ∧ FaultAt v ["dnsServers", "1"] ∧
      (∃ e, load "config.json" (.text text) .empty = .error e ∧
        Reports e "config.json" ["dnsServers", "1"]) ∧
      load "config.json" (.text (toJson ⟨true, .never, false, ["::1"]⟩).text) .empty =
        .ok ⟨true, .never, false, ["::1"]⟩ := by
  intro v text
  have hservers : Json.Readable (.array [.string "1.1.1.1", .null]) :=
    Json.readable_array (List.forall_mem_cons.mpr
      ⟨Json.readable_string _, List.forall_mem_singleton.mpr Json.readable_null⟩)
  have hreadable : v.Readable := by
    refine Json.readable_object ?_
    simp only [List.forall_mem_cons]
    exact ⟨⟨Json.Key.proper_ofText _, Json.readable_null⟩, ⟨Json.Key.proper_ofText _, hservers⟩,
      ⟨Json.Key.proper_ofText _, Json.readable_array nofun⟩,
      ⟨Json.Key.proper_ofText _, Json.readable_string _⟩, nofun⟩
  have htext : v.text = text := by decide +kernel
  have hparse : Json.parse? text = some v := htext ▸ Json.parse?_text hreadable
  have hitem : ServersFault (.array [.string "1.1.1.1", .null]) ["1"] :=
    @ServersFault.item [.string "1.1.1.1"] [] .null
      (List.forall_mem_singleton.mpr ⟨"1.1.1.1", rfl, by decide +kernel⟩)
      (fun ⟨_, h, _⟩ => nomatch h)
  have hfault : FaultAt v ["dnsServers", "1"] := by
    refine FaultAt.member (FaultIn.later ?_ (FaultIn.later ?_ (FaultIn.later ?_
      (FaultIn.here rfl hitem))))
    · exact fun v h => nomatch h
    · intro v h
      obtain rfl := Option.some.inj h
      exact ⟨"never", by decide, rfl⟩
    · exact fun v h => nomatch h
  obtain ⟨hfile, hback⟩ := load_document "config.json" .empty fun name _ => Environment.get?_empty name
  obtain ⟨-, -, -, hreport⟩ := hfile text v hparse
  exact ⟨hparse, hfault, hreport _ hfault, hback _ (by decide +kernel)⟩

end Subnet.Config
