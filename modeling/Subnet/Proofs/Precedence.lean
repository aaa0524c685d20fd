import Subnet.Proofs.Assignments
import Subnet.Proofs.Documents
import Subnet.Proofs.Entries

/-!
# Precedence — which source each setting comes from

    A setting comes from its variable, else from the file, else it has its
    default, each setting on its own (`Given.overridden`).  Four layers decide
    what is unset, and they agree: a variable counts by the value that
    `Environment.supplied?` finds in the environment or among the assignments that
    the lines of a settings file make, a file by what it gives.  A file that gives
    nothing readable fails first, then the first variable with a bad value
    (`FirstBad`).  `load_precedence` puts the layers together.
-/

namespace Subnet.Config

variable {env : Environment} {name raw : String}

/-! ## The variables -/

/-- A variable that overrides a setting, and the values it admits. -/
structure Override where
  name : String
  Admits : String → Prop

/-- The spellings of a truth value. -/
def SpellsTruth (raw : String) : Prop :=
  raw = "1" ∨ raw = "true" ∨ raw = "0" ∨ raw = "false"

/-- The variable that lists nameservers: each entry must pass the test. -/
def serversVariable : Override :=
  ⟨"IPCALC_DNS_SERVERS", fun raw => ∀ s, HasEntry raw s → Nameserver.isAccepted s = true⟩

/-- The variable that silences errors. -/
def silentVariable : Override :=
  ⟨"IPCALC_SILENT", SpellsTruth⟩

/-- The variable that says when output is coloured, by the name of a mode. -/
def colorVariable : Override :=
  ⟨"IPCALC_COLOR", fun raw => ∃ mode : ColorMode, raw = mode.name⟩

/-- The variable that makes address classes the default. -/
def classfulVariable : Override :=
  ⟨"IPCALC_CLASSFUL", SpellsTruth⟩

/-- The variables that override settings, in the order in which they are
    looked at. -/
def overrides : List Override :=
  [serversVariable, silentVariable, colorVariable, classfulVariable]

/-- The value of the variable, if it has one, is admitted. -/
def Override.Fits (v : Override) (values : String → Option String) : Prop :=
  ∀ raw, values v.name = some raw → v.Admits raw

/-- The first of the variables whose value is not admitted, with that value. -/
inductive FirstBad (values : String → Option String) :
    List Override → String → String → Prop where
  | here {v : Override} {rest : List Override} {raw : String} :
      values v.name = some raw → ¬v.Admits raw → FirstBad values (v :: rest) v.name raw
  | later {v : Override} {rest : List Override} {name raw : String} :
      v.Fits values → FirstBad values rest name raw → FirstBad values (v :: rest) name raw

/-- The nameservers that the variables list: the entries of their variable, and
    none if it has no value. -/
inductive ListsServers (values : String → Option String) : List String → Prop where
  | unset : values "IPCALC_DNS_SERVERS" = none → ListsServers values []
  | listed {raw : String} {servers : List String} : values "IPCALC_DNS_SERVERS" = some raw →
      HasEntries raw servers → ListsServers values servers

/-- The settings: each from its variable, else from the file, else its default.
    Nameservers are those that the variables list, if there are any. -/
def Given.overridden (g : Given) (values : String → Option String) (servers : List String) :
    Config where
  silent :=
    (((values "IPCALC_SILENT").map fun raw => decide (raw = "1" ∨ raw = "true")).or
      g.silent).getD false
  color := (((values "IPCALC_COLOR").bind ColorMode.ofName?).or g.color).getD .auto
  classful :=
    (((values "IPCALC_CLASSFUL").map fun raw => decide (raw = "1" ∨ raw = "true")).or
      g.classful).getD false
  dnsServers := if servers = [] then g.dnsServers.getD [] else servers

/-- What loading comes to, for a file with its contents and the values of
    variables. -/
structure Loads (file : String) (contents : FileContents) (values : String → Option String)
    (result : Except ConfigError Config) : Prop where
  servers : ∃! servers, ListsServers values servers
  settings : ∀ g : Given, g.Of contents → ∀ servers, ListsServers values servers →
    (∀ v ∈ overrides, v.Fits values) → result = .ok (g.overridden values servers)
  fails_iff : (∃ e, result = .error e) ↔
    (¬∃ g : Given, g.Of contents) ∨ ∃ v ∈ overrides, ¬v.Fits values
  file_first : (¬∃ g : Given, g.Of contents) → ∃ e, result = .error e ∧ e.source = file
  then_variables : ∀ g : Given, g.Of contents → ∀ name raw,
    FirstBad values overrides name raw → result = .error (.badVariable name raw)

/-- There is a first bad variable exactly if there is a bad one. -/
theorem exists_firstBad_iff {values : String → Option String} {vs : List Override} :
    (∃ name raw, FirstBad values vs name raw) ↔ ∃ v ∈ vs, ¬v.Fits values := by
  constructor
  · rintro ⟨name, raw, h⟩
    induction h with
    | @here v rest raw hraw hbad =>
        exact ⟨v, List.mem_cons_self, fun hfits => hbad (hfits raw hraw)⟩
    | later _ _ ih =>
        obtain ⟨v, hv, hbad⟩ := ih
        exact ⟨v, List.mem_cons_of_mem _ hv, hbad⟩
  · induction vs with
    | nil =>
        rintro ⟨v, hv, -⟩
        exact nomatch hv
    | cons v rest ih =>
        rintro ⟨w, hw, hbad⟩
        by_cases hfits : v.Fits values
        · have hrest : w ∈ rest := by
            rcases List.mem_cons.mp hw with rfl | hrest
            · exact absurd hfits hbad
            · exact hrest
          obtain ⟨name, raw, h⟩ := ih ⟨w, hrest, hbad⟩
          exact ⟨name, raw, FirstBad.later hfits h⟩
        · obtain ⟨raw, hraw, hnot⟩ : ∃ raw, values v.name = some raw ∧ ¬v.Admits raw := by
            simpa [Override.Fits] using hfits
          exact ⟨v.name, raw, FirstBad.here hraw hnot⟩

/-! ## Nameservers -/

/-- The nameservers of the variables are what the reader makes of their value. -/
theorem listsServers_iff {values : String → Option String} {servers : List String} :
    ListsServers values servers ↔
      ((values "IPCALC_DNS_SERVERS").map listEntries).getD [] = servers := by
  constructor
  · rintro (hnone | ⟨hraw, hentries⟩)
    · rw [hnone]
      rfl
    · rw [hraw]
      exact hasEntries_iff.mp hentries
  · rintro rfl
    cases hraw : values "IPCALC_DNS_SERVERS" with
    | none => exact ListsServers.unset hraw
    | some raw => exact ListsServers.listed hraw (hasEntries_iff.mpr rfl)

/-- They are listed in one way. -/
theorem existsUnique_listsServers (values : String → Option String) :
    ∃! servers, ListsServers values servers := by
  simp only [listsServers_iff]
  exact existsUnique_eq'

/-! ## Reading one variable -/

/-- The reader of a variable takes the values that the variable admits. -/
def Override.ReadBy {α : Type} (v : Override) (read : String → Option α) : Prop :=
  ∀ raw, (read raw).isSome ↔ v.Admits raw

/-- The reader of nameservers takes the lists whose entries pass the test. -/
theorem serversVariable_readBy : serversVariable.ReadBy servers? := by
  intro raw
  show (servers? raw).isSome ↔ ∀ s, HasEntry raw s → Nameserver.isAccepted s = true
  simp [servers?, hasEntry_iff]

/-- A truth value is read exactly from its four spellings. -/
theorem isSome_bool?_iff : (bool? raw).isSome ↔ SpellsTruth raw := by
  unfold bool? SpellsTruth
  split_ifs with htrue hfalse
  · exact iff_of_true rfl (htrue.imp_right Or.inl)
  · exact iff_of_true rfl (Or.inr (Or.inr hfalse))
  · exact iff_of_false nofun fun h => (or_assoc.mpr h).elim htrue hfalse

/-- The variable of silence is read as a truth value. -/
theorem silentVariable_readBy : silentVariable.ReadBy bool? :=
  fun _ => isSome_bool?_iff

/-- The variable of address classes is read as a truth value. -/
theorem classfulVariable_readBy : classfulVariable.ReadBy bool? :=
  fun _ => isSome_bool?_iff

/-- The variable of colours is read by the names of the modes. -/
theorem colorVariable_readBy : colorVariable.ReadBy ColorMode.ofName? := by
  intro raw
  show (ColorMode.ofName? raw).isSome ↔ ∃ mode : ColorMode, raw = mode.name
  simp only [Option.isSome_iff_exists, ColorMode.ofName?_eq_some_iff]

section Read

variable {α β : Type} {read : String → Option α} {v : Override}

/-- A variable that fits is read, and the rest goes on with its value. -/
theorem bind_of_fits {f : Option α → Except ConfigError β} (hread : v.ReadBy read)
    (hfits : v.Fits env.nonempty?) :
    (readVariable env v.name read >>= f) = f ((env.nonempty? v.name).bind read) := by
  unfold readVariable
  cases hraw : env.nonempty? v.name with
  | none => rfl
  | some raw =>
      obtain ⟨a, ha⟩ := Option.isSome_iff_exists.mp ((hread raw).mpr (hfits raw hraw))
      simp only [Option.bind_some, ha]
      rfl

/-- The first bad variable is this one, or the rest fails because of it. -/
theorem bind_of_firstBad {f : Option α → Except ConfigError β} {rest : List Override}
    (hread : v.ReadBy read) (h : FirstBad env.nonempty? (v :: rest) name raw)
    (hrest : ∀ o, FirstBad env.nonempty? rest name raw → f o = .error (.badVariable name raw)) :
    (readVariable env v.name read >>= f) = .error (.badVariable name raw) := by
  cases h with
  | here hraw hbad =>
      have hnone : read raw = none := Option.not_isSome_iff_eq_none.mp (mt (hread raw).mp hbad)
      unfold readVariable
      simp only [hraw, hnone]
      rfl
  | later hfits h =>
      rw [bind_of_fits hread hfits]
      exact hrest _ h

end Read

/-- A spelled truth value is true for two of its spellings. -/
theorem bind_bool?_eq {o : Option String} (h : ∀ raw, o = some raw → SpellsTruth raw) :
    o.bind bool? = o.map fun raw => decide (raw = "1" ∨ raw = "true") := by
  cases o with
  | none => rfl
  | some raw => rcases h raw rfl with rfl | rfl | rfl | rfl <;> decide

/-- A list whose entries pass the test is read as it is. -/
theorem bind_servers?_eq {o : Option String}
    (h : ∀ raw, o = some raw → ∀ s, HasEntry raw s → Nameserver.isAccepted s = true) :
    o.bind servers? = o.map listEntries := by
  cases o with
  | none => rfl
  | some raw =>
      have hall := h raw rfl
      simp only [hasEntry_iff] at hall
      exact if_pos (List.all_eq_true.mpr hall)

/-! ## All variables -/

/-- Variables that fit override what the file gives, each its own setting. -/
theorem override_of_fits {g : Given} {servers : List String}
    (hlists : ListsServers env.nonempty? servers) (h : ∀ v ∈ overrides, v.Fits env.nonempty?) :
    g.complete.override env = .ok (g.overridden env.nonempty? servers) := by
  simp only [overrides, List.forall_mem_cons] at h
  obtain ⟨hservers, hsilent, hcolor, hclassful, -⟩ := h
  refine (bind_of_fits serversVariable_readBy hservers).trans ?_
  refine (bind_of_fits silentVariable_readBy hsilent).trans ?_
  refine (bind_of_fits colorVariable_readBy hcolor).trans ?_
  refine (bind_of_fits classfulVariable_readBy hclassful).trans ?_
  rw [bind_servers?_eq hservers, bind_bool?_eq hsilent, bind_bool?_eq hclassful,
    ← listsServers_iff.mp hlists]
  unfold Given.overridden
  simp only [Option.getD_or, serversVariable]
  -- an empty list of nameservers overrides nothing
  rcases (env.nonempty? "IPCALC_DNS_SERVERS").map listEntries with _ | _ | ⟨s, rest⟩ <;> rfl

/-- The first bad variable is the error, whatever the file gives. -/
theorem override_of_firstBad {c : Config} (h : FirstBad env.nonempty? overrides name raw) :
    c.override env = .error (.badVariable name raw) := by
  refine bind_of_firstBad serversVariable_readBy h fun _ h => ?_
  refine bind_of_firstBad silentVariable_readBy h fun _ h => ?_
  refine bind_of_firstBad colorVariable_readBy h fun _ h => ?_
  refine bind_of_firstBad classfulVariable_readBy h fun _ h => ?_
  exact nomatch h

/-! ## Loading -/

/-- A file and an environment load as the file and the variables say. -/
theorem loads (file : String) (contents : FileContents) (env : Environment) :
    Loads file contents env.nonempty? (load file contents env) := by
  have hservers := existsUnique_listsServers env.nonempty?
  have hsettings : ∀ g : Given, g.Of contents → ∀ servers, ListsServers env.nonempty? servers →
      (∀ v ∈ overrides, v.Fits env.nonempty?) →
        load file contents env = .ok (g.overridden env.nonempty? servers) := by
    intro g hg servers hlists hfits
    rw [load, ofFile_eq_ok_iff.mpr ⟨g, hg, rfl⟩]
    exact override_of_fits hlists hfits
  have hfile : (¬∃ g : Given, g.Of contents) →
      ∃ e, load file contents env = .error e ∧ e.source = file := by
    intro hnone
    cases hread : ofFile file contents with
    | ok c =>
        obtain ⟨g, hg, -⟩ := ofFile_eq_ok_iff.mp hread
        exact absurd ⟨g, hg⟩ hnone
    | error e =>
        rw [load, hread]
        exact ⟨e, rfl, source_of_ofFile hread⟩
  have hvariables : ∀ g : Given, g.Of contents → ∀ name raw,
      FirstBad env.nonempty? overrides name raw →
        load file contents env = .error (.badVariable name raw) := by
    intro g hg name raw hbad
    rw [load, ofFile_eq_ok_iff.mpr ⟨g, hg, rfl⟩]
    exact override_of_firstBad hbad
  refine ⟨hservers, hsettings, ⟨?_, ?_⟩, hfile, hvariables⟩
  · rintro ⟨e, he⟩
    by_contra hneither
    push Not at hneither
    obtain ⟨⟨g, hg⟩, hfits⟩ := hneither
    obtain ⟨servers, hlists, -⟩ := hservers
    exact nomatch he.symm.trans (hsettings g hg servers hlists hfits)
  · intro hcause
    by_cases hgiven : ∃ g : Given, g.Of contents
    · obtain ⟨g, hg⟩ := hgiven
      rcases hcause with hnone | hbad
      · exact absurd ⟨g, hg⟩ hnone
      · obtain ⟨name, raw, hfirst⟩ := exists_firstBad_iff.mpr hbad
        exact ⟨_, hvariables g hg name raw hfirst⟩
    · obtain ⟨e, he, -⟩ := hfile hgiven
      exact ⟨e, he⟩

end Subnet.Config
