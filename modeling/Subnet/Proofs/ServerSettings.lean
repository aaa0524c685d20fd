import Subnet.Proofs.NameserverAddresses
import Subnet.Proofs.Precedence

/-!
# Nameservers in the settings — what can get into them

    Nameservers come from the configuration file or from their variable, and
    each entry passes the test on the way.  So settings that load hold only texts
    of the grammar `Server`, and an entry outside it keeps them from loading
    (`load_servers`).  The grammar has lax texts that are no addresses, and these
    do load, though a resolver may refuse them later (`load_lax_server`).
-/

namespace Subnet

open Grammar (Server Lax IsAddress isAccepted_iff)

/-- The contents of a file list the item among the nameservers: it is an element
    of the array that was last written for them. -/
inductive FileContents.ListsServer : FileContents → Json → Prop where
  | mk {text : String} {members : List (Json.Key × Json)} {items : List Json} {item : Json} :
      Json.parse? text = some (.object members) →
      Config.member? members "dnsServers" = some (.array items) → item ∈ items →
      ListsServer (.text text) item

namespace Config

variable {file : String} {contents : FileContents} {env : Environment} {g : Given}

/-! ## Settings that load -/

/-- Settings that load are those that the file and the variables give. -/
theorem exists_of_load_ok {c : Config} (h : load file contents env = .ok c) :
    ∃ g servers, Given.Of g contents ∧ ListsServers env.nonempty? servers ∧
      (∀ v ∈ overrides, v.Fits env.nonempty?) ∧ c = g.overridden env.nonempty? servers := by
  have hloads := loads file contents env
  have hneither : ¬((¬∃ g : Given, g.Of contents) ∨ ∃ v ∈ overrides, ¬v.Fits env.nonempty?) := by
    rw [← hloads.fails_iff]
    rintro ⟨e, he⟩
    exact nomatch h.symm.trans he
  push Not at hneither
  obtain ⟨⟨g, hg⟩, hfits⟩ := hneither
  obtain ⟨servers, hlists, -⟩ := hloads.servers
  exact ⟨g, servers, hg, hlists, hfits,
    Except.ok.inj (h.symm.trans (hloads.settings g hg servers hlists hfits))⟩

/-- The nameservers that a file gives have passed the test. -/
theorem accepted_of_given (h : g.Of contents) {servers : List String}
    (hservers : g.dnsServers = some servers) :
    ∀ s ∈ servers, Nameserver.isAccepted s = true := by
  cases h with
  | missing => exact nomatch hservers
  | document _ hwritten => exact hwritten.accepted servers hservers

/-- Wherever the nameservers come from, each of them has passed the test. -/
theorem accepted_of_overridden {values : String → Option String} {servers : List String}
    (hg : g.Of contents) (hlists : ListsServers values servers)
    (hfits : serversVariable.Fits values) :
    ∀ s ∈ (g.overridden values servers).dnsServers, Nameserver.isAccepted s = true := by
  intro s hs
  have hchosen : s ∈ if servers = [] then g.dnsServers.getD [] else servers := hs
  split_ifs at hchosen with hempty
  · cases hservers : g.dnsServers with
    | none => exact nomatch hservers ▸ hchosen
    | some servers =>
        rw [hservers] at hchosen
        exact accepted_of_given hg hservers s hchosen
  · cases hlists with
    | unset _ => exact absurd rfl hempty
    | listed hraw hentries =>
        exact hfits _ hraw s (hentries.mem_iff.mp hchosen)

/-! ## Entries that keep settings from loading -/

/-- A file gives no settings if an item among its nameservers is no text of the
    grammar. -/
theorem not_given_of_listed {item : Json} (hitem : contents.ListsServer item)
    (hbad : ∀ s, item = .string s → ¬Server s.toList) : ¬∃ g : Given, g.Of contents := by
  rintro ⟨g, hg⟩
  obtain ⟨hparse, hmember, hmem⟩ := hitem
  cases hg with
  | document hparse' hwritten =>
      obtain rfl := Json.object.inj (Option.some.inj (hparse.symm.trans hparse'))
      have hservers := hmember.symm.trans hwritten.dnsServers
      cases hgiven : g.dnsServers with
      | none => exact nomatch hgiven ▸ hservers
      | some servers =>
          rw [hgiven] at hservers
          obtain rfl := Json.array.inj (Option.some.inj hservers)
          obtain ⟨s, hs, rfl⟩ := List.mem_map.mp hmem
          exact hbad s rfl (isAccepted_iff.mp (hwritten.accepted servers hgiven s hs))

/-- **NAMESERVERS**: of the nameservers in settings that load, each is a text of
    the grammar, and it is an address exactly if it is not lax.  An item of the
    file or an entry of the variable that is no text of the grammar is an error
    of its source, the file's errors coming first. -/
theorem load_servers (file : String) (contents : FileContents) (env : Environment) :
    (∀ c, load file contents env = .ok c → ∀ s ∈ c.dnsServers,
      Server s.toList ∧ (IsAddress s ↔ ¬Lax s.toList)) ∧
    (∀ item, contents.ListsServer item → (∀ s, item = .string s → ¬Server s.toList) →
      ∃ e, load file contents env = .error e ∧ e.source = file) ∧
    (∀ raw, env.nonempty? "IPCALC_DNS_SERVERS" = some raw →
      ∀ s, HasEntry raw s → ¬Server s.toList →
        ∃ e, load file contents env = .error e ∧
          (e.source = file ∨ e = .badVariable "IPCALC_DNS_SERVERS" raw)) := by
  have hloads := loads file contents env
  refine ⟨?_, ?_, ?_⟩
  · intro c hc s hs
    obtain ⟨g, servers, hg, hlists, hfits, rfl⟩ := exists_of_load_ok hc
    have hservers : serversVariable.Fits env.nonempty? := hfits _ List.mem_cons_self
    have hserver := isAccepted_iff.mp (accepted_of_overridden hg hlists hservers s hs)
    exact ⟨hserver, hserver.isAddress_iff⟩
  · intro item hitem hbad
    exact hloads.file_first (not_given_of_listed hitem hbad)
  · intro raw hraw s hs hbad
    by_cases hgiven : ∃ g : Given, g.Of contents
    · obtain ⟨g, hg⟩ := hgiven
      have hrefused : ¬serversVariable.Admits raw := fun hadmits =>
        hbad (isAccepted_iff.mp (hadmits s hs))
      exact ⟨_, hloads.then_variables g hg _ raw (FirstBad.here hraw hrefused), Or.inr rfl⟩
    · obtain ⟨e, he, hsource⟩ := hloads.file_first hgiven
      exact ⟨e, he, Or.inl hsource⟩

/-- Settings load with a nameserver that is no address and that no resolver
    takes: `fe80:` and a zone, nothing between them.  A superfluous zero in a quad
    does the same. -/
theorem load_lax_server :
    let env := Environment.ofList [("IPCALC_DNS_SERVERS", "fe80:%a, ::01.2.3.4")]
    load "/cfg/config.json" .missing env =
        .ok { defaults with dnsServers := ["fe80:%a", "::01.2.3.4"] } ∧
      ∀ s ∈ ["fe80:%a", "::01.2.3.4"],
        Address.parse s (Family.detect s) = .error (.malformedAddress .v6 s) ∧
          Nameserver.isUsable s = false := by
  decide +kernel

end Config

end Subnet
