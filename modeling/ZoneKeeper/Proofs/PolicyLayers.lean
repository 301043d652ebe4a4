/-
Which layer a policy comes from.

A setting that documents change holds what the last of them that speaks of it says, and what lay
under them all where none does.  That is one lemma about working off documents (`foldl_override`),
and it serves the switches, the editable types and the entries of zones alike.  An entry of a zone
is put whole in the place of an earlier one, so only the last document that names the zone counts,
in whatever spelling.

A text is worked off on settings that are a state, and it may be refused.  Then the state that it
leaves is the one that it found, so it might as well not have come.
-/
import ZoneKeeper.Config
import ZoneKeeper.Proofs.Apply
import ZoneKeeper.Proofs.Reconciliation

namespace ZoneKeeper

open Text DomainName

/-! ### Entries that are put into a table -/

namespace Table

variable {κ α : Type} [DecidableEq κ]

/-- Of the entries that are put under a key the last one counts. -/
theorem lookup_putAll (entries : List (κ × α)) (table : Table κ α) (key : κ) :
    (putAll table entries).lookup key = (entries.reverse.lookup key).or (table.lookup key) := by
  induction entries generalizing table with
  | nil => rfl
  | cons entry rest ih =>
    obtain ⟨own, value⟩ := entry
    have hput : (put own value table).lookup key =
        (List.lookup key [(own, value)]).or (table.lookup key) := by
      by_cases hkey : key = own
      · rw [hkey, lookup_put_self, List.lookup_cons_self, Option.some_or]
      · rw [lookup_put_of_ne hkey, List.lookup_cons, beq_false_of_ne hkey]
        rfl
    rw [putAll, List.foldl_cons, ← putAll, ih, hput, List.reverse_cons, List.lookup_append,
      Option.or_assoc]

/-- Under distinct keys a table says the same from the back as from the front. -/
theorem lookup_reverse {table : Table κ α} (h : (table.map Prod.fst).Nodup) (key : κ) :
    List.lookup key table.reverse = table.lookup key := by
  induction table with
  | nil => rfl
  | cons entry rest ih =>
    obtain ⟨own, value⟩ := entry
    obtain ⟨hnot, hrest⟩ := List.nodup_cons.mp h
    rw [List.reverse_cons, List.lookup_append, ih hrest]
    by_cases hkey : key = own
    · have hmissing : List.lookup key rest = none := by
        rw [List.lookup_eq_none_iff]
        intro other hother
        rw [hkey]
        exact bne_iff_ne.mpr fun hown => hnot (List.mem_map.mpr ⟨other, hother, hown.symm⟩)
      rw [hmissing, Option.none_or, hkey, List.lookup_cons_self, List.lookup_cons_self]
    · rw [List.lookup_cons, List.lookup_cons, beq_false_of_ne hkey, List.lookup_nil, Option.or_none]

end Table

/-! ### What the layers say -/

namespace ConfigOverride

/-- What a document says about a zone, in whatever spelling it names it. -/
def settled? (document : ConfigOverride) (zone : String) : Option ZoneConfig :=
  (document.zones.map fun (name, settled) => (relative name, settled)).lookup (relative zone)

/-- No zone is named in two spellings. -/
def SpelledOnce (document : ConfigOverride) : Prop :=
  (document.zones.map fun (name, _) => relative name).Nodup

instance (document : ConfigOverride) : Decidable document.SpelledOnce :=
  inferInstanceAs (Decidable (document.zones.map fun (name, _) => relative name).Nodup)

/-- What the last document that speaks of something says about it. -/
def lastSaid {α : Type} (documents : List ConfigOverride) (tells : ConfigOverride → Option α) :
    Option α :=
  documents.reverse.findSome? tells

end ConfigOverride

open ConfigOverride

/-- What a variable of the environment switches, if it is set to a word that means something. -/
def environmentSwitch (environment : String → Option String) (name : String) : Option Bool :=
  (environment name).bind fun value => switch? (lower (trim value))

/-- The policy for a zone as the layers give it.  What is settled for the zone is said by the last
document that names it; below that lies the last document that speaks of all zones, below it the
environment, and below that the defaults. -/
def Policy.layered (environment : String → Option String) (documents : List ConfigOverride)
    (zone : String) : Policy :=
  let settled := lastSaid documents (·.settled? zone)
  { autoPtr := (settled.bind (·.switches.lookup "auto_ptr")).or
      ((lastSaid documents (·.autoPtr)).or (environmentSwitch environment "ZONESYNC_AUTO_PTR"))
        |>.getD false
    editableTypes := (settled.bind (·.editableTypes)).or (lastSaid documents (·.editableTypes))
      |>.getD defaultEditableTypes
    prettyIPv6Ptr := (lastSaid documents (·.prettyIPv6Ptr)).or
      (environmentSwitch environment "ZONESYNC_PRETTY_IPV6_PTR") |>.getD false }

namespace Config

/-- The settings that texts leave which come one after another, whether they are refused or not. -/
def overrideEach (config : Config) (texts : List String) : Config :=
  texts.foldl (fun config text => (runFrom (applyText text) config).2) config

variable {environment : String → Option String} {base config after : Config}
  {text bad : String} {texts front : List String} {documents : List ConfigOverride}
  {zone : String} {e : ConfigError}

/-! ### Texts that are accepted and texts that are refused -/

theorem runFrom_applyText (text : String) (config : Config) :
    runFrom (applyText text) config =
      match ofText text with
      | .ok document => (.ok (), config.override document)
      | .error e => (.error e, config) := by
  unfold applyText
  rw [runFrom_bind, runFrom_mk_pure]
  cases ofText text <;> rfl

theorem overrideWith_eq (config : Config) (text : String) :
    config.overrideWith text = (ofText text).map config.override := by
  have hrun : config.overrideWith text = (runFrom (applyText text) config).1.map
      fun _ => (runFrom (applyText text) config).2 := rfl
  rw [hrun, runFrom_applyText]
  cases ofText text <;> rfl

/-- **A text that is refused leaves the settings as they were.** -/
theorem eq_of_refused (h : runFrom (applyText text) config = (.error e, after)) :
    after = config := by
  rw [runFrom_applyText] at h
  cases hread : ofText text with
  | ok document =>
    rw [hread] at h
    cases h
  | error reason =>
    rw [hread] at h
    exact (congrArg Prod.snd h).symm

example : runFrom (applyText "auto_ptr: true\npretty_ipv6_ptr: maybe\n") .default =
    (.error .document, .default) := by
  decide +kernel

/-- Texts that are all accepted are worked off as the documents that they hold. -/
theorem exists_documents_of_accepted (h : texts.foldlM overrideWith base = .ok config) :
    ∃ documents, texts.mapM ConfigOverride.ofText = .ok documents ∧
      documents.foldl override base = config ∧ base.overrideEach texts = config := by
  induction texts generalizing base with
  | nil => exact ⟨[], rfl, Except.ok.inj h, Except.ok.inj h⟩
  | cons text rest ih =>
    rw [List.foldlM_cons] at h
    cases hread : ofText text with
    | error e =>
      rw [overrideWith_eq, hread] at h
      contradiction
    | ok document =>
      rw [overrideWith_eq, hread] at h
      obtain ⟨documents, hdocuments, hfold, heach⟩ := ih h
      refine ⟨document :: documents, ?_, hfold, ?_⟩
      · rw [List.mapM_cons, hread, hdocuments]
        rfl
      · rw [overrideEach, List.foldl_cons, runFrom_applyText, hread]
        exact heach

/-- A text that is refused where it stands might as well not stand there. -/
theorem overrideEach_insert
    (hbad : runFrom (applyText bad) (base.overrideEach front) = (.error e, after))
    (rear : List String) :
    base.overrideEach (front ++ bad :: rear) = base.overrideEach (front ++ rear) := by
  obtain rfl := eq_of_refused hbad
  rw [overrideEach] at hbad
  rw [overrideEach, overrideEach, List.foldl_append, List.foldl_append, List.foldl_cons, hbad]

/-! ### Documents that are worked off -/

/-- **The last document counts.**  If a document decides something about the settings as far as it
speaks of it, then of many documents the last one that speaks of it decides. -/
theorem foldl_override {α : Type} (asks : Config → Option α) {tells : ConfigOverride → Option α}
    (h : ∀ document ∈ documents, ∀ config : Config,
      asks (config.override document) = (tells document).or (asks config)) (config : Config) :
    asks (documents.foldl override config) = (lastSaid documents tells).or (asks config) := by
  induction documents generalizing config with
  | nil => rfl
  | cons first rest ih =>
    obtain ⟨hfirst, hrest⟩ := List.forall_mem_cons.mp h
    rw [List.foldl_cons, ih hrest, hfirst, lastSaid, lastSaid, List.reverse_cons,
      List.findSome?_append, List.findSome?_singleton, Option.or_assoc]

/-- A setting that a document may change. -/
theorem foldl_override_setting {α : Type} {setting : Config → α}
    (tells : ConfigOverride → Option α)
    (h : ∀ (config : Config) document,
      setting (config.override document) = (tells document).getD (setting config))
    (config : Config) (documents : List ConfigOverride) :
    setting (documents.foldl override config) =
      (lastSaid documents tells).getD (setting config) := by
  have hasks : ∀ document ∈ documents, ∀ config : Config,
      some (setting (config.override document)) = (tells document).or (some (setting config)) := by
    intro document _ config
    rw [h, Option.or_some]
  have hfold := foldl_override (fun config => some (setting config)) hasks config
  rwa [Option.or_some, Option.some_inj] at hfold

/-- What is settled for a zone is taken whole from the last document that names it. -/
theorem zone?_foldl_override (hspelled : ∀ document ∈ documents, document.SpelledOnce)
    (config : Config) (zone : String) :
    (documents.foldl override config).zone? zone =
      (lastSaid documents (·.settled? zone)).or (config.zone? zone) := by
  refine foldl_override (fun config => config.zone? zone) ?_ config
  intro document hmem config
  have hkeys : ((document.zones.map fun (name, settled) => (relative name, settled)).map
      Prod.fst).Nodup := by
    rw [List.map_map]
    exact hspelled document hmem
  rw [zone?, override, Table.lookup_putAll, Table.lookup_reverse hkeys, settled?, zone?]

/-! ### What lies under the documents -/

/-- A switch that is accepted is the one in the environment, or else the default. -/
theorem eq_of_switchOr {name : String} {otherwise on : Bool}
    (h : switchOr environment name otherwise = .ok on) :
    on = (environmentSwitch environment name).getD otherwise := by
  rw [switchOr] at h
  rw [environmentSwitch]
  cases hvalue : environment name with
  | none =>
    rw [hvalue] at h
    exact (Except.ok.inj h).symm
  | some value =>
    rw [hvalue] at h
    rw [Option.bind_some]
    dsimp only at h
    cases hword : switch? (lower (trim value)) with
    | none =>
      rw [hword] at h
      contradiction
    | some switched =>
      rw [hword] at h
      exact (Except.ok.inj h).symm

/-- The settings that policies are made from, where only an environment has been read. -/
structure Underlies (environment : String → Option String) (base : Config) : Prop where
  autoPtr : base.autoPtr = (environmentSwitch environment "ZONESYNC_AUTO_PTR").getD false
  prettyIPv6Ptr :
    base.prettyIPv6Ptr = (environmentSwitch environment "ZONESYNC_PRETTY_IPV6_PTR").getD false
  editableTypes : base.editableTypes = defaultEditableTypes
  zones : base.zones = []

theorem underlies_ofEnvironment (h : Config.ofEnvironment environment = .ok base) :
    Underlies environment base := by
  rw [Config.ofEnvironment] at h
  cases htimeout : timeoutOr environment default.timeoutSeconds with
  | error e =>
    rw [htimeout] at h
    contradiction
  | ok timeoutSeconds =>
    cases hauto : switchOr environment "ZONESYNC_AUTO_PTR" default.autoPtr with
    | error e =>
      rw [htimeout, hauto] at h
      contradiction
    | ok autoPtr =>
      cases hpretty : switchOr environment "ZONESYNC_PRETTY_IPV6_PTR" default.prettyIPv6Ptr with
      | error e =>
        rw [htimeout, hauto, hpretty] at h
        contradiction
      | ok prettyIPv6Ptr =>
        rw [htimeout, hauto, hpretty] at h
        obtain rfl := Except.ok.inj h
        exact ⟨eq_of_switchOr hauto, eq_of_switchOr hpretty, rfl, rfl⟩

/-! ### The policy of a zone -/

/-- The policy over readable documents is the layered one. -/
theorem policyFor_foldl_override (hbase : Underlies environment base)
    (hspelled : ∀ document ∈ documents, document.SpelledOnce) (zone : String) :
    (documents.foldl override base).policyFor zone =
      Policy.layered environment documents zone := by
  have hzone := zone?_foldl_override hspelled base zone
  have hnothing : base.zone? zone = none := by rw [zone?, hbase.zones, List.lookup_nil]
  rw [hnothing, Option.or_none] at hzone
  have hauto : (documents.foldl override base).autoPtr = _ :=
    foldl_override_setting (·.autoPtr) (fun _ _ => rfl) base documents
  have hpretty : (documents.foldl override base).prettyIPv6Ptr = _ :=
    foldl_override_setting (·.prettyIPv6Ptr) (fun _ _ => rfl) base documents
  have htypes : (documents.foldl override base).editableTypes = _ :=
    foldl_override_setting (·.editableTypes) (fun _ _ => rfl) base documents
  rw [policyFor, Policy.layered, switch, switch, globalSwitch, globalSwitch, Option.bind_none,
    Option.bind_none, Option.getD_none, Option.bind_some, hzone, hauto, hpretty, htypes,
    hbase.autoPtr, hbase.prettyIPv6Ptr, hbase.editableTypes, Option.getD_or, Option.getD_or,
    Option.getD_or, Option.getD_or]

/-- **A policy comes from its layers,** over every environment and every list of documents that
are accepted, for every spelling of the zone.  A text that is refused leaves the settings as they
were, and so changes nothing wherever it stands. -/
theorem policyFor_eq_layered (henvironment : Config.ofEnvironment environment = .ok base)
    (haccepted : texts.foldlM overrideWith base = .ok config)
    (hspelled : ∀ text ∈ texts, ∀ document ∈ (ConfigOverride.ofText text).toOption,
      document.SpelledOnce) (zone : String) :
    ∃ documents, texts.mapM ConfigOverride.ofText = .ok documents ∧
      config.policyFor zone = Policy.layered environment documents zone ∧
      base.overrideEach texts = config ∧
      ∀ front rear bad e after,
        runFrom (applyText bad) (base.overrideEach front) = (.error e, after) →
        after = base.overrideEach front ∧
          base.overrideEach (front ++ bad :: rear) = base.overrideEach (front ++ rear) := by
  obtain ⟨documents, hdocuments, rfl, heach⟩ := exists_documents_of_accepted haccepted
  refine ⟨documents, hdocuments, ?_, heach, fun front rear bad e after hbad =>
    ⟨eq_of_refused hbad, overrideEach_insert hbad rear⟩⟩
  refine policyFor_foldl_override (underlies_ofEnvironment henvironment) ?_ zone
  intro document hmem
  obtain ⟨text, htext, hread⟩ := exists_of_mem_mapM_ok hdocuments hmem
  exact hspelled text htext document (by rw [hread]; rfl)

/-- A later document takes back what an earlier one settled for the zone as a whole, and leaves
what is said for all zones. -/
theorem policyFor_eq_layered_takenBack :
    let environment : String → Option String :=
      fun name => if name = "ZONESYNC_PRETTY_IPV6_PTR" then some " Yes" else none
    let texts := ["auto_ptr: true\nzones:\n  example.com.:\n    auto_ptr: false\n",
      "zones:\n  example.com:\n    editable_types: [A]\n"]
    ∃ base config, Config.ofEnvironment environment = .ok base ∧
      texts.foldlM overrideWith base = .ok config ∧
      config.policyFor "example.com.." = ⟨true, true, [.named .a]⟩ ∧
      ∃ documents, texts.mapM ConfigOverride.ofText = .ok documents ∧
        config.policyFor "example.com.." = Policy.layered environment documents "example.com.." ∧
        base.overrideEach texts = config ∧
        ∀ front rear bad e after,
          runFrom (applyText bad) (base.overrideEach front) = (.error e, after) →
          after = base.overrideEach front ∧
            base.overrideEach (front ++ bad :: rear) = base.overrideEach (front ++ rear) := by
  intro environment texts
  have henvironment : Config.ofEnvironment environment =
      .ok { Config.default with prettyIPv6Ptr := true } := by decide +kernel
  have haccepted : texts.foldlM overrideWith { Config.default with prettyIPv6Ptr := true } =
      .ok { Config.default with
        prettyIPv6Ptr := true, autoPtr := true
        zones := [("example.com", ⟨[], some [.named .a]⟩)] } := by decide +kernel
  have hspelled : ∀ text ∈ texts, ∀ document ∈ (ConfigOverride.ofText text).toOption,
      document.SpelledOnce := by decide +kernel
  exact ⟨_, _, henvironment, haccepted, by decide +kernel,
    policyFor_eq_layered henvironment haccepted hspelled "example.com.."⟩

end Config
end ZoneKeeper
