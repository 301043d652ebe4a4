/-
Configuration in layers.

Under everything lie the defaults; over them come the variables of the environment, and
over those any number of documents, each of which says only what it changes.  A document
that names a zone settles everything about that zone: what an earlier document said of it
is gone.  Zones are the same whatever dots their names end in.

A switch of a zone counts before the switch of the same name for all zones.  Which types
may be edited is asked of the zone first as well.
-/
import ZoneKeeper.DomainName
import ZoneKeeper.Policy
import ZoneKeeper.ReverseSync
import ZoneKeeper.Table
import ZoneKeeper.Yaml.Parser

namespace ZoneKeeper

open Text Numeral

/-- What is settled for one zone. -/
structure ZoneConfig where
  /-- Switches by their names. -/
  switches : Table String Bool
  editableTypes : Option (List RRType)
deriving DecidableEq, Repr

/-- The settings that a run starts from. -/
structure Config where
  /-- Where the nameserver's control interface is. -/
  apiUrl : String
  apiKey : String
  /-- The name of the server behind the control interface. -/
  serverId : String
  timeoutSeconds : UInt64
  autoPtr : Bool
  prettyIPv6Ptr : Bool
  /-- The file of the audit history. -/
  historyPath : String
  editableTypes : List RRType
  reverseZone : ReverseZoneTemplate
  /-- What is settled for single zones, by their relative names. -/
  zones : Table String ZoneConfig
deriving DecidableEq, Repr

/-- What one document changes. -/
structure ConfigOverride where
  apiUrl : Option String
  apiKey : Option String
  serverId : Option String
  timeoutSeconds : Option UInt64
  autoPtr : Option Bool
  prettyIPv6Ptr : Option Bool
  historyPath : Option String
  editableTypes : Option (List RRType)
  reverseZoneKind : Option String
  reverseZoneMasters : Option (List String)
  /-- The zones named, by their names as they are written. -/
  zones : Table String ZoneConfig
deriving DecidableEq, Repr

/-! ### Why a configuration is refused -/

/-- What is wrong with a configuration. -/
inductive ConfigError
  /-- The timeout is no whole number of seconds. -/
  | timeout
  /-- A variable that switches something holds another word. -/
  | switch (name word : String)
  /-- The document cannot be read. -/
  | document
deriving DecidableEq, Repr

/-- The mistake in words. -/
def ConfigError.message : ConfigError → String
  | timeout => "parse ZONESYNC_TIMEOUT_SECS"
  | switch name word => s!"parse {name}: '{word}' is not a boolean"
  | document => "parse zonesync config yaml"

/-! ### Defaults and environment -/

/-- The types that may be edited where nothing else is said. -/
def defaultEditableTypes : List RRType :=
  [.a, .aaaa, .apexAlias, .caa, .cname, .loc, .mx, .ns, .ptr, .spf, .srv, .txt].map .named

/-- The settings where nothing is said. -/
def Config.default : Config where
  apiUrl := "http://127.0.0.1:8081"
  apiKey := ""
  serverId := "localhost"
  timeoutSeconds := 30
  autoPtr := false
  prettyIPv6Ptr := false
  historyPath := "zonesync-history.jsonl"
  editableTypes := defaultEditableTypes
  reverseZone := .default
  zones := []

/-- The variables of the environment that have a meaning. -/
def Config.variableNames : List String :=
  ["ZONESYNC_API_URL", "ZONESYNC_API_KEY", "ZONESYNC_SERVER_ID", "ZONESYNC_TIMEOUT_SECS",
    "ZONESYNC_AUTO_PTR", "ZONESYNC_PRETTY_IPV6_PTR", "ZONESYNC_HISTORY_PATH", "ZONESYNC_CONFIG"]

/-- The truth value that a word in a variable means, in any case and between blanks. -/
def switch? (word : String) : Option Bool :=
  if ["1", "true", "yes", "on"].contains word then some true
  else if ["0", "false", "no", "off", ""].contains word then some false
  else none

/-- The value of a variable that switches something, or `otherwise` when it is not set. -/
def switchOr (environment : String → Option String) (name : String) (otherwise : Bool) :
    Except ConfigError Bool :=
  match environment name with
  | none => .ok otherwise
  | some value =>
    let word := lower (trim value)
    match switch? word with
    | some on => .ok on
    | none => .error (.switch name word)

/-- The timeout in the environment, or `otherwise` when it is not set. -/
def timeoutOr (environment : String → Option String) (otherwise : UInt64) :
    Except ConfigError UInt64 :=
  match environment "ZONESYNC_TIMEOUT_SECS" with
  | none => .ok otherwise
  | some value =>
    match unsigned? (UInt64.size - 1) (trim value).toList with
    | some seconds => .ok (UInt64.ofNat seconds)
    | none => .error .timeout

/-- The settings with the variables of an environment over the defaults. -/
def Config.ofEnvironment (environment : String → Option String) : Except ConfigError Config := do
  let base := Config.default
  let textOr (name otherwise : String) : String := (environment name).getD otherwise
  let timeoutSeconds ← timeoutOr environment base.timeoutSeconds
  let autoPtr ← switchOr environment "ZONESYNC_AUTO_PTR" base.autoPtr
  let prettyIPv6Ptr ← switchOr environment "ZONESYNC_PRETTY_IPV6_PTR" base.prettyIPv6Ptr
  return { base with
    apiUrl := textOr "ZONESYNC_API_URL" base.apiUrl
    apiKey := textOr "ZONESYNC_API_KEY" base.apiKey
    serverId := textOr "ZONESYNC_SERVER_ID" base.serverId
    historyPath := textOr "ZONESYNC_HISTORY_PATH" base.historyPath
    timeoutSeconds, autoPtr, prettyIPv6Ptr }

/-! ### Documents -/

/-- Every member of a zone but the editable types is a switch. -/
instance : OfYaml ZoneConfig :=
  ⟨fun node => do
    let fields ← node.fields? ["editable_types"]
    let others := (← node.members?).filter fun (key, _) => key ≠ "editable_types"
    let switches ← others.mapM fun (key, value) => value.evidentBool?.map fun on => (key, on)
    return {
      switches := Table.putAll [] switches
      editableTypes := ← fields.withDefault? "editable_types" none }⟩

/-- Entries under names.  Of two entries under one name the later one counts. -/
instance {α : Type} [OfYaml α] : OfYaml (Table String α) :=
  ⟨fun node => do
    let entries ← (← node.members?).mapM fun (key, value) => (ofYaml? value).map fun a => (key, a)
    return Table.putAll [] entries⟩

instance : OfYaml ConfigOverride :=
  ⟨fun node => do
    let fields ← node.fields? ["api_url", "api_key", "server_id", "timeout_secs", "auto_ptr",
      "pretty_ipv6_ptr", "history_path", "editable_types", "reverse_zone_kind",
      "reverse_zone_masters", "zones"]
    return {
      apiUrl := ← fields.withDefault? "api_url" none
      apiKey := ← fields.withDefault? "api_key" none
      serverId := ← fields.withDefault? "server_id" none
      timeoutSeconds := ← fields.withDefault? "timeout_secs" none
      autoPtr := ← fields.withDefault? "auto_ptr" none
      prettyIPv6Ptr := ← fields.withDefault? "pretty_ipv6_ptr" none
      historyPath := ← fields.withDefault? "history_path" none
      editableTypes := ← fields.withDefault? "editable_types" none
      reverseZoneKind := ← fields.withDefault? "reverse_zone_kind" none
      reverseZoneMasters := ← fields.withDefault? "reverse_zone_masters" none
      zones := ← fields.withDefault? "zones" [] }⟩

/-- What a document changes. -/
def ConfigOverride.ofText (contents : String) : Except ConfigError ConfigOverride :=
  match (Yaml.parse? contents).bind ofYaml? with
  | some changes => .ok changes
  | none => .error .document

namespace Config

/-- The settings with the changes of a document over them. -/
def override (config : Config) (changes : ConfigOverride) : Config where
  apiUrl := changes.apiUrl.getD config.apiUrl
  apiKey := changes.apiKey.getD config.apiKey
  serverId := changes.serverId.getD config.serverId
  timeoutSeconds := changes.timeoutSeconds.getD config.timeoutSeconds
  autoPtr := changes.autoPtr.getD config.autoPtr
  prettyIPv6Ptr := changes.prettyIPv6Ptr.getD config.prettyIPv6Ptr
  historyPath := changes.historyPath.getD config.historyPath
  editableTypes := changes.editableTypes.getD config.editableTypes
  reverseZone := {
    kind := changes.reverseZoneKind.getD config.reverseZone.kind
    masters := changes.reverseZoneMasters.getD config.reverseZone.masters }
  zones := Table.putAll config.zones <|
    changes.zones.map fun (zone, settled) => (DomainName.relative zone, settled)

/-- Takes the text of a document over the settings that are the state.  It is read as a whole before
anything is changed. -/
def applyText (contents : String) : ExceptT ConfigError (StateM Config) Unit := do
  let changes ← ExceptT.mk (pure (ConfigOverride.ofText contents))
  modify fun config => config.override changes

/-- The settings with the text of a document over them, unless it is refused. -/
def overrideWith (config : Config) (contents : String) : Except ConfigError Config :=
  let (result, after) := StateT.run (applyText contents).run config
  result.map fun _ => after

/-! ### What is settled -/

/-- What is settled for a zone, if a document names it. -/
def zone? (config : Config) (zone : String) : Option ZoneConfig :=
  config.zones.lookup (DomainName.relative zone)

/-- The switch of a name for all zones.  A name that means nothing is off. -/
def globalSwitch (config : Config) : String → Bool
  | "auto_ptr" => config.autoPtr
  | "pretty_ipv6_ptr" => config.prettyIPv6Ptr
  | _ => false

/-- The switch of a name for a zone, or for all zones. -/
def switch (config : Config) (name : String) (zone : Option String) : Bool :=
  let own := (zone.bind config.zone?).bind fun settled => settled.switches.lookup name
  own.getD (config.globalSwitch name)

/-- The policy for runs on a zone.  How owner names may be written is the same for all. -/
def policyFor (config : Config) (zone : String) : Policy where
  prettyIPv6Ptr := config.switch "pretty_ipv6_ptr" none
  autoPtr := config.switch "auto_ptr" (some zone)
  editableTypes := ((config.zone? zone).bind ZoneConfig.editableTypes).getD config.editableTypes

end Config
end ZoneKeeper
