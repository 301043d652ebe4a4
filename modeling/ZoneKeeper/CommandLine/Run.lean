/-
Running the commands.

A command loads the configuration, then does its work, and leaves the lines it prints and
perhaps a failure.  A plan or an apply builds the client before it reads the desired
records, so a bad address of the nameserver is told before a bad file.  An apply that fails
prints its outcome, and the metrics if they are asked for, before the failure counts.
-/
import ZoneKeeper.Apply
import ZoneKeeper.Changelog
import ZoneKeeper.CommandLine.Help
import ZoneKeeper.Config
import ZoneKeeper.ControlClient
import ZoneKeeper.RowFile
import ZoneKeeper.Json.Printer

namespace ZoneKeeper.CommandLine

/-- Where commands run. -/
structure Host (m : Type → Type) where
  /-- The variables of the environment. -/
  environment : String → Option String
  /-- The text of a file, unless it cannot be read as text. -/
  readText? : (path : String) → m (Option String)
  /-- Sends a request, and waits for the reply as long as it is told. -/
  transport : (timeoutSeconds : UInt64) → HttpRequest → m HttpReply
  /-- The records of a journal, those of one zone if one is given. -/
  loadJournal : (path : String) → Option String → m (Except SyncError (List HistoryRecord))
  /-- Appends a record to a journal. -/
  appendJournal : (path : String) → HistoryRecord → m (Except SyncError Unit)
  /-- The time of day. -/
  now : m Timestamp
  /-- A clock for durations, in nanoseconds. -/
  clock : m Nat
  /-- Adds to a counter. -/
  count : Series → Nat → m Unit
  /-- Keeps the duration of a run, in nanoseconds. -/
  observe : (outcome : String) → Nat → m Unit
  /-- What has been counted so far. -/
  metrics : m Metrics

/-- Why a command fails. -/
inductive CommandError
  /-- The configuration cannot be used. -/
  | configuration (cause : String)
  /-- The nameserver has no usable address. -/
  | client (cause : ApiError)
  /-- The file of desired records cannot be used. -/
  | rows (cause : RowFileError)
  /-- The work on the zone or on the history failed. -/
  | work (cause : SyncError)
  /-- The outcome that was printed is a failure. -/
  | applied (zone : String)
deriving DecidableEq, Repr

namespace CommandError

/-- The failure in words. -/
def message : CommandError → String
  | configuration _ => "loading configuration"
  | client _ => "creating control API client"
  | rows cause => cause.message
  | work cause => cause.message
  | applied zone => s!"apply to zone {zone} failed"

/-- What led to the failure, if that is another thing. -/
def cause? : CommandError → Option String
  | configuration cause => some cause
  | client cause => some cause.message
  | _ => none

end CommandError

/-- What a command leaves. -/
structure CommandResult where
  /-- The lines it prints. -/
  output : List String
  failure : Option CommandError
deriving DecidableEq, Repr

/-- The lines of a text. -/
def linesOf (text : String) : List String :=
  (Text.cutAt '\n' text.toList).map String.ofList

variable {m : Type → Type} [Monad m]

/-- The configuration: the environment, and the document that it names over it. -/
def loadConfig (host : Host m) : ExceptT CommandError m Config := do
  let settled {α : Type} (result : Except ConfigError α) : ExceptT CommandError m α :=
    ExceptT.mk (pure (result.mapError fun e => .configuration e.message))
  let config ← settled (Config.ofEnvironment host.environment)
  match host.environment "ZONESYNC_CONFIG" with
  | none => return config
  | some path =>
    match ← liftM (host.readText? path) with
    | some contents => settled (config.overrideWith contents)
    | none => throw (.configuration s!"read ZONESYNC_CONFIG: {path}")

/-- The services of a run, with the nameserver and the journal that the configuration names. -/
def servicesOf (host : Host m) (config : Config) (client : ControlClient) : Services m where
  toControlApi := client.api (host.transport config.timeoutSeconds) host.count
  persist := host.appendJournal config.historyPath
  now := host.now
  clock := host.clock
  count := host.count
  observe := host.observe

/-- What applies desired records under a configuration. -/
def applierOf (host : Host m) (config : Config) : Except CommandError (Applier m) :=
  match ControlClient.create config.apiUrl config.serverId config.apiKey with
  | .ok client => .ok {
      services := servicesOf host config client
      policyFor := config.policyFor
      reverseZones := config.reverseZone }
  | .error e => .error (.client e)

/-- The desired records in a file. -/
def readRows (host : Host m) (path : String) : ExceptT CommandError m (List Row) := do
  match ← liftM (host.readText? path) with
  | some contents => ExceptT.mk (pure ((rowsOfFile path contents).mapError .rows))
  | none => throw (.rows (.unreadable path))

/-- Everything that a plan or an apply needs. -/
def prepareRun (host : Host m) (config : Config) (options : RunOptions) :
    ExceptT CommandError m (Applier m × ApplyRequest) := do
  let applier ← ExceptT.mk (pure (applierOf host config))
  let rows ← readRows host options.records
  return (applier, ⟨options.zone, rows, options.actor, options.serial⟩)

/-- The lines of the metrics, if they are asked for. -/
def metricLines (host : Host m) (options : RunOptions) : m (List String) := do
  if options.printMetrics then
    return (← host.metrics).lines
  else return []

/-- Shows what applying would send. -/
def runPlan (host : Host m) (config : Config) (options : RunOptions) :
    ExceptT CommandError m CommandResult := do
  let (applier, request) ← prepareRun host config options
  let plan ← (ExceptT.mk (applier.plan request)).adapt .work
  let metrics ← liftM (metricLines host options)
  return ⟨linesOf (toJson plan).pretty ++ metrics, none⟩

/-- Applies desired records. -/
def runApply (host : Host m) (config : Config) (options : RunOptions) :
    ExceptT CommandError m CommandResult := do
  let (applier, request) ← prepareRun host config options
  let outcome := ApplyOutcome.ofResult (← liftM (applier.apply request))
  let metrics ← liftM (metricLines host options)
  return {
    output := linesOf (toJson outcome).pretty ++ metrics
    failure := if outcome.isOk then none else some (.applied options.zone) }

/-- Shows what earlier runs changed. -/
def showHistory (host : Host m) (config : Config) (options : HistoryOptions) :
    ExceptT CommandError m CommandResult := do
  let records ←
    (ExceptT.mk (host.loadJournal config.historyPath options.zone)).adapt .work
  return ⟨records.flatMap fun record => record.lines options.only, none⟩

/-- Runs a command.  A command that fails before it prints anything leaves no lines. -/
def run (host : Host m) (command : Command) : m CommandResult := do
  let work : ExceptT CommandError m CommandResult := do
    let config ← loadConfig host
    match command with
    | .plan options => runPlan host config options
    | .apply options => runApply host config options
    | .history options => showHistory host config options
  match ← work.run with
  | .ok result => return result
  | .error e => return ⟨[], some e⟩

end ZoneKeeper.CommandLine
