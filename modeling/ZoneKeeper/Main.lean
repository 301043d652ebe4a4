/-
The program: the commands on a real host.

Only what a pure function cannot do is done here.  The environment and the files are read,
requests go over a connection of their own, clocks are looked at, and the counters are
kept in a reference.  Encrypted connections are not supported.
-/
import ZoneKeeper.CommandLine.Arguments
import ZoneKeeper.CommandLine.Run
import ZoneKeeper.HttpMessage
import ZoneKeeper.Journal
import Std.Async.DNS
import Std.Async.TCP
import Std.Async.Timer
import Std.Time.DateTime

namespace ZoneKeeper.Program

open Std.Async Std.Net

/-! ### Connections -/

/-- A socket address of either family. -/
def socketAddress (address : IPAddr) (tcpPort : UInt16) : SocketAddress :=
  match address with
  | .v4 address => .v4 ⟨address, tcpPort⟩
  | .v6 address => .v6 ⟨address, tcpPort⟩

/-- Everything that a peer sends until it closes the connection. -/
partial def receiveAll (socket : TCP.Socket.Client) (received : ByteArray) : Async ByteArray := do
  match ← socket.recv? 65536 with
  | some bytes => receiveAll socket (received ++ bytes)
  | none => return received

/-- Sends a request over a new connection, and reads the reply. -/
def exchange (url : Url) (request : HttpRequest) : Async HttpReply := do
  let addresses ← DNS.getAddrInfo url.host (toString url.tcpPort.toNat)
  match addresses.toList with
  | [] => return .unreachable "the host has no address"
  | address :: _ =>
    let socket ← TCP.Socket.Client.mk
    socket.connect (socketAddress address url.tcpPort)
    socket.send (request.bytes url)
    return HttpReply.ofBytes (← receiveAll socket .empty)

/-- The reply when a request takes too long. -/
def giveUp (seconds : UInt64) : Async HttpReply := do
  sleep (.ofNat (seconds.toNat * 1000))
  return .unreachable "the request timed out"

/-- Sends a request, and waits for the reply for so many seconds. -/
def transport (seconds : UInt64) (request : HttpRequest) : IO HttpReply := do
  match Url.ofString? request.url with
  | none => return .unreachable "the address is no web address"
  | some url =>
    if url.isSecure then return .unreachable "encrypted connections are not supported"
    try (Async.race (exchange url request) (giveUp seconds)).block
    catch e => return .unreachable (toString e)

/-! ### Files and clocks -/

/-- The text of a file, unless it cannot be read as text. -/
def readText? (path : String) : IO (Option String) := do
  try
    return String.fromUTF8? (← IO.FS.readBinFile path)
  catch _ => return none

/-- What a path leads to. -/
def placeAt (path : String) : IO Journal.Place := do
  try
    return .file (some (← IO.FS.readBinFile path))
  catch
    | .noFileOrDirectory .. => return .file none
    | _ => return .directory

/-- Appends a record to a journal. -/
def appendJournal (path : String) (record : HistoryRecord) : IO (Except SyncError Unit) := do
  let step {α : Type} (verb : String) (action : IO α) : ExceptT SyncError IO α := do
    match ← (action.toBaseIO : IO _) with
    | .ok done => return done
    | .error e => throw (.history s!"{verb} {path}: {e}")
  ExceptT.run do
    let handle ← step "opening" (IO.FS.Handle.mk path .append)
    step "writing" (handle.putStr (Journal.line record))
    step "flushing" handle.flush

/-- The time of day. -/
def now : IO Timestamp := do
  let clock ← Std.Time.Timestamp.now
  return (Timestamp.ofClock? clock.toNanosecondsSinceUnixEpoch.val.toNat).getD .epoch

/-! ### The host -/

/-- The variables of the environment that have a meaning, with their values. -/
def environment : IO (Table String String) := do
  let set ← Config.variableNames.filterMapM fun name => do
    return (← IO.getEnv name).map fun value => (name, value)
  return set

/-- The host that the program runs on, with the counters kept in a reference. -/
def host (environment : Table String String) (metrics : IO.Ref Metrics) :
    CommandLine.Host IO where
  environment name := environment.lookup name
  readText?
  transport
  loadJournal path zone := return Journal.load path zone (← placeAt path)
  appendJournal
  now
  clock := IO.monoNanosNow
  count series n := metrics.modify (·.count series n)
  observe outcome nanoseconds := metrics.modify (·.observe outcome nanoseconds)
  metrics := metrics.get

/-- Tells why a command failed. -/
def reportFailure (e : CommandLine.CommandError) : IO Unit := do
  IO.eprintln s!"Error: {e.message}"
  if let some cause := e.cause? then
    IO.eprintln s!"\nCaused by:\n    {cause}"

/-- Tells why the arguments make no command, or what they ask about the program. -/
def reportUsage (e : UsageError) : IO UInt32 := do
  match e with
  | .help topic => (CommandLine.help topic).forM (IO.println ·)
  | .version => IO.println e.message
  | .nothing => (CommandLine.help none).forM (IO.eprintln ·)
  | e => IO.eprintln s!"error: {e.message}"
  return if e.isAnswer then 0 else 2

/-- Runs the command that arguments make. -/
def run (arguments : List String) : IO UInt32 := do
  match CommandLine.parse arguments with
  | .error e => reportUsage e
  | .ok command =>
    let metrics ← IO.mkRef Metrics.empty
    let result ← CommandLine.run (host (← environment) metrics) command
    result.output.forM (IO.println ·)
    match result.failure with
    | none => return 0
    | some e =>
      reportFailure e
      return 1

end ZoneKeeper.Program

/-- Runs the program with its arguments. -/
def main (arguments : List String) : IO UInt32 :=
  ZoneKeeper.Program.run arguments
