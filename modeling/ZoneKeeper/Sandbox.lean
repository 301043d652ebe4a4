/-
A sandbox: services that live entirely in memory.

Runs in a sandbox change nothing but its state: the nameserver, the audit history and the
metrics.  The clocks stand still.  Failures can be laid out in advance: a request of a
kind to a zone may be refused before the nameserver sees it, and the history may be out
of order.
-/
import ZoneKeeper.Services
import ZoneKeeper.Nameserver

namespace ZoneKeeper

/-- A kind of request to a nameserver. -/
inductive RequestKind
  | fetch
  | patch
  | probe
  | create
deriving DecidableEq, Repr

/-- The failures laid out for a sandbox. -/
structure Faults where
  /-- The requests that are refused, by kind and by the zone as the caller spells it. -/
  requests : List ((RequestKind × String) × ApiError)
  /-- Why the history takes no records, if it takes none. -/
  history : Option SyncError
deriving Repr

/-- No failures. -/
def Faults.none : Faults := ⟨[], .none⟩

/-- The state of a sandbox. -/
structure Sandbox where
  server : Nameserver
  history : List HistoryRecord
  metrics : Metrics

namespace Sandbox

/-- A sandbox around a nameserver. -/
def ofServer (server : Nameserver) : Sandbox := ⟨server, [], .empty⟩

/-- A request that the nameserver answers without changing. -/
def query {α : Type} (faults : Faults) (kind : RequestKind) (zone : String)
    (answer : Nameserver → Except ApiError α) : StateM Sandbox (Except ApiError α) := do
  match faults.requests.lookup (kind, zone) with
  | some e => return .error e
  | none => return answer (← get).server

/-- A request that may change the nameserver. -/
def command (faults : Faults) (kind : RequestKind) (zone : String)
    (run : Nameserver → Except ApiError Unit × Nameserver) :
    StateM Sandbox (Except ApiError Unit) := do
  match faults.requests.lookup (kind, zone) with
  | some e => return .error e
  | none =>
    let box ← get
    let (result, server) := run box.server
    set { box with server }
    return result

/-- Appends to the history, unless it is out of order. -/
def persist (faults : Faults) (record : HistoryRecord) :
    StateM Sandbox (Except SyncError Unit) := do
  match faults.history with
  | some e => return .error e
  | none =>
    modify fun box => { box with history := box.history ++ [record] }
    return .ok ()

/-- The services of a sandbox whose calendar shows `now`. -/
def services (faults : Faults) (now : Timestamp) : Services (StateM Sandbox) where
  fetchZone zone := query faults .fetch zone fun server => server.fetch zone
  patchRRsets zone changes := command faults .patch zone fun server => server.patch zone changes
  zoneExists zone := query faults .probe zone fun server => .ok (server.hasZone zone)
  createZone zone kind _ := command faults .create zone fun server => server.create zone kind
  persist := persist faults
  now := return now
  clock := return 0
  count series n := modify fun box => { box with metrics := box.metrics.count series n }
  observe outcome duration :=
    modify fun box => { box with metrics := box.metrics.observe outcome duration }

end Sandbox
end ZoneKeeper
