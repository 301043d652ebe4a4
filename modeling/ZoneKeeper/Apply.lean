/-
Applying desired records to a zone.

One run settles the policy, fetches the zone, refuses if the caller saw another serial,
reconciles, and then sends the deletions, sends the replacements, brings the reverse
names up to date and appends to the audit history.  Empty batches are not sent, and a
zone that is already as desired is left alone.

Nothing is rolled back.  Replacements that fail after deletions went through are reported
as a partial failure; a failure over reverse names is reported only after the history has
the change to the zone itself.
-/
import ZoneKeeper.Reconciliation
import ZoneKeeper.ReverseSync

namespace ZoneKeeper

/-! ### What is asked and what is answered -/

/-- The wish to apply desired records. -/
structure ApplyRequest where
  zone : String
  /-- The complete desired state of the zone. -/
  rows : List Row
  /-- Who asks, for the audit history. -/
  actor : String
  /-- The serial that the caller saw, if the zone must not have changed since. -/
  serial : Option UInt32
deriving DecidableEq, Repr

/-- What a run did. -/
structure ApplySummary where
  zone : String
  /-- The number of record sets deleted. -/
  deleted : Nat
  /-- The number of record sets written. -/
  replaced : Nat
  /-- What was done about reverse names, if anything. -/
  autoPtr : Option PtrReport
deriving DecidableEq, Repr

namespace ApplySummary

/-- The run changed nothing. -/
def isNoop (summary : ApplySummary) : Bool :=
  summary.deleted == 0 && summary.replaced == 0

/-- What the run did, in words. -/
def message (summary : ApplySummary) : String :=
  if summary.isNoop then s!"No changes to apply to zone {summary.zone}"
  else
    s!"Applied changes to zone {summary.zone}: {summary.deleted} RRset(s) deleted, " ++
      s!"{summary.replaced} RRset(s) replaced" ++
      match summary.autoPtr with
      | some report => s!"; {report.added} PTR(s) added, {report.deleted} PTR(s) deleted"
      | none => ""

instance : ToJson ApplySummary :=
  ⟨fun s => .ofFields [("zone", toJson s.zone), ("deleted", toJson s.deleted),
    ("replaced", toJson s.replaced), ("auto_ptr", toJson s.autoPtr)]⟩

end ApplySummary

/-- The answer to a caller: success or failure, and a message either way. -/
structure ApplyOutcome where
  isOk : Bool
  message : String
deriving DecidableEq, Repr

namespace ApplyOutcome

/-- The answer that a result makes. -/
def ofResult : Except SyncError ApplySummary → ApplyOutcome
  | .ok summary => ⟨true, summary.message⟩
  | .error e => ⟨false, e.message⟩

/-- The word for success or failure. -/
def status (outcome : ApplyOutcome) : String :=
  if outcome.isOk then "ok" else "error"

instance : ToJson ApplyOutcome :=
  ⟨fun o => .ofFields [("status", toJson o.status), ("msg", toJson o.message)]⟩

end ApplyOutcome

/-- What a run would send. -/
structure ApplyPlan where
  zone : String
  /-- The serial of the zone that the plan is for. -/
  serial : UInt32
  batches : Batches
  /-- The number of reverse names to write. -/
  ptrAdditions : Nat
  /-- The number of reverse names to remove. -/
  ptrRemovals : Nat
deriving DecidableEq, Repr

instance : ToJson ApplyPlan :=
  ⟨fun p => .ofFields [("zone", toJson p.zone), ("serial", toJson p.serial),
    ("deletes", toJson p.batches.deleteChanges), ("replaces", toJson p.batches.replaceChanges),
    ("ptr_additions", toJson p.ptrAdditions), ("ptr_removals", toJson p.ptrRemovals)]⟩

/-! ### The run -/

/-- What applies desired records: its services, the policies of zones, and the way to create
reverse zones. -/
structure Applier (m : Type → Type) where
  services : Services m
  policyFor : (zone : String) → Policy
  reverseZones : ReverseZoneTemplate

/-- What is known before anything is sent. -/
structure Prepared where
  policy : Policy
  serial : UInt32
  reconciliation : Reconciliation
  batches : Batches
deriving DecidableEq, Repr

namespace Prepared

/-- The addresses that the run brings and takes away, as far as the policy cares. -/
def ptrChanges (prepared : Prepared) : PtrChanges :=
  if prepared.policy.autoPtr then
    .ofApply prepared.batches.replaces prepared.reconciliation.prior
  else ⟨[], []⟩

end Prepared

namespace Applier

variable {m : Type → Type} [Monad m]

/-- A request to the nameserver on behalf of a zone. -/
def ask {α : Type} (zone : String) (action : m (Except ApiError α)) : ExceptT SyncError m α :=
  (ExceptT.mk action).adapt (SyncError.ofApi zone)

/-- The caller saw the serial that the zone has, or did not say. -/
def checkSerial (request : ApplyRequest) (current : UInt32) : Except SyncError Unit :=
  match request.serial with
  | some submitted =>
    if submitted = current then .ok () else .error (.conflict request.zone submitted current)
  | none => .ok ()

/-- What follows from the zone as it is. -/
def prepareFrom (policy : Policy) (request : ApplyRequest) (snapshot : Snapshot) :
    Except SyncError Prepared := do
  checkSerial request snapshot.serial
  let reconciliation ← reconcile request.zone policy request.rows snapshot.rrsets
  return {
    policy, serial := snapshot.serial, reconciliation
    batches := reconciliation.batches policy }

/-- Everything that comes before the first change. -/
def prepare (applier : Applier m) (request : ApplyRequest) : ExceptT SyncError m Prepared := do
  let snapshot ← ask request.zone (applier.services.fetchZone request.zone)
  ExceptT.mk (pure (prepareFrom (applier.policyFor request.zone) request snapshot))

/-- Sends a batch, unless it is empty, and counts it. -/
def sendBatch (applier : Applier m) (zone : String) (type : ChangeType) (changes : List Change) :
    ExceptT SyncError m Unit := do
  if changes.isEmpty then return
  ask zone (applier.services.patchRRsets zone changes)
  liftM (applier.services.count (.rrsetsPatched type.label) changes.length)

/-- A failure to send the replacements, which leaves the zone half changed if deletions
went before. -/
def replaceFailure (zone : String) (deleted : Nat) (e : SyncError) : SyncError :=
  if deleted = 0 then e
  else .partialFailure zone "delete batch" "replace batch" e.message

/-- Brings reverse names up to date, if there is anything to do.  A failure is handed back
as a value, because the history comes first. -/
def syncReverse (applier : Applier m) (zone : String) (changes : PtrChanges) :
    m (Except SyncError (Option PtrReport)) := do
  if changes.isEmpty then return .ok none
  let (result, _) ← (ReverseSync.sync applier.services applier.reverseZones zone changes).run []
  return result.map some

/-- The run itself. -/
def perform (applier : Applier m) (request : ApplyRequest) :
    ExceptT SyncError m ApplySummary := do
  let zone := request.zone
  let prepared ← applier.prepare request
  let batches := prepared.batches
  if batches.isEmpty then return ⟨zone, 0, 0, none⟩
  applier.sendBatch zone .delete batches.deleteChanges
  (applier.sendBatch zone .replace batches.replaceChanges).adapt
    (replaceFailure zone batches.deletes.length)
  let reversed ← liftM (applier.syncReverse zone prepared.ptrChanges)
  let record : HistoryRecord := {
    zone, added := batches.replaces, removed := prepared.reconciliation.prior
    actor := request.actor, timestamp := ← liftM applier.services.now }
  ExceptT.mk (applier.services.persist record)
  let autoPtr ← ExceptT.mk (pure reversed)
  return ⟨zone, batches.deletes.length, batches.replaces.length, autoPtr⟩

/-- The word under which a result is counted. -/
def outcomeLabel : Except SyncError ApplySummary → String
  | .ok summary => if summary.isNoop then "noop" else "ok"
  | .error e => e.kind

/-- Applies desired records to a zone, and counts the run. -/
def apply (applier : Applier m) (request : ApplyRequest) :
    m (Except SyncError ApplySummary) := do
  let start ← applier.services.clock
  let result ← (applier.perform request).run
  let finish ← applier.services.clock
  applier.services.count (.applies (outcomeLabel result)) 1
  applier.services.observe (outcomeLabel result) (finish - start)
  if let .error e := result then
    applier.services.count (.errors e.kind) 1
  return result

/-- What applying would send.  Nothing is changed. -/
def plan (applier : Applier m) (request : ApplyRequest) : m (Except SyncError ApplyPlan) := do
  let prepared ← (applier.prepare request).run
  return prepared.map fun prepared =>
    { zone := request.zone, serial := prepared.serial, batches := prepared.batches
      ptrAdditions := prepared.ptrChanges.additions.length
      ptrRemovals := prepared.ptrChanges.removals.length }

end Applier
end ZoneKeeper
