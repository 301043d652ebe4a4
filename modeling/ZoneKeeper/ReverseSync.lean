/-
Keeping reverse names in step with the addresses of a zone.

For every address that a run wrote, the reverse name is pointed at the owner of the
address: in the narrowest reverse zone that exists, or in a new one at the narrowest
boundary.  For every address that went away the reverse name is removed, unless the same
run points it somewhere; where no reverse zone exists there is nothing to remove.

Where a reverse zone was found is remembered under the narrowest zone that was asked
about, since names with the same narrowest zone share all the others.  What was created
or patched before a failure stays.
-/
import ZoneKeeper.Batch
import ZoneKeeper.Services

namespace ZoneKeeper

/-- How reverse zones are created. -/
structure ReverseZoneTemplate where
  /-- The kind of zone that the nameserver is asked for. -/
  kind : String
  /-- The nameservers that the zone is copied from, for kinds that copy. -/
  masters : List String
deriving DecidableEq, Repr

/-- A zone of which this nameserver is the master. -/
def ReverseZoneTemplate.default : ReverseZoneTemplate := ⟨"Master", []⟩

/-! ### What changed -/

/-- An address whose reverse name is to be written or removed. -/
structure PtrTarget where
  /-- The owner of the address. -/
  forwardName : String
  /-- The address as the record has it. -/
  address : String
  /-- The time to live of the record set. -/
  ttl : UInt32
deriving DecidableEq, Repr

/-- The addresses that came and went in one run. -/
structure PtrChanges where
  additions : List PtrTarget
  removals : List PtrTarget
deriving DecidableEq, Repr

/-- The target of a value of a record set. -/
def RRset.ptrTarget (rrset : RRset) (value : RecordValue) : PtrTarget :=
  ⟨rrset.name, value.content, rrset.ttl⟩

namespace PtrChanges

/-- Nothing came and nothing went. -/
def isEmpty (changes : PtrChanges) : Bool :=
  changes.additions.isEmpty && changes.removals.isEmpty

/-- The values of a prior record set whose contents are not written again under its key. -/
def goneValues (written : List RRset) (prior : RRset) : List RecordValue :=
  match written.find? fun w => w.key = prior.key with
  | some replacement => prior.records.filter fun value =>
      !(replacement.records.any fun r => r.content = value.content)
  | none => prior.records

/-- The addresses that came and went when `written` took the place of `prior`.  Every
address that is written counts as come. -/
def ofApply (written prior : List RRset) : PtrChanges :=
  { additions := (written.filter (·.type.isAddress)).flatMap fun rrset =>
      rrset.records.map rrset.ptrTarget
    removals := (prior.filter (·.type.isAddress)).flatMap fun rrset =>
      (goneValues written rrset).map rrset.ptrTarget }

end PtrChanges

/-! ### One pass -/

/-- A change to one reverse zone. -/
structure PtrOperation where
  zone : String
  change : Change
deriving DecidableEq, Repr

/-- The reverse name that an operation is about. -/
def PtrOperation.name (operation : PtrOperation) : String :=
  operation.change.key.name

/-- What a pass has decided so far. -/
structure PtrProgress where
  /-- The changes to be made, in the order they were found. -/
  operations : List PtrOperation
  /-- The reverse zones that were created. -/
  created : List String
deriving DecidableEq, Repr

namespace PtrProgress

/-- The reverse name is written in this pass. -/
def writes (progress : PtrProgress) (name : String) : Bool :=
  progress.operations.any fun op => op.change.type = .replace && op.name = name

/-- There is already an operation on the reverse name in the zone. -/
def touches (progress : PtrProgress) (zone name : String) : Bool :=
  progress.operations.any fun op => op.zone = zone && op.name = name

/-- The number of operations that change in a way. -/
def countOf (progress : PtrProgress) (type : ChangeType) : Nat :=
  progress.operations.countP fun op => op.change.type = type

/-- The changes to each reverse zone: zones in order of their names, and in each zone the
reverse names in order. -/
def batches (progress : PtrProgress) : List (String × List Change) :=
  let zones := (progress.operations.map PtrOperation.zone).eraseDups.mergeSort
    fun a b => decide (a ≤ b)
  zones.map fun zone =>
    let own := progress.operations.filter fun op => op.zone = zone
    (zone, (own.mergeSort fun a b => decide (a.name ≤ b.name)).map PtrOperation.change)

end PtrProgress

/-- What one pass did. -/
structure PtrReport where
  zonesCreated : List String
  added : Nat
  deleted : Nat
deriving DecidableEq, Repr

instance : ToJson PtrReport :=
  ⟨fun r => .ofFields [("zones_created", toJson r.zonesCreated), ("ptr_added", toJson r.added),
    ("ptr_deleted", toJson r.deleted)]⟩

/-- For each narrowest zone that was asked about, the zone that was found, if any. -/
abbrev Locations := List (String × Option String)

/-- A pass that fails with `ε` and remembers where reverse zones are in any case. -/
abbrev Locating (m : Type → Type) (ε : Type) := ExceptT ε (StateT Locations m)

namespace ReverseSync

variable {m : Type → Type} [Monad m]

/-- Calls a service. -/
def call {ε α : Type} (action : m (Except ε α)) : Locating m ε α :=
  ExceptT.mk (liftM action)

/-- Calls a service whose failure is told in words. -/
def callIn {α : Type} (context : String) (action : m (Except ApiError α)) :
    Locating m String α :=
  (call action).adapt fun e => s!"{context}: {e.message}"

/-- A result that needs no service. -/
def ofResult {ε α : Type} (result : Except ε α) : Locating m ε α :=
  ExceptT.mk (pure result)

/-- Remembers where a narrowest zone led. -/
def remember {ε : Type} (narrowest : String) (found : Option String) : Locating m ε Unit :=
  modify ((narrowest, found) :: ·)

/-- The first of the zones that exists. -/
def firstExisting (api : ControlApi m) : List String → Locating m ApiError (Option String)
  | [] => return none
  | zone :: zones => do
    if ← call (api.zoneExists zone) then return some zone
    firstExisting api zones

/-- The narrowest reverse zone that exists for a reverse name, if any does. -/
def findReverseZone (api : ControlApi m) (name : String) :
    Locating m ApiError (Option String) := do
  match ReverseName.zoneCandidates name with
  | [] => return none
  | narrowest :: wider =>
    match (← get).lookup narrowest with
    | some found => return found
    | none =>
      let found ← firstExisting api (narrowest :: wider)
      remember narrowest found
      return found

/-- The reverse zone for a reverse name inside a pass. -/
def locate (api : ControlApi m) (name : String) : Locating m String (Option String) :=
  (findReverseZone api name).adapt fun e => s!"locating reverse zone for {name}: {e.message}"

/-- Creates the narrowest reverse zone for a reverse name. -/
def createNarrowest (services : Services m) (template : ReverseZoneTemplate) (name : String) :
    Locating m String String := do
  match ReverseName.zoneCandidates name with
  | [] => throw s!"no reverse zone boundary for {name}"
  | zone :: _ =>
    callIn s!"creating reverse zone {zone}" <|
      services.createZone zone template.kind template.masters
    liftM (services.count .reverseZonesCreated 1)
    remember zone (some zone)
    return zone

/-- The reverse name of a target. -/
def reverseName (target : PtrTarget) : Except String String :=
  match ReverseName.ofContent? target.address with
  | some name => .ok name
  | none => .error s!"'{target.address}' of {target.forwardName} is not an IP address"

/-- The record set that points a reverse name at the owner of its address. -/
def ptrRecord (name : String) (target : PtrTarget) : RRset :=
  { name, type := .named .ptr, ttl := target.ttl,
    records := [⟨target.forwardName, false⟩], comments := [] }

/-- Points the reverse name of a target at its owner.  The first target with a reverse name
keeps it. -/
def add (services : Services m) (template : ReverseZoneTemplate) (progress : PtrProgress)
    (target : PtrTarget) : Locating m String PtrProgress := do
  let name ← ofResult (reverseName target)
  if progress.writes name then return progress
  let operation (zone : String) : PtrOperation := ⟨zone, .replace (ptrRecord name target)⟩
  match ← locate services.toControlApi name with
  | some zone => return { progress with operations := progress.operations ++ [operation zone] }
  | none =>
    let zone ← createNarrowest services template name
    return {
      operations := progress.operations ++ [operation zone]
      created := progress.created ++ [zone] }

/-- Removes the reverse name of a target, unless this pass writes it. -/
def remove (services : Services m) (progress : PtrProgress) (target : PtrTarget) :
    Locating m String PtrProgress := do
  let name ← ofResult (reverseName target)
  if progress.writes name then return progress
  match ← locate services.toControlApi name with
  | none => return progress
  | some zone =>
    if progress.touches zone name then return progress
    return { progress with
      operations := progress.operations ++ [⟨zone, .delete ⟨name, .named .ptr⟩⟩] }

/-- Sends the changes to every reverse zone in turn. -/
def send (services : Services m) : List (String × List Change) → Locating m String Unit
  | [] => return
  | (zone, changes) :: rest => do
    callIn s!"reverse zone {zone}" (services.patchRRsets zone changes)
    send services rest

/-- One pass: first the additions, then the removals, then the patches. -/
def pass (services : Services m) (template : ReverseZoneTemplate) (changes : PtrChanges) :
    Locating m String PtrReport := do
  let progress ← changes.additions.foldlM (add services template) ⟨[], []⟩
  let progress ← changes.removals.foldlM (remove services) progress
  send services progress.batches
  let report : PtrReport :=
    ⟨progress.created, progress.countOf .replace, progress.countOf .delete⟩
  liftM (services.count (.ptrOperations "add") report.added)
  liftM (services.count (.ptrOperations "delete") report.deleted)
  return report

/-- One pass on behalf of a zone. -/
def sync (services : Services m) (template : ReverseZoneTemplate) (zone : String)
    (changes : PtrChanges) : Locating m SyncError PtrReport :=
  (pass services template changes).adapt fun message => .autoPtr zone message

end ReverseSync
end ZoneKeeper
