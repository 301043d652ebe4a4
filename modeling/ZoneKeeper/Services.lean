/-
Services: what a run on a zone needs from outside.

A run fetches a zone and patches it, looks for zones and creates them, keeps the audit
history, reads the clocks and counts what it does.  All of it goes through this record,
so the same run works on a real nameserver and on one in memory, and what a failing
service leaves behind is left behind: failures are values, not interruptions.
-/
import ZoneKeeper.Change
import ZoneKeeper.Error
import ZoneKeeper.History
import ZoneKeeper.Metrics

namespace ZoneKeeper

/-- A zone as its nameserver serves it. -/
structure Snapshot where
  name : String
  serial : UInt32
  rrsets : List RRset
deriving DecidableEq, Repr

namespace Snapshot

instance : ToJson Snapshot :=
  ⟨fun s => .ofFields [("name", toJson s.name), ("serial", toJson s.serial),
    ("rrsets", toJson s.rrsets)]⟩

instance : OfJson Snapshot :=
  ⟨fun j => do
    let fields ← j.fields? ["name", "serial", "rrsets"]
    return {
      name := ← fields.withDefault? "name" ""
      serial := ← fields.withDefault? "serial" 0
      rrsets := ← fields.withDefault? "rrsets" [] }⟩

end Snapshot

/-- The nameserver's control interface. -/
structure ControlApi (m : Type → Type) where
  /-- The serial and all record sets of a zone. -/
  fetchZone : (zone : String) → m (Except ApiError Snapshot)
  /-- Makes changes to a zone, all of them or none. -/
  patchRRsets : (zone : String) → List Change → m (Except ApiError Unit)
  /-- There is a zone of exactly this name. -/
  zoneExists : (name : String) → m (Except ApiError Bool)
  /-- Creates an empty zone. -/
  createZone : (name kind : String) → (masters : List String) → m (Except ApiError Unit)

/-- What a run on a zone needs from outside. -/
structure Services (m : Type → Type) extends ControlApi m where
  /-- Appends a record to the audit history. -/
  persist : HistoryRecord → m (Except SyncError Unit)
  /-- The time of day. -/
  now : m Timestamp
  /-- A clock for durations, in nanoseconds. -/
  clock : m Nat
  /-- Adds to a counter. -/
  count : Series → Nat → m Unit
  /-- Keeps the duration of a run, in nanoseconds. -/
  observe : (outcome : String) → Nat → m Unit

end ZoneKeeper
