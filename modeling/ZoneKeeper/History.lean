/-
The audit history.

Every run that changed a zone leaves one record: the record sets it wrote, and what the
zone held before under the keys that it wrote or deleted.
-/
import ZoneKeeper.RRset
import ZoneKeeper.Timestamp

namespace ZoneKeeper

/-- What one run changed in a zone. -/
structure HistoryRecord where
  zone : String
  /-- The record sets that were written. -/
  added : List RRset
  /-- What was there before under the keys that were written or deleted. -/
  removed : List RRset
  actor : String
  timestamp : Timestamp
deriving DecidableEq, Repr

namespace HistoryRecord

instance : ToJson HistoryRecord :=
  ⟨fun r => .ofFields [("zone", toJson r.zone), ("add_rrsets", toJson r.added),
    ("del_rrsets", toJson r.removed), ("actor", toJson r.actor),
    ("timestamp", toJson r.timestamp)]⟩

instance : OfJson HistoryRecord :=
  ⟨fun j => do
    let fields ← j.fields? ["zone", "add_rrsets", "del_rrsets", "actor", "timestamp"]
    return {
      zone := ← fields.required? "zone"
      added := ← fields.withDefault? "add_rrsets" []
      removed := ← fields.withDefault? "del_rrsets" []
      actor := ← fields.required? "actor"
      timestamp := ← fields.required? "timestamp" }⟩

end HistoryRecord
end ZoneKeeper
