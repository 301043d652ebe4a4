/-
Rows: desired records as operators write them.

A row names its record by a label inside the zone and leaves out what has a default.  The
list of rows handed over is the complete desired state of the zone.
-/
import ZoneKeeper.RRType
import ZoneKeeper.Error

namespace ZoneKeeper

open Text

/-- Whether a desired record is served. -/
inductive RecordStatus
  | active
  | disabled
deriving DecidableEq, Repr

namespace RecordStatus

/-- The word for a status. -/
def label : RecordStatus → String
  | active => "Active"
  | disabled => "Disabled"

/-- The status that a word means, in any case and between blanks. -/
def ofString? (s : String) : Option RecordStatus :=
  let word := trim s
  if sameLetters word "active" then some active
  else if sameLetters word "disabled" then some disabled
  else none

instance : ToJson RecordStatus := ⟨fun status => toJson status.label⟩
instance : OfJson RecordStatus := ⟨fun j => j.text?.bind ofString?⟩
instance : OfYaml RecordStatus := ⟨fun node => node.text?.bind ofString?⟩

end RecordStatus

/-- A desired record as an operator writes it. -/
structure Row where
  name : String
  type : RRType
  data : String
  ttl : Option UInt32
  status : RecordStatus
  comment : Option String
deriving DecidableEq, Repr

namespace Row

/-- An active row without a time to live or a comment. -/
def plain (name : String) (type : RRType) (data : String) : Row :=
  { name, type, data, ttl := none, status := .active, comment := none }

instance : ToJson Row :=
  ⟨fun row => .ofFields [("record_name", toJson row.name), ("record_type", toJson row.type),
    ("record_data", toJson row.data), ("record_ttl", toJson row.ttl),
    ("record_status", toJson row.status), ("comment", toJson row.comment)]⟩

/-- The names of a row's fields. -/
def fieldNames : List String :=
  ["record_name", "record_type", "record_data", "record_ttl", "record_status", "comment"]

instance : OfJson Row :=
  ⟨fun j => do
    let fields ← j.fields? fieldNames
    return {
      name := ← fields.withDefault? "record_name" ""
      type := ← fields.required? "record_type"
      data := ← fields.withDefault? "record_data" ""
      ttl := ← fields.withDefault? "record_ttl" none
      status := ← fields.withDefault? "record_status" .active
      comment := ← fields.withDefault? "comment" none }⟩

instance : OfYaml Row :=
  ⟨fun node => do
    let fields ← node.fields? fieldNames
    return {
      name := ← fields.withDefault? "record_name" ""
      type := ← fields.required? "record_type"
      data := ← fields.withDefault? "record_data" ""
      ttl := ← fields.withDefault? "record_ttl" none
      status := ← fields.withDefault? "record_status" .active
      comment := ← fields.withDefault? "comment" none }⟩

end Row

/-! ### The words of an operator, or why they are refused -/

/-- The type that an operator's text names, or the failure that quotes the text. -/
def RRType.ofString (s : String) : Except SyncError RRType :=
  match RRType.ofString? s with
  | some type => .ok type
  | none => .error (.invalidRecord "" s!"unsupported record type '{s}'")

/-- The type that a nameserver's text names, or the failure that quotes the text. -/
def RRType.ofReport (s : String) : Except SyncError RRType :=
  match RRType.ofReport? s with
  | some type => .ok type
  | none => .error (.invalidRecord "" s!"unsupported record type '{s}'")

/-- The status that an operator's text names, or the failure that quotes the text. -/
def RecordStatus.ofString (s : String) : Except SyncError RecordStatus :=
  match RecordStatus.ofString? s with
  | some status => .ok status
  | none =>
    .error (.invalidRecord "" s!"unsupported record status '{s}', expected Active or Disabled")

end ZoneKeeper
