/-
Journals: the audit history as a file of lines.

Each record is one line of JSON, and records are only ever appended.  Reading a journal
skips the lines that are no records, so one damaged line costs nothing but itself.
-/
import ZoneKeeper.History
import ZoneKeeper.Error
import ZoneKeeper.DomainName
import ZoneKeeper.Json.Parser
import ZoneKeeper.Json.Printer

namespace ZoneKeeper.Journal

open Text

/-- The line of a record, with its end. -/
def line (record : HistoryRecord) : String :=
  (toJson record).compact ++ "\n"

/-- A line without the carriage return at its end. -/
def dropReturn (cs : List Char) : List Char :=
  if cs.getLast? = some '\r' then cs.dropLast else cs

/-- The lines of a text.  A line feed ends a line, alone or after a carriage return; the
last line may lack it. -/
def lines (contents : String) : List String :=
  let pieces := cutAt '\n' contents.toList
  let ended := pieces.dropLast.map dropReturn
  let last := pieces.getLast?.filter fun piece => !piece.isEmpty
  (ended ++ last.toList).map String.ofList

/-- The record on a line, if the line is one. -/
def record? (line : String) : Option HistoryRecord :=
  if isBlankText line then none else (Json.parse? line).bind ofJson?

/-- The record is about the zone, in whatever spelling of trailing dots. -/
def isAbout (zone : String) (record : HistoryRecord) : Bool :=
  DomainName.relative record.zone == DomainName.relative zone

/-- The records of a journal, those of one zone if `zone` names one. -/
def records (contents : String) (zone : Option String) : List HistoryRecord :=
  ((lines contents).filterMap record?).filter fun record =>
    match zone with
    | some zone => isAbout zone record
    | none => true

/-! ### Files -/

/-- What a path leads to. -/
inductive Place
  /-- A file, or nothing yet where a file may be made. -/
  | file (contents : Option ByteArray)
  /-- A directory. -/
  | directory
  /-- Nothing, in a directory that does not exist. -/
  | nowhere

/-- The failure of a step on a journal's path. -/
def failure (step path : String) : SyncError :=
  SyncError.history s!"{step} {path}"

/-- The records at a path.  Where there is no file there are none; a file that is no text
cannot be read at all. -/
def load (path : String) (zone : Option String) : Place → Except SyncError (List HistoryRecord)
  | .file none | .nowhere => .ok []
  | .file (some bytes) =>
    match String.fromUTF8? bytes with
    | some contents => .ok (records contents zone)
    | none => .error (failure "reading" path)
  | .directory => .error (failure "reading" path)

/-- The path after one more record. -/
def persist (path : String) (record : HistoryRecord) : Place → Except SyncError Place
  | .file contents => .ok (.file (some (contents.getD .empty ++ (line record).toUTF8)))
  | .directory | .nowhere => .error (failure "opening" path)

end ZoneKeeper.Journal
