/-
Batches: the changes of one run, a record set at a time.

The flat rows of a run are one per record value.  They are put in order by name, type and
way of change, the order being stable, so the rows of one record set become neighbours
and stay in the order they were submitted.  Each run of neighbours makes one change.  In
a record set that is written

  * the time to live is that of its first row,
  * a content that ends in a domain name is made absolute,
  * a content that was there before is left out,
  * the first comment that is not empty becomes the only one.

Owner names written as IPv6 addresses are turned into reverse names before the ordering.
-/
import ZoneKeeper.Change
import ZoneKeeper.Policy
import ZoneKeeper.ReverseName

namespace ZoneKeeper

/-- One record value and the change it takes part in. -/
structure FlatRow where
  /-- The absolute owner name. -/
  name : String
  type : RRType
  changeType : ChangeType
  ttl : UInt32
  content : String
  disabled : Bool
  comment : Option String
deriving DecidableEq, Repr

/-- The content with the trailing dot that its type asks for. -/
def RRType.canonicalContent (type : RRType) (content : String) : String :=
  if type.endsInName ∧ content ≠ "" ∧ content.toList.getLast? ≠ some '.' then content ++ "."
  else content

namespace FlatRow

/-- The record set that the row belongs to. -/
def key (row : FlatRow) : RRsetKey :=
  ⟨row.name, row.type⟩

/-- A row that deletes a record set and holds no value. -/
def deletion (key : RRsetKey) : FlatRow :=
  { name := key.name, type := key.type, changeType := .delete, ttl := 0, content := "",
    disabled := false, comment := none }

/-- The owner name, with an IPv6 address turned into its reverse name where the policy
allows such names. -/
def ownerName (policy : Policy) (row : FlatRow) : String :=
  if policy.prettyIPv6Ptr ∧ row.type = .named .ptr then
    (ReverseName.ofIPv6Literal? row.name).getD row.name
  else row.name

/-- The row under its owner name. -/
def normalize (policy : Policy) (row : FlatRow) : FlatRow :=
  { row with name := row.ownerName policy }

/-- The order in which rows are grouped. -/
def atMost (r s : FlatRow) : Bool :=
  if r.key = s.key then r.changeType.atMost s.changeType else r.key.atMost s.key

/-- The rows take part in the same change. -/
def sameChange (r s : FlatRow) : Bool :=
  r.key = s.key && r.changeType = s.changeType

/-- The value that the row writes. -/
def value (row : FlatRow) : RecordValue :=
  ⟨row.type.canonicalContent row.content, row.disabled⟩

/-- The comment of the row, if it says anything. -/
def remark? (row : FlatRow) : Option String :=
  row.comment.filter (· ≠ "")

end FlatRow

/-- Of the values with one content, the first. -/
def RecordValue.firstOfEach : List RecordValue → List RecordValue
  | [] => []
  | v :: vs => v :: (firstOfEach vs).filter fun w => w.content ≠ v.content

/-- The record set that the rows of one replacement write, the first row given apart. -/
def RRset.ofRows (first : FlatRow) (others : List FlatRow) : RRset :=
  let rows := first :: others
  { name := first.name
    type := first.type
    ttl := first.ttl
    records := RecordValue.firstOfEach (rows.map FlatRow.value)
    comments := (rows.findSome? FlatRow.remark?).toList.map fun text => ⟨text, ""⟩ }

/-- The changes of one run.  The deletions are sent first. -/
structure Batches where
  deletes : List RRsetKey
  replaces : List RRset
deriving DecidableEq, Repr

namespace Batches

/-- There is nothing to send. -/
def isEmpty (batches : Batches) : Bool :=
  batches.deletes.isEmpty && batches.replaces.isEmpty

/-- The deletions as changes. -/
def deleteChanges (batches : Batches) : List Change :=
  batches.deletes.map .delete

/-- The replacements as changes. -/
def replaceChanges (batches : Batches) : List Change :=
  batches.replaces.map .replace

/-- The record set that a run of deletion rows deletes. -/
def deleteOfRun? : List FlatRow → Option RRsetKey
  | row :: _ => if row.changeType = .delete then some row.key else none
  | [] => none

/-- The record set that a run of replacement rows writes. -/
def replaceOfRun? : List FlatRow → Option RRset
  | row :: rows => if row.changeType = .replace then some (.ofRows row rows) else none
  | [] => none

/-- The rows of each change, the changes in order. -/
def runs (policy : Policy) (rows : List FlatRow) : List (List FlatRow) :=
  ((rows.map (FlatRow.normalize policy)).mergeSort FlatRow.atMost).splitBy FlatRow.sameChange

/-- The changes that flat rows make. -/
def ofRows (policy : Policy) (rows : List FlatRow) : Batches :=
  let runs := runs policy rows
  { deletes := runs.filterMap deleteOfRun?
    replaces := runs.filterMap replaceOfRun? }

end Batches
end ZoneKeeper
