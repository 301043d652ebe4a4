/-
Reconciliation: desired rows against the record sets that a zone has.

The unit of comparison is the record set.  A desired record set that differs from the one
in the zone is written again as a whole; one that is equal is left alone.  A record set
that nobody wants any longer is deleted if the policy lets its type be taken away.
-/
import ZoneKeeper.Batch
import ZoneKeeper.Row

namespace ZoneKeeper

open Text

/-! ### Desired rows -/

namespace Row

/-- The time to live of a row that gives none: one hour. -/
def defaultTtl : UInt32 := 3600

/-- The absolute owner name of a row's record. -/
def ownerName (zone : String) (policy : Policy) (row : Row) : String :=
  let resolved := DomainName.ofLabel zone row.name
  if policy.prettyIPv6Ptr ∧ row.type = .named .ptr then
    (ReverseName.ofIPv6Literal? (trim row.name)).getD resolved
  else resolved

/-- The content of a row's record.  An alias for the apex may leave its target out. -/
def content (zone : String) (row : Row) : String :=
  let data := trim row.data
  if row.type = .named .cname ∧ (data = "" ∨ data = DomainName.apexLabel) then
    DomainName.absolute zone
  else data

/-- The row as a flat row that writes its value. -/
def flatten (zone : String) (policy : Policy) (row : Row) : FlatRow :=
  { name := row.ownerName zone policy
    type := row.type
    changeType := .replace
    ttl := row.ttl.getD defaultTtl
    content := row.content zone
    disabled := row.status = .disabled
    comment := row.comment }

end Row

/-- What is wrong with a content of this type, if anything. -/
def RRType.contentFault? (type : RRType) (content : String) : Option String :=
  match type with
  | .named .a =>
    if (IPv4.ofString? content).isSome then none else some s!"'{content}' is not an IPv4 address"
  | .named .aaaa =>
    if (IPv6.ofString? content).isSome then none else some s!"'{content}' is not an IPv6 address"
  | _ => if content = "" then some s!"{type} record has no data" else none

/-- The flat row, unless its content cannot be used. -/
def FlatRow.check (row : FlatRow) : Except SyncError FlatRow :=
  match row.type.contentFault? row.content with
  | some fault => .error (.invalidRecord row.name fault)
  | none => .ok row

/-- The flat rows that write the desired records.  Rows for the start of authority are
passed over; the first row that cannot be used is the failure. -/
def desiredRows (zone : String) (policy : Policy) (rows : List Row) :
    Except SyncError (List FlatRow) :=
  (rows.filter fun row => row.type ≠ .named .soa).mapM fun row =>
    (row.flatten zone policy).check

/-! ### Comparison -/

/-- What a zone needs to become what is desired. -/
structure Reconciliation where
  /-- One deletion row for every value of every record set that goes away. -/
  deleted : List FlatRow
  /-- Every desired row of every record set that is written. -/
  added : List FlatRow
  /-- What the zone holds under the keys that are deleted or written. -/
  prior : List RRset
deriving DecidableEq, Repr

namespace Reconciliation

/-- The zone is as desired. -/
def isEmpty (r : Reconciliation) : Bool :=
  r.deleted.isEmpty && r.added.isEmpty

/-- The changes that bring the zone to what is desired. -/
def batches (policy : Policy) (r : Reconciliation) : Batches :=
  .ofRows policy (r.deleted ++ r.added)

end Reconciliation

/-- The deletion rows of a record set: one for each value, or one when it has none. -/
def RRset.deletionRows (rrset : RRset) : List FlatRow :=
  if rrset.records.isEmpty then [.deletion rrset.key]
  else rrset.records.map fun value =>
    { FlatRow.deletion rrset.key with
      content := value.content, disabled := value.disabled, ttl := rrset.ttl }

/-- The record set with a key; of several, the last. -/
def currentWithKey? (current : List RRset) (key : RRsetKey) : Option RRset :=
  current.findRev? fun rrset => rrset.key = key

/-- The desired record set is not what the zone holds. -/
def needsWrite (current : List RRset) (wanted : RRset) : Bool :=
  match currentWithKey? current wanted.key with
  | some existing => !existing.sameContent wanted
  | none => true

/-- What a zone needs to become what is desired, or the first row that cannot be used. -/
def reconcile (zone : String) (policy : Policy) (rows : List Row) (current : List RRset) :
    Except SyncError Reconciliation := do
  let desired ← desiredRows zone policy rows
  let wanted := (Batches.ofRows policy desired).replaces
  let removed := current.filter fun rrset =>
    !(wanted.any fun w => w.key = rrset.key) && policy.mayDelete rrset.type
  let changed := wanted.filter (needsWrite current)
  return {
    deleted := removed.flatMap RRset.deletionRows
    added := desired.filter fun row => changed.any fun w => w.key = row.key
    prior := removed ++ changed.filterMap fun w => currentWithKey? current w.key }

end ZoneKeeper
