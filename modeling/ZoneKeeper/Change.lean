/-
Changes to the record sets of a zone, as the nameserver takes them.

A change either replaces a whole record set or deletes one by its key.  Both go over the
wire as an object that names the record set and says which it is; a deletion sends an
empty list of records and nothing else of a body, whatever record set it was made from.
-/
import ZoneKeeper.RRset

namespace ZoneKeeper

/-- The two ways to change a record set. -/
inductive ChangeType
  | replace
  | delete
deriving DecidableEq, Repr

namespace ChangeType

/-- The word for the way on the wire. -/
def label : ChangeType → String
  | replace => "REPLACE"
  | delete => "DELETE"

/-- The way that a word on the wire means. -/
def ofLabel? : String → Option ChangeType
  | "REPLACE" => some replace
  | "DELETE" => some delete
  | _ => none

/-- Replacements come before deletions where nothing else decides. -/
def atMost : ChangeType → ChangeType → Bool
  | delete, replace => false
  | _, _ => true

instance : ToJson ChangeType := ⟨fun way => toJson way.label⟩
instance : OfJson ChangeType := ⟨fun j => j.text?.bind ofLabel?⟩

end ChangeType

/-- A change to one record set. -/
structure Change where
  type : ChangeType
  /-- What the record set becomes.  Of a deletion only the key counts. -/
  rrset : RRset
deriving DecidableEq, Repr

namespace Change

/-- The change after which the record set is this one. -/
def replace (rrset : RRset) : Change :=
  ⟨.replace, rrset⟩

/-- The change after which there is no record set with this key. -/
def delete (key : RRsetKey) : Change :=
  ⟨.delete, .bare key⟩

/-- The record set that is changed. -/
def key (change : Change) : RRsetKey :=
  change.rrset.key

instance : ToJson Change :=
  ⟨fun change =>
    let rrset := change.rrset
    let head := [("name", toJson rrset.name), ("type", toJson rrset.type),
      ("changetype", toJson change.type)]
    .ofFields <| head ++ match change.type with
      | .replace => [("ttl", toJson rrset.ttl), ("records", toJson rrset.records),
          ("comments", toJson rrset.comments)]
      | .delete => [("records", .array [])]⟩

/-- The body of a request that makes changes. -/
def patchBody (changes : List Change) : Json :=
  .ofFields [("rrsets", toJson changes)]

end Change
end ZoneKeeper
