/-
Record sets: the records that share one owner name and type.

The key of a record set, its name and type, identifies it in its zone.  Whether a record
set has to be written again is decided by its content alone: the time to live, the values
whatever their order, and the text of the first comment.
-/
import ZoneKeeper.RRType

namespace ZoneKeeper

/-- One value of a record set. -/
structure RecordValue where
  content : String
  disabled : Bool
deriving DecidableEq, Repr

/-- A remark attached to a record set, and who made it. -/
structure Comment where
  content : String
  account : String
deriving DecidableEq, Repr

/-- The identity of a record set in its zone. -/
structure RRsetKey where
  name : String
  type : RRType
deriving DecidableEq, Repr

/-- The records that share one owner name and type. -/
structure RRset where
  name : String
  type : RRType
  ttl : UInt32
  records : List RecordValue
  comments : List Comment
deriving DecidableEq, Repr

namespace RecordValue

/-- Values are ordered by content, and enabled before disabled. -/
def atMost (v w : RecordValue) : Bool :=
  v.content < w.content || (v.content == w.content && v.disabled ≤ w.disabled)

instance : ToJson RecordValue :=
  ⟨fun v => .ofFields [("content", toJson v.content), ("disabled", toJson v.disabled)]⟩

instance : OfJson RecordValue :=
  ⟨fun j => do
    let fields ← j.fields? ["content", "disabled"]
    return {
      content := ← fields.required? "content"
      disabled := ← fields.withDefault? "disabled" false }⟩

end RecordValue

namespace Comment

instance : ToJson Comment :=
  ⟨fun c => .ofFields [("content", toJson c.content), ("account", toJson c.account)]⟩

instance : OfJson Comment :=
  ⟨fun j => do
    let fields ← j.fields? ["content", "account"]
    return {
      content := ← fields.required? "content"
      account := ← fields.withDefault? "account" "" }⟩

end Comment

namespace RRsetKey

/-- Keys are ordered by name, then by type. -/
def atMost (k l : RRsetKey) : Bool :=
  k.name < l.name || (k.name == l.name && k.type.atMost l.type)

end RRsetKey

namespace RRset

/-- The identity in the zone. -/
def key (rrset : RRset) : RRsetKey :=
  ⟨rrset.name, rrset.type⟩

/-- The record set with a key and nothing in it. -/
def bare (key : RRsetKey) : RRset :=
  ⟨key.name, key.type, 0, [], []⟩

/-- The text of the first comment. -/
def remark (rrset : RRset) : Option String :=
  rrset.comments.head?.map Comment.content

/-- The values in their order. -/
def sortedRecords (rrset : RRset) : List RecordValue :=
  rrset.records.mergeSort RecordValue.atMost

/-- Two record sets with the same time to live, the same values in whatever order, and the
same first comment. -/
def sameContent (r s : RRset) : Bool :=
  r.ttl == s.ttl && r.sortedRecords == s.sortedRecords && r.remark == s.remark

instance : ToJson RRset :=
  ⟨fun r => .ofFields [("name", toJson r.name), ("type", toJson r.type), ("ttl", toJson r.ttl),
    ("records", toJson r.records), ("comments", toJson r.comments)]⟩

/-- The type of a stored or reported record set may be any well-formed mnemonic. -/
instance : OfJson RRset :=
  ⟨fun j => do
    let fields ← j.fields? ["name", "type", "ttl", "records", "comments"]
    let type : String ← fields.required? "type"
    return {
      name := ← fields.required? "name"
      type := ← RRType.ofReport? type
      ttl := ← fields.withDefault? "ttl" 0
      records := ← fields.withDefault? "records" []
      comments := ← fields.withDefault? "comments" [] }⟩

end RRset
end ZoneKeeper
