/-
Changelogs: history records told value by value.

A history record has one entry for every key on either of its sides.  A key on the new
side alone was added, one on the old side alone deleted, one on both edited.  Inside an
entry the values of the two sides are matched by content: a content that stays with
another flag is one change of status, never a deletion with an addition.
-/
import ZoneKeeper.History
import ZoneKeeper.Batch

namespace ZoneKeeper

open Text

/-! ### Values -/

/-- What happened to one value of a record set. -/
inductive ValueChange
  | addition (new : RecordValue)
  | deletion (old : RecordValue)
  | status (old new : RecordValue)
  | unchanged (value : RecordValue)
deriving DecidableEq, Repr

namespace ValueChange

/-- The value before. -/
def old? : ValueChange → Option RecordValue
  | addition _ => none
  | deletion old => some old
  | status old _ => some old
  | unchanged value => some value

/-- The value after. -/
def new? : ValueChange → Option RecordValue
  | addition new => some new
  | deletion _ => none
  | status _ new => some new
  | unchanged value => some value

/-- The word for what happened. -/
def kind : ValueChange → String
  | addition _ => "addition"
  | deletion _ => "deletion"
  | status .. => "status"
  | unchanged _ => "unchanged"

/-- The word that starts a line of the changelog. -/
def marker : ValueChange → String
  | addition _ => "added"
  | deletion _ => "deleted"
  | status .. => "status"
  | unchanged _ => "unchanged"

/-- A value as people read it; a hyphen stands for none. -/
def describe : Option RecordValue → String
  | some value => if value.disabled then value.content ++ " (disabled)" else value.content
  | none => "-"

/-- The line of the changelog. -/
def line (change : ValueChange) : String :=
  let marker := padEnd 9 ' ' change.marker
  s!"{marker} {describe change.old?} -> {describe change.new?}"

instance : ToJson ValueChange :=
  ⟨fun c => .ofFields [("old", toJson c.old?), ("new", toJson c.new?), ("kind", toJson c.kind)]⟩

end ValueChange

/-- What happened to an old value: the first new value with its content decides. -/
def RecordValue.fate? (new : List RecordValue) (old : RecordValue) : Option ValueChange :=
  match new.find? fun v => v.content = old.content with
  | some v => if v.disabled = old.disabled then none else some (.status old v)
  | none => some (.deletion old)

/-- What happened to every value of a record set: first the old values that changed or went,
then the new ones that came, then the ones that stayed. -/
def valueChanges (old new : List RecordValue) : List ValueChange :=
  let fates := old.filterMap (RecordValue.fate? new)
  let came := (new.filter fun v => !(old.any fun o => o.content = v.content)).map .addition
  let listed (v : RecordValue) : Bool :=
    (fates ++ came).any fun change => change.new?.any fun n => n.content = v.content
  let stayed := RecordValue.firstOfEach (new.filter fun v => !listed v)
  fates ++ came ++ stayed.map .unchanged

/-! ### Record sets -/

/-- An attribute of a record set that changed. -/
inductive ChangedField
  | name
  | type
  | ttl
deriving DecidableEq, Repr

/-- The word for an attribute. -/
def ChangedField.label : ChangedField → String
  | name => "name"
  | type => "type"
  | ttl => "ttl"

/-- The entry of a changelog for one key. -/
inductive ChangelogEntry
  | added (new : RRset)
  | deleted (old : RRset)
  | edited (old new : RRset)
deriving DecidableEq, Repr

namespace ChangelogEntry

/-- The record set before. -/
def old? : ChangelogEntry → Option RRset
  | added _ => none
  | deleted old => some old
  | edited old _ => some old

/-- The record set after. -/
def new? : ChangelogEntry → Option RRset
  | added new => some new
  | deleted _ => none
  | edited _ new => some new

/-- The key that the entry is about. -/
def key : ChangelogEntry → RRsetKey
  | added new => new.key
  | deleted old => old.key
  | edited _ new => new.key

/-- The sign for what happened. -/
def symbol : ChangelogEntry → String
  | added _ => "+"
  | deleted _ => "-"
  | edited .. => "*"

/-- The attributes that changed.  A record set that comes or goes changes in all of them. -/
def changedFields : ChangelogEntry → List ChangedField
  | edited old new => if old.ttl = new.ttl then [] else [.ttl]
  | _ => [.name, .type, .ttl]

/-- What happened to the values. -/
def values (entry : ChangelogEntry) : List ValueChange :=
  let records (rrset : Option RRset) : List RecordValue := (rrset.map RRset.records).getD []
  valueChanges (records entry.old?) (records entry.new?)

/-- The entry for a key with what is on either side, if anything is. -/
def ofSides? : Option RRset → Option RRset → Option ChangelogEntry
  | none, none => none
  | none, some new => some (.added new)
  | some old, none => some (.deleted old)
  | some old, some new => some (.edited old new)

/-- The lines of the entry: one for the key and one, further in, for each value. -/
def lines (entry : ChangelogEntry) : List String :=
  s!"  {entry.symbol} {entry.key.name} {entry.key.type}" ::
    entry.values.map fun change => "      " ++ change.line

instance : ToJson ChangelogEntry :=
  ⟨fun e => .ofFields [("del_rrset", toJson e.old?), ("add_rrset", toJson e.new?),
    ("change_type", toJson e.symbol),
    ("changed_fields", toJson (e.changedFields.map ChangedField.label)),
    ("value_changes", toJson e.values)]⟩

end ChangelogEntry

/-! ### History records -/

namespace HistoryRecord

/-- The keys on either side, each once and in order. -/
def keys (record : HistoryRecord) : List RRsetKey :=
  ((record.removed ++ record.added).map RRset.key).eraseDups.mergeSort RRsetKey.atMost

/-- The changelog: one entry for every key, in order of the keys.  Where a side repeats a
key, its first record set counts. -/
def changelog (record : HistoryRecord) : List ChangelogEntry :=
  record.keys.filterMap fun key =>
    ChangelogEntry.ofSides? (record.removed.find? fun r => r.key = key)
      (record.added.find? fun r => r.key = key)

/-- The entries of the changelog for one owner name and type.  The name may be written in
any case and with or without a trailing dot. -/
def changelogOf (record : HistoryRecord) (name : String) (type : RRType) :
    List ChangelogEntry :=
  record.changelog.filter fun entry =>
    entry.key.type = type ∧
      sameLetters (DomainName.relative entry.key.name) (DomainName.relative name)

/-- The lines that show a record, restricted to one owner name and type if `only` names
them.  A record without entries has no lines. -/
def lines (record : HistoryRecord) (only : Option (String × RRType)) : List String :=
  let entries :=
    match only with
    | some (name, type) => record.changelogOf name type
    | none => record.changelog
  if entries.isEmpty then []
  else s!"{record.timestamp.display} {record.zone} {record.actor}" ::
    entries.flatMap ChangelogEntry.lines

end HistoryRecord
end ZoneKeeper
