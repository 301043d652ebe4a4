/-
Grouping what was grouped.

The changes of a run can be written out as rows again: one row for a deletion, and one for each
value of a record set that is written, with all that the record set says of itself.  Grouped once
more, these rows make the same changes.  Whatever grouping does to a row it has done to them: names
are final, contents are absolute where they have to be and there once, and a record set has one
time to live and at most one comment, which says something.

Grouping sorts the changes, so it does not matter in which order they are written out, nor how their
rows are mixed.  All that has to be kept is the order of the values in each record set.
-/
import ZoneKeeper.Proofs.Gathering
import ZoneKeeper.Proofs.OwnerName

namespace ZoneKeeper

/-! ### Changes as rows -/

/-- The row that writes one value of a record set. -/
def RRset.valueRow (rrset : RRset) (value : RecordValue) : FlatRow :=
  { name := rrset.name
    type := rrset.type
    changeType := .replace
    ttl := rrset.ttl
    content := value.content
    disabled := value.disabled
    comment := rrset.remark }

namespace Change

/-- The rows that make a change: one for a deletion, and one for each value that a replacement
writes. -/
def rows (change : Change) : List FlatRow :=
  match change.type with
  | .delete => [.deletion change.key]
  | .replace => change.rrset.records.map change.rrset.valueRow

variable {policy : Policy} {change : Change} {row : FlatRow} {type : ChangeType} {key : RRsetKey}

theorem key_of_mem_rows (h : row ∈ change.rows) :
    row.key = change.key ∧ row.changeType = change.type := by
  obtain ⟨type, rrset⟩ := change
  cases type with
  | replace =>
    obtain ⟨value, -, rfl⟩ := List.mem_map.mp h
    exact ⟨rfl, rfl⟩
  | delete =>
    obtain rfl := List.mem_singleton.mp h
    exact ⟨rfl, rfl⟩

/-- A row of a change whose name is final takes part in that change and in no other. -/
theorem changes_iff_of_mem_rows (hfinal : change.key.owned policy = change.key)
    (h : row ∈ change.rows) :
    row.Changes policy type key ↔ change.type = type ∧ change.key = key := by
  obtain ⟨hkey, htype⟩ := key_of_mem_rows h
  rw [FlatRow.changes_iff, FlatRow.key_normalize, hkey, hfinal, ← htype, and_comm]
  exact Iff.rfl

end Change

/-- What passes of the parts is what passes of those parts that do, if each passes as a whole or
not at all. -/
theorem filter_flatMap_of_iff {α β : Type} {f : α → List β} {p : β → Bool} {q : α → Bool}
    {xs : List α} (h : ∀ x ∈ xs, ∀ y ∈ f x, p y = q x) :
    (xs.flatMap f).filter p = (xs.filter q).flatMap f := by
  induction xs with
  | nil => rfl
  | cons x xs ih =>
    rw [List.flatMap_cons, List.filter_append, ih fun z hz => h z (List.mem_cons_of_mem x hz)]
    have hfirst := h x List.mem_cons_self
    by_cases hx : q x = true
    · rw [List.filter_cons_of_pos hx, List.flatMap_cons,
        List.filter_eq_self.mpr fun y hy => (hfirst y hy).trans hx]
    · rw [List.filter_cons_of_neg hx, List.filter_eq_nil_iff.mpr, List.nil_append]
      intro y hy
      rwa [hfirst y hy]

namespace Batches

/-- All changes, in the order in which they are sent. -/
def changes (batches : Batches) : List Change :=
  batches.deleteChanges ++ batches.replaceChanges

/-- The rows are those of the changes, in any order in which the rows of each change keep theirs. -/
structure Flattens (batches : Batches) (flat : List FlatRow) : Prop where
  perm : flat.Perm (batches.changes.flatMap Change.rows)
  ordered : ∀ change ∈ batches.changes, change.rows.Sublist flat

/-- The changes can be written out one after another in any order. -/
theorem flattens_of_perm {batches : Batches} {changes : List Change}
    (h : changes.Perm batches.changes) : batches.Flattens (changes.flatMap Change.rows) where
  perm := h.flatMap_right Change.rows
  ordered change hchange := by
    obtain ⟨front, back, rfl⟩ := List.append_of_mem (h.mem_iff.mpr hchange)
    rw [List.flatMap_append, List.flatMap_cons]
    exact (List.sublist_append_left _ _).trans (List.sublist_append_right _ _)

variable {policy : Policy} {rows flat : List FlatRow} {change : Change} {type : ChangeType}
  {key : RRsetKey} {w : RRset}

theorem mem_changes {batches : Batches} :
    change ∈ batches.changes ↔
      (∃ key ∈ batches.deletes, change = .delete key) ∨
        ∃ w ∈ batches.replaces, change = .replace w := by
  simp [changes, deleteChanges, replaceChanges, eq_comm]

/-! ### The changes that grouping makes -/

/-- The names of the changes are final. -/
theorem owned_key_of_mem_changes (h : change ∈ (ofRows policy rows).changes) :
    change.key.owned policy = change.key := by
  rcases mem_changes.mp h with ⟨key, hkey, rfl⟩ | ⟨w, hw, rfl⟩
  · exact owned_of_mem_deletes hkey
  · exact owned_key_of_replace hw

theorem rows_ne_nil (h : change ∈ (ofRows policy rows).changes) : change.rows ≠ [] := by
  rcases mem_changes.mp h with ⟨key, -, rfl⟩ | ⟨w, hw, rfl⟩
  · exact List.cons_ne_nil _ _
  · simpa [Change.rows, Change.replace] using records_ne_nil hw

/-- No key is deleted twice and none is written twice. -/
theorem nodup_changes (policy : Policy) (rows : List FlatRow) :
    ((ofRows policy rows).changes.map fun change => (change.type, change.key)).Nodup := by
  have hdeletes : (ofRows policy rows).deleteChanges.map (fun change => (change.type, change.key)) =
      (ofRows policy rows).deletes.map fun key => (ChangeType.delete, key) := by
    rw [deleteChanges, List.map_map]
    rfl
  have hreplaces : (ofRows policy rows).replaceChanges.map
      (fun change => (change.type, change.key)) =
        ((ofRows policy rows).replaces.map RRset.key).map fun key => (ChangeType.replace, key) := by
    rw [replaceChanges, List.map_map, List.map_map]
    rfl
  have hpair : ∀ type : ChangeType, Function.Injective fun key : RRsetKey => (type, key) :=
    fun type => Prod.mk_right_injective type
  rw [changes, List.map_append, hdeletes, hreplaces]
  refine (deletes_nodup.map (hpair _)).append (replaces_nodup.map (hpair _)) ?_
  intro pair hdeleted hwritten
  obtain ⟨key, -, rfl⟩ := List.mem_map.mp hdeleted
  obtain ⟨other, -, hother⟩ := List.mem_map.mp hwritten
  simp at hother

/-- A value that is written is absolute. -/
theorem value_valueRow (hw : w ∈ (ofRows policy rows).replaces) {value : RecordValue}
    (hvalue : value ∈ w.records) : (w.valueRow value).value = value := by
  obtain ⟨row, -, -, hkey, rfl⟩ := exists_row_of_value hw hvalue
  have htype : w.type = row.type := (congrArg RRsetKey.type hkey).symm
  show (⟨w.type.canonicalContent (row.type.canonicalContent row.content), row.disabled⟩ :
    RecordValue) = _
  rw [htype, RRType.canonicalContent_canonicalContent]
  rfl

/-- Every row of a record set carries its comment, so the first of them does. -/
theorem findSome?_valueRow {records : List RecordValue} (hne : records ≠ []) :
    (records.map w.valueRow).findSome? FlatRow.remark? = w.remark.filter (· ≠ "") := by
  cases records with
  | nil => contradiction
  | cons first others =>
    cases hsome : w.remark.filter (· ≠ "") with
    | none =>
      have hremark : ∀ value, (w.valueRow value).remark? = none := fun _ => hsome
      simp [hremark]
    | some text =>
      have hremark : ∀ value, (w.valueRow value).remark? = some text := fun _ => hsome
      rw [List.map_cons, List.findSome?_cons, hremark]

/-- The comments of a record set that is written are read off its remark. -/
theorem comments_eq_of_mem_replaces (hw : w ∈ (ofRows policy rows).replaces) :
    w.comments = (w.remark.filter (· ≠ "")).toList.map fun text => ⟨text, ""⟩ := by
  rcases comments_of_mem_replaces hw with hnone | ⟨text, htext, hone⟩
  · simp [RRset.remark, hnone]
  · simp [RRset.remark, hone, Option.filter, htext]

/-- **A record set that is written gathers its own values.** -/
theorem gathers_valueRows (hw : w ∈ (ofRows policy rows).replaces) :
    w.Gathers (w.records.map w.valueRow) where
  ttl := by
    cases hrecords : w.records with
    | nil => exact absurd hrecords (records_ne_nil hw)
    | cons first others => rfl
  records := by
    have hvalues : (w.records.map w.valueRow).map FlatRow.value = w.records := by
      rw [List.map_map]
      exact (List.map_congr_left fun value hvalue => value_valueRow hw hvalue).trans (List.map_id _)
    refine Eq.trans ?_ (RecordValue.firstOfEach_eq_eraseDupsBy
      ((w.records.map w.valueRow).map FlatRow.value))
    rw [hvalues, RecordValue.firstOfEach_eq_self (nodup_contents hw)]
  comments := by
    rw [← RRset.findSome?_remark?, findSome?_valueRow (records_ne_nil hw)]
    exact comments_eq_of_mem_replaces hw

/-! ### Grouping them again -/

/-- Which change a row takes part in is decided by the change that it was written out from. -/
theorem Flattens.exists_changes_iff (h : (ofRows policy rows).Flattens flat) :
    (∃ row ∈ flat, row.Changes policy type key) ↔
      ∃ change ∈ (ofRows policy rows).changes, change.type = type ∧ change.key = key := by
  constructor
  · rintro ⟨row, hrow, hchanges⟩
    obtain ⟨change, hchange, hmem⟩ := List.mem_flatMap.mp (h.perm.mem_iff.mp hrow)
    have hfinal := owned_key_of_mem_changes hchange
    exact ⟨change, hchange, (Change.changes_iff_of_mem_rows hfinal hmem).mp hchanges⟩
  · rintro ⟨change, hchange, hsame⟩
    obtain ⟨row, hrow⟩ := List.exists_mem_of_ne_nil _ (rows_ne_nil hchange)
    have hfinal := owned_key_of_mem_changes hchange
    have hmem := h.perm.mem_iff.mpr (List.mem_flatMap.mpr ⟨change, hchange, hrow⟩)
    exact ⟨row, hmem, (Change.changes_iff_of_mem_rows hfinal hrow).mpr hsame⟩

/-- The rows of a change are found again among all rows, in their order. -/
theorem Flattens.filter_eq (h : (ofRows policy rows).Flattens flat)
    (hchange : change ∈ (ofRows policy rows).changes) :
    flat.filter (FlatRow.Changes policy change.type change.key) = change.rows := by
  have hown : change.rows.filter (FlatRow.Changes policy change.type change.key) = change.rows := by
    refine List.filter_eq_self.mpr fun row hrow => decide_eq_true ?_
    exact (Change.changes_iff_of_mem_rows (owned_key_of_mem_changes hchange) hrow).mpr ⟨rfl, rfl⟩
  have hall : ((ofRows policy rows).changes.flatMap Change.rows).filter
      (FlatRow.Changes policy change.type change.key) = change.rows := by
    rw [filter_flatMap_of_iff (q := fun other =>
        (other.type, other.key) = (change.type, change.key)),
      filter_eq_singleton_of_nodup_map (nodup_changes policy rows) hchange, List.flatMap_singleton]
    intro other hother row hrow
    rw [Bool.eq_iff_iff, decide_eq_true_iff, decide_eq_true_iff,
      Change.changes_iff_of_mem_rows (owned_key_of_mem_changes hother) hrow, Prod.mk.injEq]
  -- they are in order among all rows, and there are no others
  have hsub := (h.ordered change hchange).filter (FlatRow.Changes policy change.type change.key)
  rw [hown] at hsub
  refine (hsub.eq_of_length ?_).symm
  rw [(h.perm.filter _).length_eq, hall]

theorem exists_delete_iff {batches : Batches} :
    (∃ change ∈ batches.changes, change.type = .delete ∧ change.key = key) ↔
      key ∈ batches.deletes := by
  constructor
  · rintro ⟨change, hchange, hdelete, rfl⟩
    rcases mem_changes.mp hchange with ⟨key, hkey, rfl⟩ | ⟨w, -, rfl⟩
    · exact hkey
    · contradiction
  · intro hkey
    exact ⟨.delete key, mem_changes.mpr (.inl ⟨key, hkey, rfl⟩), rfl, rfl⟩

theorem exists_replace_iff {batches : Batches} :
    (∃ change ∈ batches.changes, change.type = .replace ∧ change.key = key) ↔
      key ∈ batches.replaces.map RRset.key := by
  constructor
  · rintro ⟨change, hchange, hreplace, rfl⟩
    rcases mem_changes.mp hchange with ⟨key, -, rfl⟩ | ⟨w, hw, rfl⟩
    · contradiction
    · exact List.mem_map_of_mem hw
  · intro hkey
    obtain ⟨w, hw, rfl⟩ := List.mem_map.mp hkey
    exact ⟨.replace w, mem_changes.mpr (.inr ⟨w, hw, rfl⟩), rfl, rfl⟩

/-- The changes are gathered from the rows that they were written out as. -/
theorem Flattens.gathered (h : (ofRows policy rows).Flattens flat) :
    Gathered policy flat (ofRows policy rows).deleteChanges
      (ofRows policy rows).replaceChanges where
  deletes_ascending := (gathered_ofRows policy rows).deletes_ascending
  mem_deletes key := by
    rw [h.exists_changes_iff, exists_delete_iff, map_key_deleteChanges]
  deletion := (gathered_ofRows policy rows).deletion
  replaces_ascending := (gathered_ofRows policy rows).replaces_ascending
  mem_replaces key := by
    rw [h.exists_changes_iff, exists_replace_iff, map_key_replaceChanges]
  replacement change hchange := by
    obtain ⟨w, hw, rfl⟩ := List.mem_map.mp hchange
    have hrows := h.filter_eq (mem_changes.mpr (.inr ⟨w, hw, rfl⟩))
    exact ⟨rfl, hrows ▸ gathers_valueRows hw⟩

/-- **Grouping is a fixed point on what it makes.**  However the changes of any rows are written out
as rows, one after another in any order or mixed in any way that keeps the values of each record set
in order, grouping makes the same changes of them. -/
theorem ofRows_flattened (policy : Policy) (rows : List FlatRow) :
    (∀ changes : List Change, changes.Perm (ofRows policy rows).changes →
      ofRows policy (changes.flatMap Change.rows) = ofRows policy rows) ∧
    ∀ flat, (ofRows policy rows).Flattens flat → ofRows policy flat = ofRows policy rows := by
  constructor
  · intro changes hchanges
    exact (flattens_of_perm hchanges).gathered.ofRows_eq
  · intro flat hflat
    exact hflat.gathered.ofRows_eq

/-- The reverse name of the address 2001:db8::1. -/
def documentationName : String :=
  "1.0.0.0.0.0.0.0.0.0.0.0.0.0.0.0.0.0.0.0.0.0.0.0.8.b.d.0.1.0.0.2.ip6.arpa."

/-- Rows that leave much to grouping: a name written as an address, a content without its last dot
and the same one with it, and a record set that is both deleted and written. -/
def untidyRows : List FlatRow :=
  let mail : FlatRow := ⟨"example.com.", .named .mx, .replace, 300, "10 mail.", false, none⟩
  [{ mail with content := "20 backup", disabled := true },
    ⟨"2001:db8::1.", .named .ptr, .replace, 60, "host.example.com.", false, some ""⟩,
    .deletion ⟨"example.com.", .named .mx⟩,
    { mail with ttl := 600, comment := some "relays" },
    { mail with content := "20 backup." }]

/-- What grouping makes of them. -/
def tidyBatches : Batches where
  deletes := [⟨"example.com.", .named .mx⟩]
  replaces :=
    [⟨documentationName, .named .ptr, 60, [⟨"host.example.com.", false⟩], []⟩,
      ⟨"example.com.", .named .mx, 300, [⟨"20 backup.", true⟩, ⟨"10 mail.", false⟩],
        [⟨"relays", ""⟩]⟩]

/-- The changes can be written out backwards, and their rows can be mixed. -/
theorem ofRows_flattened_untidyRows :
    let policy : Policy := ⟨true, false, []⟩
    let backwards := tidyBatches.changes.reverse
    let mail : FlatRow :=
      ⟨"example.com.", .named .mx, .replace, 300, "20 backup.", true, some "relays"⟩
    let mixed : List FlatRow :=
      [mail, ⟨documentationName, .named .ptr, .replace, 60, "host.example.com.", false, none⟩,
        { mail with content := "10 mail.", disabled := false },
        .deletion ⟨"example.com.", .named .mx⟩]
    ofRows policy untidyRows = tidyBatches ∧
      (backwards.Perm tidyBatches.changes ∧
        ofRows policy (backwards.flatMap Change.rows) = tidyBatches) ∧
      tidyBatches.Flattens mixed ∧ ofRows policy mixed = tidyBatches := by
  intro policy backwards mail mixed
  have hmade : ofRows policy untidyRows = tidyBatches := Gathered.ofRows_eq (by decide +kernel)
  have hbackwards : backwards.Perm tidyBatches.changes := List.reverse_perm _
  have hmixed : tidyBatches.Flattens mixed := ⟨by decide +kernel, by decide +kernel⟩
  obtain ⟨hany, hflattens⟩ := ofRows_flattened policy untidyRows
  rw [hmade] at hany hflattens
  exact ⟨hmade, ⟨hbackwards, hany backwards hbackwards⟩, hmixed, hflattens mixed hmixed⟩

end Batches

end ZoneKeeper
