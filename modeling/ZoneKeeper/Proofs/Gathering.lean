/-
The batches of a list of rows, told without sorting them.

What belongs into a batch can be said one record set at a time.  A key is deleted, or written,
exactly if some row asks for it, and then once; the keys ascend; and a record set that is written
is made of the rows for its key in the order in which they were submitted.  `Gathered` says this of
any two lists of changes.

It leaves no choice.  Ascending keys are determined by which they are, and a change by its key, so
two pairs of lists that are gathered from the same rows are the same.  What grouping makes is
gathered, so it is the only thing that is: nothing of the sorting, of the cutting into runs and of
the place of a deletion among replacements is left to be seen.
-/
import ZoneKeeper.Proofs.Grouping

namespace ZoneKeeper

/-! ### Keys in order -/

namespace RRsetKey

/-- The key comes first: by its name, and under one name by the mnemonic of its type. -/
def Before (k l : RRsetKey) : Prop :=
  k.name < l.name ∨ k.name = l.name ∧ k.type.mnemonic < l.type.mnemonic

theorem before_iff {k l : RRsetKey} : k.Before l ↔ k.sortKey < l.sortKey := by
  unfold sortKey Before
  rw [Prod.Lex.toLex_lt_toLex]

theorem before_eq : Before = fun k l => k.sortKey < l.sortKey := by
  funext k l
  exact propext before_iff

/-- Lists that ascend are the same if they have the same keys and what has one key is the same. -/
theorem eq_of_pairwise_before {α : Type} {key : α → RRsetKey} {xs ys : List α}
    (hxs : (xs.map key).Pairwise Before) (hys : (ys.map key).Pairwise Before)
    (hkeys : ∀ k, k ∈ xs.map key ↔ k ∈ ys.map key)
    (hsame : ∀ x ∈ xs, ∀ y ∈ ys, key x = key y → x = y) : xs = ys := by
  rw [before_eq, List.pairwise_map] at hxs hys
  refine eq_of_ascending (f := fun x => (key x).sortKey) hxs hys fun z => ?_
  constructor
  · intro hz
    obtain ⟨y, hy, hkey⟩ := List.mem_map.mp ((hkeys _).mp (List.mem_map_of_mem hz))
    rwa [hsame z hz y hy hkey.symm]
  · intro hz
    obtain ⟨x, hx, hkey⟩ := List.mem_map.mp ((hkeys _).mpr (List.mem_map_of_mem hz))
    rwa [← hsame x hx z hz hkey]

end RRsetKey

/-! ### The rows for a key -/

namespace FlatRow

/-- The row takes part in the change of the record set with this key, under its owner name. -/
def Changes (policy : Policy) (type : ChangeType) (key : RRsetKey) (row : FlatRow) : Prop :=
  row.changeType = type ∧ row.ownerName policy = key.name ∧ row.type = key.type

instance (policy : Policy) (type : ChangeType) (key : RRsetKey) :
    DecidablePred (Changes policy type key) :=
  fun _ => inferInstanceAs (Decidable (_ ∧ _ ∧ _))

variable {policy : Policy} {type : ChangeType} {key : RRsetKey} {row : FlatRow}

theorem changes_iff :
    row.Changes policy type key ↔
      (row.normalize policy).key = key ∧ (row.normalize policy).changeType = type := by
  obtain ⟨name, rtype⟩ := key
  simp [Changes, normalize, FlatRow.key, and_comm]

/-- A row takes part in the change of one record set only. -/
theorem Changes.key_eq {other : RRsetKey} (h : row.Changes policy type key)
    (h' : row.Changes policy type other) : key = other := by
  obtain ⟨-, hname, htype⟩ := h
  obtain ⟨-, hname', htype'⟩ := h'
  cases key
  cases other
  simp_all

end FlatRow

namespace Batches

variable {policy : Policy} {rows : List FlatRow} {type : ChangeType} {key : RRsetKey}

/-- The rows of a change, still under the names that they were submitted with. -/
theorem rowsFor_eq_map_filter :
    rowsFor policy rows type key =
      (rows.filter (FlatRow.Changes policy type key)).map (FlatRow.normalize policy) := by
  rw [rowsFor, List.filter_map]
  refine congrArg (List.map _) (List.filter_congr fun row _ => ?_)
  rw [Bool.eq_iff_iff, Function.comp_apply, decide_eq_true_iff, decide_eq_true_iff,
    FlatRow.changes_iff]

theorem exists_normalized_iff :
    (∃ row ∈ rows.map (FlatRow.normalize policy), row.key = key ∧ row.changeType = type) ↔
      ∃ row ∈ rows, row.Changes policy type key := by
  constructor
  · rintro ⟨normalized, hmem, hkey, htype⟩
    obtain ⟨row, hrow, rfl⟩ := List.mem_map.mp hmem
    exact ⟨row, hrow, FlatRow.changes_iff.mpr ⟨hkey, htype⟩⟩
  · rintro ⟨row, hrow, hchanges⟩
    exact ⟨row.normalize policy, List.mem_map_of_mem hrow, FlatRow.changes_iff.mp hchanges⟩

end Batches

/-! ### One record set -/

namespace RecordValue

/-- Leaving out contents makes no difference to which values of the others come first. -/
theorem filter_firstOfEach (p : String → Bool) (vs : List RecordValue) :
    (firstOfEach vs).filter (fun v => p v.content) =
      firstOfEach (vs.filter fun v => p v.content) := by
  induction vs with
  | nil => rfl
  | cons first rest ih =>
    by_cases hfirst : p first.content = true
    · simp only [firstOfEach, List.filter_cons, if_pos hfirst, ← ih, List.filter_filter,
        Bool.and_comm]
    · -- no value that is kept has the content of the first one, which is not kept
      simp only [firstOfEach, List.filter_cons, if_neg hfirst, ← ih, List.filter_filter]
      refine List.filter_congr fun v _ => Bool.and_eq_left_iff_imp.mpr fun hv => ?_
      rw [decide_eq_true_eq]
      intro hcontent
      exact hfirst (hcontent ▸ hv)

/-- The first value of each content is what is left when repeated contents are erased. -/
theorem firstOfEach_eq_eraseDupsBy (vs : List RecordValue) :
    firstOfEach vs = vs.eraseDupsBy fun v w => v.content == w.content := by
  induction hn : vs.length using Nat.strong_induction_on generalizing vs with
  | _ n ih =>
    cases vs with
    | nil => rfl
    | cons first rest =>
      have hshort : (rest.filter fun v => v.content ≠ first.content).length < n := by
        rw [← hn, List.length_cons]
        exact Nat.lt_succ_of_le (List.length_filter_le _ rest)
      have hrest : (rest.filter fun v => (v.content == first.content) = false) =
          rest.filter fun v => v.content ≠ first.content := by
        simp
      rw [firstOfEach, filter_firstOfEach (fun content => content ≠ first.content),
        ih _ hshort _ rfl, List.eraseDupsBy_cons, hrest]

end RecordValue

namespace RRset

/-- The record set is what rows make that write it, given as they were submitted. -/
structure Gathers (rrset : RRset) (rows : List FlatRow) : Prop where
  /-- The time to live is that of the first row. -/
  ttl : rows.head?.map FlatRow.ttl = some rrset.ttl
  /-- Each content is made absolute where it has to be, and is there once: where it comes first,
  with the flag that it has there. -/
  records : rrset.records = (rows.map fun row =>
    (⟨row.type.canonicalContent row.content, row.disabled⟩ : RecordValue)).eraseDupsBy
      fun v w => v.content == w.content
  /-- The first comment that says anything is the only one. -/
  comments : rrset.comments =
    ((rows.filterMap FlatRow.comment).find? (· ≠ "")).toList.map fun text => ⟨text, ""⟩

instance (rrset : RRset) (rows : List FlatRow) : Decidable (rrset.Gathers rows) :=
  decidable_of_iff (rows.head?.map FlatRow.ttl = some rrset.ttl ∧
      (rrset.records = (rows.map fun row =>
        (⟨row.type.canonicalContent row.content, row.disabled⟩ : RecordValue)).eraseDupsBy
          fun v w => v.content == w.content) ∧
      rrset.comments =
        ((rows.filterMap FlatRow.comment).find? (· ≠ "")).toList.map fun text => ⟨text, ""⟩)
    ⟨fun ⟨ttl, records, comments⟩ => ⟨ttl, records, comments⟩,
      fun ⟨ttl, records, comments⟩ => ⟨ttl, records, comments⟩⟩

theorem findSome?_remark? (rows : List FlatRow) :
    rows.findSome? FlatRow.remark? = (rows.filterMap FlatRow.comment).find? (· ≠ "") := by
  induction rows with
  | nil => rfl
  | cons row rows ih =>
    cases hcomment : row.comment with
    | none => simp [FlatRow.remark?, hcomment, ih]
    | some text =>
      by_cases htext : text = ""
      · simp [FlatRow.remark?, hcomment, htext, ih]
      · simp [FlatRow.remark?, hcomment, htext]

theorem gathers_ofRows {policy : Policy} {rows others : List FlatRow} {first : FlatRow}
    (h : rows.map (FlatRow.normalize policy) = first :: others) :
    (RRset.ofRows first others).Gathers rows := by
  have hhead : rows.head?.map FlatRow.ttl =
      (rows.map (FlatRow.normalize policy)).head?.map FlatRow.ttl := by
    rw [List.head?_map, Option.map_map]
    rfl
  constructor
  · rw [hhead, h]
    rfl
  · show RecordValue.firstOfEach ((first :: others).map FlatRow.value) = _
    rw [← h, List.map_map, RecordValue.firstOfEach_eq_eraseDupsBy]
    rfl
  · show ((first :: others).findSome? FlatRow.remark?).toList.map _ = _
    rw [← h, findSome?_remark?, List.filterMap_map]
    rfl

/-- Under one key the rows make one record set. -/
theorem Gathers.unique {r s : RRset} {rows : List FlatRow} (hr : r.Gathers rows)
    (hs : s.Gathers rows) (hkey : r.key = s.key) : r = s := by
  obtain ⟨hname, htype⟩ := RRsetKey.mk.inj hkey
  have httl : r.ttl = s.ttl := Option.some.inj (hr.ttl.symm.trans hs.ttl)
  have hrecords := hr.records.trans hs.records.symm
  have hcomments := hr.comments.trans hs.comments.symm
  cases r
  cases s
  simp_all

end RRset

/-! ### The batches -/

namespace Batches

variable {policy : Policy} {rows : List FlatRow}

/-- The changes are those that the rows make, each once and in the order of the keys. -/
structure Gathered (policy : Policy) (rows : List FlatRow) (deletes replaces : List Change) :
    Prop where
  deletes_ascending : (deletes.map Change.key).Pairwise RRsetKey.Before
  mem_deletes : ∀ key, key ∈ deletes.map Change.key ↔ ∃ row ∈ rows, row.Changes policy .delete key
  /-- A deletion has no body. -/
  deletion : ∀ change ∈ deletes, change.type = .delete ∧
    change.rrset.ttl = 0 ∧ change.rrset.records = [] ∧ change.rrset.comments = []
  replaces_ascending : (replaces.map Change.key).Pairwise RRsetKey.Before
  mem_replaces : ∀ key,
    key ∈ replaces.map Change.key ↔ ∃ row ∈ rows, row.Changes policy .replace key
  /-- A replacement has the rows for its key in their order, and nothing of any other row. -/
  replacement : ∀ change ∈ replaces, change.type = .replace ∧
    change.rrset.Gathers (rows.filter (FlatRow.Changes policy .replace change.key))

/-- Whether changes are about the keys that the rows are about can be told row by row. -/
theorem forall_mem_keys_iff {type : ChangeType} {changes : List Change} :
    (∀ key, key ∈ changes.map Change.key ↔ ∃ row ∈ rows, row.Changes policy type key) ↔
      (∀ change ∈ changes, ∃ row ∈ rows, row.Changes policy type change.key) ∧
        ∀ row ∈ rows, row.changeType = type →
          ∃ change ∈ changes, row.Changes policy type change.key := by
  constructor
  · intro h
    refine ⟨fun change hchange => (h _).mp (List.mem_map_of_mem hchange), ?_⟩
    intro row hrow htype
    have hchanges : row.Changes policy type ⟨row.ownerName policy, row.type⟩ := ⟨htype, rfl, rfl⟩
    obtain ⟨change, hchange, hkey⟩ := List.mem_map.mp ((h _).mpr ⟨row, hrow, hchanges⟩)
    exact ⟨change, hchange, hkey ▸ hchanges⟩
  · rintro ⟨hmade, hall⟩ key
    constructor
    · intro hkey
      obtain ⟨change, hchange, rfl⟩ := List.mem_map.mp hkey
      exact hmade change hchange
    · rintro ⟨row, hrow, hchanges⟩
      obtain ⟨change, hchange, hsame⟩ := hall row hrow hchanges.1
      exact hchanges.key_eq hsame ▸ List.mem_map_of_mem hchange

instance (k l : RRsetKey) : Decidable (k.Before l) :=
  inferInstanceAs (Decidable (_ ∨ _))

instance (deletes replaces : List Change) : Decidable (Gathered policy rows deletes replaces) :=
  decidable_of_iff
    ((deletes.map Change.key).Pairwise RRsetKey.Before ∧
      ((∀ change ∈ deletes, ∃ row ∈ rows, row.Changes policy .delete change.key) ∧
        ∀ row ∈ rows, row.changeType = .delete →
          ∃ change ∈ deletes, row.Changes policy .delete change.key) ∧
      (∀ change ∈ deletes, change.type = .delete ∧
        change.rrset.ttl = 0 ∧ change.rrset.records = [] ∧ change.rrset.comments = []) ∧
      (replaces.map Change.key).Pairwise RRsetKey.Before ∧
      ((∀ change ∈ replaces, ∃ row ∈ rows, row.Changes policy .replace change.key) ∧
        ∀ row ∈ rows, row.changeType = .replace →
          ∃ change ∈ replaces, row.Changes policy .replace change.key) ∧
      ∀ change ∈ replaces, change.type = .replace ∧
        change.rrset.Gathers (rows.filter (FlatRow.Changes policy .replace change.key)))
    ⟨fun ⟨h₁, h₂, h₃, h₄, h₅, h₆⟩ =>
        ⟨h₁, forall_mem_keys_iff.mpr h₂, h₃, h₄, forall_mem_keys_iff.mpr h₅, h₆⟩,
      fun ⟨h₁, h₂, h₃, h₄, h₅, h₆⟩ =>
        ⟨h₁, forall_mem_keys_iff.mp h₂, h₃, h₄, forall_mem_keys_iff.mp h₅, h₆⟩⟩

/-- A record set that is written gathers the rows for its key. -/
theorem gathers_of_mem_replaces {w : RRset} (hw : w ∈ (ofRows policy rows).replaces) :
    w.Gathers (rows.filter (FlatRow.Changes policy .replace w.key)) := by
  obtain ⟨first, others, hrows, rfl⟩ := mem_replaces.mp hw
  rw [rowsFor_eq_map_filter] at hrows
  exact RRset.gathers_ofRows hrows

/-- A key is written exactly if some row writes it. -/
theorem mem_map_key_replaces {key : RRsetKey} :
    key ∈ (ofRows policy rows).replaces.map RRset.key ↔
      ∃ row ∈ rows, row.Changes policy .replace key := by
  rw [← exists_normalized_iff]
  constructor
  · intro hkey
    obtain ⟨w, hw, rfl⟩ := List.mem_map.mp hkey
    obtain ⟨first, others, hrows, -⟩ := mem_replaces.mp hw
    exact ⟨first, mem_rowsFor.mp (hrows ▸ List.mem_cons_self)⟩
  · rintro ⟨row, hrow, hchanges⟩
    have hmem : row ∈ rowsFor policy rows .replace key := mem_rowsFor.mpr ⟨hrow, hchanges⟩
    cases hrows : rowsFor policy rows .replace key with
    | nil => simp [hrows] at hmem
    | cons first others =>
      have hfirst : first ∈ rowsFor policy rows .replace key := by simp [hrows]
      have hkey : first.key = key := (mem_rowsFor.mp hfirst).2.1
      refine List.mem_map.mpr
        ⟨.ofRows first others, mem_replaces.mpr ⟨first, others, ?_, rfl⟩, hkey⟩
      rw [RRset.key_ofRows, hkey, hrows]

/-- What grouping makes is gathered from its rows. -/
theorem gathered_ofRows (policy : Policy) (rows : List FlatRow) :
    Gathered policy rows (ofRows policy rows).deleteChanges
      (ofRows policy rows).replaceChanges where
  deletes_ascending := by
    rw [map_key_deleteChanges, RRsetKey.before_eq]
    exact deletes_ascending
  mem_deletes key := by
    rw [map_key_deleteChanges, mem_deletes, exists_normalized_iff]
  deletion change hchange := by
    obtain ⟨key, -, rfl⟩ := List.mem_map.mp hchange
    exact ⟨rfl, rfl, rfl, rfl⟩
  replaces_ascending := by
    rw [map_key_replaceChanges, RRsetKey.before_eq, List.pairwise_map]
    exact replaces_ascending
  mem_replaces key := by
    rw [map_key_replaceChanges, mem_map_key_replaces]
  replacement change hchange := by
    obtain ⟨w, hw, rfl⟩ := List.mem_map.mp hchange
    exact ⟨rfl, gathers_of_mem_replaces hw⟩

/-- Rows can be gathered in one way only. -/
theorem Gathered.unique {deletes deletes' replaces replaces' : List Change}
    (h : Gathered policy rows deletes replaces) (h' : Gathered policy rows deletes' replaces') :
    deletes = deletes' ∧ replaces = replaces' := by
  constructor
  · refine RRsetKey.eq_of_pairwise_before h.deletes_ascending h'.deletes_ascending
      (fun key => (h.mem_deletes key).trans (h'.mem_deletes key).symm) ?_
    intro change hchange other hother hkey
    obtain ⟨type, name, rtype, ttl, records, comments⟩ := change
    obtain ⟨htype, httl, hrecords, hcomments⟩ := h.deletion _ hchange
    obtain ⟨htype', httl', hrecords', hcomments'⟩ := h'.deletion _ hother
    obtain ⟨type', name', rtype', ttl', records', comments'⟩ := other
    obtain ⟨hname, hrtype⟩ := RRsetKey.mk.inj hkey
    simp_all
  · refine RRsetKey.eq_of_pairwise_before h.replaces_ascending h'.replaces_ascending
      (fun key => (h.mem_replaces key).trans (h'.mem_replaces key).symm) ?_
    intro change hchange other hother hkey
    obtain ⟨htype, hgathers⟩ := h.replacement change hchange
    obtain ⟨htype', hgathers'⟩ := h'.replacement other hother
    rw [← hkey] at hgathers'
    have hrrset : change.rrset = other.rrset := hgathers.unique hgathers' hkey
    cases change
    cases other
    simp_all

/-- Batches whose changes are gathered from rows are those of the rows. -/
theorem Gathered.ofRows_eq {batches : Batches}
    (h : Gathered policy rows batches.deleteChanges batches.replaceChanges) :
    ofRows policy rows = batches := by
  obtain ⟨hdeletes, hreplaces⟩ := (gathered_ofRows policy rows).unique h
  have hkeys := congrArg (List.map Change.key) hdeletes
  rw [map_key_deleteChanges, map_key_deleteChanges] at hkeys
  have hsets := congrArg (List.map Change.rrset) hreplaces
  simp only [replaceChanges, List.map_map, Function.comp_def, Change.replace, List.map_id'] at hsets
  exact congrArg₂ Batches.mk hkeys hsets

/-- **Batches are what is gathered from the rows,** and nothing else is. -/
theorem gathered_iff (policy : Policy) (rows : List FlatRow) (deletes replaces : List Change) :
    Gathered policy rows deletes replaces ↔
      deletes = (ofRows policy rows).deleteChanges ∧
        replaces = (ofRows policy rows).replaceChanges := by
  constructor
  · intro h
    exact h.unique (gathered_ofRows policy rows)
  · rintro ⟨rfl, rfl⟩
    exact gathered_ofRows policy rows

end Batches

end ZoneKeeper
