/-
Owner names that grouping turns around.

Where the policy lets owner names of PTR records be written as addresses, grouping puts the
reverse name of the address in their place.  A reverse name is never taken for an address, so
turning a name around twice comes to the same as once, and the names of what is written are
final.  With this it can be said for every policy, and not only for one that leaves names alone,
what the batches of a reconciliation are about:

  * a deletion is about a record set that nobody wants, under the name that grouping gives it,
  * a replacement is about desired rows, which had their final name before,
  * every row that is added is written with its content.
-/
import ZoneKeeper.Proofs.Reconciliation
import ZoneKeeper.Proofs.ReverseLabels

namespace ZoneKeeper

open ReverseName

/-! ### The key that grouping makes of a key -/

namespace RRsetKey

variable {policy : Policy} {key : RRsetKey}

theorem owned_of_no_address (h : ofIPv6Literal? key.name = none) : key.owned policy = key := by
  rw [owned_eq, h]
  simp

/-- A name that was turned around stays as it is. -/
theorem owned_owned : (key.owned policy).owned policy = key.owned policy := by
  by_cases hallowed : policy.prettyIPv6Ptr = true ∧ key.type = .named .ptr
  · cases haddress : ofIPv6Literal? key.name with
    | none =>
      have hsame : key.owned policy = key := owned_of_no_address haddress
      rw [hsame, hsame]
    | some name =>
      obtain ⟨address, -, rfl⟩ := Option.map_eq_some_iff.mp haddress
      rw [owned_eq policy key, if_pos hallowed, haddress]
      exact owned_of_no_address (ofIPv6Literal?_ofAddress _)
  · rw [owned_of_plain hallowed, owned_of_plain hallowed]

end RRsetKey

/-! ### Rows and the record sets that they make -/

namespace Batches

variable {policy : Policy} {rows : List FlatRow} {w : RRset}

/-- A row that writes is written, under its owner name and with its content. -/
theorem exists_replace_of_row (policy : Policy) {row : FlatRow} (hrow : row ∈ rows)
    (hreplace : row.changeType = .replace) :
    ∃ w ∈ (ofRows policy rows).replaces, w.key = row.key.owned policy ∧
      ∃ value ∈ w.records, value.content = row.value.content := by
  have hmem : row.normalize policy ∈ rowsFor policy rows .replace (row.key.owned policy) :=
    mem_rowsFor.mpr ⟨List.mem_map_of_mem hrow, rfl, hreplace⟩
  cases hcons : rowsFor policy rows .replace (row.key.owned policy) with
  | nil =>
    rw [hcons] at hmem
    contradiction
  | cons first others =>
    have hkey : first.key = row.key.owned policy :=
      (mem_rowsFor.mp (hcons ▸ List.mem_cons_self)).2.1
    refine ⟨.ofRows first others, mem_replaces.mpr ⟨first, others, ?_, rfl⟩, hkey, ?_⟩
    · rw [RRset.key_ofRows, hkey, hcons]
    · rw [hcons] at hmem
      have hvalue : row.value ∈ (first :: others).map FlatRow.value :=
        List.mem_map.mpr ⟨row.normalize policy, hmem, rfl⟩
      exact RecordValue.exists_firstOfEach hvalue

/-- What is written is the content of a row that writes. -/
theorem exists_row_of_value (hw : w ∈ (ofRows policy rows).replaces) {value : RecordValue}
    (hvalue : value ∈ w.records) :
    ∃ row ∈ rows, row.changeType = .replace ∧ row.key.owned policy = w.key ∧
      value = row.value := by
  obtain ⟨first, others, hcons, hmade⟩ := mem_replaces.mp hw
  rw [hmade] at hvalue
  obtain ⟨row, hmem, rfl⟩ := List.mem_map.mp (RecordValue.mem_of_mem_firstOfEach hvalue)
  rw [← hcons] at hmem
  obtain ⟨hnormal, hkey, hreplace⟩ := mem_rowsFor.mp hmem
  obtain ⟨source, hsource, rfl⟩ := List.mem_map.mp hnormal
  exact ⟨source, hsource, hreplace, hkey, rfl⟩

theorem exists_row_of_replace (hw : w ∈ (ofRows policy rows).replaces) :
    ∃ row ∈ rows, row.changeType = .replace ∧ row.key.owned policy = w.key := by
  obtain ⟨value, hvalue⟩ := List.exists_mem_of_ne_nil _ (records_ne_nil hw)
  obtain ⟨row, hrow, hreplace, hkey, -⟩ := exists_row_of_value hw hvalue
  exact ⟨row, hrow, hreplace, hkey⟩

/-- The names of what is written are final. -/
theorem owned_key_of_replace (hw : w ∈ (ofRows policy rows).replaces) :
    w.key.owned policy = w.key := by
  obtain ⟨row, -, -, hkey⟩ := exists_row_of_replace hw
  rw [← hkey, RRsetKey.owned_owned]

/-- So are those of what is deleted. -/
theorem owned_of_mem_deletes {key : RRsetKey} (h : key ∈ (ofRows policy rows).deletes) :
    key.owned policy = key := by
  obtain ⟨row, hrow, rfl, -⟩ := mem_deletes.mp h
  obtain ⟨source, -, rfl⟩ := List.mem_map.mp hrow
  rw [FlatRow.key_normalize, RRsetKey.owned_owned]

end Batches

/-! ### The batches of a reconciliation -/

namespace Reconciliation

variable {policy : Policy} {desired : List FlatRow} {current : List RRset} {row : FlatRow}
  {w : RRset} {key : RRsetKey}

/-- Only rows with their final name are added. -/
theorem owned_key_of_added (hrow : row ∈ (between policy desired current).added) :
    row.key.owned policy = row.key := by
  obtain ⟨-, w, hw, hkey⟩ := mem_added.mp hrow
  rw [← hkey]
  exact Batches.owned_key_of_replace (mem_changed.mp hw).1

theorem exists_removed_of_mem_deletes (hdesired : ∀ row ∈ desired, row.changeType = .replace)
    (h : key ∈ ((between policy desired current).batches policy).deletes) :
    ∃ r ∈ removed policy desired current, r.key.owned policy = key := by
  obtain ⟨row, hrow, rfl, hdelete⟩ := Batches.mem_deletes.mp h
  obtain ⟨source, hsource, rfl⟩ := List.mem_map.mp hrow
  rcases List.mem_append.mp hsource with hdeleted | hadded
  · obtain ⟨r, hr, hkey, -⟩ := mem_deleted hdeleted
    exact ⟨r, hr, by rw [FlatRow.key_normalize, hkey]⟩
  · have hreplace := hdesired source (mem_added.mp hadded).1
    have hcontra : source.changeType = .delete := hdelete
    rw [hreplace] at hcontra
    contradiction

/-- A value that is written is that of a desired row whose record set has changed. -/
theorem exists_added_of_value
    (hw : w ∈ ((between policy desired current).batches policy).replaces) {value : RecordValue}
    (hvalue : value ∈ w.records) :
    ∃ row ∈ (between policy desired current).added, row.key = w.key ∧ value = row.value := by
  obtain ⟨row, hrow, hreplace, hkey, rfl⟩ := Batches.exists_row_of_value hw hvalue
  rcases List.mem_append.mp hrow with hdeleted | hadded
  · obtain ⟨-, -, -, hdelete⟩ := mem_deleted hdeleted
    rw [hdelete] at hreplace
    contradiction
  · rw [owned_key_of_added hadded] at hkey
    exact ⟨row, hadded, hkey, rfl⟩

theorem exists_added_of_mem_replaces
    (hw : w ∈ ((between policy desired current).batches policy).replaces) :
    ∃ row ∈ (between policy desired current).added, row.key = w.key := by
  obtain ⟨value, hvalue⟩ := List.exists_mem_of_ne_nil _ (Batches.records_ne_nil hw)
  obtain ⟨row, hrow, hkey, -⟩ := exists_added_of_value hw hvalue
  exact ⟨row, hrow, hkey⟩

/-- A desired record set that the zone has is not written. -/
theorem not_mem_replaces_of_unchanged (hw : w ∈ wanted policy desired)
    (hneeds : needsWrite current w = false) :
    w.key ∉ ((between policy desired current).batches policy).replaces.map RRset.key := by
  intro hwritten
  obtain ⟨v, hv, hkey⟩ := List.mem_map.mp hwritten
  obtain ⟨row, hrow, hrowKey⟩ := exists_added_of_mem_replaces hv
  obtain ⟨-, changed, hchanged, hchangedKey⟩ := mem_added.mp hrow
  obtain ⟨hwanted, hchangedNeeds⟩ := mem_changed.mp hchanged
  have hsame : changed = w :=
    RRset.eq_of_key_eq wanted_nodup hwanted hw (hchangedKey.trans (hrowKey.trans hkey))
  rw [hsame, hneeds] at hchangedNeeds
  contradiction

end Reconciliation

end ZoneKeeper
