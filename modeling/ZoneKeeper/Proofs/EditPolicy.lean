/-
What a policy limits.

A policy names the types whose record sets may be taken away, and no deletion is about any other
type.  It does not limit what is written: a row may be of any type, and only rows for the start of
authority are passed over.  So a record set whose type is not named can change only because a row
was submitted under its name and type, and what nobody names stays as it is.
-/
import ZoneKeeper.Proofs.OwnerName
import ZoneKeeper.Proofs.Nameserver

namespace ZoneKeeper

/-- The row is desired under the key. -/
def Row.Names (zone : String) (policy : Policy) (row : Row) (key : RRsetKey) : Prop :=
  row.type ≠ .named .soa ∧ (row.flatten zone policy).key.owned policy = key

/-- The changes of a run keep to a policy and to the rows that were submitted. -/
structure Batches.Permitted (zone : String) (policy : Policy) (rows : List Row)
    (batches : Batches) : Prop where
  /-- Only what the policy lets go is deleted. -/
  deletes : ∀ key ∈ batches.deletes, key.type ∈ policy.editableTypes ∧ key.type ≠ .named .soa
  /-- Only what was submitted is written. -/
  replaces : ∀ w ∈ batches.replaces, w.type ≠ .named .soa ∧ ∃ row ∈ rows,
    row.Names zone policy w.key

namespace Reconciliation

variable {zone : String} {policy : Policy} {rows : List Row} {current : List RRset}
  {desired : List FlatRow} {key : RRsetKey}

theorem mayDelete_iff {type : RRType} :
    policy.mayDelete type = true ↔ type ∈ policy.editableTypes ∧ type ≠ .named .soa := by
  simp [Policy.mayDelete, and_comm]

/-- Whatever is desired replaces what was there, and some row was submitted for it. -/
theorem exists_row_of_desired (hdesired : desiredRows zone policy rows = .ok desired)
    {row : FlatRow} (hrow : row ∈ desired) :
    ∃ source ∈ rows, source.type ≠ .named .soa ∧ row = source.flatten zone policy := by
  rw [eq_of_desiredRows hdesired] at hrow
  obtain ⟨source, hsource, rfl⟩ := List.mem_map.mp hrow
  obtain ⟨hmem, htype⟩ := List.mem_filter.mp hsource
  exact ⟨source, hmem, by simpa using htype, rfl⟩

theorem changeType_of_desired (hdesired : desiredRows zone policy rows = .ok desired) :
    ∀ row ∈ desired, row.changeType = .replace := by
  intro row hrow
  obtain ⟨source, -, -, rfl⟩ := exists_row_of_desired hdesired hrow
  rfl

theorem permitted_between (hdesired : desiredRows zone policy rows = .ok desired) :
    ((between policy desired current).batches policy).Permitted zone policy rows where
  deletes key hkey := by
    obtain ⟨r, hr, rfl⟩ :=
      exists_removed_of_mem_deletes (changeType_of_desired hdesired) hkey
    exact mayDelete_iff.mp (mem_removed.mp hr).2.2
  replaces w hw := by
    obtain ⟨row, hrow, hkey⟩ := exists_added_of_mem_replaces hw
    obtain ⟨source, hsource, htype, rfl⟩ :=
      exists_row_of_desired hdesired (mem_added.mp hrow).1
    have hwritten : source.type = w.type := congrArg RRsetKey.type hkey
    refine ⟨hwritten ▸ htype, source, hsource, htype, ?_⟩
    rw [owned_key_of_added hrow, hkey]

/-- A key that may not be taken away and that no row names is left alone. -/
theorem withKey_apply_of_protected {batches : Batches} (hwell : batches.WellFormed)
    (hpermitted : batches.Permitted zone policy rows) (hmay : policy.mayDelete key.type = false)
    (hrows : ∀ row ∈ rows, ¬row.Names zone policy key) :
    RRset.withKey
        ((batches.deleteChanges ++ batches.replaceChanges).foldl Nameserver.applyChange current)
        key =
      RRset.withKey current key := by
  rw [List.foldl_append, Batches.foldl_deleteChanges, Batches.foldl_replaceChanges hwell]
  refine Batches.withKey_leave_of_not_mem (fun hdeleted => ?_) fun hwritten => ?_
  · have hallowed := mayDelete_iff.mpr (hpermitted.deletes key hdeleted)
    rw [hmay] at hallowed
    contradiction
  · obtain ⟨w, hw, rfl⟩ := List.mem_map.mp hwritten
    obtain ⟨-, row, hrow, hnames⟩ := hpermitted.replaces w hw
    exact hrows row hrow hnames

/-- **Deletions keep to the policy, replacements to the submitted rows,** and whatever neither of
them is allowed to touch is the same after both. -/
theorem reconcile_permitted (zone : String) (policy : Policy) (rows : List Row)
    (current : List RRset) (r : Reconciliation)
    (h : reconcile zone policy rows current = .ok r) :
    let batches := r.batches policy
    batches.Permitted zone policy rows ∧
      ∀ key, policy.mayDelete key.type = false → (∀ row ∈ rows, ¬row.Names zone policy key) →
        RRset.withKey ((batches.deleteChanges ++ batches.replaceChanges).foldl
          Nameserver.applyChange current) key = RRset.withKey current key := by
  rw [reconcile_eq] at h
  cases hdesired : desiredRows zone policy rows with
  | error e =>
    rw [hdesired] at h
    contradiction
  | ok desired =>
    rw [hdesired] at h
    obtain rfl : between policy desired current = r := Except.ok.inj h
    have hpermitted :
        ((between policy desired current).batches policy).Permitted zone policy rows :=
      permitted_between hdesired
    exact ⟨hpermitted, fun key hmay hrows =>
      withKey_apply_of_protected (Batches.wellFormed_ofRows _ _) hpermitted hmay hrows⟩

/-- A zone whose mail server may not be taken away. -/
def guardedZone : List RRset :=
  [⟨"example.com.", .named .mx, 3600, [⟨"10 mail.example.com.", false⟩], []⟩]

/-- A note comes, and the mail server, which nobody desires, stays. -/
theorem reconcile_permitted_guardedZone :
    let policy : Policy := ⟨true, false, [.named .a]⟩
    let rows : List Row := [.plain "note" (.named .txt) "hello"]
    let mail : RRsetKey := ⟨"example.com.", .named .mx⟩
    ∃ r, reconcile "example.com" policy rows guardedZone = .ok r ∧
      (r.batches policy).Permitted "example.com" policy rows ∧
      RRset.withKey (((r.batches policy).deleteChanges ++ (r.batches policy).replaceChanges).foldl
        Nameserver.applyChange guardedZone) mail = guardedZone := by
  intro policy rows mail
  obtain ⟨hpermitted, hkept⟩ := reconcile_permitted "example.com" policy rows guardedZone _ rfl
  refine ⟨_, rfl, hpermitted, ?_⟩
  rw [hkept mail rfl fun row hrow hnames => ?_]
  · rfl
  · obtain rfl := List.mem_singleton.mp hrow
    exact absurd (congrArg RRsetKey.type hnames.2) (by decide)

/-- What is written is not limited: a note is, where the policy names no type but that of
addresses. -/
theorem reconcile_writes_unlisted_type :
    let policy : Policy := ⟨false, false, [.named .a]⟩
    ∃ r, reconcile "example.com" policy [.plain "note" (.named .txt) "hello"] [] = .ok r ∧
      ∃ w ∈ (r.batches policy).replaces, w.type ∉ policy.editableTypes := by
  intro policy
  refine ⟨_, rfl, ⟨"note.example.com.", .named .txt, 3600, [⟨"hello", false⟩], []⟩, ?_⟩
  decide +kernel

end Reconciliation

end ZoneKeeper
