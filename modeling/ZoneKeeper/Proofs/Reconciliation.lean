/-
What a reconciliation sends.

Rows are compared under the names that they resolve to, and the changes are grouped under
the names that the policy makes of them.  Where the policy leaves the names alone, which
`Policy.KeepsOwners` says and a policy without address names always does, grouping twice
comes to the same:

  * the replacements are exactly the desired record sets that the zone does not have,
  * the deletions are exactly the keys of the record sets that nobody wants any longer,
  * what is kept for the history is the zone's own record sets under those keys.
-/
import ZoneKeeper.Proofs.Grouping
import ZoneKeeper.Reconciliation

namespace ZoneKeeper

/-! ### Record sets under one key -/

/-- The record sets with a key. -/
def RRset.withKey (rrsets : List RRset) (key : RRsetKey) : List RRset :=
  rrsets.filter fun rrset => rrset.key = key

namespace RRset

theorem mem_withKey {rrsets : List RRset} {key : RRsetKey} {r : RRset} :
    r ∈ withKey rrsets key ↔ r ∈ rrsets ∧ r.key = key := by
  simp [withKey]

theorem withKey_append (xs ys : List RRset) (key : RRsetKey) :
    withKey (xs ++ ys) key = withKey xs key ++ withKey ys key := by
  simp [withKey]

theorem withKey_eq_nil {rrsets : List RRset} {key : RRsetKey} :
    withKey rrsets key = [] ↔ ∀ r ∈ rrsets, r.key ≠ key := by
  simp [withKey, List.filter_eq_nil_iff]

/-- Keys that are distinct tell record sets apart. -/
theorem eq_of_key_eq {rrsets : List RRset} (hnodup : (rrsets.map key).Nodup) {r s : RRset}
    (hr : r ∈ rrsets) (hs : s ∈ rrsets) (hkey : r.key = s.key) : r = s :=
  List.inj_on_of_nodup_map hnodup hr hs hkey

/-- Where keys are distinct, a record set is the only one with its key. -/
theorem withKey_of_mem {rrsets : List RRset} (hnodup : (rrsets.map key).Nodup) {r : RRset}
    (hr : r ∈ rrsets) : withKey rrsets r.key = [r] :=
  filter_eq_singleton_of_nodup_map hnodup hr

end RRset

theorem currentWithKey?_eq (current : List RRset) (key : RRsetKey) :
    currentWithKey? current key = (RRset.withKey current key).getLast? := by
  rw [currentWithKey?, List.findRev?_eq_find?_reverse, RRset.withKey, List.getLast?_filter]

theorem mem_of_currentWithKey? {current : List RRset} {key : RRsetKey} {r : RRset}
    (h : currentWithKey? current key = some r) : r ∈ current ∧ r.key = key := by
  rw [currentWithKey?_eq] at h
  exact RRset.mem_withKey.mp (List.mem_of_getLast? h)

/-! ### Names that stay as they are -/

/-- The key under its owner name. -/
def RRsetKey.owned (policy : Policy) (key : RRsetKey) : RRsetKey :=
  ((FlatRow.deletion key).normalize policy).key

namespace RRsetKey

variable {policy : Policy} {key : RRsetKey}

@[simp]
theorem type_owned : (key.owned policy).type = key.type := rfl

theorem owned_eq (policy : Policy) (key : RRsetKey) :
    key.owned policy =
      ⟨if policy.prettyIPv6Ptr ∧ key.type = .named .ptr then
        (ReverseName.ofIPv6Literal? key.name).getD key.name else key.name, key.type⟩ := rfl

/-- Only keys of PTR records are turned around, and only by a policy that allows it. -/
theorem owned_of_plain (h : ¬(policy.prettyIPv6Ptr = true ∧ key.type = .named .ptr)) :
    key.owned policy = key := by
  rw [owned_eq, if_neg h]

/-- What is turned around into a plain key is that key. -/
theorem owned_eq_iff_of_plain {other : RRsetKey}
    (h : ¬(policy.prettyIPv6Ptr = true ∧ key.type = .named .ptr)) :
    other.owned policy = key ↔ other = key := by
  constructor
  · rintro rfl
    rw [type_owned] at h
    exact (owned_of_plain h).symm
  · rintro rfl
    exact owned_of_plain h

end RRsetKey

theorem FlatRow.key_normalize {policy : Policy} (row : FlatRow) :
    (row.normalize policy).key = row.key.owned policy := rfl

/-- Grouping leaves the owner names of a zone and of the rows desired for it as they are. -/
structure Policy.KeepsOwners (policy : Policy) (zone : String) (rows : List Row)
    (current : List RRset) : Prop where
  current : ∀ rrset ∈ current, (FlatRow.deletion rrset.key).ownerName policy = rrset.name
  rows : ∀ row ∈ rows, (row.flatten zone policy).ownerName policy = row.ownerName zone policy

/-- Without owner names written as addresses there is nothing to turn around. -/
theorem Policy.keepsOwners_of_plain {policy : Policy} (h : policy.prettyIPv6Ptr = false)
    (zone : String) (rows : List Row) (current : List RRset) :
    policy.KeepsOwners zone rows current := by
  constructor
  · intro rrset _
    simp [FlatRow.ownerName, h, FlatRow.deletion, RRset.key]
  · intro row _
    simp [FlatRow.ownerName, h, Row.flatten]

theorem FlatRow.normalize_eq_self {policy : Policy} {row : FlatRow}
    (h : row.ownerName policy = row.name) : row.normalize policy = row := by
  rw [FlatRow.normalize, h]

theorem RRset.mem_deletionRows {rrset : RRset} {row : FlatRow} (h : row ∈ rrset.deletionRows) :
    row.key = rrset.key ∧ row.changeType = .delete := by
  unfold deletionRows at h
  split at h
  · obtain rfl := List.mem_singleton.mp h
    exact ⟨rfl, rfl⟩
  · obtain ⟨value, -, rfl⟩ := List.mem_map.mp h
    exact ⟨rfl, rfl⟩

/-- There is a deletion row even for a record set without values. -/
theorem RRset.deletionRows_ne_nil (rrset : RRset) : rrset.deletionRows ≠ [] := by
  unfold deletionRows
  split
  · simp
  · next h => simpa [List.isEmpty_iff] using h

/-! ### Desired rows -/

/-- A row passes the check as it is, if nothing is wrong with its content. -/
theorem FlatRow.check_eq_ok_iff {row checked : FlatRow} :
    row.check = .ok checked ↔ row.type.contentFault? row.content = none ∧ checked = row := by
  unfold check
  cases row.type.contentFault? row.content <;> simp [eq_comm]

/-- A list of steps succeeds when every step does. -/
theorem mapM_eq_ok_iff {ε α β : Type} {f : α → Except ε β} {xs : List α} {ys : List β} :
    xs.mapM f = .ok ys ↔ List.Forall₂ (fun x y => f x = .ok y) xs ys := by
  induction xs generalizing ys with
  | nil => simp [pure, Except.pure, eq_comm]
  | cons x xs ih =>
    rw [List.mapM_cons, List.forall₂_cons_left_iff]
    cases hx : f x with
    | error e => simp [bind, Except.bind]
    | ok y =>
      cases hxs : xs.mapM f with
      | error e => simp [bind, Except.bind, ← ih, hxs]
      | ok rest => simp [bind, Except.bind, pure, Except.pure, ← ih, hxs, eq_comm]

/-- In a list of steps that succeeds, each step does. -/
theorem exists_of_mapM_ok {ε α β : Type} {f : α → Except ε β} {xs : List α} {ys : List β}
    (h : xs.mapM f = .ok ys) {x : α} (hx : x ∈ xs) : ∃ y ∈ ys, f x = .ok y := by
  rw [mapM_eq_ok_iff] at h
  induction h with
  | nil => contradiction
  | cons hfirst _ ih =>
    rcases List.mem_cons.mp hx with rfl | hx
    · exact ⟨_, List.mem_cons_self, hfirst⟩
    · obtain ⟨y, hy, hstep⟩ := ih hx
      exact ⟨y, List.mem_cons_of_mem _ hy, hstep⟩

/-- What comes out of a list of steps that succeeds comes out of one of them. -/
theorem exists_of_mem_mapM_ok {ε α β : Type} {f : α → Except ε β} {xs : List α} {ys : List β}
    (h : xs.mapM f = .ok ys) {y : β} (hy : y ∈ ys) : ∃ x ∈ xs, f x = .ok y := by
  rw [mapM_eq_ok_iff] at h
  induction h with
  | nil => contradiction
  | cons hfirst _ ih =>
    rcases List.mem_cons.mp hy with rfl | hy
    · exact ⟨_, List.mem_cons_self, hfirst⟩
    · obtain ⟨x, hx, hstep⟩ := ih hy
      exact ⟨x, List.mem_cons_of_mem _ hx, hstep⟩

/-- A list of steps fails as one of them does. -/
theorem exists_of_mapM_error {ε α β : Type} {f : α → Except ε β} {xs : List α} {e : ε}
    (h : xs.mapM f = .error e) : ∃ x ∈ xs, f x = .error e := by
  induction xs with
  | nil => simp [pure, Except.pure] at h
  | cons x xs ih =>
    rw [List.mapM_cons] at h
    cases hx : f x with
    | error e' =>
      obtain rfl : e' = e := by simpa [hx, bind, Except.bind] using h
      exact ⟨x, List.mem_cons_self, hx⟩
    | ok y =>
      cases hxs : xs.mapM f with
      | error e' =>
        obtain rfl : e' = e := by simpa [hx, hxs, bind, Except.bind] using h
        obtain ⟨z, hz, hfailed⟩ := ih hxs
        exact ⟨z, List.mem_cons_of_mem x hz, hfailed⟩
      | ok rest => simp [hx, hxs, bind, Except.bind, pure, Except.pure] at h

/-- The desired rows are the flattened rows, without those for the start of authority. -/
theorem eq_of_desiredRows {zone : String} {policy : Policy} {rows : List Row}
    {desired : List FlatRow} (h : desiredRows zone policy rows = .ok desired) :
    desired = (rows.filter fun row => row.type ≠ .named .soa).map (Row.flatten zone policy) := by
  have hrows : List.Forall₂ (fun row flat => row.flatten zone policy = flat)
      (rows.filter fun row => row.type ≠ .named .soa) desired :=
    (mapM_eq_ok_iff.mp h).imp fun row flat hcheck => (FlatRow.check_eq_ok_iff.mp hcheck).2.symm
  rw [← List.forall₂_map_left_iff, List.forall₂_eq_eq_eq] at hrows
  exact hrows.symm

/-- What is desired is written, and its rows keep their names in grouping. -/
structure FlatRow.Settled (policy : Policy) (row : FlatRow) : Prop where
  normalized : row.normalize policy = row
  replaces : row.changeType = .replace

/-- Grouping renames neither what a zone has nor what is desired of it. -/
structure Reconciliation.Steady (policy : Policy) (desired : List FlatRow) (current : List RRset) :
    Prop where
  current : ∀ rrset ∈ current, (FlatRow.deletion rrset.key).ownerName policy = rrset.name
  desired : ∀ row ∈ desired, row.Settled policy

/-- Grouping neither brings anything under a key nor takes anything away from it. -/
structure Reconciliation.SteadyAt (policy : Policy) (desired : List FlatRow)
    (current : List RRset) (key : RRsetKey) : Prop where
  replaces : ∀ row ∈ desired, row.changeType = .replace
  current : ∀ r ∈ current, r.key.owned policy = key ↔ r.key = key
  desired : ∀ row ∈ desired, row.key.owned policy = key ↔ row.key = key

namespace Reconciliation

variable {policy : Policy} {desired : List FlatRow} {current : List RRset} {key : RRsetKey}

theorem Steady.steadyAt (h : Steady policy desired current) (key : RRsetKey) :
    SteadyAt policy desired current key where
  replaces row hrow := (h.desired row hrow).replaces
  current r hr := by
    have hsame : r.key.owned policy = r.key := congrArg (RRsetKey.mk · r.type) (h.current r hr)
    rw [hsame]
  desired row hrow := by
    rw [← FlatRow.key_normalize, (h.desired row hrow).normalized]

/-- Keys that are not those of pointers are steady in any case. -/
theorem steadyAt_of_plain (hdesired : ∀ row ∈ desired, row.changeType = .replace)
    (h : ¬(policy.prettyIPv6Ptr = true ∧ key.type = .named .ptr)) :
    SteadyAt policy desired current key :=
  ⟨hdesired, fun _ _ => RRsetKey.owned_eq_iff_of_plain h,
    fun _ _ => RRsetKey.owned_eq_iff_of_plain h⟩

/-- So are the keys of addresses. -/
theorem steadyAt_of_isAddress (hdesired : ∀ row ∈ desired, row.changeType = .replace)
    (h : key.type.isAddress = true) : SteadyAt policy desired current key := by
  refine steadyAt_of_plain hdesired ?_
  rintro ⟨-, hpointer⟩
  rw [hpointer] at h
  contradiction

end Reconciliation

theorem Policy.KeepsOwners.steady {policy : Policy} {zone : String} {rows : List Row}
    {current : List RRset} {desired : List FlatRow} (h : policy.KeepsOwners zone rows current)
    (hdesired : desiredRows zone policy rows = .ok desired) :
    Reconciliation.Steady policy desired current := by
  refine ⟨h.current, fun row hrow => ?_⟩
  rw [eq_of_desiredRows hdesired] at hrow
  obtain ⟨source, hsource, rfl⟩ := List.mem_map.mp hrow
  exact ⟨FlatRow.normalize_eq_self (h.rows source (List.mem_filter.mp hsource).1), rfl⟩

/-! ### The parts of a reconciliation -/

namespace Reconciliation

/-- The record sets that are desired. -/
def wanted (policy : Policy) (desired : List FlatRow) : List RRset :=
  (Batches.ofRows policy desired).replaces

/-- The record sets that nobody wants any longer and that may be taken away. -/
def removed (policy : Policy) (desired : List FlatRow) (current : List RRset) : List RRset :=
  current.filter fun rrset =>
    !((wanted policy desired).any fun w => w.key = rrset.key) && policy.mayDelete rrset.type

/-- The desired record sets that are not what the zone holds. -/
def changed (policy : Policy) (desired : List FlatRow) (current : List RRset) : List RRset :=
  (wanted policy desired).filter (needsWrite current)

/-- What leads from the current record sets to the desired rows. -/
def between (policy : Policy) (desired : List FlatRow) (current : List RRset) :
    Reconciliation where
  deleted := (removed policy desired current).flatMap RRset.deletionRows
  added := desired.filter fun row => (changed policy desired current).any fun w => w.key = row.key
  prior := removed policy desired current ++
    (changed policy desired current).filterMap fun w => currentWithKey? current w.key

theorem reconcile_eq (zone : String) (policy : Policy) (rows : List Row) (current : List RRset) :
    reconcile zone policy rows current =
      (desiredRows zone policy rows).map fun desired => between policy desired current := by
  unfold reconcile
  cases desiredRows zone policy rows <;> rfl

/-- A reconciliation that succeeds leads to the rows that are desired. -/
theorem eq_between_of_reconcile {zone : String} {policy : Policy} {rows : List Row}
    {current : List RRset} {r : Reconciliation} (h : reconcile zone policy rows current = .ok r) :
    ∃ desired, desiredRows zone policy rows = .ok desired ∧ r = between policy desired current := by
  rw [reconcile_eq] at h
  cases hdesired : desiredRows zone policy rows with
  | error e =>
    rw [hdesired] at h
    contradiction
  | ok desired =>
    rw [hdesired] at h
    exact ⟨desired, rfl, (Except.ok.inj h).symm⟩

variable {policy : Policy} {desired : List FlatRow} {current : List RRset}

theorem wanted_nodup : ((wanted policy desired).map RRset.key).Nodup :=
  Batches.replaces_nodup

theorem mem_removed {r : RRset} :
    r ∈ removed policy desired current ↔
      r ∈ current ∧ (∀ w ∈ wanted policy desired, w.key ≠ r.key) ∧ policy.mayDelete r.type := by
  simp [removed]

theorem mem_changed {w : RRset} :
    w ∈ changed policy desired current ↔ w ∈ wanted policy desired ∧ needsWrite current w := by
  simp [changed]

theorem mem_deleted {row : FlatRow} (h : row ∈ (between policy desired current).deleted) :
    ∃ r ∈ removed policy desired current, row.key = r.key ∧ row.changeType = .delete := by
  obtain ⟨r, hr, hrow⟩ := List.mem_flatMap.mp h
  exact ⟨r, hr, RRset.mem_deletionRows hrow⟩

theorem mem_added {row : FlatRow} :
    row ∈ (between policy desired current).added ↔
      row ∈ desired ∧ ∃ w ∈ changed policy desired current, w.key = row.key := by
  simp [between]

/-! ### The batches of a reconciliation -/

section Batches

/-- The rows that write a record set that has changed are those desired for it. -/
theorem rowsFor_replace_of_changed {w : RRset} (hsteady : SteadyAt policy desired current w.key)
    (hw : w ∈ changed policy desired current) :
    Batches.rowsFor policy
        ((between policy desired current).deleted ++ (between policy desired current).added)
        .replace w.key =
      Batches.rowsFor policy desired .replace w.key := by
  have hdeleted : ((between policy desired current).deleted.map (FlatRow.normalize policy)).filter
      (fun row => decide (row.key = w.key ∧ row.changeType = .replace)) = [] := by
    refine List.filter_eq_nil_iff.mpr (List.forall_mem_map.mpr fun row hrow => ?_)
    obtain ⟨-, -, -, hdelete⟩ := mem_deleted hrow
    simp [FlatRow.normalize, hdelete]
  unfold Batches.rowsFor
  rw [List.map_append, List.filter_append, hdeleted, List.nil_append, List.filter_map,
    List.filter_map]
  refine congrArg (List.map _)
    ((List.filter_filter ..).trans (List.filter_congr fun row hrow => ?_))
  refine Bool.and_eq_left_iff_imp.mpr fun hrowKey => ?_
  obtain ⟨hkey, -⟩ := of_decide_eq_true hrowKey
  rw [FlatRow.key_normalize, hsteady.desired row hrow] at hkey
  exact List.any_eq_true.mpr ⟨w, hw, by simp [hkey]⟩

/-- **What is written is what is desired and not there,** one key at a time. -/
theorem mem_replaces_between {w : RRset} (hsteady : SteadyAt policy desired current w.key) :
    w ∈ ((between policy desired current).batches policy).replaces ↔
      w ∈ changed policy desired current := by
  constructor
  · intro hw
    obtain ⟨first, others, hcons, hmade⟩ := Batches.mem_replaces.mp hw
    -- the first row is there because some changed record set has its key
    obtain ⟨hfirst, hkey, hreplace⟩ := Batches.mem_rowsFor.mp (hcons ▸ List.mem_cons_self)
    obtain ⟨row, hrow, rfl⟩ := List.mem_map.mp hfirst
    rcases List.mem_append.mp hrow with hdeleted | hadded
    · obtain ⟨-, -, -, hdelete⟩ := mem_deleted hdeleted
      exact absurd (hdelete.symm.trans hreplace) (by decide)
    obtain ⟨hrow, v, hv, hvkey⟩ := mem_added.mp hadded
    have hvw : v.key = w.key := hvkey.trans ((hsteady.desired row hrow).mp hkey)
    rw [← hvw, rowsFor_replace_of_changed (hvw ▸ hsteady) hv, hvw] at hcons
    have hwanted : w ∈ wanted policy desired := Batches.mem_replaces.mpr ⟨_, _, hcons, hmade⟩
    rwa [← RRset.eq_of_key_eq wanted_nodup (mem_changed.mp hv).1 hwanted hvw]
  · intro hw
    obtain ⟨first, others, hcons, hmade⟩ := Batches.mem_replaces.mp (mem_changed.mp hw).1
    refine Batches.mem_replaces.mpr ⟨first, others, ?_, hmade⟩
    rw [rowsFor_replace_of_changed hsteady hw, hcons]

/-- **What is written is what is desired and not there.** -/
theorem replaces_between (hsteady : Steady policy desired current) :
    ((between policy desired current).batches policy).replaces =
      changed policy desired current :=
  eq_of_ascending Batches.replaces_ascending (Batches.replaces_ascending.filter _)
    fun w => mem_replaces_between (hsteady.steadyAt w.key)

/-- **What is deleted is what nobody wants and the policy lets go.** -/
theorem mem_deletes_between {key : RRsetKey} (hsteady : SteadyAt policy desired current key) :
    key ∈ ((between policy desired current).batches policy).deletes ↔
      ∃ r ∈ removed policy desired current, r.key = key := by
  unfold batches
  rw [Batches.mem_deletes]
  constructor
  · rintro ⟨row, hrow, hkey, hdelete⟩
    obtain ⟨source, hsource, rfl⟩ := List.mem_map.mp hrow
    rcases List.mem_append.mp hsource with hdeleted | hadded
    · obtain ⟨r, hr, hsame, -⟩ := mem_deleted hdeleted
      rw [FlatRow.key_normalize, hsame] at hkey
      exact ⟨r, hr, (hsteady.current r (mem_removed.mp hr).1).mp hkey⟩
    · have hreplace := hsteady.replaces source (mem_added.mp hadded).1
      exact absurd (hreplace.symm.trans hdelete) (by decide)
  · rintro ⟨r, hr, rfl⟩
    obtain ⟨row, hrow⟩ := List.exists_mem_of_ne_nil _ r.deletionRows_ne_nil
    obtain ⟨hkey, hdelete⟩ := RRset.mem_deletionRows hrow
    have hmem : row ∈ (between policy desired current).deleted := List.mem_flatMap.mpr ⟨r, hr, hrow⟩
    refine ⟨row.normalize policy, List.mem_map_of_mem (List.mem_append_left _ hmem), ?_, hdelete⟩
    rw [FlatRow.key_normalize, hkey]
    exact (hsteady.current r (mem_removed.mp hr).1).mpr rfl

/-- What the history keeps was there, under a key that is deleted or written. -/
theorem touched_of_mem_prior {r : RRset} (hsteady : SteadyAt policy desired current r.key)
    (hr : r ∈ (between policy desired current).prior) :
    r ∈ current ∧ (r.key ∈ ((between policy desired current).batches policy).deletes ∨
      r.key ∈ ((between policy desired current).batches policy).replaces.map RRset.key) := by
  rcases List.mem_append.mp hr with hremoved | hchanged
  · have hdeleted := (mem_deletes_between hsteady).mpr ⟨r, hremoved, rfl⟩
    exact ⟨(mem_removed.mp hremoved).1, Or.inl hdeleted⟩
  · obtain ⟨w, hw, hcurrent⟩ := List.mem_filterMap.mp hchanged
    obtain ⟨hmem, hkey⟩ := mem_of_currentWithKey? hcurrent
    have hwritten := (mem_replaces_between (hkey ▸ hsteady)).mpr hw
    exact ⟨hmem, Or.inr (hkey ▸ List.mem_map_of_mem hwritten)⟩

/-- Where the zone's keys are distinct, the history keeps exactly the record sets of the zone
under the keys that are deleted or written. -/
theorem mem_prior (hsteady : Steady policy desired current) (hnodup : (current.map RRset.key).Nodup)
    {r : RRset} :
    r ∈ (between policy desired current).prior ↔
      r ∈ current ∧ (r.key ∈ ((between policy desired current).batches policy).deletes ∨
        r.key ∈ ((between policy desired current).batches policy).replaces.map RRset.key) := by
  refine ⟨touched_of_mem_prior (hsteady.steadyAt r.key), ?_⟩
  rw [mem_deletes_between (hsteady.steadyAt r.key), replaces_between hsteady]
  simp only [between, List.mem_append, List.mem_filterMap, List.mem_map]
  rintro ⟨hmem, ⟨s, hs, hkey⟩ | ⟨w, hw, hkey⟩⟩
  · rw [RRset.eq_of_key_eq hnodup (mem_removed.mp hs).1 hmem hkey] at hs
    exact Or.inl hs
  · refine Or.inr ⟨w, hw, ?_⟩
    rw [hkey, currentWithKey?_eq, RRset.withKey_of_mem hnodup hmem, List.getLast?_singleton]

end Batches

end Reconciliation

end ZoneKeeper
