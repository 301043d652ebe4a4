/-
What the nameserver in memory does with the batches of a run.

A batch is applied one change after another, but as no key occurs in it twice, its effect
can be said at once: the named keys are taken out, and what is written comes at the end.
`Batches.leave` is that for both batches together, and the lemmas on `withKey` look at it one
key at a time.  A patch that is refused changes no zone, and one that is accepted changes
only the zone that it names.
-/
import ZoneKeeper.Proofs.Reconciliation
import ZoneKeeper.Nameserver

namespace ZoneKeeper

/-! ### Batches on record sets -/

namespace Nameserver

theorem applyChange_delete (rrsets : List RRset) (key : RRsetKey) :
    applyChange rrsets (.delete key) = rrsets.filter fun r => r.key ≠ key := by
  unfold applyChange
  rw [if_neg (by simp [Change.delete])]
  rfl

theorem applyChange_replace (rrsets : List RRset) {w : RRset} (hw : w.records ≠ []) :
    applyChange rrsets (.replace w) = (rrsets.filter fun r => r.key ≠ w.key) ++ [w] := by
  unfold applyChange
  rw [if_pos ⟨rfl, hw⟩]
  rfl

/-- A batch of deletions takes out the keys it names. -/
theorem foldl_delete (keys : List RRsetKey) (rrsets : List RRset) :
    (keys.map Change.delete).foldl applyChange rrsets =
      rrsets.filter fun r => r.key ∉ keys := by
  induction keys generalizing rrsets with
  | nil => simp
  | cons key keys ih =>
    rw [List.map_cons, List.foldl_cons, ih, applyChange_delete, List.filter_filter]
    refine List.filter_congr fun r _ => ?_
    simp [Bool.and_comm]

/-- A batch of replacements takes out the keys it names and appends what it writes. -/
theorem foldl_replace {ws : List RRset} (hnodup : (ws.map RRset.key).Nodup)
    (hrecords : ∀ w ∈ ws, w.records ≠ []) (rrsets : List RRset) :
    (ws.map Change.replace).foldl applyChange rrsets =
      (rrsets.filter fun r => r.key ∉ ws.map RRset.key) ++ ws := by
  induction ws generalizing rrsets with
  | nil => simp
  | cons w ws ih =>
    rw [List.map_cons, List.nodup_cons] at hnodup
    obtain ⟨hfresh, hnodup⟩ := hnodup
    rw [List.map_cons, List.foldl_cons, applyChange_replace _ (hrecords w List.mem_cons_self),
      ih hnodup fun v hv => hrecords v (List.mem_cons_of_mem w hv), List.filter_append,
      List.filter_filter, List.filter_cons_of_pos (by simpa using hfresh), List.filter_nil,
      List.append_assoc, List.singleton_append]
    congr 1
    refine List.filter_congr fun r _ => ?_
    simp [Bool.and_comm]

end Nameserver

namespace Batches

/-- Batches as grouping makes them: no key occurs twice in one, and nothing empty is written. -/
structure WellFormed (batches : Batches) : Prop where
  deletes_nodup : batches.deletes.Nodup
  replaces_nodup : (batches.replaces.map RRset.key).Nodup
  records : ∀ w ∈ batches.replaces, w.records ≠ []

theorem wellFormed_ofRows (policy : Policy) (rows : List FlatRow) :
    (ofRows policy rows).WellFormed :=
  ⟨Batches.deletes_nodup, Batches.replaces_nodup, fun _ hw => records_ne_nil hw⟩

/-- What the first batch leaves of a zone's record sets. -/
def leaveDeleted (batches : Batches) (rrsets : List RRset) : List RRset :=
  rrsets.filter fun r => r.key ∉ batches.deletes

/-- What both batches leave of a zone's record sets. -/
def leave (batches : Batches) (rrsets : List RRset) : List RRset :=
  ((batches.leaveDeleted rrsets).filter fun r => r.key ∉ batches.replaces.map RRset.key) ++
    batches.replaces

variable {batches : Batches} {rrsets : List RRset}

theorem foldl_deleteChanges :
    batches.deleteChanges.foldl Nameserver.applyChange rrsets = batches.leaveDeleted rrsets :=
  Nameserver.foldl_delete batches.deletes rrsets

theorem foldl_replaceChanges (h : batches.WellFormed) :
    batches.replaceChanges.foldl Nameserver.applyChange (batches.leaveDeleted rrsets) =
      batches.leave rrsets :=
  Nameserver.foldl_replace h.replaces_nodup h.records _

theorem mem_leave {r : RRset} :
    r ∈ batches.leave rrsets ↔ r ∈ batches.replaces ∨
      r ∈ rrsets ∧ r.key ∉ batches.deletes ∧ r.key ∉ batches.replaces.map RRset.key := by
  simp only [leave, leaveDeleted, List.mem_append, List.mem_filter, decide_eq_true_eq]
  tauto

/-- What is written is the only record set with its key. -/
theorem withKey_leave_of_written (h : batches.WellFormed) {w : RRset} (hw : w ∈ batches.replaces) :
    RRset.withKey (batches.leave rrsets) w.key = [w] := by
  have hold : RRset.withKey
      ((batches.leaveDeleted rrsets).filter fun r => r.key ∉ batches.replaces.map RRset.key)
      w.key = [] := by
    refine RRset.withKey_eq_nil.mpr fun r hr hkey => ?_
    have hfresh := (List.mem_filter.mp hr).2
    rw [decide_eq_true_eq, hkey] at hfresh
    exact hfresh (List.mem_map_of_mem hw)
  rw [leave, RRset.withKey_append, hold, List.nil_append,
    RRset.withKey_of_mem h.replaces_nodup hw]

/-- A key that is deleted and not written again is gone. -/
theorem withKey_leave_of_deleted {key : RRsetKey} (hdeleted : key ∈ batches.deletes)
    (hwritten : key ∉ batches.replaces.map RRset.key) :
    RRset.withKey (batches.leave rrsets) key = [] := by
  refine RRset.withKey_eq_nil.mpr fun r hr => ?_
  rintro rfl
  rcases mem_leave.mp hr with hr | ⟨-, hkept, -⟩
  · exact hwritten (List.mem_map_of_mem hr)
  · exact hkept hdeleted

/-- A key that no batch names is left alone. -/
theorem withKey_leave_of_not_mem {key : RRsetKey} (hdeleted : key ∉ batches.deletes)
    (hwritten : key ∉ batches.replaces.map RRset.key) :
    RRset.withKey (batches.leave rrsets) key = RRset.withKey rrsets key := by
  have hnew : RRset.withKey batches.replaces key = [] :=
    RRset.withKey_eq_nil.mpr fun r hr hkey => hwritten (hkey ▸ List.mem_map_of_mem hr)
  rw [leave, RRset.withKey_append, hnew, List.append_nil]
  unfold RRset.withKey leaveDeleted
  rw [List.filter_filter, List.filter_filter]
  refine List.filter_congr fun r _ => ?_
  by_cases hkey : r.key = key
  · simp [hkey, hdeleted, hwritten]
  · simp [hkey]

/-- Batches keep the keys of a zone distinct. -/
theorem nodup_leave (h : batches.WellFormed) (hnodup : (rrsets.map RRset.key).Nodup) :
    ((batches.leave rrsets).map RRset.key).Nodup := by
  have hold : (((batches.leaveDeleted rrsets).filter fun r =>
      r.key ∉ batches.replaces.map RRset.key).map RRset.key).Nodup :=
    hnodup.sublist ((List.filter_sublist.trans List.filter_sublist).map RRset.key)
  rw [leave, List.map_append]
  refine List.nodup_append.mpr ⟨hold, h.replaces_nodup, ?_⟩
  rintro key hkey key' hkey' rfl
  obtain ⟨r, hr, rfl⟩ := List.mem_map.mp hkey
  have hfresh := (List.mem_filter.mp hr).2
  rw [decide_eq_true_eq] at hfresh
  exact hfresh hkey'

end Batches

/-! ### Patches -/

namespace Nameserver

variable {server : Nameserver} {zone : String}

/-- Two spellings of a zone differ at most in trailing dots. -/
def SameZone (zone other : String) : Prop :=
  DomainName.relative zone = DomainName.relative other

theorem zone?_congr {other : String} (h : SameZone zone other) :
    server.zone? zone = server.zone? other := by
  rw [zone?, zone?, h]

/-- The server with another state of one zone. -/
def withZone (server : Nameserver) (zone : String) (snapshot : Snapshot) : Nameserver :=
  { server with zones := Table.put (DomainName.relative zone) snapshot server.zones }

theorem zone?_withZone_self (snapshot : Snapshot) {other : String} (h : SameZone other zone) :
    (server.withZone zone snapshot).zone? other = some snapshot := by
  rw [zone?_congr h]
  exact Table.lookup_put_self _ _ _

theorem zone?_withZone_of_ne (snapshot : Snapshot) {other : String} (h : ¬SameZone other zone) :
    (server.withZone zone snapshot).zone? other = server.zone? other :=
  Table.lookup_put_of_ne h _ _

/-- The server that remembers one more request for a patch. -/
def logged (server : Nameserver) (zone : String) (changes : List Change) : Nameserver :=
  { server with patches := server.patches ++ [⟨DomainName.relative zone, changes⟩] }

/-- An accepted patch makes its changes to the zone it names. -/
theorem eq_of_patch_ok {changes : List Change} {after : Nameserver}
    (h : server.patch zone changes = (.ok (), after)) :
    ∃ snapshot, server.zone? zone = some snapshot ∧
      after = (server.logged zone changes).withZone zone (patched snapshot changes) := by
  unfold patch patchResult fetch at h
  split at h
  · next snapshot hresult =>
    split at hresult
    · contradiction
    · split at hresult
      · contradiction
      · cases hzone : server.zone? zone with
        | none => simp [hzone, Except.map] at hresult
        | some found =>
          simp only [hzone, Except.map, Except.ok.injEq] at hresult
          obtain rfl := hresult
          exact ⟨found, rfl, ((Prod.mk.inj h).2).symm⟩
  · simp at h

/-- A refused patch is remembered, and that is all. -/
theorem eq_of_patch_error {changes : List Change} {after : Nameserver} {e : ApiError}
    (h : server.patch zone changes = (.error e, after)) : after = server.logged zone changes := by
  unfold patch at h
  split at h
  · simp at h
  · exact ((Prod.mk.inj h).2).symm

/-! ### What requests leave of the other zones -/

variable {changes : List Change} {type other : String} {after : Nameserver} {snapshot : Snapshot}
  {result : Except ApiError Unit}

/-- Every patch is remembered, whatever became of it. -/
theorem patches_of_patch (h : server.patch zone changes = (result, after)) :
    after.patches = server.patches ++ [⟨DomainName.relative zone, changes⟩] := by
  cases result with
  | ok _ =>
    obtain ⟨found, -, rfl⟩ := eq_of_patch_ok h
    rfl
  | error e =>
    rw [eq_of_patch_error h]
    rfl

/-- A zone is after a patch as it was, or the patch was made to it. -/
theorem zone?_of_patch (h : server.patch zone changes = (result, after))
    (hother : server.zone? other = some snapshot) :
    after.zone? other = some snapshot ∨ after.zone? other = some (patched snapshot changes) := by
  cases result with
  | ok _ =>
    obtain ⟨found, hfound, rfl⟩ := eq_of_patch_ok h
    by_cases hsame : SameZone other zone
    · rw [zone?_congr hsame, hfound] at hother
      obtain rfl := Option.some.inj hother
      exact Or.inr (zone?_withZone_self _ hsame)
    · rw [zone?_withZone_of_ne _ hsame]
      exact Or.inl hother
  | error e =>
    rw [eq_of_patch_error h]
    exact Or.inl hother

/-- Creating a zone leaves those that exist as they are. -/
theorem zone?_of_create (h : server.create zone type = (result, after))
    (hother : server.zone? other = some snapshot) : after.zone? other = some snapshot := by
  unfold create at h
  split at h
  · cases h
    exact hother
  · next hfree =>
    cases h
    have hne : ¬SameZone other zone := fun hsame =>
      hfree (by rw [hasZone, ← zone?_congr hsame, hother]; rfl)
    exact (Table.lookup_put_of_ne hne _ _).trans hother

theorem patches_of_create (h : server.create zone type = (result, after)) :
    after.patches = server.patches := by
  unfold create at h
  split at h <;> cases h <;> rfl

/-! ### Requests that are accepted -/

theorem repeatedKey?_eq_none {seen keys : List RRsetKey} (hnodup : keys.Nodup)
    (hfresh : ∀ key ∈ keys, key ∉ seen) : repeatedKey? seen keys = none := by
  induction keys generalizing seen with
  | nil => rfl
  | cons key keys ih =>
    obtain ⟨hkey, hnodup⟩ := List.nodup_cons.mp hnodup
    rw [repeatedKey?, if_neg (by simpa using hfresh key List.mem_cons_self)]
    refine ih hnodup fun other hother hseen => ?_
    rcases List.mem_cons.mp hseen with rfl | hseen
    · exact hkey hother
    · exact hfresh other (List.mem_cons_of_mem key hother) hseen

/-- A patch of an existing zone is accepted if it names no record set twice. -/
theorem patch_of_nodup (hfailing : server.failing = []) (hzone : server.zone? zone = some snapshot)
    (hnodup : (changes.map Change.key).Nodup) :
    server.patch zone changes =
      (.ok (), (server.logged zone changes).withZone zone (patched snapshot changes)) := by
  have hresult : server.patchResult zone changes = .ok (patched snapshot changes) := by
    rw [patchResult, hfailing, if_neg (by simp), repeatedKey?_eq_none hnodup (by simp), fetch,
      hzone]
    rfl
  rw [patch, hresult]
  rfl

/-- A zone that does not exist can be created, and nothing else comes to be. -/
theorem create_of_free (h : server.hasZone zone = false) (type : String) :
    ∃ after, server.create zone type = (.ok (), after) ∧ after.failing = server.failing ∧
      after.hasZone zone = true ∧
      ∀ other, ¬SameZone other zone → after.zone? other = server.zone? other := by
  unfold create
  rw [h, if_neg Bool.false_ne_true]
  refine ⟨_, rfl, rfl, ?_, fun other hother => Table.lookup_put_of_ne hother _ _⟩
  rw [hasZone, zone?]
  exact congrArg Option.isSome (Table.lookup_put_self _ _ _)

end Nameserver

/-! ### From one server to another -/

namespace Nameserver

/-- No zone is changed or created. -/
structure Untouched (server after : Nameserver) : Prop where
  zones : after.zones = server.zones
  created : after.created = server.created

/-- One zone comes to be `snapshot`, and no other zone is changed or created. -/
structure Moved (server after : Nameserver) (zone : String) (snapshot : Snapshot) : Prop where
  own : after.zone? zone = some snapshot
  others : ∀ other, ¬SameZone other zone → after.zone? other = server.zone? other
  created : after.created = server.created

variable {server middle after : Nameserver} {zone : String} {snapshot : Snapshot}

theorem Untouched.refl (server : Nameserver) : Untouched server server :=
  ⟨rfl, rfl⟩

theorem Untouched.zone? (h : Untouched server after) (zone : String) :
    after.zone? zone = server.zone? zone := by
  rw [Nameserver.zone?, Nameserver.zone?, h.zones]

theorem Moved.refl (h : server.zone? zone = some snapshot) : Moved server server zone snapshot :=
  ⟨h, fun _ _ => rfl, rfl⟩

theorem Moved.trans {step : Snapshot} (h₁ : Moved server middle zone step)
    (h₂ : Moved middle after zone snapshot) : Moved server after zone snapshot :=
  ⟨h₂.own, fun other hne => (h₂.others other hne).trans (h₁.others other hne),
    h₂.created.trans h₁.created⟩

theorem Moved.trans_untouched (h₁ : Moved server middle zone snapshot)
    (h₂ : Untouched middle after) : Moved server after zone snapshot :=
  ⟨(h₂.zone? zone).trans h₁.own, fun other hne => (h₂.zone? other).trans (h₁.others other hne),
    h₂.created.trans h₁.created⟩

theorem moved_of_patch_ok {changes : List Change} {before : Snapshot}
    (hzone : server.zone? zone = some before)
    (h : server.patch zone changes = (.ok (), after)) :
    Moved server after zone (patched before changes) := by
  obtain ⟨found, hfound, rfl⟩ := eq_of_patch_ok h
  obtain rfl : before = found := Option.some.inj (hzone.symm.trans hfound)
  exact ⟨zone?_withZone_self _ rfl, fun other hne => zone?_withZone_of_ne _ hne, rfl⟩

theorem untouched_of_patch_error {changes : List Change} {e : ApiError}
    (h : server.patch zone changes = (.error e, after)) : Untouched server after := by
  rw [eq_of_patch_error h]
  exact ⟨rfl, rfl⟩

end Nameserver

/-! ### A zone after the batches of a run -/

/-- A zone after a batch, which is not sent if it is empty. -/
def Snapshot.after (snapshot : Snapshot) (changes : List Change) : Snapshot :=
  if changes.isEmpty then snapshot else Nameserver.patched snapshot changes

namespace Batches

/-- The number of batches that are sent. -/
def sent (batches : Batches) : UInt32 :=
  (if batches.deletes.isEmpty then 0 else 1) + (if batches.replaces.isEmpty then 0 else 1)

/-- The zone with the deletions made and nothing else. -/
def deleteFrom (batches : Batches) (before : Snapshot) : Snapshot :=
  { before with serial := before.serial + 1, rrsets := batches.leaveDeleted before.rrsets }

/-- The zone with the deletions and then the replacements made. -/
def applyTo (batches : Batches) (before : Snapshot) : Snapshot :=
  { before with
    serial := before.serial + batches.sent
    rrsets := batches.leave before.rrsets }

variable {batches : Batches}

theorem after_deleteChanges (h : batches.deletes ≠ []) (before : Snapshot) :
    before.after batches.deleteChanges = batches.deleteFrom before := by
  have hne : batches.deleteChanges.isEmpty = false := by simpa [deleteChanges] using h
  rw [Snapshot.after, hne, deleteFrom, ← foldl_deleteChanges]
  rfl

theorem after_replaceChanges (h : batches.WellFormed) (before : Snapshot) :
    (before.after batches.deleteChanges).after batches.replaceChanges =
      batches.applyTo before := by
  have hleave : batches.replaceChanges.foldl Nameserver.applyChange
      (batches.deleteChanges.foldl Nameserver.applyChange before.rrsets) =
      batches.leave before.rrsets := by
    rw [foldl_deleteChanges, foldl_replaceChanges h]
  unfold applyTo sent
  rw [← hleave]
  cases hdeletes : batches.deletes with
  | nil =>
    have hdelete : batches.deleteChanges = [] := by simp [deleteChanges, hdeletes]
    rw [hdelete]
    cases hreplaces : batches.replaces with
    | nil => simp [Snapshot.after, replaceChanges, hreplaces]
    | cons w ws => simp [Snapshot.after, replaceChanges, hreplaces, Nameserver.patched]
  | cons key keys =>
    have hdelete : batches.deleteChanges ≠ [] := by simp [deleteChanges, hdeletes]
    cases hreplaces : batches.replaces with
    | nil => simp [Snapshot.after, hdelete, replaceChanges, hreplaces, Nameserver.patched]
    | cons w ws =>
      simp [Snapshot.after, hdelete, replaceChanges, hreplaces, Nameserver.patched,
        UInt32.add_assoc]

end Batches

end ZoneKeeper
