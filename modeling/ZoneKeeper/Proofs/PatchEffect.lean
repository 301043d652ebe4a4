/-
What one patch makes of the nameserver.

A zone is a list of record sets, and a patch goes through its changes one after another, taking
out and appending.  Seen from outside it is an update of a map: the keys that are named come to
hold what their changes leave under them, and everything else stays where it is.  As the named
keys are distinct, the record sets that are written end up behind the others in the order of the
changes (`foldl_applyChange`), and so nothing but that order depends on the order of the changes.

Everything that can be wrong with a patch is looked at before the first change is made.  That is
why a refused patch leaves no trace in any zone.
-/
import ZoneKeeper.Proofs.Requests

namespace ZoneKeeper

/-! ### One key at a time -/

/-- The record sets that a change leaves under its key. -/
def Change.leaves (change : Change) : List RRset :=
  if change.type = .replace ∧ change.rrset.records ≠ [] then [change.rrset] else []

namespace Nameserver

variable {server after : Nameserver} {zone : String} {changes shuffled : List Change}
  {change : Change} {key : RRsetKey} {rrsets : List RRset}

theorem applyChange_eq (rrsets : List RRset) (change : Change) :
    applyChange rrsets change = (rrsets.filter fun r => r.key ≠ change.key) ++ change.leaves := by
  unfold applyChange Change.leaves
  split
  · rfl
  · rw [List.append_nil]

theorem key_of_mem_leaves {r : RRset} (h : r ∈ change.leaves) : r.key = change.key := by
  unfold Change.leaves at h
  split at h
  · rw [List.mem_singleton.mp h]
    rfl
  · contradiction

theorem withKey_applyChange (rrsets : List RRset) (change : Change) (key : RRsetKey) :
    RRset.withKey (applyChange rrsets change) key =
      if change.key = key then change.leaves else RRset.withKey rrsets key := by
  rw [applyChange_eq, RRset.withKey_append]
  split
  · next hkey =>
    subst hkey
    have hothers : RRset.withKey (rrsets.filter fun r => r.key ≠ change.key) change.key = [] :=
      RRset.withKey_eq_nil.mpr fun r hr => of_decide_eq_true (List.mem_filter.mp hr).2
    have hown : RRset.withKey change.leaves change.key = change.leaves :=
      List.filter_eq_self.mpr fun r hr => decide_eq_true (key_of_mem_leaves hr)
    rw [hothers, hown, List.nil_append]
  · next hkey =>
    have hothers : RRset.withKey (rrsets.filter fun r => r.key ≠ change.key) key =
        RRset.withKey rrsets key := by
      unfold RRset.withKey
      rw [List.filter_filter]
      refine List.filter_congr fun r _ => ?_
      by_cases hr : r.key = key
      · simp [hr, Ne.symm hkey]
      · simp [hr]
    have hown : RRset.withKey change.leaves key = [] :=
      RRset.withKey_eq_nil.mpr fun r hr => key_of_mem_leaves hr ▸ hkey
    rw [hothers, hown, List.append_nil]

/-- A key that no change is about keeps what it holds. -/
theorem withKey_foldl_of_not_mem (hkey : key ∉ changes.map Change.key) (rrsets : List RRset) :
    RRset.withKey (changes.foldl applyChange rrsets) key = RRset.withKey rrsets key :=
  filter_foldl_applyChange (p := fun other => other = key) (fun _ hchange =>
    decide_eq_false fun hsame => hkey (hsame ▸ List.mem_map_of_mem hchange)) rrsets

/-- Of changes with distinct keys, each leaves under its key what it leaves alone. -/
theorem withKey_foldl_of_mem (hnodup : (changes.map Change.key).Nodup) (hchange : change ∈ changes)
    (rrsets : List RRset) :
    RRset.withKey (changes.foldl applyChange rrsets) change.key = change.leaves := by
  induction changes generalizing rrsets with
  | nil => contradiction
  | cons first rest ih =>
    rw [List.map_cons, List.nodup_cons] at hnodup
    rw [List.foldl_cons]
    rcases List.mem_cons.mp hchange with rfl | hrest
    · rw [withKey_foldl_of_not_mem hnodup.1, withKey_applyChange, if_pos rfl]
    · exact ih hnodup.2 hrest _

/-! ### All keys at once -/

/-- The record sets under the keys that no change is about. -/
def unnamed (changes : List Change) (rrsets : List RRset) : List RRset :=
  rrsets.filter fun r => r.key ∉ changes.map Change.key

/-- Changes with distinct keys take out what they are about and append what they write. -/
theorem foldl_applyChange (hnodup : (changes.map Change.key).Nodup) (rrsets : List RRset) :
    changes.foldl applyChange rrsets = unnamed changes rrsets ++ changes.flatMap Change.leaves := by
  induction changes generalizing rrsets with
  | nil => simp [unnamed]
  | cons first rest ih =>
    rw [List.map_cons, List.nodup_cons] at hnodup
    have hothers : unnamed rest (rrsets.filter fun r => r.key ≠ first.key) =
        unnamed (first :: rest) rrsets := by
      unfold unnamed
      rw [List.filter_filter]
      refine List.filter_congr fun r _ => ?_
      simp [Bool.and_comm]
    have hown : unnamed rest first.leaves = first.leaves :=
      List.filter_eq_self.mpr fun r hr =>
        decide_eq_true ((key_of_mem_leaves hr).symm ▸ hnodup.1)
    rw [List.foldl_cons, ih hnodup.2, applyChange_eq, unnamed, List.filter_append, ← unnamed,
      ← unnamed, hothers, hown, List.flatMap_cons, List.append_assoc]

theorem unnamed_foldl_applyChange (changes : List Change) (rrsets : List RRset) :
    unnamed changes (changes.foldl applyChange rrsets) = unnamed changes rrsets :=
  filter_foldl_applyChange (p := fun key => key ∉ changes.map Change.key)
    (fun _ hchange => decide_eq_false fun hfree => hfree (List.mem_map_of_mem hchange)) rrsets

theorem unnamed_perm (h : changes.Perm shuffled) (rrsets : List RRset) :
    unnamed changes rrsets = unnamed shuffled rrsets :=
  List.filter_congr fun _ _ => decide_eq_decide.mpr (not_congr (h.map Change.key).mem_iff)

/-- Changes with distinct keys can be made in any order. -/
theorem foldl_applyChange_perm (h : changes.Perm shuffled)
    (hnodup : (changes.map Change.key).Nodup) (rrsets : List RRset) :
    (changes.foldl applyChange rrsets).Perm (shuffled.foldl applyChange rrsets) := by
  rw [foldl_applyChange hnodup, foldl_applyChange ((h.map Change.key).nodup_iff.mp hnodup),
    unnamed_perm h]
  exact (h.flatMap_right Change.leaves).append_left _

/-! ### What is refused -/

/-- The first repeated key is one that occurs again after keys that are distinct. -/
theorem repeatedKey?_eq_some {seen keys : List RRsetKey}
    (h : repeatedKey? seen keys = some key) :
    ∃ earlier later, keys = earlier ++ key :: later ∧ earlier.Nodup ∧
      (∀ other ∈ earlier, other ∉ seen) ∧ (key ∈ earlier ∨ key ∈ seen) := by
  induction keys generalizing seen with
  | nil => contradiction
  | cons first rest ih =>
    unfold repeatedKey? at h
    split at h
    · next hseen =>
      obtain rfl := Option.some.inj h
      exact ⟨[], rest, rfl, List.nodup_nil, by simp, Or.inr (by simpa using hseen)⟩
    · next hfresh =>
      obtain ⟨earlier, later, rfl, hnodup, hapart, hkey⟩ := ih h
      have hfirst : first ∉ earlier := fun hmem => hapart first hmem List.mem_cons_self
      refine ⟨first :: earlier, later, rfl, List.nodup_cons.mpr ⟨hfirst, hnodup⟩,
        List.forall_mem_cons.mpr ⟨by simpa using hfresh, fun other hother hseen =>
          hapart other hother (List.mem_cons_of_mem _ hseen)⟩, ?_⟩
      rcases hkey with hmem | hmem
      · exact Or.inl (List.mem_cons_of_mem _ hmem)
      · rcases List.mem_cons.mp hmem with rfl | hmem
        · exact Or.inl List.mem_cons_self
        · exact Or.inr hmem

/-- Keys among which none is found twice are distinct. -/
theorem nodup_of_repeatedKey? {seen keys : List RRsetKey} (h : repeatedKey? seen keys = none) :
    keys.Nodup ∧ ∀ key ∈ keys, key ∉ seen := by
  induction keys generalizing seen with
  | nil => exact ⟨List.nodup_nil, by simp⟩
  | cons first rest ih =>
    unfold repeatedKey? at h
    split at h
    · cases h
    · next hfresh =>
      obtain ⟨hnodup, hapart⟩ := ih h
      refine ⟨List.nodup_cons.mpr ⟨fun hmem => hapart first hmem List.mem_cons_self, hnodup⟩,
        List.forall_mem_cons.mpr ⟨by simpa using hfresh, fun key hkey hseen =>
          hapart key hkey (List.mem_cons_of_mem _ hseen)⟩⟩

/-- A patch that the nameserver accepts. -/
structure Accepts (server : Nameserver) (zone : String) (changes : List Change) : Prop where
  spared : server.patches.length ∉ server.failing
  distinct : (changes.map Change.key).Nodup
  known : server.hasZone zone = true

/-- The reasons to refuse a patch, each with what it is refused with.  The first that holds is
the one that is given. -/
inductive Refuses (server : Nameserver) (zone : String) (changes : List Change) : ApiError → Prop
  | injected (h : server.patches.length ∈ server.failing) :
    Refuses server zone changes (.httpStatus (endpoint zone) 500 "injected failure")
  | repeated (key : RRsetKey) (earlier later : List RRsetKey)
    (spared : server.patches.length ∉ server.failing)
    (keys : changes.map Change.key = earlier ++ key :: later)
    (first : earlier.Nodup) (again : key ∈ earlier) :
    Refuses server zone changes
      (.httpStatus (endpoint zone) 422 s!"Duplicate RRset {key.name} IN {key.type}")
  | missing (spared : server.patches.length ∉ server.failing)
    (distinct : (changes.map Change.key).Nodup) (unknown : server.hasZone zone = false) :
    Refuses server zone changes (notFound zone)

/-- A patch is accepted, or there is a reason to refuse it. -/
theorem patchResult_cases (server : Nameserver) (zone : String) (changes : List Change) :
    (∃ e, server.patchResult zone changes = .error e ∧ server.Refuses zone changes e) ∨
      ∃ snapshot, server.zone? zone = some snapshot ∧ server.Accepts zone changes ∧
        server.patchResult zone changes = .ok (patched snapshot changes) := by
  unfold patchResult
  by_cases hfailing : server.patches.length ∈ server.failing
  · rw [if_pos (by simpa using hfailing)]
    exact Or.inl ⟨_, rfl, .injected hfailing⟩
  rw [if_neg (by simpa using hfailing)]
  cases hkey : repeatedKey? [] (changes.map Change.key) with
  | some key =>
    obtain ⟨earlier, later, hkeys, hnodup, -, hmem⟩ := repeatedKey?_eq_some hkey
    exact Or.inl ⟨_, rfl, .repeated key earlier later hfailing hkeys hnodup (by simpa using hmem)⟩
  | none =>
    have hdistinct := (nodup_of_repeatedKey? hkey).1
    cases hzone : server.zone? zone with
    | none =>
      have hunknown : server.hasZone zone = false := by rw [hasZone, hzone]; rfl
      exact Or.inl ⟨_, by simp [fetch, hzone, Except.map], .missing hfailing hdistinct hunknown⟩
    | some snapshot =>
      have hknown : server.hasZone zone = true := by rw [hasZone, hzone]; rfl
      refine Or.inr ⟨snapshot, rfl, ⟨hfailing, hdistinct, hknown⟩, ?_⟩
      simp [fetch, hzone, Except.map]

/-- What is accepted leaves no reason to refuse it. -/
theorem Accepts.not_refuses (h : server.Accepts zone changes) (e : ApiError) :
    ¬server.Refuses zone changes e := by
  intro hrefuses
  cases hrefuses with
  | injected hfailing => exact h.spared hfailing
  | repeated key earlier later _ hkeys _ hagain =>
    have hnodup := h.distinct
    rw [hkeys] at hnodup
    exact (List.nodup_append.mp hnodup).2.2 key hagain key List.mem_cons_self rfl
  | missing _ _ hunknown =>
    rw [h.known] at hunknown
    cases hunknown

theorem Accepts.perm (h : server.Accepts zone changes) (hperm : changes.Perm shuffled) :
    server.Accepts zone shuffled :=
  ⟨h.spared, (hperm.map Change.key).nodup_iff.mp h.distinct, h.known⟩

/-- A patch that is accepted makes all its changes to the zone. -/
theorem Accepts.patch (h : server.Accepts zone changes) :
    ∃ before, server.zone? zone = some before ∧ server.patch zone changes =
      (.ok (), (server.logged zone changes).withZone zone (patched before changes)) := by
  rcases patchResult_cases server zone changes with ⟨e, -, hrefuses⟩ | ⟨before, hzone, -, hresult⟩
  · exact absurd hrefuses (h.not_refuses e)
  · refine ⟨before, hzone, ?_⟩
    rw [Nameserver.patch, hresult]
    rfl

end Nameserver

/-! ### A patch as an update of a map -/

/-- A zone came to be another by changes made to it as to a map.  Its serial goes up by one, as
serials do: the one after the last is zero. -/
structure Snapshot.Updated (changes : List Change) (before after : Snapshot) : Prop where
  name : after.name = before.name
  serial : after.serial = before.serial + 1
  written : ∀ change ∈ changes, change.type = .replace ∧ change.rrset.records ≠ [] →
    RRset.withKey after.rrsets change.key = [change.rrset]
  dropped : ∀ change ∈ changes, change.type = .delete ∨ change.rrset.records = [] →
    RRset.withKey after.rrsets change.key = []
  kept : Nameserver.unnamed changes after.rrsets = Nameserver.unnamed changes before.rrsets

/-- Two zones are the same up to the order of their record sets. -/
structure Snapshot.Alike (one other : Snapshot) : Prop where
  name : other.name = one.name
  serial : other.serial = one.serial
  rrsets : other.rrsets.Perm one.rrsets

namespace Nameserver

variable {server : Nameserver} {zone : String} {changes shuffled : List Change}

theorem updated_patched (hnodup : (changes.map Change.key).Nodup) (before : Snapshot) :
    before.Updated changes (patched before changes) where
  name := rfl
  serial := rfl
  written := fun change hchange hwrites =>
    (withKey_foldl_of_mem hnodup hchange _).trans (if_pos hwrites)
  dropped := fun change hchange hdrops => by
    refine (withKey_foldl_of_mem hnodup hchange _).trans (if_neg fun hwrites => ?_)
    rcases hdrops with htype | hrecords
    · rw [hwrites.1] at htype
      cases htype
    · exact hwrites.2 hrecords
  kept := unnamed_foldl_applyChange changes before.rrsets

theorem alike_patched (h : changes.Perm shuffled) (hnodup : (changes.map Change.key).Nodup)
    (before : Snapshot) : (patched before changes).Alike (patched before shuffled) :=
  ⟨rfl, rfl, (foldl_applyChange_perm h hnodup before.rrsets).symm⟩

/-- **A patch is refused or is an update of a map.**  It is refused only for one of the reasons
there are, and then no zone and no serial is changed: the patch is remembered, and that is all.
Otherwise its zone is updated and no other zone is touched, and with its changes in any other
order it would have been accepted too and would have led to the same zone, up to the order of its
record sets. -/
theorem patch_updates (server : Nameserver) (zone : String) (changes : List Change) :
    (∃ e after, server.patch zone changes = (.error e, after) ∧
      server.Refuses zone changes e ∧ ¬server.Accepts zone changes ∧
      Untouched server after ∧ after = server.logged zone changes) ∨
    ∃ before updated after,
      server.patch zone changes = (.ok (), after) ∧ server.Accepts zone changes ∧
      server.zone? zone = some before ∧ before.Updated changes updated ∧
      Moved server after zone updated ∧
      ∀ shuffled, changes.Perm shuffled → ∃ reordered after',
        server.patch zone shuffled = (.ok (), after') ∧ Moved server after' zone reordered ∧
        updated.Alike reordered := by
  rcases patchResult_cases server zone changes with
    ⟨e, hresult, hrefuses⟩ | ⟨_, _, haccepts, _⟩
  · have hpatch : server.patch zone changes = (.error e, server.logged zone changes) := by
      rw [patch, hresult]
      rfl
    exact Or.inl ⟨e, _, hpatch, hrefuses, fun haccepts => haccepts.not_refuses e hrefuses,
      untouched_of_patch_error hpatch, rfl⟩
  · right
    obtain ⟨before, hzone, hpatch⟩ := haccepts.patch
    refine ⟨before, patched before changes, _, hpatch, haccepts, hzone,
      updated_patched haccepts.distinct before, moved_of_patch_ok hzone hpatch,
      fun shuffled hperm => ?_⟩
    obtain ⟨found, hfound, hshuffled⟩ := (haccepts.perm hperm).patch
    obtain rfl : before = found := Option.some.inj (hzone.symm.trans hfound)
    exact ⟨patched before shuffled, _, hshuffled, moved_of_patch_ok hzone hshuffled,
      alike_patched hperm haccepts.distinct before⟩

end Nameserver

end ZoneKeeper
