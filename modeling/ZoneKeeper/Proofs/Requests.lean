/-
Requests that change a nameserver.

A nameserver changes only when it is asked to patch a zone or to create one.  So it is enough to
know which requests a program may make: what none of them changes is the same afterwards, however
many were made, in which order and with which of them refused.  `Served` says that one nameserver
came to be another by such requests, and the lemmas on it say what that leaves alone.
-/
import Mathlib.Logic.Relation
import ZoneKeeper.Proofs.Nameserver

namespace ZoneKeeper

namespace Nameserver

/-! ### Changes that a key is not part of -/

section Changes

variable {p : RRsetKey → Bool} {changes : List Change}

/-- A change leaves the record sets of all keys but its own alone. -/
theorem filter_applyChange {change : Change} (h : p change.key = false) (rrsets : List RRset) :
    (applyChange rrsets change).filter (fun r => p r.key) = rrsets.filter fun r => p r.key := by
  have hothers : (rrsets.filter fun r => r.key ≠ change.key).filter (fun r => p r.key) =
      rrsets.filter fun r => p r.key := by
    rw [List.filter_filter]
    refine List.filter_congr fun r _ => ?_
    by_cases hkey : r.key = change.key
    · simp [hkey, h]
    · simp [hkey]
  have hown : [change.rrset].filter (fun r => p r.key) = [] :=
    List.filter_cons_of_neg (Bool.eq_false_iff.mp h)
  unfold applyChange
  split
  · rw [List.filter_append, hothers, hown, List.append_nil]
  · exact hothers

/-- So do changes one after another. -/
theorem filter_foldl_applyChange (h : ∀ change ∈ changes, p change.key = false)
    (rrsets : List RRset) :
    (changes.foldl applyChange rrsets).filter (fun r => p r.key) =
      rrsets.filter fun r => p r.key := by
  induction changes generalizing rrsets with
  | nil => rfl
  | cons change rest ih =>
    obtain ⟨hfirst, hrest⟩ := List.forall_mem_cons.mp h
    rw [List.foldl_cons, ih hrest, filter_applyChange hfirst]

/-- A change takes its key out before it puts anything in. -/
theorem nodup_applyChange {rrsets : List RRset} (h : (rrsets.map RRset.key).Nodup)
    (change : Change) : ((applyChange rrsets change).map RRset.key).Nodup := by
  have hothers : ((rrsets.filter fun r => r.key ≠ change.key).map RRset.key).Nodup :=
    h.sublist (List.filter_sublist.map RRset.key)
  unfold applyChange
  split
  · rw [List.map_append, List.map_singleton]
    refine hothers.append (List.nodup_singleton _) (List.disjoint_singleton.mpr fun hmem => ?_)
    obtain ⟨r, hr, hkey⟩ := List.mem_map.mp hmem
    exact of_decide_eq_true (List.mem_filter.mp hr).2 hkey
  · exact hothers

theorem nodup_foldl_applyChange (changes : List Change) {rrsets : List RRset}
    (h : (rrsets.map RRset.key).Nodup) :
    ((changes.foldl applyChange rrsets).map RRset.key).Nodup := by
  induction changes generalizing rrsets with
  | nil => exact h
  | cons change rest ih => exact ih (nodup_applyChange h change)

end Changes

/-! ### One request -/

/-- The record sets of a zone, and none where there is no zone. -/
def rrsetsOf (server : Nameserver) (zone : String) : List RRset :=
  ((server.zone? zone).map Snapshot.rrsets).getD []

/-- A request that can change a nameserver. -/
inductive Request
  | patch (zone : String) (changes : List Change)
  | create (zone kind : String)

namespace Request

/-- The zone that the request is about. -/
def zone : Request → String
  | patch zone _ => zone
  | create zone _ => zone

/-- The changes that the request makes to its zone. -/
def changes : Request → List Change
  | patch _ changes => changes
  | create .. => []

/-- What the nameserver remembers of the request as a patch. -/
def calls : Request → List PatchCall
  | patch zone changes => [⟨DomainName.relative zone, changes⟩]
  | create .. => []

/-- The nameserver after the request, which it may have refused. -/
def serve : Request → Nameserver → Nameserver
  | patch zone changes, server => (server.patch zone changes).2
  | create zone kind, server => (server.create zone kind).2

end Request

section Serve

variable {server after : Nameserver} {request : Request} {zone other kind : String}
  {changes : List Change}

/-- Two spellings of a zone are of the same zone. -/
theorem rrsetsOf_congr (h : SameZone zone other) :
    server.rrsetsOf zone = server.rrsetsOf other := by
  rw [rrsetsOf, rrsetsOf, zone?_congr h]

theorem rrsetsOf_of_some {snapshot : Snapshot} (h : server.zone? zone = some snapshot) :
    server.rrsetsOf zone = snapshot.rrsets := by
  rw [rrsetsOf, h]
  rfl

/-- What an accepted patch does to the record sets of all zones. -/
theorem of_patch_ok (h : server.patch zone changes = (.ok (), after)) :
    (∀ other, after.hasZone other = server.hasZone other) ∧
      after.rrsetsOf zone = changes.foldl applyChange (server.rrsetsOf zone) ∧
      ∀ other, ¬SameZone other zone → after.rrsetsOf other = server.rrsetsOf other := by
  obtain ⟨snapshot, hzone, rfl⟩ := eq_of_patch_ok h
  refine ⟨fun other => ?_, ?_, fun other hother => ?_⟩
  · by_cases hsame : SameZone other zone
    · rw [hasZone, zone?_withZone_self _ hsame, hasZone, zone?_congr hsame, hzone]
      rfl
    · rw [hasZone, zone?_withZone_of_ne _ hsame]
      rfl
  · rw [rrsetsOf, zone?_withZone_self _ rfl, rrsetsOf, hzone]
    rfl
  · rw [rrsetsOf, zone?_withZone_of_ne _ hother]
    rfl

/-- What is created did not exist, and is empty. -/
theorem of_create_ok (h : server.create zone kind = (.ok (), after)) :
    (∀ other, after.hasZone other = true ↔ server.hasZone other = true ∨ SameZone other zone) ∧
      ∀ other, after.rrsetsOf other = server.rrsetsOf other := by
  unfold create at h
  split at h
  · cases h
  · next hfree =>
    obtain rfl := (Prod.mk.inj h).2
    have hown : ∀ other, SameZone other zone → ({ server.insertZone zone 1 [] with
        created := server.created ++ [(DomainName.relative zone, kind)] } : Nameserver).zone? other =
          some ⟨DomainName.absolute zone, 1, []⟩ := by
      intro other hsame
      rw [zone?_congr hsame]
      exact Table.lookup_put_self _ _ _
    have hothers : ∀ other, ¬SameZone other zone → ({ server.insertZone zone 1 [] with
        created := server.created ++ [(DomainName.relative zone, kind)] } : Nameserver).zone? other =
          server.zone? other := fun other hne => Table.lookup_put_of_ne hne _ _
    have hnone : server.zone? zone = none := by simpa [hasZone] using hfree
    constructor
    · intro other
      by_cases hsame : SameZone other zone
      · simp [hasZone, hown other hsame, hsame]
      · simp [hasZone, hothers other hsame, hsame]
    · intro other
      by_cases hsame : SameZone other zone
      · simp [rrsetsOf, hown other hsame, zone?_congr hsame, hnone]
      · simp [rrsetsOf, hothers other hsame]

theorem eq_of_create_error {e : ApiError} (h : server.create zone kind = (.error e, after)) :
    after = server := by
  unfold create at h
  split at h <;> cases h
  rfl

/-- A request leaves all zones but its own as they are. -/
theorem zone?_serve_of_ne (hother : ¬SameZone other request.zone) :
    (request.serve server).zone? other = server.zone? other := by
  cases request with
  | patch zone changes =>
    show (server.patch zone changes).2.zone? other = _
    rcases hpatch : server.patch zone changes with ⟨_ | _, after⟩
    · exact (untouched_of_patch_error hpatch).zone? other
    · obtain ⟨snapshot, -, rfl⟩ := eq_of_patch_ok hpatch
      exact zone?_withZone_of_ne _ hother
  | create zone kind =>
    show (server.create zone kind).2.zone? other = _
    unfold create
    split
    · rfl
    · exact Table.lookup_put_of_ne hother _ _

/-- A request changes no record sets, or makes its changes to those of its zone. -/
theorem rrsetsOf_serve (request : Request) (server : Nameserver) (zone : String) :
    (request.serve server).rrsetsOf zone = server.rrsetsOf zone ∨ SameZone zone request.zone ∧
      (request.serve server).rrsetsOf zone =
        request.changes.foldl applyChange (server.rrsetsOf zone) := by
  by_cases hsame : SameZone zone request.zone
  · rw [rrsetsOf_congr hsame, rrsetsOf_congr hsame]
    cases request with
    | patch own changes =>
      rcases hpatch : server.patch own changes with ⟨_ | _, after⟩
      · have huntouched := untouched_of_patch_error hpatch
        left
        show (server.patch own changes).2.rrsetsOf own = _
        rw [hpatch, rrsetsOf, huntouched.zone?]
        rfl
      · right
        refine ⟨hsame, ?_⟩
        show (server.patch own changes).2.rrsetsOf own = _
        rw [hpatch]
        exact (of_patch_ok hpatch).2.1
    | create own kind =>
      left
      rcases hcreate : server.create own kind with ⟨_ | _, after⟩
      · show (server.create own kind).2.rrsetsOf own = _
        rw [hcreate, eq_of_create_error hcreate]
        rfl
      · show (server.create own kind).2.rrsetsOf own = _
        rw [hcreate]
        exact (of_create_ok hcreate).2 _
  · left
    rw [rrsetsOf, zone?_serve_of_ne hsame]
    rfl

/-- Only the creation of a zone adds one, and nothing takes one away. -/
theorem hasZone_serve (request : Request) (server : Nameserver) (zone : String) :
    (server.hasZone zone = true → (request.serve server).hasZone zone = true) ∧
      ((request.serve server).hasZone zone = true → server.hasZone zone = true ∨
        ∃ own kind, request = .create own kind ∧ SameZone zone own) := by
  cases request with
  | patch own changes =>
    have hkept : (server.patch own changes).2.hasZone zone = server.hasZone zone := by
      rcases hpatch : server.patch own changes with ⟨_ | _, after⟩
      · rw [hasZone, (untouched_of_patch_error hpatch).zone?]
        rfl
      · exact (of_patch_ok hpatch).1 zone
    exact ⟨fun h => hkept.trans h, fun h => Or.inl (hkept.symm.trans h)⟩
  | create own kind =>
    show (_ → (server.create own kind).2.hasZone zone = true) ∧
      ((server.create own kind).2.hasZone zone = true → _)
    rcases hcreate : server.create own kind with ⟨_ | _, after⟩
    · obtain rfl := eq_of_create_error hcreate
      exact ⟨id, Or.inl⟩
    · have hhas := (of_create_ok hcreate).1 zone
      refine ⟨fun h => hhas.mpr (Or.inl h), fun h => ?_⟩
      exact (hhas.mp h).imp_right fun hsame => ⟨own, kind, rfl, hsame⟩

theorem patches_serve (request : Request) (server : Nameserver) :
    (request.serve server).patches = server.patches ++ request.calls := by
  cases request with
  | patch zone changes => exact patches_of_patch rfl
  | create zone kind => exact (patches_of_create rfl).trans (List.append_nil _).symm

end Serve

/-! ### Any number of requests -/

/-- The nameserver came to be the other one by requests that are allowed. -/
def Served (allowed : Request → Prop) : Nameserver → Nameserver → Prop :=
  Relation.ReflTransGen fun server after =>
    ∃ request, allowed request ∧ after = request.serve server

namespace Served

variable {allowed : Request → Prop} {server middle after : Nameserver} {zone : String}

theorem refl (server : Nameserver) : Served allowed server server :=
  Relation.ReflTransGen.refl

theorem trans (h₁ : Served allowed server middle) (h₂ : Served allowed middle after) :
    Served allowed server after :=
  Relation.ReflTransGen.trans h₁ h₂

theorem single {request : Request} (h : allowed request) :
    Served allowed server (request.serve server) :=
  Relation.ReflTransGen.single ⟨request, h, rfl⟩

theorem mono {allowed' : Request → Prop} (h : Served allowed server after)
    (hmono : ∀ request, allowed request → allowed' request) : Served allowed' server after :=
  Relation.ReflTransGen.mono (fun _ _ ⟨request, hrequest, heq⟩ =>
    ⟨request, hmono request hrequest, heq⟩) _ _ h

/-- What no allowed request changes is the same after all of them. -/
theorem eq_of_serve {α : Type} {f : Nameserver → α} (h : Served allowed server after)
    (hserve : ∀ request server, allowed request → f (request.serve server) = f server) :
    f after = f server := by
  induction h with
  | refl => rfl
  | tail _ hstep ih =>
    obtain ⟨request, hrequest, rfl⟩ := hstep
    rw [hserve request _ hrequest, ih]

/-- A zone that no request is about is as it was. -/
theorem zone?_eq (h : Served allowed server after)
    (hapart : ∀ request, allowed request → ¬SameZone zone request.zone) :
    after.zone? zone = server.zone? zone :=
  h.eq_of_serve (f := (·.zone? zone)) fun request _ hrequest =>
    zone?_serve_of_ne (hapart request hrequest)

/-- The record sets of a zone are as they were under all keys that no request is about. -/
theorem filter_rrsetsOf (h : Served allowed server after) {p : RRsetKey → Bool}
    (hapart : ∀ request, allowed request → SameZone zone request.zone →
      ∀ change ∈ request.changes, p change.key = false) :
    (after.rrsetsOf zone).filter (fun r => p r.key) =
      (server.rrsetsOf zone).filter fun r => p r.key := by
  refine h.eq_of_serve (f := fun server => (server.rrsetsOf zone).filter fun r => p r.key)
    fun request server hrequest => ?_
  rcases rrsetsOf_serve request server zone with hsame | ⟨hzone, hchanged⟩
  · simp only [hsame]
  · simp only [hchanged]
    exact filter_foldl_applyChange (hapart request hrequest hzone) _

/-- Keys that are distinct stay so. -/
theorem nodup_rrsetsOf (h : Served allowed server after)
    (hnodup : ((server.rrsetsOf zone).map RRset.key).Nodup) :
    ((after.rrsetsOf zone).map RRset.key).Nodup := by
  induction h with
  | refl => exact hnodup
  | tail _ hstep ih =>
    obtain ⟨request, -, rfl⟩ := hstep
    rcases rrsetsOf_serve request _ zone with hsame | ⟨-, hchanged⟩
    · rwa [hsame]
    · rw [hchanged]
      exact nodup_foldl_applyChange _ ih

/-- No zone is taken away. -/
theorem hasZone (h : Served allowed server after) (hzone : server.hasZone zone = true) :
    after.hasZone zone = true := by
  induction h with
  | refl => exact hzone
  | tail _ hstep ih =>
    obtain ⟨request, -, rfl⟩ := hstep
    exact (hasZone_serve request _ zone).1 ih

/-- A zone that is new was created. -/
theorem exists_create (h : Served allowed server after) (hnew : server.hasZone zone = false)
    (hzone : after.hasZone zone = true) :
    ∃ own kind, allowed (.create own kind) ∧ SameZone zone own := by
  induction h with
  | refl =>
    rw [hnew] at hzone
    cases hzone
  | tail _ hstep ih =>
    obtain ⟨request, hrequest, rfl⟩ := hstep
    rcases (hasZone_serve request _ zone).2 hzone with hold | ⟨own, kind, rfl, hsame⟩
    · exact ih hold
    · exact ⟨own, kind, hrequest, hsame⟩

/-- The patches that were asked for on the way are those of allowed requests. -/
theorem exists_calls (h : Served allowed server after) :
    ∃ calls, after.patches = server.patches ++ calls ∧
      ∀ call ∈ calls, ∃ zone, allowed (.patch zone call.changes) := by
  induction h with
  | refl => exact ⟨[], (List.append_nil _).symm, by simp⟩
  | tail _ hstep ih =>
    obtain ⟨request, hrequest, rfl⟩ := hstep
    obtain ⟨calls, hpatches, hcalls⟩ := ih
    refine ⟨calls ++ request.calls, ?_, List.forall_mem_append.mpr ⟨hcalls, ?_⟩⟩
    · rw [patches_serve, hpatches, List.append_assoc]
    · cases request with
      | patch zone changes => exact List.forall_mem_singleton.mpr ⟨zone, hrequest⟩
      | create zone kind => simp [Request.calls]

end Served

end Nameserver

end ZoneKeeper
