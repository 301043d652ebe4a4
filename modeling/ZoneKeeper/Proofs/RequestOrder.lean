/-
The requests of one run, in order.

A run asks for its deletions, then for its replacements, then for one patch of each reverse zone
that has operations, in the order of their names.  It creates reverse zones after its own zone is
changed and before the first of them is patched.  The first patch that the nameserver refuses is
the last one that is asked for, and what was accepted before it stays.

`Course` says what has come of a nameserver so far: which zones were founded, which patches were
made and which one was refused.  It is a matter of one request at a time, and it determines the
state of every zone.  A run adds requests to the course of its nameserver, and how they are spread
over its parts does not matter.
-/
import ZoneKeeper.Proofs.ReverseBatches
import ZoneKeeper.Proofs.Serials
import ZoneKeeper.Proofs.Verdict

namespace ZoneKeeper

open ReverseName DomainName

/-! ### The course of a nameserver -/

namespace Nameserver

/-- The state of a zone that was founded and not patched. -/
def founding (founded : List String) (zone : String) : Option Snapshot :=
  if relative zone ∈ founded then some ⟨absolute zone, 1, []⟩ else none

/-- A zone after those of the patches that are of it. -/
def replay (calls : List PatchCall) (zone : String) (snapshot : Snapshot) : Snapshot :=
  calls.foldl (fun snapshot call =>
    if call.zone = relative zone then patched snapshot call.changes else snapshot) snapshot

/-- From one nameserver to another, zones were founded and patches were made, and after them one
patch may have been refused. -/
structure Course (kind : String) (start : Nameserver) (founded : List String)
    (made : List PatchCall) (refused : Option PatchCall) (after : Nameserver) : Prop where
  /-- The refused patch is the last one that was asked for. -/
  patches : after.patches = start.patches ++ made ++ refused.toList
  /-- The patches that were made are not told to fail, and the refused one is. -/
  spared : ∀ i < made.length, start.patches.length + i ∉ start.failing
  injected : refused.isSome = true → start.patches.length + made.length ∈ start.failing
  failing : after.failing = start.failing
  created : after.created = start.created ++ founded.map fun zone => (zone, kind)
  /-- Every zone is as it was or was founded, with the patches made to it and nothing else. -/
  zones : ∀ zone, after.zone? zone =
    ((start.zone? zone).or (founding founded zone)).map (replay made zone)
  /-- Only zones that exist were patched. -/
  hosted : ∀ call ∈ made, ∀ zone, relative zone = call.zone → after.hasZone zone = true

variable {kind zone : String} {start middle after : Nameserver} {founded : List String}
  {made : List PatchCall} {changes : List Change}

theorem founding_concat (founded : List String) (zone other : String) :
    founding (founded ++ [relative zone]) other =
      if SameZone other zone then some ⟨absolute other, 1, []⟩ else founding founded other := by
  unfold founding SameZone
  by_cases hsame : relative other = relative zone <;> simp [hsame]

theorem replay_concat (calls : List PatchCall) (call : PatchCall) (zone : String)
    (snapshot : Snapshot) :
    replay (calls ++ [call]) zone snapshot =
      if call.zone = relative zone then patched (replay calls zone snapshot) call.changes
      else replay calls zone snapshot := by
  rw [replay, List.foldl_append]
  rfl

/-- Patches of other zones change nothing. -/
theorem replay_of_apart {calls : List PatchCall} (h : ∀ call ∈ calls, call.zone ≠ relative zone)
    (snapshot : Snapshot) : replay calls zone snapshot = snapshot := by
  induction calls with
  | nil => rfl
  | cons call rest ih =>
    obtain ⟨hcall, hrest⟩ := List.forall_mem_cons.mp h
    rw [replay, List.foldl_cons, if_neg hcall]
    exact ih hrest

theorem course_refl (kind : String) (server : Nameserver) :
    Course kind server [] [] none server where
  patches := by simp
  spared := by simp
  injected := by simp
  failing := rfl
  created := by simp
  zones := fun zone => by
    rw [show founding [] zone = none from if_neg List.not_mem_nil, Option.or_none]
    exact Option.map_id'.symm
  hosted := by simp

/-- A zone that is created was not there, and nothing else is different. -/
theorem eq_of_create_ok {server : Nameserver} (h : server.create zone kind = (.ok (), after)) :
    server.hasZone zone = false ∧
      after = { server.withZone zone ⟨absolute zone, 1, []⟩ with
        created := server.created ++ [(relative zone, kind)] } := by
  unfold create at h
  split at h
  · cases h
  · next hfree => exact ⟨Bool.eq_false_iff.mpr hfree, ((Prod.mk.inj h).2).symm⟩

namespace Course

/-- The number of the next patch. -/
theorem length_patches (h : Course kind start founded made none middle) :
    middle.patches.length = start.patches.length + made.length := by
  rw [h.patches, Option.toList_none, List.append_nil, List.length_append]

/-- A zone is founded only where there is none. -/
theorem found (h : Course kind start founded made none middle)
    (hcreate : middle.create zone kind = (.ok (), after)) :
    Course kind start (founded ++ [relative zone]) made none after := by
  obtain ⟨hfree, rfl⟩ := eq_of_create_ok hcreate
  have hhas := (of_create_ok hcreate).1
  refine ⟨h.patches, h.spared, h.injected, h.failing, ?_, fun other => ?_,
    fun call hcall other hother => (hhas other).mpr (Or.inl (h.hosted call hcall other hother))⟩
  · show middle.created ++ _ = _
    rw [h.created, List.map_append, List.append_assoc]
    rfl
  have hzones := h.zones other
  by_cases hsame : SameZone other zone
  · have hnone : middle.zone? other = none := by
      rw [zone?_congr hsame]
      simpa [hasZone] using hfree
    rw [hnone, eq_comm, Option.map_eq_none_iff, Option.or_eq_none_iff] at hzones
    have habsolute : absolute other = absolute zone := by rw [absolute, absolute, hsame]
    have hapart : ∀ call ∈ made, call.zone ≠ relative other := fun call hcall hcalled => by
      have hserved := h.hosted call hcall other hcalled.symm
      rw [hasZone, hnone] at hserved
      cases hserved
    rw [hzones.1, Option.none_or, founding_concat, if_pos hsame, Option.map_some,
      replay_of_apart hapart, habsolute]
    exact zone?_withZone_self _ hsame
  · rw [founding_concat, if_neg hsame, ← hzones]
    exact zone?_withZone_of_ne _ hsame

/-- A patch of a zone that exists, of distinct keys, is made or is the one that is refused. -/
theorem patch {result : Except ApiError Unit} (h : Course kind start founded made none middle)
    (hnodup : (changes.map Change.key).Nodup) (hzone : middle.hasZone zone = true)
    (hpatch : middle.patch zone changes = (result, after)) :
    (result = .ok () ∧ Course kind start founded (made ++ [⟨relative zone, changes⟩]) none after) ∨
      ∃ e, result = .error e ∧
        Course kind start founded made (some ⟨relative zone, changes⟩) after := by
  have hnumber := h.length_patches
  rcases patchResult_cases middle zone changes with
    ⟨e, hresult, hrefuses⟩ | ⟨snapshot, hsnapshot, haccepts, -⟩
  · have hrefused : middle.patch zone changes = (.error e, middle.logged zone changes) := by
      rw [Nameserver.patch, hresult]
      rfl
    obtain ⟨rfl, rfl⟩ := Prod.mk.inj (hpatch.symm.trans hrefused)
    have hinjected : middle.patches.length ∈ middle.failing := by
      cases hrefuses with
      | injected hfailing => exact hfailing
      | repeated key earlier later _ hkeys _ hagain =>
        rw [hkeys] at hnodup
        exact absurd rfl ((List.nodup_append.mp hnodup).2.2 key hagain key List.mem_cons_self)
      | missing _ _ hunknown =>
        rw [hzone] at hunknown
        cases hunknown
    refine Or.inr ⟨e, rfl, ?_, h.spared, fun _ => ?_, h.failing, h.created, h.zones, h.hosted⟩
    · show middle.patches ++ _ = _
      rw [h.patches, Option.toList_none, List.append_nil]
      rfl
    · rwa [← hnumber, ← h.failing]
  · obtain ⟨found, hfound, haccepted⟩ := haccepts.patch
    obtain rfl : snapshot = found := Option.some.inj (hsnapshot.symm.trans hfound)
    obtain ⟨rfl, rfl⟩ := Prod.mk.inj (hpatch.symm.trans haccepted)
    refine Or.inl ⟨rfl, ?_, fun i hi => ?_, by simp, h.failing, h.created, fun other => ?_,
      fun call hcall other hother => ?_⟩
    · show middle.patches ++ _ = _
      rw [h.patches, Option.toList_none, List.append_nil, List.append_nil, List.append_assoc]
    · rw [List.length_append, List.length_singleton] at hi
      rcases Nat.lt_succ_iff_lt_or_eq.mp hi with hearlier | rfl
      · exact h.spared i hearlier
      · rw [← hnumber, ← h.failing]
        exact haccepts.spared
    · have hzones := h.zones other
      by_cases hsame : SameZone other zone
      · rw [zone?_congr hsame, hsnapshot, eq_comm, Option.map_eq_some_iff] at hzones
        obtain ⟨first, hfirst, rfl⟩ := hzones
        rw [zone?_withZone_self _ hsame, hfirst, Option.map_some, replay_concat,
          if_pos hsame.symm]
      · rw [zone?_withZone_of_ne _ hsame]
        have hskip : replay (made ++ [⟨relative zone, changes⟩]) other = replay made other :=
          funext fun first => (replay_concat _ _ _ _).trans (if_neg (Ne.symm hsame))
        rw [hskip]
        exact hzones
    · rw [(of_patch_ok haccepted).1 other]
      rcases List.mem_append.mp hcall with hold | hnew
      · exact h.hosted call hold other hother
      · rw [List.mem_singleton.mp hnew] at hother
        rw [hasZone, zone?_congr hother]
        exact hzone

end Course

/-- Patches neither make zones nor take them away. -/
theorem Course.hasZone {refused : Option PatchCall} (h : Course kind start [] made refused after)
    (zone : String) : after.hasZone zone = start.hasZone zone := by
  rw [Nameserver.hasZone, h.zones, founding, if_neg List.not_mem_nil, Option.or_none,
    Option.isSome_map, Nameserver.hasZone]

/-- These patches were made and none was refused, whatever zones were founded. -/
def OnCourse (kind : String) (start : Nameserver) (made : List PatchCall) (after : Nameserver) :
    Prop :=
  ∃ founded, Course kind start founded made none after

/-- Whoever asks for a zone stays on course. -/
theorem OnCourse.create {server : Nameserver} {result : Except ApiError Unit}
    (h : OnCourse kind start made server) (hcreate : server.create zone kind = (result, after)) :
    OnCourse kind start made after := by
  obtain ⟨founded, h⟩ := h
  cases result with
  | ok _ => exact ⟨_, h.found hcreate⟩
  | error e =>
    obtain rfl := eq_of_create_error hcreate
    exact ⟨founded, h⟩

/-- Of patches that were to be asked for in this order some were made, and the next one may have
been refused.  If nothing failed, all of them were made. -/
def Asked (kind : String) (start : Nameserver) (founded : List String) (calls : List PatchCall)
    (fine : Bool) (after : Nameserver) : Prop :=
  ∃ made refused, Course kind start founded made refused after ∧
    made ++ refused.toList <+: calls ∧ (fine = true → refused = none ∧ made = calls)

variable {calls : List PatchCall}

theorem Course.asked (h : Course kind start founded made none after) (fine : Bool) :
    Asked kind start founded made fine after :=
  ⟨made, none, h, by simp, fun _ => ⟨rfl, rfl⟩⟩

/-- Where nothing failed, there is a course without a refusal. -/
theorem Asked.course (h : Asked kind start founded calls true after) :
    Course kind start founded calls none after := by
  obtain ⟨made, refused, hcourse, -, hfine⟩ := h
  obtain ⟨rfl, rfl⟩ := hfine rfl
  exact hcourse

/-- What was asked for was asked for, also if something failed that is no patch. -/
theorem Asked.weaken {fine : Bool} (h : Asked kind start founded calls fine after) :
    Asked kind start founded calls false after := by
  obtain ⟨made, refused, hcourse, hprefix, -⟩ := h
  exact ⟨made, refused, hcourse, hprefix, by rintro ⟨⟩⟩

/-- After a failure no more of what was to be asked for follows. -/
theorem Asked.failed {fine : Bool} (h : Asked kind start founded calls fine after)
    (more : List PatchCall) : Asked kind start founded (calls ++ more) false after := by
  obtain ⟨made, refused, hcourse, hprefix, -⟩ := h
  exact ⟨made, refused, hcourse, hprefix.trans (List.prefix_append _ _), by simp⟩

end Nameserver

/-! ### The requests of a run -/

/-- The patches that a pass asks for, by the zones that exist at its start. -/
def PtrChanges.calls (changes : PtrChanges) (server : Nameserver) : List PatchCall :=
  (changes.batches server).map fun batch => ⟨relative batch.1, batch.2⟩

/-- Some name that is written or removed is at home in the zone. -/
def PtrChanges.Affects (changes : PtrChanges) (server : Nameserver) (zone : String) : Prop :=
  ∃ name ∈ changes.writtenNames ++ changes.droppedNames, changes.home? server name = some zone

theorem PtrChanges.zones_calls (changes : PtrChanges) (server : Nameserver) :
    (changes.calls server).map PatchCall.zone = (changes.batches server).map Prod.fst := by
  rw [calls, List.map_map]
  exact List.map_congr_left fun batch hbatch => relative_of_mem_batches hbatch

/-- The patches of a pass are of one zone each, in the order of the zones. -/
theorem PtrChanges.calls_ascending (changes : PtrChanges) (server : Nameserver) :
    ((changes.calls server).map PatchCall.zone).Pairwise fun zone other => zone < other := by
  rw [zones_calls]
  exact changes.zones_ascending server

/-- They are of the zones that are affected. -/
theorem PtrChanges.mem_zones_calls {changes : PtrChanges} {server : Nameserver} {zone : String} :
    zone ∈ (changes.calls server).map PatchCall.zone ↔ changes.Affects server zone := by
  rw [zones_calls]
  constructor
  · intro hzone
    obtain ⟨batch, hbatch, rfl⟩ := List.mem_map.mp hzone
    obtain ⟨op, hop, hsame⟩ := PtrProgress.exists_zone_of_mem_batches hbatch
    obtain ⟨hname, hhome, -⟩ := mem_operations.mp hop
    exact ⟨op.name, List.mem_append.mpr hname, hsame ▸ hhome⟩
  · intro ⟨name, hname, hhome⟩
    have hop : ⟨zone, changes.change name⟩ ∈
        (⟨changes.operations server, []⟩ : PtrProgress).operations :=
      List.mem_filterMap.mpr ⟨name, hname, by rw [hhome, Option.map_some]⟩
    exact PtrProgress.zone_mem_batches hop

/-- All of them are in the trees of reverse names. -/
theorem PtrChanges.inTree_of_mem_calls {changes : PtrChanges} {server : Nameserver}
    {call : PatchCall} (h : call ∈ changes.calls server) : InTree call.zone := by
  obtain ⟨name, hname, hhome⟩ := mem_zones_calls.mp (List.mem_map_of_mem h)
  exact (isReverse_of_mem hname).inTree (mem_candidates_of_home? hhome)

theorem PtrChanges.calls_of_isEmpty {changes : PtrChanges} (h : changes.isEmpty = true)
    (server : Nameserver) : changes.calls server = [] := by
  obtain ⟨hadditions, hremovals⟩ : changes.additions = [] ∧ changes.removals = [] := by
    simpa [isEmpty] using h
  simp [calls, batches, operations, writtenNames, droppedNames, reverseNames, hadditions, hremovals,
    PtrProgress.batches]

namespace Sandbox.Setup

open Nameserver

variable {setup : Setup} {kind zone : String} {start : Nameserver} {founded : List String}
  {made : List PatchCall} {changes : List Change} {box after : Sandbox}

/-- No zone comes or goes with a patch. -/
theorem hasZone_of_patchRRsets {result : Except ApiError Unit}
    (hrun : StateT.run (setup.services.patchRRsets zone changes) box = (result, after))
    (other : String) : after.server.hasZone other = box.server.hasZone other := by
  rcases patchRRsets_run hrun with ⟨rfl, -⟩ | ⟨server, hserver, rfl⟩
  · rfl
  · cases result with
    | error e => rw [hasZone, (untouched_of_patch_error hserver).zone?, hasZone]
    | ok _ => exact (of_patch_ok hserver).1 other

/-- A patch of distinct keys is asked for, unless it is refused on the way. -/
theorem asked_patchRRsets {result : Except ApiError Unit}
    (h : Course kind start founded made none box.server) (hnodup : (changes.map Change.key).Nodup)
    (hzone : box.server.hasZone zone = true)
    (hrun : StateT.run (setup.services.patchRRsets zone changes) box = (result, after)) :
    Asked kind start founded (made ++ [⟨relative zone, changes⟩]) result.isOk after.server := by
  rcases patchRRsets_run hrun with ⟨rfl, e, rfl⟩ | ⟨server, hserver, rfl⟩
  · exact (h.asked false).failed _
  · rcases h.patch hnodup hzone hserver with ⟨rfl, hmade⟩ | ⟨e, rfl, hrefused⟩
    · exact hmade.asked true
    · exact ⟨made, _, hrefused, List.prefix_rfl, by rintro ⟨⟩⟩

/-- A batch that is not empty is asked for. -/
theorem asked_sendBatch {type : ChangeType} {result : Except SyncError Unit}
    (h : Course kind start founded made none box.server) (hnodup : (changes.map Change.key).Nodup)
    (hzone : box.server.hasZone zone = true)
    (hrun : runFrom (setup.applier.sendBatch zone type changes) box = (result, after)) :
    Asked kind start founded
      (made ++ ([changes].filter (!·.isEmpty)).map fun changes => ⟨relative zone, changes⟩)
      result.isOk after.server := by
  unfold Applier.sendBatch at hrun
  cases hempty : changes.isEmpty with
  | true =>
    simp only [hempty, if_true] at hrun
    obtain ⟨rfl, rfl⟩ := Prod.mk.inj hrun
    rw [List.filter_singleton, hempty]
    exact (List.append_nil made).symm ▸ h.asked true
  | false =>
    simp only [hempty, Bool.false_eq_true, if_false] at hrun
    rw [runFrom_bind, runFrom_ask, applier_services] at hrun
    rcases hpatch : StateT.run (setup.services.patchRRsets zone changes) box with ⟨answer, patched⟩
    have hasked := asked_patchRRsets h hnodup hzone hpatch
    rw [hpatch] at hrun
    rw [List.filter_singleton, hempty]
    cases answer with
    | error e =>
      obtain ⟨rfl, rfl⟩ := Prod.mk.inj hrun
      exact hasked
    | ok _ =>
      obtain ⟨rfl, rfl⟩ := Prod.mk.inj hrun
      exact hasked

end Sandbox.Setup

namespace ReverseSync

open Nameserver

variable {setup : Sandbox.Setup} {ε : Type} {start : Nameserver}
  {founded : List String} {made : List PatchCall} {box after : Sandbox} {known known' : Locations}

/-! ### Deciding creates zones and does nothing else -/

section Deciding

variable {J : Sandbox → Prop}

theorem kept_firstExisting (zones : List String) (hJ : J box) :
    Ends known box (firstExisting setup.services.toControlApi zones) (fun _ _ => J)
      fun _ _ => J := by
  induction zones with
  | nil => exact ends_pure hJ
  | cons zone zones ih =>
    refine ends_bind (ends_call (answers_of_run fun answer after hrun => ?_))
    obtain ⟨rfl, -⟩ := Sandbox.Setup.zoneExists_run hrun
    cases answer with
    | error e => exact hJ
    | ok found =>
      cases found with
      | true => exact ends_pure hJ
      | false => exact ih

theorem kept_locate (name : String) (hJ : J box) :
    Ends known box (locate setup.services.toControlApi name) (fun _ _ => J) fun _ _ => J := by
  refine ends_adapt ?_
  unfold findReverseZone
  cases zoneCandidates name with
  | nil => exact ends_pure hJ
  | cons narrowest wider =>
    refine ends_bind (ends_get ?_)
    cases known.lookup narrowest with
    | some found => exact ends_pure hJ
    | none =>
      refine (kept_firstExisting _ hJ).bind fun found known box hJ => ?_
      exact ends_bind (ends_remember (ends_pure hJ))

/-- What no creation of a zone disturbs is not disturbed by the creation of a reverse zone. -/
theorem kept_createNarrowest {J : Nameserver → Prop}
    (hcreate : ∀ server zone result after, J server →
      server.create zone setup.reverseZones.kind = (result, after) → J after)
    (name : String) (known : Locations) (box : Sandbox) (hJ : J box.server) :
    Ends known box (createNarrowest setup.services setup.reverseZones name)
      (fun _ _ after => J after.server) fun _ _ after => J after.server := by
  unfold createNarrowest
  cases zoneCandidates name with
  | nil => exact ends_throw hJ
  | cons zone wider =>
    refine ends_bind (ends_adapt (ends_call (answers_of_run fun answer created hrun => ?_)))
    have hkept : J created.server := by
      rcases Sandbox.Setup.createZone_run hrun with ⟨rfl, -⟩ | ⟨server, hserver, rfl⟩
      · exact hJ
      · exact hcreate _ _ _ _ hJ hserver
    cases answer with
    | error e => exact hkept
    | ok _ =>
      refine ends_bind (ends_liftM (answers_of_run fun _ counted hcount => ?_))
      cases hcount
      exact ends_bind (ends_remember (ends_pure hkept))

section Additions

variable (hcreate : ∀ name known box, J box →
  Ends known box (createNarrowest setup.services setup.reverseZones name) (fun _ _ => J)
    fun _ _ => J)
include hcreate

theorem kept_add (progress : PtrProgress) (target : PtrTarget) (hJ : J box) :
    Ends known box (add setup.services setup.reverseZones progress target) (fun _ _ => J)
      fun _ _ => J := by
  unfold add
  refine ends_bind (ends_ofResult (fun name _ => ?_) fun _ _ => hJ)
  cases progress.writes name with
  | true => exact ends_pure hJ
  | false =>
    refine (kept_locate name hJ).bind fun found known box hJ => ?_
    cases found with
    | some zone => exact ends_pure hJ
    | none => exact (hcreate name known box hJ).bind fun _ _ _ hJ => ends_pure hJ

/-- What no creation of a reverse zone disturbs is not disturbed by decisions. -/
theorem kept_additions (targets : List PtrTarget) (hJ : J box) :
    Ends known box (targets.foldlM (add setup.services setup.reverseZones) ⟨[], []⟩)
      (fun _ _ => J) fun _ _ => J :=
  ends_foldlM (Q := fun _ _ _ => J)
    (fun target _ _ progress _ _ => kept_add hcreate progress target) [] ⟨[], []⟩ known box hJ

end Additions

theorem kept_remove (progress : PtrProgress) (target : PtrTarget) (hJ : J box) :
    Ends known box (remove setup.services progress target) (fun _ _ => J) fun _ _ => J := by
  unfold remove
  refine ends_bind (ends_ofResult (fun name _ => ?_) fun _ _ => hJ)
  cases progress.writes name with
  | true => exact ends_pure hJ
  | false =>
    refine (kept_locate name hJ).bind fun found known box hJ => ?_
    cases found with
    | none => exact ends_pure hJ
    | some zone =>
      dsimp only
      split <;> exact ends_pure hJ

theorem kept_removals (targets : List PtrTarget) (progress : PtrProgress) (hJ : J box) :
    Ends known box (targets.foldlM (remove setup.services) progress) (fun _ _ => J)
      fun _ _ => J :=
  ends_foldlM (Q := fun _ _ _ => J) (fun target _ _ progress _ _ => kept_remove progress target)
    [] progress known box hJ

end Deciding

/-! ### Sending -/

section Sending

variable {kind : String} {changes : PtrChanges} {report : Except String PtrReport}

/-- Batches to zones that exist are asked for one after the other. -/
theorem asked_send {batches : List (String × List Change)}
    (hbatches : ∀ batch ∈ batches,
      (batch.2.map Change.key).Nodup ∧ box.server.hasZone batch.1 = true)
    (h : Course kind start founded made none box.server) :
    Ends known box (send setup.services batches)
      (fun _ _ after => Asked kind start founded
        (made ++ batches.map fun batch => ⟨relative batch.1, batch.2⟩) true after.server)
      fun _ _ after => Asked kind start founded
        (made ++ batches.map fun batch => ⟨relative batch.1, batch.2⟩) false after.server := by
  induction batches generalizing made known box with
  | nil =>
    rw [List.map_nil, List.append_nil]
    exact ends_pure (h.asked _)
  | cons batch rest ih =>
    obtain ⟨⟨hnodup, hzone⟩, hrest⟩ := List.forall_mem_cons.mp hbatches
    rw [List.map_cons, List.append_cons]
    refine ends_bind (ends_adapt (ends_call (answers_of_run fun answer patched hpatch => ?_)))
    have hasked := Sandbox.Setup.asked_patchRRsets h hnodup hzone hpatch
    cases answer with
    | error e => exact hasked.failed _
    | ok _ =>
      refine ih (fun other hother => ?_) hasked.course
      obtain ⟨hkeys, hserved⟩ := hrest other hother
      exact ⟨hkeys, (Sandbox.Setup.hasZone_of_patchRRsets hpatch other.1).trans hserved⟩

/-- What was decided is asked for, on zones that exist by then. -/
theorem asked_decided {progress : PtrProgress} (hplaced : progress.Placed box.server)
    (h : Course kind start founded made none box.server) :
    Ends known box (send setup.services progress.batches)
      (fun _ _ after => Asked kind start founded
        (made ++ progress.batches.map fun batch => ⟨relative batch.1, batch.2⟩) true after.server)
      fun _ _ after => Asked kind start founded
        (made ++ progress.batches.map fun batch => ⟨relative batch.1, batch.2⟩) false
        after.server := by
  refine asked_send (fun batch hbatch => ?_) h
  obtain ⟨op, hop, hzone⟩ := PtrProgress.exists_zone_of_mem_batches hbatch
  obtain ⟨-, hlocated⟩ := hplaced.located op hop
  exact ⟨PtrProgress.nodup_keys_of_mem_batches hplaced.sites_nodup hbatch,
    hzone ▸ (location_eq_some hlocated).2⟩

/-- **A pass asks for the patches that were said,** after it has founded the zones for them. -/
theorem ends_asked_pass (hon : OnCourse setup.reverseZones.kind start made box.server) :
    Ends [] box (pass setup.services setup.reverseZones changes)
      (fun _ _ after => ∃ founded, Asked setup.reverseZones.kind start founded
        (made ++ changes.calls box.server) true after.server)
      fun _ _ after => ∃ founded, Asked setup.reverseZones.kind start founded
        (made ++ changes.calls box.server) false after.server := by
  have hunsent : ∀ after : Sandbox, OnCourse setup.reverseZones.kind start made after.server →
      ∃ founded, Asked setup.reverseZones.kind start founded (made ++ changes.calls box.server)
        false after.server := by
    rintro after ⟨founded, h⟩
    exact ⟨founded, (h.asked false).failed _⟩
  have hadditions := (kept_additions
    (J := fun box => OnCourse setup.reverseZones.kind start made box.server)
    (kept_createNarrowest fun _ _ _ _ => OnCourse.create) changes.additions hon).and
      (ends_additions setup changes box)
  refine (hadditions.mono (fun _ _ _ => id) fun _ _ after h => hunsent after h.1).bind ?_
  rintro progress known decided ⟨hon, hknown, hwritten⟩
  have hremovals : Ends known decided
      (changes.removals.foldlM (remove setup.services) progress) _ _ :=
    (kept_removals (J := fun box => OnCourse setup.reverseZones.kind start made box.server)
      changes.removals progress hon).and (ends_removals hknown hwritten)
  refine (hremovals.mono (fun _ _ _ => id) fun _ _ after h => hunsent after h.1).bind ?_
  rintro _ known decided ⟨⟨founded, h⟩, rfl, deletes, rfl, hcleared⟩
  have hsent : Ends known decided
      (send setup.services (progress.withDeletes deletes).batches) _ _ :=
    asked_decided (PtrProgress.placed_withDeletes hwritten hcleared) h
  rw [PtrChanges.calls, ← PtrChanges.batches_eq hwritten hcleared]
  refine (hsent.mono (fun _ _ _ => id) fun _ _ _ h => ⟨founded, h⟩).bind ?_
  rintro - known sent hasked
  exact ends_reported ⟨founded, hasked⟩

theorem asked_pass (hon : OnCourse setup.reverseZones.kind start made box.server)
    (hrun : runPass (pass setup.services setup.reverseZones changes) [] box =
      (report, known, after)) :
    ∃ founded, Asked setup.reverseZones.kind start founded (made ++ changes.calls box.server)
      report.isOk after.server := by
  have hasked := (ends_asked_pass hon).of_runPass hrun
  cases report with
  | ok report => exact hasked
  | error e => exact hasked

end Sending

end ReverseSync

/-- The deletions come before the replacements. -/
theorem Prepared.calls_eq (prepared : Prepared) (zone : String) :
    prepared.calls zone =
      (([prepared.batches.deleteChanges].filter (!·.isEmpty)).map fun changes =>
        ⟨relative zone, changes⟩) ++
      ([prepared.batches.replaceChanges].filter (!·.isEmpty)).map fun changes =>
        ⟨relative zone, changes⟩ := by
  rw [← List.map_append, ← List.filter_append]
  rfl

namespace Sandbox.Setup

open Nameserver

variable {setup : Setup} {request : ApplyRequest} {box after : Sandbox} {before : Snapshot}
  {prepared : Prepared}

/-- What is prepared for a request, unless it is refused before anything is sent. -/
def prepared? (setup : Setup) (request : ApplyRequest) (box : Sandbox) : Option Prepared :=
  (runFrom (setup.applier.prepare request) box).1.toOption

/-- The patches that a request asks for of its zone: the deletions and then the replacements. -/
def ownCalls (setup : Setup) (request : ApplyRequest) (box : Sandbox) : List PatchCall :=
  (setup.prepared? request box).elim [] fun prepared => prepared.calls request.zone

/-- The patches that a request asks for of reverse zones. -/
def reverseCalls (setup : Setup) (request : ApplyRequest) (box : Sandbox) : List PatchCall :=
  (setup.prepared? request box).elim [] fun prepared => prepared.ptrChanges.calls box.server

theorem Prepares.ownCalls (h : setup.Prepares request box before prepared) :
    setup.ownCalls request box = prepared.calls request.zone := by
  rw [Setup.ownCalls, prepared?, runFrom_prepare h]
  rfl

theorem Prepares.reverseCalls (h : setup.Prepares request box before prepared) :
    setup.reverseCalls request box = prepared.ptrChanges.calls box.server := by
  rw [Setup.reverseCalls, prepared?, runFrom_prepare h]
  rfl

/-- The deletions of a request are asked for. -/
theorem asked_deletes {result : Except SyncError Unit}
    (h : setup.Prepares request box before prepared)
    (hdelete : runFrom (setup.applier.sendBatch request.zone .delete prepared.batches.deleteChanges)
      box = (result, after)) :
    Asked setup.reverseZones.kind box.server []
      (([prepared.batches.deleteChanges].filter (!·.isEmpty)).map fun changes =>
        ⟨relative request.zone, changes⟩) result.isOk after.server := by
  refine asked_sendBatch (course_refl _ _) ?_ ?_ hdelete
  · rw [Batches.map_key_deleteChanges]
    exact h.wellFormed.deletes_nodup
  · rw [hasZone, h.zone]
    rfl

/-- The batches of a request are asked for once the deletions have gone through. -/
theorem asked_replaces {deleted : Sandbox} {result : Except SyncError Unit}
    (h : setup.Prepares request box before prepared)
    (hdelete : runFrom (setup.applier.sendBatch request.zone .delete prepared.batches.deleteChanges)
      box = (.ok (), deleted))
    (hreplace : runFrom
      (setup.applier.sendBatch request.zone .replace prepared.batches.replaceChanges) deleted =
        (result, after)) :
    Asked setup.reverseZones.kind box.server [] (prepared.calls request.zone) result.isOk
      after.server := by
  have hcourse := (asked_deletes h hdelete).course
  rw [prepared.calls_eq]
  refine asked_sendBatch hcourse ?_ ?_ hreplace
  · rw [Batches.map_key_replaceChanges]
    exact h.wellFormed.replaces_nodup
  · rw [hcourse.hasZone, hasZone, h.zone]
    rfl

/-- What is done about reverse names is what a pass asks for. -/
theorem asked_syncReverse {kind zone : String} {start : Nameserver} {made : List PatchCall}
    {changes : PtrChanges} {result : Except SyncError (Option PtrReport)}
    (hkind : setup.reverseZones.kind = kind) (hon : OnCourse kind start made box.server)
    (hreverse : StateT.run (setup.applier.syncReverse zone changes) box = (result, after)) :
    ∃ founded, Asked kind start founded (made ++ changes.calls box.server) result.isOk
      after.server := by
  subst hkind
  rcases eq_or_runPass_of_syncReverse hreverse with
    ⟨hempty, rfl, rfl⟩ | ⟨report, known, hpass, rfl⟩
  · obtain ⟨founded, h⟩ := hon
    rw [PtrChanges.calls_of_isEmpty hempty, List.append_nil]
    exact ⟨founded, h.asked true⟩
  · obtain ⟨founded, hasked⟩ := ReverseSync.asked_pass hon hpass
    refine ⟨founded, ?_⟩
    cases report with
    | error e => exact hasked
    | ok report => exact hasked

/-- Once the batches of a request have gone through, the reverse zones are asked for. -/
theorem asked_reverse {start deleted replaced : Sandbox}
    {reversed : Except SyncError (Option PtrReport)}
    (h : setup.Prepares request start before prepared)
    (hsent : setup.applier.Sent request prepared start deleted replaced)
    (hreverse : StateT.run (setup.applier.syncReverse request.zone prepared.ptrChanges) replaced =
      (reversed, after)) :
    ∃ founded, Asked setup.reverseZones.kind start.server founded
      (prepared.calls request.zone ++ prepared.ptrChanges.calls start.server) reversed.isOk
      after.server := by
  have hcourse := (asked_replaces h hsent.delete hsent.replace).course
  have hcalls : prepared.ptrChanges.calls replaced.server =
      prepared.ptrChanges.calls start.server := by
    rw [PtrChanges.calls, PtrChanges.batches_congr hcourse.hasZone, PtrChanges.calls]
  rw [← hcalls]
  exact asked_syncReverse rfl ⟨[], hcourse⟩ hreverse

/-- What a run asks for, however it ends. -/
theorem asked_run (setup : Setup) (hstore : setup.Recording) (request : ApplyRequest)
    (box : Sandbox) :
    ∃ founded, Asked setup.reverseZones.kind box.server founded
      (setup.ownCalls request box ++ setup.reverseCalls request box)
      (setup.run request box).1.isOk (setup.run request box).2.server := by
  obtain ⟨final, hran, hserver, -⟩ := setup.run_ran request box
  rw [hserver]
  generalize (setup.run request box).1 = result at hran
  have hstart := course_refl setup.reverseZones.kind box.server
  cases hran with
  | unprepared hprepare =>
    obtain ⟨rfl, -⟩ := prepare_run hprepare
    exact ⟨[], (hstart.asked false).failed _⟩
  | settled hprepare hbatches =>
    obtain ⟨rfl, before, hprepares⟩ := prepare_run hprepare
    rw [hprepares.ownCalls, hprepares.reverseCalls, calls_of_isEmpty hbatches,
      PtrChanges.calls_of_isEmpty (hprepares.ptrChanges_of_isEmpty hbatches)]
    exact ⟨[], hstart.asked true⟩
  | undeleted hprepare _ hdelete =>
    obtain ⟨rfl, before, hprepares⟩ := prepare_run hprepare
    rw [hprepares.ownCalls, Prepared.calls_eq, List.append_assoc]
    exact ⟨[], (asked_deletes hprepares hdelete).failed _⟩
  | unreplaced hprepare _ hdelete hreplace =>
    obtain ⟨rfl, before, hprepares⟩ := prepare_run hprepare
    rw [hprepares.ownCalls]
    exact ⟨[], (asked_replaces hprepares hdelete hreplace).failed _⟩
  | unrecorded hprepare hsent hreverse hnow hpersist =>
    obtain ⟨rfl, before, hprepares⟩ := prepare_run hprepare
    cases hnow
    obtain ⟨hkept, -⟩ := persist_run hstore hpersist
    obtain ⟨founded, hasked⟩ := asked_reverse hprepares hsent hreverse
    rw [hprepares.ownCalls, hprepares.reverseCalls, hkept]
    exact ⟨founded, hasked.weaken⟩
  | @recorded _ reversed _ _ _ _ _ _ _ hprepare hsent hreverse hnow hpersist =>
    obtain ⟨rfl, before, hprepares⟩ := prepare_run hprepare
    cases hnow
    obtain ⟨hkept, -⟩ := persist_run hstore hpersist
    obtain ⟨founded, hasked⟩ := asked_reverse hprepares hsent hreverse
    rw [hprepares.ownCalls, hprepares.reverseCalls, hkept]
    refine ⟨founded, ?_⟩
    cases reversed with
    | error e => exact hasked
    | ok autoPtr => exact hasked

/-- A run that succeeds has asked for all its patches and for nothing else. -/
theorem patches_of_ok (hstore : setup.Recording) (h : setup.Prepares request box before prepared)
    (hok : (setup.run request box).1.isOk = true) :
    (setup.run request box).2.server.patches =
      box.server.patches ++ prepared.calls request.zone ++
        prepared.ptrChanges.calls box.server := by
  obtain ⟨founded, hasked⟩ := asked_run setup hstore request box
  rw [hok] at hasked
  rw [hasked.course.patches, h.ownCalls, h.reverseCalls, Option.toList_none, List.append_nil,
    List.append_assoc]

/-- **A run asks for its patches in order, up to the first that is refused.**  What it asks for is
a beginning of its deletions, its replacements and one patch of each reverse zone that is affected,
in the order of their names.  Every zone is as it was or was founded, with the patches that were
made to it. -/
theorem run_in_order (setup : Setup) (hstore : setup.Recording) (request : ApplyRequest)
    (box : Sandbox) :
    ∃ founded made refused,
      Course setup.reverseZones.kind box.server founded made refused
        (setup.run request box).2.server ∧
      made ++ refused.toList <+: setup.ownCalls request box ++ setup.reverseCalls request box ∧
      ((setup.run request box).1.isOk = true → refused = none ∧
        made = setup.ownCalls request box ++ setup.reverseCalls request box) ∧
      ((setup.reverseCalls request box).map PatchCall.zone).Pairwise (fun zone other =>
        zone < other) ∧
      ∀ zone, zone ∈ (setup.reverseCalls request box).map PatchCall.zone ↔
        ∃ prepared ∈ setup.prepared? request box,
          prepared.ptrChanges.Affects box.server zone := by
  obtain ⟨founded, made, refused, hcourse, hprefix, hfine⟩ := asked_run setup hstore request box
  refine ⟨founded, made, refused, hcourse, hprefix, hfine, ?_⟩
  unfold reverseCalls
  cases setup.prepared? request box with
  | none => exact ⟨.nil, by simp⟩
  | some prepared =>
    refine ⟨prepared.ptrChanges.calls_ascending box.server, fun zone => ?_⟩
    rw [Option.elim_some, PtrChanges.mem_zones_calls]
    simp

/-- An address comes, and the reverse zone that is founded for it refuses its patch. -/
theorem run_in_order_refusedReverse :
    let setup := plain ⟨false, true, [.named .a]⟩
    let box : Sandbox := .ofServer ((Nameserver.empty.insertZone "example.com" 1 []).failPatch 1)
    let after := setup.run oneAddress box
    setup.Recording ∧ after.1.isOk = false ∧
      after.2.server.patches.map PatchCall.zone = ["example.com", "2.0.192.in-addr.arpa"] ∧
      ∃ founded made refused,
        Course setup.reverseZones.kind box.server founded made refused after.2.server ∧
        made ++ refused.toList <+:
          setup.ownCalls oneAddress box ++ setup.reverseCalls oneAddress box ∧
        (after.1.isOk = true → refused = none ∧
          made = setup.ownCalls oneAddress box ++ setup.reverseCalls oneAddress box) ∧
        ((setup.reverseCalls oneAddress box).map PatchCall.zone).Pairwise (fun zone other =>
          zone < other) ∧
        ∀ zone, zone ∈ (setup.reverseCalls oneAddress box).map PatchCall.zone ↔
          ∃ prepared ∈ setup.prepared? oneAddress box,
            prepared.ptrChanges.Affects box.server zone := by
  intro setup box after
  have hstore : setup.Recording := recording_plain ⟨false, true, [.named .a]⟩
  have hrun : after.1.isOk = false ∧
      after.2.server.patches.map PatchCall.zone = ["example.com", "2.0.192.in-addr.arpa"] := by
    decide +kernel
  exact ⟨hstore, hrun.1, hrun.2, run_in_order setup hstore oneAddress box⟩

end Sandbox.Setup

end ZoneKeeper
