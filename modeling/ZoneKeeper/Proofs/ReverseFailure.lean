/-
What a pass over reverse names leaves when a patch is refused.

A pass decides everything before it sends anything, and it sends to one reverse zone after the
other, in the order of their names.  So when a patch is refused, the zones that come before the
refused one have all their operations and the others have none of theirs.  A zone that was created
for a name is there in any case.
-/
import ZoneKeeper.Proofs.ReverseEffect

namespace ZoneKeeper

open ReverseName DomainName

/-! ### What is left when a patch is refused -/

namespace PtrChanges

/-- What a pass for addresses leaves in the trees of reverse names when the patch of a reverse zone
is refused. -/
structure SyncedBefore (changes : PtrChanges) (refused : String) (before after : Nameserver) :
    Prop where
  /-- Every name that is written has a zone.  Where that comes before the refused one, the name
  points where its first target says. -/
  written : ∀ name ∈ changes.writtenNames, ∃ zone target, after.location name = some zone ∧
    firstTarget? changes.additions name = some target ∧
    (zone < refused → after.held zone ⟨name, .named .ptr⟩ = [ReverseSync.ptrRecord name target])
  /-- A name that is removed from a zone before the refused one points nowhere any longer. -/
  dropped : ∀ name ∈ changes.droppedNames, ∀ zone, after.location name = some zone →
    zone < refused → after.held zone ⟨name, .named .ptr⟩ = []
  /-- Nothing else is different.  So the names of the refused zone and of those after it hold what
  they held. -/
  others : ∀ zone, InTree zone → ∀ key,
    (∀ name ∈ changes.writtenNames ++ changes.droppedNames,
      after.location name = some (relative zone) → relative zone < refused →
      key ≠ ⟨name, .named .ptr⟩) →
    after.held zone key = before.held zone key
  /-- Some name that was to be written or removed is in the refused zone. -/
  left : ∃ name ∈ changes.writtenNames ++ changes.droppedNames,
    after.location name = some refused

variable {changes : PtrChanges} {refused : String} {before before' after after' : Nameserver}

theorem isReverse_of_mem {name : String}
    (h : name ∈ changes.writtenNames ++ changes.droppedNames) : IsReverse name := by
  rcases List.mem_append.mp h with hwritten | hdropped
  · exact isReverse_of_mem_reverseNames (mem_writtenNames.mp hwritten)
  · exact isReverse_of_mem_reverseNames (mem_droppedNames.mp hdropped).1

/-- Only the zones in the trees of reverse names matter. -/
theorem SyncedBefore.congr (h : changes.SyncedBefore refused before after)
    (hbefore : ∀ zone, InTree zone → before'.zone? zone = before.zone? zone)
    (hafter : ∀ zone, InTree zone → after'.zone? zone = after.zone? zone) :
    changes.SyncedBefore refused before' after' := by
  have hlocation : ∀ name ∈ changes.writtenNames ++ changes.droppedNames,
      after'.location name = after.location name := by
    intro name hname
    refine Nameserver.location_congr fun zone hzone => ?_
    rw [Nameserver.hasZone, Nameserver.hasZone, hafter zone ((isReverse_of_mem hname).inTree hzone)]
  have hheld : ∀ zone, InTree zone → ∀ key, after'.held zone key = after.held zone key := by
    intro zone hzone key
    rw [Nameserver.held, Nameserver.held, Nameserver.rrsetsOf, Nameserver.rrsetsOf,
      hafter zone hzone]
  have hlocated : ∀ name ∈ changes.writtenNames ++ changes.droppedNames, ∀ zone,
      after.location name = some zone → InTree zone := fun name hname zone hzone =>
    (isReverse_of_mem hname).inTree (Nameserver.location_eq_some hzone).1
  refine ⟨fun name hname => ?_, fun name hname zone hzone hlt => ?_,
    fun zone hzone key hapart => ?_, ?_⟩
  · have hmem := List.mem_append_left changes.droppedNames hname
    obtain ⟨zone, target, hzone, hfirst, hpoints⟩ := h.written name hname
    refine ⟨zone, target, (hlocation name hmem).trans hzone, hfirst, fun hlt => ?_⟩
    rw [hheld zone (hlocated name hmem zone hzone), hpoints hlt]
  · have hmem := List.mem_append_right changes.writtenNames hname
    rw [hlocation name hmem] at hzone
    rw [hheld zone (hlocated name hmem zone hzone), h.dropped name hname zone hzone hlt]
  · rw [hheld zone hzone, h.others zone hzone key fun name hname hlocation' =>
      hapart name hname ((hlocation name hname).trans hlocation')]
    rw [Nameserver.held, Nameserver.held, Nameserver.rrsetsOf, Nameserver.rrsetsOf,
      hbefore zone hzone]
  · obtain ⟨name, hname, hrefused⟩ := h.left
    exact ⟨name, hname, (hlocation name hname).trans hrefused⟩

end PtrChanges

namespace PtrProgress

variable {start server after : Nameserver} {progress : PtrProgress} {changes : PtrChanges}
  {deletes : List PtrOperation} {message refused : String} {made : List (String × List Change)}

/-- The batches are in the order of their zones, one for each. -/
theorem zones_ascending (progress : PtrProgress) :
    (progress.batches.map Prod.fst).Pairwise fun zone other => zone < other := by
  rw [map_fst_batches]
  exact ascending_mergeSort (f := id) (fun _ _ => decide_eq_true_iff) (fun _ _ => id)
    (nodup_eraseDups _)

/-- The batches that were made are those before the refused one. -/
theorem mem_made_iff (h : ReverseSync.Halted server after progress.batches message refused made)
    {zone : String} (hzone : zone ∈ progress.batches.map Prod.fst) :
    zone ∈ made.map Prod.fst ↔ zone < refused := by
  obtain ⟨changes, rest, hsplit⟩ := h.split
  have hascending := progress.zones_ascending
  rw [hsplit, List.map_append, List.map_cons, List.pairwise_append, List.pairwise_cons]
    at hascending
  obtain ⟨-, ⟨hlater, -⟩, hearlier⟩ := hascending
  rw [hsplit, List.map_append, List.map_cons, List.mem_append, List.mem_cons] at hzone
  constructor
  · exact fun hmade => hearlier zone hmade refused List.mem_cons_self
  · rcases hzone with hmade | rfl | hrest
    · exact fun _ => hmade
    · exact fun hlt => absurd hlt (lt_irrefl _)
    · exact fun hlt => absurd hlt (hlater zone hrest).asymm

/-- **The zones before the refused one are in step, and in the others nothing is changed.** -/
theorem BrokenOff.syncedBefore
    (hbroken : BrokenOff changes start server after progress deletes message refused made) :
    changes.SyncedBefore refused start after := by
  obtain ⟨hwritten, hcleared, h⟩ := hbroken
  obtain ⟨batch, rest, hsplit⟩ := h.split
  have hmade : made ⊆ (progress.withDeletes deletes).batches := by
    rw [hsplit]
    exact List.subset_append_left _ _
  have hunderway : Underway changes start server after progress deletes made :=
    ⟨hwritten, hcleared, hmade, h.sent⟩
  refine ⟨fun name hname => ?_, fun name hname zone hlocated hlt => ?_,
    fun zone _ key hapart => ?_, ?_⟩
  · obtain ⟨zone, target, hzone, hlocated, hfirst, hheld⟩ := hunderway.exists_target hname
    exact ⟨zone, target, hlocated, hfirst, fun hlt => hheld ((mem_made_iff h hzone).mpr hlt)⟩
  · obtain ⟨hzone, hheld⟩ := hunderway.held_of_dropped hname hlocated
    exact hheld ((mem_made_iff h hzone).mpr hlt)
  · refine hunderway.held_of_others fun name hname hlocated hreached => ?_
    exact hapart name hname hlocated
      ((mem_made_iff h (List.map_subset Prod.fst hmade hreached)).mp hreached)
  · have hrefused : (refused, batch) ∈ (progress.withDeletes deletes).batches :=
      hsplit ▸ List.mem_append_right _ List.mem_cons_self
    obtain ⟨op, hop, hzone⟩ := exists_zone_of_mem_batches hrefused
    obtain ⟨hname, hlocated, -⟩ := hunderway.of_mem_operations hop
    exact ⟨op.name, hname, hlocated.trans (congrArg some hzone)⟩

end PtrProgress

namespace ReverseSync

/-- **A pass fails before it sends anything, or because a patch is refused.** -/
theorem of_runPass_error {setup : Sandbox.Setup} {changes : PtrChanges} {box after : Sandbox}
    {e : String} {known : Locations}
    (h : runPass (pass setup.services setup.reverseZones changes) [] box =
      (.error e, known, after)) :
    Unsent e ∨ ∃ refused, (∃ cause : ApiError, e = s!"reverse zone {refused}: {cause.message}") ∧
      changes.SyncedBefore refused box.server after.server := by
  rcases (ends_pass setup changes box).of_runPass h with
    hunsent | ⟨server, progress, deletes, refused, made, hbroken⟩
  · exact .inl hunsent
  · exact .inr ⟨refused, hbroken.halted.told, hbroken.syncedBefore⟩

end ReverseSync

end ZoneKeeper
