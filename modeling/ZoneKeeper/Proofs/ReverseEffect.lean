/-
What a pass over reverse names leaves.

The operations are on distinct names, each in the zone where its name is located.  So what the
patches do can be said one key of one zone at a time: a key that an operation is about holds what
the operation leaves, and any other holds what it held.

A pass that succeeds has made every patch, whatever failures are laid out.  One that fails does so
before it sends anything, or it breaks off at the first patch that is refused.  Where no failures
are laid out, a pass over targets with addresses does succeed.
-/
import ZoneKeeper.Proofs.Grouping
import ZoneKeeper.Proofs.PatchEffect
import ZoneKeeper.Proofs.Refusal
import ZoneKeeper.Proofs.ReverseDecision

namespace ZoneKeeper

open ReverseName DomainName

/-! ### One key of one zone -/

namespace Nameserver

variable {server after : Nameserver} {zone other : String} {changes : List Change}

/-- The record sets that a zone holds under a key. -/
def held (server : Nameserver) (zone : String) (key : RRsetKey) : List RRset :=
  RRset.withKey (server.rrsetsOf zone) key

/-! ### Batches to several zones -/

/-- Batches were made to zones, and nothing else was done. -/
structure Sent (server after : Nameserver) (batches : List (String × List Change)) : Prop where
  hasZone : ∀ zone, after.hasZone zone = server.hasZone zone
  own : ∀ batch ∈ batches,
    after.rrsetsOf batch.1 = batch.2.foldl applyChange (server.rrsetsOf batch.1)
  others : ∀ zone, (∀ batch ∈ batches, ¬SameZone zone batch.1) →
    after.rrsetsOf zone = server.rrsetsOf zone

theorem Sent.location {batches : List (String × List Change)} (h : Sent server after batches)
    (name : String) : after.location name = server.location name :=
  location_congr fun zone _ => h.hasZone zone

theorem Sent.refl (server : Nameserver) : Sent server server [] :=
  ⟨fun _ => rfl, by simp, fun _ _ => rfl⟩

theorem Sent.of_untouched (h : Untouched server after) : Sent server after [] := by
  refine ⟨fun zone => ?_, by simp, fun zone _ => ?_⟩
  · rw [Nameserver.hasZone, Nameserver.hasZone, h.zone?]
  · rw [rrsetsOf, rrsetsOf, h.zone?]

/-- The zone of the first of several batches to distinct zones is none of the others. -/
theorem apart_of_nodup {rest : List (String × List Change)}
    (h : (((zone, changes) :: rest).map fun batch => relative batch.1).Nodup) :
    (∀ batch ∈ rest, ¬SameZone zone batch.1) ∧ (rest.map fun batch => relative batch.1).Nodup := by
  rw [List.map_cons, List.nodup_cons] at h
  exact ⟨fun batch hbatch hsame => h.1 (List.mem_map.mpr ⟨batch, hbatch, hsame.symm⟩), h.2⟩

/-- One more batch, to a zone that the others are not to. -/
theorem Sent.cons {middle : Nameserver} {rest : List (String × List Change)}
    (hpatch : server.patch zone changes = (.ok (), middle)) (h : Sent middle after rest)
    (hapart : ∀ batch ∈ rest, ¬SameZone zone batch.1) :
    Sent server after ((zone, changes) :: rest) := by
  obtain ⟨hhas, hown, hothers⟩ := of_patch_ok hpatch
  refine ⟨fun other => (h.hasZone other).trans (hhas other),
    List.forall_mem_cons.mpr ⟨?_, fun batch hbatch => ?_⟩, fun other hother => ?_⟩
  · rw [h.others zone hapart, hown]
  · rw [h.own batch hbatch, hothers _ fun hsame => hapart batch hbatch hsame.symm]
  · obtain ⟨hfirst, hrest⟩ := List.forall_mem_cons.mp hother
    rw [h.others other hrest, hothers other hfirst]

end Nameserver

namespace ReverseSync

variable {setup : Sandbox.Setup}

/-- The patches of the batches before a zone were accepted, and that of the zone was refused. -/
structure Halted (server after : Nameserver) (batches : List (String × List Change))
    (message : String) (refused : String) (made : List (String × List Change)) : Prop where
  told : ∃ cause : ApiError, message = s!"reverse zone {refused}: {cause.message}"
  split : ∃ changes rest, batches = made ++ (refused, changes) :: rest
  sent : server.Sent after made

/-- One more batch that was accepted, to a zone that the others are not to. -/
theorem Halted.cons {server middle after : Nameserver} {zone message refused : String}
    {changes : List Change} {rest made : List (String × List Change)}
    (hpatch : server.patch zone changes = (.ok (), middle))
    (h : Halted middle after rest message refused made)
    (hapart : ∀ batch ∈ rest, ¬Nameserver.SameZone zone batch.1) :
    Halted server after ((zone, changes) :: rest) message refused ((zone, changes) :: made) := by
  obtain ⟨htold, ⟨changes', later, rfl⟩, hsent⟩ := h
  exact ⟨htold, ⟨changes', later, rfl⟩,
    .cons hpatch hsent fun batch hbatch => hapart batch (List.mem_append_left _ hbatch)⟩

/-- Batches to distinct zones do not get in the way of each other, and the first that is refused is
the last that is sent. -/
theorem ends_send {batches : List (String × List Change)}
    (hdistinct : (batches.map fun batch => relative batch.1).Nodup) (known : Locations)
    (box : Sandbox) :
    Ends known box (send setup.services batches)
      (fun _ _ box' => box.server.Sent box'.server batches)
      fun e _ box' => ∃ refused made, Halted box.server box'.server batches e refused made := by
  induction batches generalizing known box with
  | nil => exact ends_pure (.refl _)
  | cons batch rest ih =>
    obtain ⟨zone, changes⟩ := batch
    obtain ⟨hapart, hrest⟩ := Nameserver.apart_of_nodup hdistinct
    refine ends_bind (ends_adapt (ends_call (answers_of_run fun result after hrun => ?_)))
    rcases Sandbox.Setup.patchRRsets_run hrun with ⟨rfl, cause, rfl⟩ | ⟨server, hpatch, rfl⟩
    · exact ⟨zone, [], ⟨cause, rfl⟩, ⟨changes, rest, rfl⟩, .refl _⟩
    cases result with
    | ok _ =>
      refine (ih hrest known _).mono (fun _ _ _ hsent => .cons hpatch hsent hapart) ?_
      rintro e _ after ⟨refused, made, hhalted⟩
      exact ⟨refused, (zone, changes) :: made, hhalted.cons hpatch hapart⟩
    | error cause =>
      exact ⟨zone, [], ⟨cause, rfl⟩, ⟨changes, rest, rfl⟩,
        .of_untouched (Nameserver.untouched_of_patch_error hpatch)⟩

end ReverseSync

/-! ### What the operations leave -/

namespace PtrProgress

/-- The operations are on distinct names, each in the zone where its name is located. -/
structure Placed (progress : PtrProgress) (server : Nameserver) : Prop where
  nodup : progress.names.Nodup
  located : ∀ op ∈ progress.operations,
    IsReverse op.name ∧ server.location op.name = some op.zone

variable {start server after : Nameserver} {progress : PtrProgress}
  {additions removals : List PtrTarget} {deletes : List PtrOperation} {op : PtrOperation}

theorem Placed.relative_zone (h : progress.Placed server) (hop : op ∈ progress.operations) :
    relative op.zone = op.zone := by
  obtain ⟨hname, hlocated⟩ := h.located op hop
  exact hname.relative_candidate (Nameserver.location_eq_some hlocated).1

theorem names_withDeletes :
    (progress.withDeletes deletes).names = progress.names ++ deletes.map PtrOperation.name :=
  List.map_append

/-- What was decided for the additions and the removals is on distinct names. -/
theorem placed_withDeletes (hwritten : progress.Written start additions server)
    (h : progress.Cleared server removals deletes) :
    (progress.withDeletes deletes).Placed server := by
  refine ⟨?_, List.forall_mem_append.mpr ⟨fun op hop => ?_, fun op hop => ?_⟩⟩
  · rw [names_withDeletes]
    refine hwritten.nodup.append h.nodup fun name hold hdeleted => ?_
    exact ((h.mem_names name).mp hdeleted).2.1 hold
  · have hname := (hwritten.mem_names _).mp (List.mem_map_of_mem hop)
    exact ⟨isReverse_of_mem_reverseNames hname, (hwritten.operations op hop).1⟩
  · have hname := ((h.mem_names _).mp (List.mem_map_of_mem hop)).1
    exact ⟨isReverse_of_mem_reverseNames hname, (h.operations op hop).1⟩

/-- Every operation is in the batch for its zone. -/
theorem mem_of_mem_batches {batch : String × List Change} (hop : op ∈ progress.operations)
    (hbatch : batch ∈ progress.batches) (hzone : batch.1 = op.zone) : op.change ∈ batch.2 := by
  obtain ⟨zone, -, rfl⟩ := List.mem_map.mp hbatch
  refine List.mem_map_of_mem (List.mem_mergeSort.mpr (List.mem_filter.mpr ⟨hop, ?_⟩))
  simpa using hzone.symm

theorem map_fst_batches (progress : PtrProgress) :
    progress.batches.map Prod.fst =
      (progress.operations.map PtrOperation.zone).eraseDups.mergeSort
        fun a b => decide (a ≤ b) := by
  unfold batches
  rw [List.map_map]
  exact List.map_id _

/-- There is a batch for the zone of every operation. -/
theorem zone_mem_batches (hop : op ∈ progress.operations) :
    op.zone ∈ progress.batches.map Prod.fst := by
  rw [map_fst_batches, List.mem_mergeSort, List.mem_eraseDups]
  exact List.mem_map_of_mem hop

/-- There is one batch for each zone. -/
theorem nodup_zones_batches (h : progress.Placed server) :
    (progress.batches.map fun batch => relative batch.1).Nodup := by
  have hzones : (progress.batches.map Prod.fst).Nodup := by
    rw [map_fst_batches]
    exact (List.mergeSort_perm _ _).nodup_iff.mpr (nodup_eraseDups _)
  have hrelative : (progress.batches.map fun batch => relative batch.1) =
      progress.batches.map Prod.fst := by
    refine List.map_congr_left fun batch hbatch => ?_
    obtain ⟨op, hop, hzone⟩ := exists_zone_of_mem_batches hbatch
    rw [← hzone, h.relative_zone hop]
  rwa [hrelative]

theorem Placed.sites_nodup (h : progress.Placed server) : progress.sites.Nodup := by
  have hnames : (progress.sites.map Prod.snd).Nodup := by
    rw [sites, List.map_map]
    exact h.nodup
  exact hnames.of_map _

section Made

variable {made : List (String × List Change)} (h : progress.Placed server)
  (hmade : made ⊆ progress.batches) (hsent : server.Sent after made)
include h hmade hsent

/-- The key of an operation holds what its change leaves, once the batch for its zone is made. -/
theorem Placed.held_of_mem (hop : op ∈ progress.operations) (hzone : op.zone ∈ made.map Prod.fst) :
    after.held op.zone op.change.key = op.change.leaves := by
  obtain ⟨batch, hbatch, hsame⟩ := List.mem_map.mp hzone
  have hchange := mem_of_mem_batches hop (hmade hbatch) hsame
  rw [Nameserver.held, ← hsame, hsent.own batch hbatch]
  exact Nameserver.withKey_foldl_of_mem
    (nodup_keys_of_mem_batches h.sites_nodup (hmade hbatch)) hchange _

/-- Where no operation of a batch that is made is, everything is as it was. -/
theorem Placed.held_of_not_mem {zone : String} {key : RRsetKey}
    (hapart : ∀ op ∈ progress.operations, op.zone = relative zone →
      op.zone ∈ made.map Prod.fst → op.change.key ≠ key) :
    after.held zone key = server.held zone key := by
  unfold Nameserver.held
  by_cases hbatch : ∃ batch ∈ made, Nameserver.SameZone zone batch.1
  · obtain ⟨batch, hbatch, hsame⟩ := hbatch
    rw [Nameserver.rrsetsOf_congr hsame, Nameserver.rrsetsOf_congr hsame, hsent.own batch hbatch]
    refine Nameserver.withKey_foldl_of_not_mem (fun hkey => ?_) _
    obtain ⟨change, hchange, rfl⟩ := List.mem_map.mp hkey
    obtain ⟨op, hop, hzone, rfl⟩ := exists_of_mem_batches (hmade hbatch) hchange
    refine hapart op hop ?_ (hzone ▸ List.mem_map_of_mem hbatch) rfl
    rw [← h.relative_zone hop, hzone, hsame]
  · rw [hsent.others zone fun batch hmem hsame => hbatch ⟨batch, hmem, hsame⟩]

end Made

end PtrProgress

/-! ### A pass -/

namespace PtrChanges

variable {changes : PtrChanges}

/-- The reverse names that are written. -/
def writtenNames (changes : PtrChanges) : List String :=
  (reverseNames changes.additions).eraseDups

/-- The reverse names that are removed. -/
def droppedNames (changes : PtrChanges) : List String :=
  (reverseNames changes.removals).eraseDups.filter fun name => name ∉ changes.writtenNames

theorem mem_writtenNames {name : String} :
    name ∈ changes.writtenNames ↔ name ∈ reverseNames changes.additions := by
  rw [writtenNames, List.mem_eraseDups]

theorem mem_droppedNames {name : String} : name ∈ changes.droppedNames ↔
    name ∈ reverseNames changes.removals ∧ name ∉ reverseNames changes.additions := by
  rw [droppedNames, List.mem_filter, List.mem_eraseDups, decide_eq_true_iff, mem_writtenNames]

/-- What a pass makes of a nameserver.  A reverse name is in the first of its candidates that
exists after the pass. -/
structure Synced (changes : PtrChanges) (before after : Nameserver) (report : PtrReport) :
    Prop where
  /-- Every target has a reverse name. -/
  readable : ∀ target ∈ changes.additions ++ changes.removals, target.reverse?.isSome = true
  /-- A name that is written has a zone, and there it points where its first target says. -/
  written : ∀ name ∈ changes.writtenNames, ∃ zone target, after.location name = some zone ∧
    firstTarget? changes.additions name = some target ∧
    after.held zone ⟨name, .named .ptr⟩ = [ReverseSync.ptrRecord name target]
  /-- The zone is the one that the name had, and otherwise its narrowest candidate, created. -/
  located : ∀ name ∈ changes.writtenNames, ∀ zone, after.location name = some zone →
    (zone ∈ report.zonesCreated ↔ before.location name = none) ∧
    (before.location name = none → (zoneCandidates name).head? = some zone) ∧
    ∀ old, before.location name = some old → zone = old
  /-- A name that is removed points nowhere any longer. -/
  dropped : ∀ name ∈ changes.droppedNames, ∀ zone, after.location name = some zone →
    after.held zone ⟨name, .named .ptr⟩ = []
  /-- Nothing else is different. -/
  others : ∀ zone key,
    (∀ name ∈ changes.writtenNames ++ changes.droppedNames,
      after.location name = some (relative zone) → key ≠ ⟨name, .named .ptr⟩) →
    after.held zone key = before.held zone key
  /-- The zones that were created are listed, each once, and did not exist. -/
  zones : ∀ zone, after.hasZone zone = true ↔
    before.hasZone zone = true ∨ relative zone ∈ report.zonesCreated
  fresh : ∀ zone ∈ report.zonesCreated, before.hasZone zone = false
  nodup : report.zonesCreated.Nodup
  added : report.added = changes.writtenNames.length
  deleted : report.deleted =
    (changes.droppedNames.filter fun name => (after.location name).isSome).length

end PtrChanges

namespace PtrProgress

variable {start server after : Nameserver} {progress : PtrProgress} {changes : PtrChanges}
  {deletes : List PtrOperation} {op : PtrOperation} {name zone : String}

/-- What carries over from the decisions to the nameserver after some of the batches are made. -/
structure Underway (changes : PtrChanges) (start server after : Nameserver)
    (progress : PtrProgress) (deletes : List PtrOperation) (made : List (String × List Change)) :
    Prop where
  written : progress.Written start changes.additions server
  cleared : progress.Cleared server changes.removals deletes
  subset : made ⊆ (progress.withDeletes deletes).batches
  sent : server.Sent after made

/-- What carries over from the decisions to the nameserver after the patches. -/
structure Settled (changes : PtrChanges) (start server after : Nameserver)
    (progress : PtrProgress) (deletes : List PtrOperation) : Prop where
  written : progress.Written start changes.additions server
  cleared : progress.Cleared server changes.removals deletes
  sent : server.Sent after (progress.withDeletes deletes).batches

/-- What carries over where a patch is refused. -/
structure BrokenOff (changes : PtrChanges) (start server after : Nameserver)
    (progress : PtrProgress) (deletes : List PtrOperation) (message refused : String)
    (made : List (String × List Change)) : Prop where
  written : progress.Written start changes.additions server
  cleared : progress.Cleared server changes.removals deletes
  halted : ReverseSync.Halted server after (progress.withDeletes deletes).batches message refused
    made

theorem Settled.underway (h : Settled changes start server after progress deletes) :
    Underway changes start server after progress deletes (progress.withDeletes deletes).batches :=
  ⟨h.written, h.cleared, List.Subset.refl _, h.sent⟩

section Underway

variable {made : List (String × List Change)}
  (h : Underway changes start server after progress deletes made)
include h

theorem Underway.placed : (progress.withDeletes deletes).Placed server :=
  placed_withDeletes h.written h.cleared

theorem Underway.mem_writtenNames : name ∈ changes.writtenNames ↔ name ∈ progress.names := by
  rw [PtrChanges.mem_writtenNames, h.written.mem_names]

theorem Underway.mem_deletes : name ∈ deletes.map PtrOperation.name ↔
    name ∈ changes.droppedNames ∧ (after.location name).isSome = true := by
  rw [h.cleared.mem_names, PtrChanges.mem_droppedNames, h.written.mem_names, h.sent.location,
    and_assoc]

/-- A name that is written has a zone, and once the batch for that is made it points there where
its first target says. -/
theorem Underway.exists_target (hname : name ∈ changes.writtenNames) :
    ∃ zone target, zone ∈ (progress.withDeletes deletes).batches.map Prod.fst ∧
      after.location name = some zone ∧ firstTarget? changes.additions name = some target ∧
      (zone ∈ made.map Prod.fst →
        after.held zone ⟨name, .named .ptr⟩ = [ReverseSync.ptrRecord name target]) := by
  rw [h.mem_writtenNames] at hname
  obtain ⟨op, hop, rfl⟩ := List.mem_map.mp hname
  obtain ⟨hlocated, target, hfirst, hchange⟩ := h.written.operations op hop
  have hall : op ∈ (progress.withDeletes deletes).operations := List.mem_append_left deletes hop
  refine ⟨op.zone, target, zone_mem_batches hall, (h.sent.location _).trans hlocated, hfirst,
    fun hzone => ?_⟩
  have hheld := h.placed.held_of_mem h.subset h.sent hall hzone
  rw [hchange] at hheld
  exact hheld

/-- A name that is removed points nowhere any longer once the batch for its zone is made. -/
theorem Underway.held_of_dropped (hname : name ∈ changes.droppedNames)
    (hlocated : after.location name = some zone) :
    zone ∈ (progress.withDeletes deletes).batches.map Prod.fst ∧
      (zone ∈ made.map Prod.fst → after.held zone ⟨name, .named .ptr⟩ = []) := by
  have hdeleted := h.mem_deletes.mpr ⟨hname, by simp [hlocated]⟩
  obtain ⟨op, hop, rfl⟩ := List.mem_map.mp hdeleted
  obtain ⟨hzone, hchange⟩ := h.cleared.operations op hop
  rw [h.sent.location, hzone] at hlocated
  obtain rfl := Option.some.inj hlocated
  have hall : op ∈ (progress.withDeletes deletes).operations :=
    List.mem_append_right progress.operations hop
  refine ⟨zone_mem_batches hall, fun hmade => ?_⟩
  have hheld := h.placed.held_of_mem h.subset h.sent hall hmade
  rw [hchange] at hheld
  exact hheld

/-- Every operation is about a pointer under a name that is written or removed, in the zone of the
name. -/
theorem Underway.of_mem_operations (hop : op ∈ (progress.withDeletes deletes).operations) :
    op.name ∈ changes.writtenNames ++ changes.droppedNames ∧
      after.location op.name = some op.zone ∧ op.change.key = ⟨op.name, .named .ptr⟩ := by
  rw [h.sent.location, List.mem_append]
  rcases List.mem_append.mp hop with hold | hdeleted
  · obtain ⟨hlocated, target, -, hchange⟩ := h.written.operations op hold
    exact ⟨.inl (h.mem_writtenNames.mpr (List.mem_map_of_mem hold)), hlocated, by rw [hchange]; rfl⟩
  · obtain ⟨hlocated, hchange⟩ := h.cleared.operations op hdeleted
    exact ⟨.inr (h.mem_deletes.mp (List.mem_map_of_mem hdeleted)).1, hlocated, by rw [hchange]; rfl⟩

/-- A key that is none of the names in the zone of the name is about no operation. -/
theorem Underway.held_of_others {key : RRsetKey}
    (hapart : ∀ name ∈ changes.writtenNames ++ changes.droppedNames,
      after.location name = some (relative zone) → relative zone ∈ made.map Prod.fst →
      key ≠ ⟨name, .named .ptr⟩) :
    after.held zone key = start.held zone key := by
  have hfounded : server.held zone key = start.held zone key := by
    rw [Nameserver.held, Nameserver.held, h.written.founded.rrsetsOf]
  rw [← hfounded]
  refine h.placed.held_of_not_mem h.subset h.sent fun op hop hzone hmade hkey => ?_
  obtain ⟨hname, hlocated, hpointer⟩ := h.of_mem_operations hop
  rw [hzone] at hlocated hmade
  exact hapart op.name hname hlocated hmade (hkey ▸ hpointer)

end Underway

variable (h : Settled changes start server after progress deletes)
include h

theorem Settled.countOf_replace :
    (progress.withDeletes deletes).countOf .replace = changes.writtenNames.length := by
  have hold : progress.operations.countP (fun op => op.change.type = .replace) =
      progress.operations.length := by
    refine List.countP_eq_length.mpr fun op hop => ?_
    obtain ⟨-, target, -, hchange⟩ := h.written.operations op hop
    rw [hchange]
    rfl
  have hnew : deletes.countP (fun op => op.change.type = .replace) = 0 := by
    refine List.countP_eq_zero.mpr fun op hop => ?_
    rw [(h.cleared.operations op hop).2]
    simp [Change.delete]
  have hperm : progress.names.Perm changes.writtenNames :=
    (List.perm_ext_iff_of_nodup h.written.nodup (nodup_eraseDups _)).mpr fun name =>
      h.underway.mem_writtenNames.symm
  rw [countOf, withDeletes, List.countP_append, hold, hnew, Nat.add_zero, ← hperm.length_eq, names,
    List.length_map]

theorem Settled.countOf_delete : (progress.withDeletes deletes).countOf .delete =
    (changes.droppedNames.filter fun name => (after.location name).isSome).length := by
  have hold : progress.operations.countP (fun op => op.change.type = .delete) = 0 := by
    refine List.countP_eq_zero.mpr fun op hop => ?_
    obtain ⟨-, target, -, hchange⟩ := h.written.operations op hop
    rw [hchange]
    simp [Change.replace]
  have hnew : deletes.countP (fun op => op.change.type = .delete) = deletes.length := by
    refine List.countP_eq_length.mpr fun op hop => ?_
    rw [(h.cleared.operations op hop).2]
    rfl
  have hdropped : changes.droppedNames.Nodup := (nodup_eraseDups _).filter _
  have hperm : (deletes.map PtrOperation.name).Perm
      (changes.droppedNames.filter fun name => (after.location name).isSome) := by
    refine (List.perm_ext_iff_of_nodup h.cleared.nodup (hdropped.filter _)).mpr fun name => ?_
    rw [h.underway.mem_deletes, List.mem_filter]
  rw [countOf, withDeletes, List.countP_append, hold, hnew, Nat.zero_add, ← hperm.length_eq,
    List.length_map]

/-- **The patches of a pass bring the nameserver in step.** -/
theorem Settled.synced : changes.Synced start after
    ⟨progress.created, (progress.withDeletes deletes).countOf .replace,
      (progress.withDeletes deletes).countOf .delete⟩ where
  readable := List.forall_mem_append.mpr ⟨h.written.readable, h.cleared.readable⟩
  written name hname := by
    obtain ⟨zone, target, hzone, hlocated, hfirst, hheld⟩ := h.underway.exists_target hname
    exact ⟨zone, target, hlocated, hfirst, hheld hzone⟩
  located name hname zone hlocated := by
    have hreverse := isReverse_of_mem_reverseNames (PtrChanges.mem_writtenNames.mp hname)
    rw [h.sent.location] at hlocated
    refine ⟨⟨fun hcreated => ?_, fun hnone => ?_⟩, fun hnone => ?_, fun old hold => ?_⟩
    · exact (h.written.founded.location_of_mem hreverse hcreated
        (Nameserver.location_eq_some hlocated).1).1
    · exact (h.written.founded.location_of_none hreverse hnone hlocated).1
    · exact (h.written.founded.location_of_none hreverse hnone hlocated).2
    · have hkept := h.written.founded.location_of_some hreverse hold
      exact Option.some.inj (hlocated.symm.trans hkept)
  dropped _ hname _ hlocated := by
    obtain ⟨hzone, hheld⟩ := h.underway.held_of_dropped hname hlocated
    exact hheld hzone
  others _ _ hapart := h.underway.held_of_others fun name hname hlocated _ =>
    hapart name hname hlocated
  zones zone := by rw [h.sent.hasZone, h.written.founded.hasZone]
  fresh zone hcreated := by
    obtain ⟨name, -, hnone, hnarrowest⟩ := h.written.founded.narrowest zone hcreated
    exact Nameserver.location_eq_none.mp hnone zone (List.mem_of_mem_head? hnarrowest)
  nodup := h.written.nodup_created
  added := h.countOf_replace
  deleted := h.countOf_delete

end PtrProgress

namespace ReverseSync

variable {setup : Sandbox.Setup} {box : Sandbox} {changes : PtrChanges}

/-- What is decided for the additions. -/
theorem ends_additions (setup : Sandbox.Setup) (changes : PtrChanges) (box : Sandbox) :
    Ends [] box (changes.additions.foldlM (add setup.services setup.reverseZones) ⟨[], []⟩)
      (fun progress known after =>
        Accurate known after.server ∧ progress.Written box.server changes.additions after.server)
      fun e _ _ => Unsent e :=
  ends_foldlM (Q := fun done (progress : PtrProgress) known after =>
    Accurate known after.server ∧ progress.Written box.server done after.server)
    (fun target _ _ _ _ _ h => ends_add h.1 h.2 target) [] ⟨[], []⟩ [] box
    ⟨accurate_nil _, PtrProgress.written_nil _⟩

/-- What is decided for the removals, after the additions. -/
theorem ends_removals {start : Nameserver} {progress : PtrProgress} {known : Locations}
    (hknown : Accurate known box.server)
    (hwritten : progress.Written start changes.additions box.server) :
    Ends known box (changes.removals.foldlM (remove setup.services) progress)
      (fun decided _ after => after = box ∧ ∃ deletes, decided = progress.withDeletes deletes ∧
        progress.Cleared box.server changes.removals deletes)
      fun e _ _ => Unsent e := by
  refine (ends_foldlM (Q := fun done (decided : PtrProgress) known after =>
    after = box ∧ Accurate known box.server ∧ ∃ deletes, decided = progress.withDeletes deletes ∧
      progress.Cleared box.server done deletes) ?_ [] progress known box
    ⟨rfl, hknown, [], ?_, PtrProgress.cleared_nil _ _⟩).mono (fun _ _ _ h => ⟨h.1, h.2.2⟩)
    fun _ _ _ => id
  · rintro target - done _ known _ ⟨rfl, hknown, deletes, rfl, hcleared⟩
    exact ends_remove hknown hwritten hcleared target
  · rw [PtrProgress.withDeletes, List.append_nil]

/-- **A pass that succeeds brings the nameserver in step,** whatever failures are laid out, and one
that fails does so before it sends anything or where a patch is refused. -/
theorem ends_pass (setup : Sandbox.Setup) (changes : PtrChanges) (box : Sandbox) :
    Ends [] box (pass setup.services setup.reverseZones changes)
      (fun report _ after => changes.Synced box.server after.server report)
      fun e _ after => Unsent e ∨ ∃ server progress deletes refused made,
        PtrProgress.BrokenOff changes box.server server after.server progress deletes e refused
          made := by
  refine ((ends_additions setup changes box).mono (fun _ _ _ => id) fun _ _ _ => .inl).bind ?_
  rintro progress known decided ⟨hknown, hwritten⟩
  refine ((ends_removals hknown hwritten).mono (fun _ _ _ => id) fun _ _ _ => .inl).bind ?_
  rintro _ known decided ⟨rfl, deletes, rfl, hcleared⟩
  have hplaced := PtrProgress.placed_withDeletes hwritten hcleared
  refine ((ends_send (PtrProgress.nodup_zones_batches hplaced) known decided).mono
    (fun _ _ _ => id) ?_).bind ?_
  · rintro e _ after ⟨refused, made, hhalted⟩
    exact .inr ⟨_, progress, deletes, refused, made, hwritten, hcleared, hhalted⟩
  rintro - known sent hsent
  have hsettled : PtrProgress.Settled changes box.server decided.server sent.server progress
      deletes := ⟨hwritten, hcleared, hsent⟩
  exact ends_reported hsettled.synced

/-- What a pass leaves that succeeds. -/
theorem synced_of_runPass {report : PtrReport} {known : Locations} {after : Sandbox}
    (h : runPass (pass setup.services setup.reverseZones changes) [] box =
      (.ok report, known, after)) : changes.Synced box.server after.server report :=
  (ends_pass setup changes box).of_runPass h

end ReverseSync

namespace Sandbox.Setup

/-- **Without failures a pass over addresses succeeds,** and it brings the nameserver in step. -/
theorem sync_brings_in_step (setup : Setup) (h : setup.Faultless) (box : Sandbox)
    (hfailing : box.server.failing = []) (changes : PtrChanges)
    (haddresses : ∀ target ∈ changes.additions ++ changes.removals,
      (Address.ofString? (Text.trim target.address)).isSome = true) (zone : String) :
    ∃ report known after,
      ReverseSync.runPass (ReverseSync.sync setup.services setup.reverseZones zone changes) [] box =
        (.ok report, known, after) ∧
      changes.Synced box.server after.server report := by
  obtain ⟨result, known, after, hrun, hresult⟩ :=
    ReverseSync.runPass_of_faultless h hfailing changes
  cases result with
  | error e =>
    obtain ⟨target, htarget, hnone⟩ := hresult
    have haddress := haddresses target htarget
    rw [Option.map_eq_none_iff.mp hnone] at haddress
    cases haddress
  | ok report =>
    have hsync : ReverseSync.runPass
        (ReverseSync.sync setup.services setup.reverseZones zone changes) [] box =
          ((Except.ok report).mapError (.autoPtr zone), known, after) := by
      have hadapt : ReverseSync.runPass
          (ReverseSync.sync setup.services setup.reverseZones zone changes) [] box =
        ((ReverseSync.runPass (ReverseSync.pass setup.services setup.reverseZones changes) []
          box).1.mapError (.autoPtr zone), (ReverseSync.runPass
            (ReverseSync.pass setup.services setup.reverseZones changes) [] box).2) := rfl
      rw [hadapt, hrun]
    exact ⟨report, known, after, hsync, ReverseSync.synced_of_runPass hrun⟩

/-- Two spellings of one address come, one of them with another owner, and an address goes whose
reverse zone is a wider one. -/
theorem sync_brings_in_step_twoSpellings :
    let setup := plain ⟨false, true, [.named .a]⟩
    let gone : RRset :=
      ⟨"9.2.0.192.in-addr.arpa.", .named .ptr, 3600, [⟨"old.example.com.", false⟩], []⟩
    let box : Sandbox := .ofServer (Nameserver.empty.insertZone "0.192.in-addr.arpa" 1 [gone])
    let changes : PtrChanges :=
      ⟨[⟨"www.example.com.", "2001:db8::1", 300⟩, ⟨"ftp.example.com.", "2001:0db8::0001", 600⟩],
        [⟨"old.example.com.", "192.0.2.9", 3600⟩]⟩
    setup.Faultless ∧ box.server.failing = [] ∧
      (∀ target ∈ changes.additions ++ changes.removals,
        (Address.ofString? (Text.trim target.address)).isSome = true) ∧
      ∃ report known after,
        ReverseSync.runPass (ReverseSync.sync setup.services setup.reverseZones "example.com"
          changes) [] box = (.ok report, known, after) ∧
        changes.Synced box.server after.server report := by
  intro setup gone box changes
  have haddresses : ∀ target ∈ changes.additions ++ changes.removals,
      (Address.ofString? (Text.trim target.address)).isSome = true := by
    decide +kernel
  have hfaultless : setup.Faultless := faultless_plain ⟨false, true, [.named .a]⟩
  refine ⟨hfaultless, rfl, haddresses, ?_⟩
  exact sync_brings_in_step setup hfaultless box rfl changes haddresses "example.com"

end Sandbox.Setup

end ZoneKeeper
