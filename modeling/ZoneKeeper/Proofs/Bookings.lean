/-
What one run books.

A run counts its deletions and its replacements when they have gone through, every reverse zone when
it has been created, and the operations of a pass over reverse names when the pass is complete.
Each of these counts comes right after what it counts, and nothing between the two can fail.  So
wherever a run ends, the counts that were made are those of what was done by then, which is said by
`Deeds`.

`Booked` leads from one sandbox to another and says exactly which counts were made.  Steps compose,
so the books of a run are put together from those of its steps.
-/
import ZoneKeeper.Proofs.Metrics
import ZoneKeeper.Proofs.RequestOrder

namespace ZoneKeeper

open Nameserver

/-! ### The catalog -/

namespace Table

variable {κ α : Type} [DecidableEq κ] {table : Table κ α} {key : κ}

theorem length_put_of_some {old : α} (h : table.lookup key = some old) (value : α) :
    (put key value table).length = table.length := by
  induction table with
  | nil => cases h
  | cons entry rest ih =>
    obtain ⟨own, first⟩ := entry
    rw [put]
    split
    · rfl
    · next hown =>
      rw [List.lookup_cons, beq_false_of_ne (Ne.symm hown)] at h
      rw [List.length_cons, List.length_cons, ih h]

theorem length_put_of_none (h : table.lookup key = none) (value : α) :
    (put key value table).length = table.length + 1 := by
  induction table with
  | nil => rfl
  | cons entry rest ih =>
    obtain ⟨own, first⟩ := entry
    have hown : own ≠ key := by
      rintro rfl
      rw [List.lookup_cons_self] at h
      cases h
    rw [List.lookup_cons, beq_false_of_ne (Ne.symm hown)] at h
    rw [put, if_neg hown, List.length_cons, List.length_cons, ih h]

end Table

namespace Nameserver

/-- From one nameserver to another, so many zones were added to the catalog. -/
structure Enlarged (start : Nameserver) (founded : Nat) (after : Nameserver) : Prop where
  zones : after.zones.length = start.zones.length + founded
  created : after.created.length = start.created.length + founded
  /-- What was asked for before is remembered. -/
  patches : start.patches <+: after.patches

variable {start middle after : Nameserver} {zone kind : String} {changes : List Change} {m n : Nat}

theorem Enlarged.refl (server : Nameserver) : Enlarged server 0 server :=
  ⟨rfl, rfl, List.prefix_rfl⟩

theorem Enlarged.trans (h₁ : Enlarged start m middle) (h₂ : Enlarged middle n after) :
    Enlarged start (m + n) after where
  zones := by rw [h₂.zones, h₁.zones, Nat.add_assoc]
  created := by rw [h₂.created, h₁.created, Nat.add_assoc]
  patches := h₁.patches.trans h₂.patches

/-- A patch adds no zone. -/
theorem enlarged_of_patch {result : Except ApiError Unit}
    (h : start.patch zone changes = (result, after)) : Enlarged start 0 after := by
  have hpatches : start.patches <+: after.patches := by
    rw [patches_of_patch h]
    exact List.prefix_append _ _
  cases result with
  | ok _ =>
    obtain ⟨snapshot, hzone, rfl⟩ := eq_of_patch_ok h
    exact ⟨Table.length_put_of_some hzone _, rfl, hpatches⟩
  | error e =>
    obtain rfl := eq_of_patch_error h
    exact ⟨rfl, rfl, hpatches⟩

/-- A zone that is created is one more. -/
theorem enlarged_of_create (h : start.create zone kind = (.ok (), after)) :
    Enlarged start 1 after := by
  obtain ⟨hfree, rfl⟩ := eq_of_create_ok h
  have hnone : start.zones.lookup (DomainName.relative zone) = none := by
    rwa [hasZone, Option.isSome_eq_false_iff, Option.isNone_iff_eq_none] at hfree
  exact ⟨Table.length_put_of_none hnone _, List.length_append, List.prefix_rfl⟩

end Nameserver

/-! ### Counts that are made -/

/-- From one sandbox to another, these counts were made and so many zones were added. -/
structure Sandbox.Booked (box : Sandbox) (founded : Nat) (entries : List (Series × Nat))
    (after : Sandbox) : Prop where
  server : box.server.Enlarged founded after.server
  metrics : after.metrics = box.metrics.book entries

/-- What is counted of a batch that goes through, which is nothing if it is not sent. -/
def batchEntries (type : ChangeType) (changes : List Change) : List (Series × Nat) :=
  if changes.isEmpty then [] else [(.rrsetsPatched type.label, changes.length)]

/-- What is counted of reverse zones that are created. -/
def foundingEntries (founded : Nat) : List (Series × Nat) :=
  List.replicate founded (.reverseZonesCreated, 1)

/-- What is counted of a pass over reverse names, if it is complete. -/
def reportEntries : Option PtrReport → List (Series × Nat)
  | some report =>
    [(.ptrOperations "add", report.added), (.ptrOperations "delete", report.deleted)]
  | none => []

namespace Sandbox

variable {box middle after : Sandbox} {m n : Nat} {entries more : List (Series × Nat)}

theorem Booked.refl (box : Sandbox) : Booked box 0 [] box :=
  ⟨.refl _, rfl⟩

theorem Booked.trans (h₁ : Booked box m entries middle) (h₂ : Booked middle n more after) :
    Booked box (m + n) (entries ++ more) after :=
  ⟨h₁.server.trans h₂.server, by rw [h₂.metrics, h₁.metrics, Metrics.book_append]⟩

/-- Counting adds no zones. -/
theorem booked_book (box : Sandbox) (entries : List (Series × Nat)) :
    Booked box 0 entries { box with metrics := box.metrics.book entries } :=
  ⟨.refl _, rfl⟩

/-- A step that makes no counts and adds no zones. -/
theorem Booked.quiet (h : Booked box n entries middle) (hquiet : Booked middle 0 [] after) :
    Booked box n entries after := by
  have htrans := h.trans hquiet
  rwa [List.append_nil] at htrans

namespace Setup

variable {setup : Setup} {zone : String} {changes : List Change}

/-- The history is kept apart from the nameserver and from the metrics. -/
def KeptApart (setup : Setup) : Prop :=
  ∀ record box, (StateT.run (setup.store record) box).2.server = box.server ∧
    (StateT.run (setup.store record) box).2.metrics = box.metrics

theorem Recording.keptApart (h : setup.Recording) : setup.KeptApart := by
  intro record box
  rcases h record box with hkept | ⟨reason, hkept⟩ <;> rw [hkept] <;> exact ⟨rfl, rfl⟩

theorem booked_persist {record : HistoryRecord} {result : Except SyncError Unit}
    (hapart : setup.KeptApart)
    (h : StateT.run (setup.services.persist record) box = (result, after)) :
    Booked box 0 [] after := by
  obtain rfl : (StateT.run (setup.store record) box).2 = after := congrArg Prod.snd h
  obtain ⟨hserver, hmetrics⟩ := hapart record box
  exact ⟨hserver ▸ .refl _, hmetrics⟩

/-- A request for a patch is not counted by itself. -/
theorem booked_patchRRsets {result : Except ApiError Unit}
    (h : StateT.run (setup.services.patchRRsets zone changes) box = (result, after)) :
    Booked box 0 [] after := by
  rcases patchRRsets_run h with ⟨rfl, -⟩ | ⟨server, hserver, rfl⟩
  · exact .refl _
  · exact ⟨enlarged_of_patch hserver, rfl⟩

/-- A batch is counted if it goes through. -/
theorem booked_sendBatch {type : ChangeType} {result : Except SyncError Unit}
    (h : runFrom (setup.applier.sendBatch zone type changes) box = (result, after)) :
    Booked box 0 (if result.isOk then batchEntries type changes else []) after := by
  unfold Applier.sendBatch at h
  unfold batchEntries
  cases hempty : changes.isEmpty with
  | true =>
    simp only [hempty, if_true] at h
    obtain ⟨rfl, rfl⟩ := Prod.mk.inj h
    exact .refl _
  | false =>
    simp only [hempty, Bool.false_eq_true, if_false] at h
    rw [runFrom_bind, runFrom_ask, applier_services] at h
    rcases hpatch : StateT.run (setup.services.patchRRsets zone changes) box with ⟨answer, patched⟩
    have hbooked := booked_patchRRsets hpatch
    rw [hpatch] at h
    cases answer with
    | error e =>
      obtain ⟨rfl, rfl⟩ := Prod.mk.inj h
      exact hbooked
    | ok _ =>
      obtain ⟨rfl, rfl⟩ := Prod.mk.inj h
      exact hbooked.trans (booked_book patched [(.rrsetsPatched type.label, changes.length)])

/-- A batch that goes through was asked for. -/
theorem patches_lt_of_sendBatch {type : ChangeType} (hsome : changes ≠ [])
    (h : runFrom (setup.applier.sendBatch zone type changes) box = (.ok (), after)) :
    box.server.patches.length < after.server.patches.length := by
  unfold Applier.sendBatch at h
  rw [if_neg (by simpa using hsome), runFrom_bind, runFrom_ask, applier_services] at h
  rcases hpatch : StateT.run (setup.services.patchRRsets zone changes) box with ⟨answer, patched⟩
  rw [hpatch] at h
  cases answer with
  | error e => cases h
  | ok _ =>
    obtain ⟨-, rfl⟩ := Prod.mk.inj h
    rcases patchRRsets_run hpatch with ⟨-, e, hrefused⟩ | ⟨server, hserver, rfl⟩
    · cases hrefused
    · show _ < server.patches.length
      rw [patches_of_patch hserver, List.length_append, List.length_singleton]
      exact Nat.lt_succ_self _

end Setup

end Sandbox

/-! ### Passes over reverse names -/

namespace ReverseSync

open ReverseName

variable {setup : Sandbox.Setup} {start after : Sandbox} {known : Locations}
  {entries : List (Series × Nat)} {n : Nat}

/-- A zone that is created is counted. -/
theorem booked_createNarrowest (name : String) (known : Locations) (box : Sandbox)
    (h : ∃ founded, start.Booked founded (foundingEntries founded) box) :
    Ends known box (createNarrowest setup.services setup.reverseZones name)
      (fun _ _ after => ∃ founded, start.Booked founded (foundingEntries founded) after)
      fun _ _ after => ∃ founded, start.Booked founded (foundingEntries founded) after := by
  obtain ⟨founded, hbooked⟩ := h
  unfold createNarrowest
  cases zoneCandidates name with
  | nil => exact ends_throw ⟨founded, hbooked⟩
  | cons zone wider =>
    refine ends_bind (ends_adapt (ends_call (answers_of_run fun answer created hcreate => ?_)))
    rcases Sandbox.Setup.createZone_run hcreate with ⟨rfl, e, rfl⟩ | ⟨server, hserver, rfl⟩
    · exact ⟨founded, hbooked⟩
    cases answer with
    | error e =>
      obtain rfl := eq_of_create_error hserver
      exact ⟨founded, hbooked⟩
    | ok _ =>
      -- the count comes right after the creation, and then the zone is only remembered
      refine ends_bind (ends_liftM (answers_of_run fun _ counted hcount => ?_))
      cases hcount
      refine ends_bind (ends_remember (ends_pure ⟨founded + 1, ?_⟩))
      rw [foundingEntries, List.replicate_succ']
      exact hbooked.trans ⟨enlarged_of_create hserver, rfl⟩

/-- The patches of a pass are not counted one by one. -/
theorem booked_send (batches : List (String × List Change)) (known : Locations) {box : Sandbox}
    (h : start.Booked n entries box) :
    Ends known box (send setup.services batches) (fun _ _ => start.Booked n entries)
      fun _ _ => start.Booked n entries := by
  induction batches generalizing box with
  | nil => exact ends_pure h
  | cons batch rest ih =>
    refine ends_bind (ends_adapt (ends_call (answers_of_run fun answer patched hpatch => ?_)))
    have hbooked := h.quiet (Sandbox.Setup.booked_patchRRsets hpatch)
    cases answer with
    | error e => exact hbooked
    | ok _ => exact ih hbooked

/-- **A pass counts the zones that it creates, and its operations if it is complete.** -/
theorem ends_booked_pass (setup : Sandbox.Setup) (changes : PtrChanges) (start : Sandbox) :
    Ends [] start (pass setup.services setup.reverseZones changes)
      (fun report _ after => ∃ founded,
        start.Booked founded (foundingEntries founded ++ reportEntries (some report)) after)
      fun _ _ after => ∃ founded,
        start.Booked founded (foundingEntries founded ++ reportEntries none) after := by
  have hincomplete : ∀ after : Sandbox,
      (∃ founded, start.Booked founded (foundingEntries founded) after) →
      ∃ founded, start.Booked founded (foundingEntries founded ++ reportEntries none) after := by
    rintro after ⟨founded, hbooked⟩
    exact ⟨founded, hbooked.trans (.refl _)⟩
  refine ((kept_additions booked_createNarrowest changes.additions ⟨0, .refl start⟩).mono
    (fun _ _ _ => id) fun _ _ => hincomplete).bind fun progress known box hfounded => ?_
  refine ((kept_removals changes.removals progress hfounded).mono (fun _ _ _ => id)
    fun _ _ => hincomplete).bind ?_
  rintro decided known box ⟨founded, hbooked⟩
  refine ((booked_send decided.batches known hbooked).mono (fun _ _ _ => id)
    fun _ _ after h => hincomplete after ⟨founded, h⟩).bind fun _ known sent hbooked => ?_
  exact ends_reported
    ⟨founded, hbooked.trans (Sandbox.booked_book sent (reportEntries (some _)))⟩

theorem booked_pass {changes : PtrChanges} {report : Except String PtrReport}
    (hrun : runPass (pass setup.services setup.reverseZones changes) [] start =
      (report, known, after)) :
    ∃ founded, start.Booked founded (foundingEntries founded ++ reportEntries report.toOption)
      after := by
  have hbooked := (ends_booked_pass setup changes start).of_runPass hrun
  cases report with
  | ok report => exact hbooked
  | error e => exact hbooked

end ReverseSync

/-! ### Runs -/

/-- What a run gets done, whatever it answers in the end. -/
structure Deeds where
  /-- The batch of deletions, if it was accepted. -/
  deleted : List Change
  /-- The batch of replacements, if it was accepted. -/
  replaced : List Change
  /-- What the pass over reverse names reports, if there was one and it was completed. -/
  report : Option PtrReport
deriving DecidableEq, Repr

namespace Deeds

/-- Nothing is done. -/
def none : Deeds := ⟨[], [], .none⟩

/-- What is counted on the way, when so many zones are created. -/
def entries (deeds : Deeds) (founded : Nat) : List (Series × Nat) :=
  batchEntries .delete deeds.deleted ++ batchEntries .replace deeds.replaced ++
    (foundingEntries founded ++ reportEntries deeds.report)

/-- Where a run ends with its deletions, these are all that is counted. -/
theorem entries_deletions (changes : List Change) :
    (⟨changes, [], .none⟩ : Deeds).entries 0 = batchEntries .delete changes := by
  simp [entries, batchEntries, foundingEntries, reportEntries]

end Deeds

namespace Applier

variable {σ : Type}

/-- The changes of a batch that are accepted, which are all of them or none. -/
def accepted (applier : Applier (StateM σ)) (zone : String) (changes : List Change) (s : σ) :
    List Change :=
  if (StateT.run (applier.services.patchRRsets zone changes) s).1.isOk then changes else []

/-- What a run of a request from `s` gets done: what is accepted of its batches, and what the pass
makes of them. -/
def deeds (applier : Applier (StateM σ)) (request : ApplyRequest) (s : σ) : Deeds :=
  match runFrom (applier.prepare request) s with
  | (.error _, _) => .none
  | (.ok prepared, s₁) =>
    let deletes := prepared.batches.deleteChanges
    let replaces := prepared.batches.replaceChanges
    let deleted := applier.accepted request.zone deletes s₁
    match runFrom (applier.sendBatch request.zone .delete deletes) s₁ with
    | (.error _, _) => ⟨deleted, [], none⟩
    | (.ok _, s₂) =>
      let replaced := applier.accepted request.zone replaces s₂
      match runFrom (applier.sendBatch request.zone .replace replaces) s₂ with
      | (.error _, _) => ⟨deleted, replaced, none⟩
      | (.ok _, s₃) =>
        let reversed := (StateT.run (applier.syncReverse request.zone prepared.ptrChanges) s₃).1
        ⟨deleted, replaced, reversed.toOption.join⟩

section Deeds

variable {applier : Applier (StateM σ)} {request : ApplyRequest} {prepared : Prepared}
  {s s₁ s₂ s₃ s₄ : σ} {e : SyncError}

/-- A batch goes through if it is accepted, and only then. -/
theorem accepted_of_sendBatch {zone : String} {type : ChangeType} {changes : List Change}
    {result : Except SyncError Unit}
    (h : runFrom (applier.sendBatch zone type changes) s = (result, s₁)) :
    applier.accepted zone changes s = if result.isOk then changes else [] := by
  have hask : runFrom (ask zone (applier.services.patchRRsets zone changes)) s =
      ((StateT.run (applier.services.patchRRsets zone changes) s).1.mapError (.ofApi zone),
        (StateT.run (applier.services.patchRRsets zone changes) s).2) := rfl
  by_cases hnil : changes = []
  · rw [accepted, hnil, ite_self, ite_self]
  · unfold sendBatch at h
    rw [if_neg (by simpa using hnil), runFrom_bind, hask] at h
    rw [accepted]
    rcases hpatch : StateT.run (applier.services.patchRRsets zone changes) s with ⟨answer, patched⟩
    rw [hpatch] at h
    cases answer with
    | error e =>
      obtain ⟨rfl, -⟩ := Prod.mk.inj h
      rfl
    | ok _ =>
      obtain ⟨rfl, -⟩ := Prod.mk.inj h
      rfl

theorem deeds_of_unprepared (hprepare : runFrom (applier.prepare request) s = (.error e, s₁)) :
    applier.deeds request s = .none := by
  rw [deeds, hprepare]

theorem deeds_of_undeleted (hprepare : runFrom (applier.prepare request) s = (.ok prepared, s₁))
    (hdelete : runFrom (applier.sendBatch request.zone .delete prepared.batches.deleteChanges) s₁ =
      (.error e, s₂)) :
    applier.deeds request s = .none := by
  rw [deeds, hprepare]
  dsimp only
  rw [hdelete, accepted_of_sendBatch hdelete]
  rfl

theorem deeds_of_unreplaced (hprepare : runFrom (applier.prepare request) s = (.ok prepared, s₁))
    (hdelete : runFrom (applier.sendBatch request.zone .delete prepared.batches.deleteChanges) s₁ =
      (.ok (), s₂))
    (hreplace : runFrom (applier.sendBatch request.zone .replace prepared.batches.replaceChanges)
      s₂ = (.error e, s₃)) :
    applier.deeds request s = ⟨prepared.batches.deleteChanges, [], none⟩ := by
  rw [deeds, hprepare]
  dsimp only
  rw [hdelete, accepted_of_sendBatch hdelete]
  dsimp only
  rw [hreplace, accepted_of_sendBatch hreplace]
  rfl

/-- Where both batches go through, they are done, and the pass is what is made of it. -/
theorem deeds_of_sent {reversed : Except SyncError (Option PtrReport)}
    (hprepare : runFrom (applier.prepare request) s = (.ok prepared, s₁))
    (hsent : applier.Sent request prepared s₁ s₂ s₃)
    (hreverse : StateT.run (applier.syncReverse request.zone prepared.ptrChanges) s₃ =
      (reversed, s₄)) :
    applier.deeds request s =
      ⟨prepared.batches.deleteChanges, prepared.batches.replaceChanges,
        reversed.toOption.join⟩ := by
  rw [deeds, hprepare]
  dsimp only
  rw [hsent.delete, accepted_of_sendBatch hsent.delete]
  dsimp only
  rw [hsent.replace, accepted_of_sendBatch hsent.replace]
  dsimp only
  rw [hreverse]
  rfl

/-- Where nothing has to change, nothing is done. -/
theorem deeds_of_settled (hprepare : runFrom (applier.prepare request) s = (.ok prepared, s₁))
    (hbatches : prepared.batches.isEmpty = true) (hchanges : prepared.ptrChanges.isEmpty = true) :
    applier.deeds request s = .none := by
  obtain ⟨hdeletes, hreplaces⟩ :
      prepared.batches.deletes = [] ∧ prepared.batches.replaces = [] := by
    simpa [Batches.isEmpty] using hbatches
  have hdelete : runFrom
      (applier.sendBatch request.zone .delete prepared.batches.deleteChanges) s₁ =
        (.ok (), s₁) := by
    rw [Batches.deleteChanges, hdeletes]
    rfl
  have hreplace : runFrom
      (applier.sendBatch request.zone .replace prepared.batches.replaceChanges) s₁ =
        (.ok (), s₁) := by
    rw [Batches.replaceChanges, hreplaces]
    rfl
  rw [deeds, hprepare]
  dsimp only
  rw [hdelete, accepted_of_sendBatch hdelete]
  dsimp only
  rw [hreplace, accepted_of_sendBatch hreplace]
  dsimp only
  rw [syncReverse, if_pos hchanges, Batches.deleteChanges, hdeletes, Batches.replaceChanges,
    hreplaces]
  rfl

end Deeds

end Applier

namespace Sandbox.Setup

variable {setup : Setup} {request : ApplyRequest} {box after : Sandbox} {prepared : Prepared}

/-- What is done about reverse names is counted as by a pass. -/
theorem booked_syncReverse {zone : String} {changes : PtrChanges}
    {reversed : Except SyncError (Option PtrReport)}
    (h : StateT.run (setup.applier.syncReverse zone changes) box = (reversed, after)) :
    ∃ founded, Booked box founded (foundingEntries founded ++ reportEntries reversed.toOption.join)
      after := by
  rcases eq_or_runPass_of_syncReverse h with ⟨-, rfl, rfl⟩ | ⟨report, known, hpass, rfl⟩
  · exact ⟨0, .refl _⟩
  · obtain ⟨founded, hbooked⟩ := ReverseSync.booked_pass hpass
    refine ⟨founded, ?_⟩
    cases report with
    | error e => exact hbooked
    | ok report => exact hbooked

/-- Where both batches go through, they are counted, and the pass is. -/
theorem booked_of_sent {s₁ s₂ s₃ s₄ : Sandbox} {reversed : Except SyncError (Option PtrReport)}
    (hprepare : runFrom (setup.applier.prepare request) box = (.ok prepared, s₁))
    (hsent : setup.applier.Sent request prepared s₁ s₂ s₃)
    (hreverse : StateT.run (setup.applier.syncReverse request.zone prepared.ptrChanges) s₃ =
      (reversed, s₄)) :
    ∃ founded, Booked box founded ((setup.applier.deeds request box).entries founded) s₄ := by
  obtain ⟨rfl, -⟩ := prepare_run hprepare
  obtain ⟨founded, hreversed⟩ := booked_syncReverse hreverse
  have hbatches := (booked_sendBatch hsent.delete).trans (booked_sendBatch hsent.replace)
  refine ⟨founded, ?_⟩
  rw [Applier.deeds_of_sent hprepare hsent hreverse]
  have htrans := hbatches.trans hreversed
  rwa [Nat.zero_add] at htrans

/-- **The counts of a run are those of what it gets done,** wherever it ends. -/
theorem booked_of_ran {result : Except SyncError ApplySummary} (hapart : setup.KeptApart)
    (h : setup.applier.Ran request box result after) :
    ∃ founded, Booked box founded ((setup.applier.deeds request box).entries founded) after := by
  cases h with
  | unprepared hprepare =>
    obtain ⟨rfl, -⟩ := prepare_run hprepare
    rw [Applier.deeds_of_unprepared hprepare]
    exact ⟨0, .refl _⟩
  | settled hprepare hbatches =>
    obtain ⟨rfl, before, hprepares⟩ := prepare_run hprepare
    rw [Applier.deeds_of_settled hprepare hbatches (hprepares.ptrChanges_of_isEmpty hbatches)]
    exact ⟨0, .refl _⟩
  | undeleted hprepare _ hdelete =>
    obtain ⟨rfl, -⟩ := prepare_run hprepare
    rw [Applier.deeds_of_undeleted hprepare hdelete]
    exact ⟨0, booked_sendBatch hdelete⟩
  | unreplaced hprepare _ hdelete hreplace =>
    obtain ⟨rfl, -⟩ := prepare_run hprepare
    rw [Applier.deeds_of_unreplaced hprepare hdelete hreplace]
    refine ⟨0, ?_⟩
    rw [Deeds.entries_deletions]
    exact (booked_sendBatch hdelete).quiet (booked_sendBatch hreplace)
  | unrecorded hprepare hsent hreverse hnow hpersist
  | recorded hprepare hsent hreverse hnow hpersist =>
    cases hnow
    obtain ⟨founded, hbooked⟩ := booked_of_sent hprepare hsent hreverse
    exact ⟨founded, hbooked.quiet (booked_persist hapart hpersist)⟩

end Sandbox.Setup

end ZoneKeeper
