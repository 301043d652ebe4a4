/-
The state that each outcome of a run leaves behind.

Nothing is rolled back, so what a run leaves behind depends on how far it came, and its result
tells how far that was.  A refusal comes before the first change.  A partial failure comes
between the deletions and the replacements.  Everything else comes after both: a failure of
the history leaves the change without a record, and a failure over reverse names is reported
only when the change and its record are there.

`Ended` lists the ways in which a run in a sandbox can end, with what was there before, what
was prepared and what is there afterwards.
-/
import ZoneKeeper.Proofs.ReversePass

namespace ZoneKeeper

open ReverseName

namespace Sandbox.Setup

variable {setup : Setup} {request : ApplyRequest} {box after : Sandbox} {before : Snapshot}
  {prepared : Prepared}

/-- What is prepared is what leads from the zone to the desired rows. -/
theorem Prepares.eq_between (h : setup.Prepares request box before prepared) :
    ∃ desired, desiredRows request.zone (setup.policyFor request.zone) request.rows = .ok desired ∧
      prepared = .between (setup.policyFor request.zone) desired before :=
  (Applier.eq_of_prepareFrom_ok h.prepare).2

theorem Prepares.wellFormed (h : setup.Prepares request box before prepared) :
    prepared.batches.WellFormed := by
  obtain ⟨desired, -, rfl⟩ := h.eq_between
  exact Batches.wellFormed_ofRows _ _

/-! ### The ways a run ends -/

/-- A run of a request from one sandbox to another, by its result. -/
inductive Ended (setup : Setup) (request : ApplyRequest) (box after : Sandbox) :
    Except SyncError ApplySummary → Prop
  /-- Nothing was changed, because something was refused before the first change. -/
  | refused {e : SyncError} (refusal : e.isRefusal = true) (alike : box.Alike after) :
      Ended setup request box after (.error e)
  /-- Nothing was changed, because nothing had to change. -/
  | settled {before : Snapshot} {prepared : Prepared}
      (prepares : setup.Prepares request box before prepared)
      (batches : prepared.batches.isEmpty = true) (alike : box.Alike after) :
      Ended setup request box after (.ok ⟨request.zone, 0, 0, none⟩)
  /-- The deletions were made and nothing else. -/
  | halfway {before : Snapshot} {prepared : Prepared} {message : String}
      (prepares : setup.Prepares request box before prepared)
      (deletes : prepared.batches.deletes ≠ [])
      (moved : box.Moved after request.zone (prepared.batches.deleteFrom before)) :
      Ended setup request box after
        (.error (.partialFailure request.zone "delete batch" "replace batch" message))
  /-- The zone was changed, and the history took no record of it. -/
  | unrecorded {before : Snapshot} {prepared : Prepared} {changed reversed kept : Sandbox}
      {report : Except SyncError (Option PtrReport)} {reason : String}
      (prepares : setup.Prepares request box before prepared)
      (batches : prepared.batches.isEmpty = false)
      (moved : box.Moved changed request.zone (prepared.batches.applyTo before))
      (reverse : StateT.run (setup.applier.syncReverse request.zone prepared.ptrChanges) changed =
        (report, reversed))
      (refused : StateT.run (setup.store (prepared.record request setup.now)) reversed =
        (.error (.history reason), kept))
      (server : after.server = reversed.server) (history : after.history = reversed.history) :
      Ended setup request box after (.error (.history reason))
  /-- The zone was changed and the change recorded. -/
  | recorded {before : Snapshot} {prepared : Prepared} {changed reversed : Sandbox}
      {report : Except SyncError (Option PtrReport)}
      (prepares : setup.Prepares request box before prepared)
      (batches : prepared.batches.isEmpty = false)
      (moved : box.Moved changed request.zone (prepared.batches.applyTo before))
      (reverse : StateT.run (setup.applier.syncReverse request.zone prepared.ptrChanges) changed =
        (report, reversed))
      (server : after.server = reversed.server)
      (history : after.history = reversed.history ++ [prepared.record request setup.now]) :
      Ended setup request box after (report.map fun autoPtr =>
        ⟨request.zone, prepared.batches.deletes.length, prepared.batches.replaces.length, autoPtr⟩)

/-- The batches of a run that sent both are in the zone, and that is all. -/
theorem moved_of_sent {replaced deleted : Sandbox}
    (hprepares : setup.Prepares request box before prepared)
    (hsent : setup.applier.Sent request prepared box deleted replaced) :
    box.Moved replaced request.zone (prepared.batches.applyTo before) := by
  have hdeleted := (sendBatch_run hprepares.zone hsent.delete).1
  have hreplaced := (sendBatch_run hdeleted.server.own hsent.replace).1
  rw [← Batches.after_replaceChanges hprepares.wellFormed]
  exact hdeleted.trans hreplaced

/-- Replacements that are refused leave the deletions behind, if there were any. -/
theorem ended_of_unreplaced {deleted replaced : Sandbox} {e : SyncError}
    (hprepares : setup.Prepares request box before prepared)
    (hdelete : runFrom (setup.applier.sendBatch request.zone .delete
      prepared.batches.deleteChanges) box = (.ok (), deleted))
    (hreplace : runFrom (setup.applier.sendBatch request.zone .replace
      prepared.batches.replaceChanges) deleted = (.error e, replaced))
    (halike : replaced.Alike after) :
    setup.Ended request box after
      (.error (Applier.replaceFailure request.zone prepared.batches.deletes.length e)) := by
  obtain ⟨hdeleted, hunsent⟩ := sendBatch_run hprepares.zone hdelete
  obtain ⟨hrefused, hrefusal, -⟩ := sendBatch_run hdeleted.server.own hreplace
  unfold Applier.replaceFailure
  by_cases hnone : prepared.batches.deletes = []
  · -- an empty batch is not sent, so the refused request was the first one
    obtain rfl : deleted = box := hunsent (by simp [Batches.deleteChanges, hnone])
    rw [if_pos (by simp [hnone])]
    exact .refused hrefusal (hrefused.trans halike)
  · rw [if_neg (by simpa using hnone)]
    rw [Batches.after_deleteChanges hnone] at hdeleted
    exact .halfway hprepares hnone (hdeleted.trans_alike (hrefused.trans halike))

/-- **Every run in a sandbox ends in one of these ways.** -/
theorem run_ended (hstore : setup.Recording) (request : ApplyRequest) (box : Sandbox) :
    setup.Ended request box (setup.run request box).2 (setup.run request box).1 := by
  obtain ⟨final, hran, hserver, hhistory⟩ := setup.run_ran request box
  generalize (setup.run request box).2 = after at hserver hhistory ⊢
  generalize (setup.run request box).1 = result at hran ⊢
  have halike : final.Alike after := .of_eq hserver hhistory
  cases hran with
  | unprepared hprepare =>
    obtain ⟨rfl, hrefusal⟩ := prepare_run hprepare
    exact .refused hrefusal halike
  | settled hprepare hbatches =>
    obtain ⟨rfl, before, hprepares⟩ := prepare_run hprepare
    exact .settled hprepares hbatches halike
  | undeleted hprepare hbatches hdelete =>
    obtain ⟨rfl, before, hprepares⟩ := prepare_run hprepare
    obtain ⟨hrefused, hrefusal, -⟩ := sendBatch_run hprepares.zone hdelete
    exact .refused hrefusal (hrefused.trans halike)
  | unreplaced hprepare hbatches hdelete hreplace =>
    obtain ⟨rfl, before, hprepares⟩ := prepare_run hprepare
    exact ended_of_unreplaced hprepares hdelete hreplace halike
  | unrecorded hprepare hsent hreverse hnow hpersist =>
    obtain ⟨rfl, before, hprepares⟩ := prepare_run hprepare
    cases hnow
    obtain ⟨hkept, hsame, reason, rfl⟩ := persist_run hstore hpersist
    exact .unrecorded hprepares hsent.batches (moved_of_sent hprepares hsent) hreverse hpersist
      (hserver.trans hkept) (hhistory.trans hsame)
  | recorded hprepare hsent hreverse hnow hpersist =>
    obtain ⟨rfl, before, hprepares⟩ := prepare_run hprepare
    cases hnow
    obtain ⟨hkept, happended⟩ := persist_run hstore hpersist
    exact .recorded hprepares hsent.batches (moved_of_sent hprepares hsent) hreverse
      (hserver.trans hkept) (hhistory.trans happended)

/-! ### What a result tells -/

/-- Both batches of a run are in its zone, and no other zone outside of the trees of reverse
names is changed. -/
structure Changed (setup : Setup) (request : ApplyRequest) (box after : Sandbox)
    (before : Snapshot) (prepared : Prepared) : Prop where
  prepares : setup.Prepares request box before prepared
  batches : prepared.batches.isEmpty = false
  zone : after.server.zone? request.zone = some (prepared.batches.applyTo before)
  others : ∀ other, ¬Nameserver.SameZone other request.zone → ¬InTree other →
    after.server.zone? other = box.server.zone? other

/-- What the result of a run tells about the state that it leaves. -/
def Tells (setup : Setup) (request : ApplyRequest) (box after : Sandbox) :
    Except SyncError ApplySummary → Prop
  | .error (.remoteApi ..) | .error (.conflict ..) | .error (.invalidRecord ..) => box.Alike after
  | .error (.partialFailure ..) =>
    ∃ before prepared, setup.Prepares request box before prepared ∧
      prepared.batches.deletes ≠ [] ∧
      box.Moved after request.zone (prepared.batches.deleteFrom before)
  | .error (.autoPtr ..) =>
    ∃ before prepared, setup.Changed request box after before prepared ∧
      after.history = box.history ++ [prepared.record request setup.now]
  | .error (.history ..) =>
    ∃ before prepared, setup.Changed request box after before prepared ∧
      after.history = box.history
  | .ok summary =>
    if summary.isNoop then box.Alike after
    else
      ∃ before prepared, setup.Changed request box after before prepared ∧
        after.history = box.history ++ [prepared.record request setup.now] ∧
        summary.deleted = prepared.batches.deletes.length ∧
        summary.replaced = prepared.batches.replaces.length

/-- The reverse names leave a zone that is in no tree as the batches made it. -/
theorem changed_of_reverse {changed reversed : Sandbox}
    {report : Except SyncError (Option PtrReport)} (hzone : ¬InTree request.zone)
    (hprepares : setup.Prepares request box before prepared)
    (hbatches : prepared.batches.isEmpty = false)
    (hmoved : box.Moved changed request.zone (prepared.batches.applyTo before))
    (hreverse : StateT.run (setup.applier.syncReverse request.zone prepared.ptrChanges) changed =
      (report, reversed))
    (hserver : after.server = reversed.server) :
    setup.Changed request box after before prepared := by
  have halike := (syncReverse_run hreverse).1
  refine ⟨hprepares, hbatches, ?_, fun other hother houtside => ?_⟩
  · rw [hserver, halike.zones _ hzone, hmoved.server.own]
  · rw [hserver, halike.zones _ houtside, hmoved.server.others _ hother]

/-- Batches that send something make a summary that says so. -/
theorem isNoop_of_batches {batches : Batches} (h : batches.isEmpty = false) (zone : String)
    (autoPtr : Option PtrReport) :
    ApplySummary.isNoop ⟨zone, batches.deletes.length, batches.replaces.length, autoPtr⟩ =
      false := by
  have hlength : ∀ {α : Type} (xs : List α), (xs.length == 0) = xs.isEmpty := by
    intro α xs
    cases xs <;> rfl
  rw [ApplySummary.isNoop, hlength, hlength]
  exact h

/-- **The result of a run determines the state that it leaves.** -/
theorem run_tells (setup : Setup) (hstore : setup.Recording) (request : ApplyRequest)
    (hzone : ¬InTree request.zone) (box : Sandbox) :
    setup.Tells request box (setup.run request box).2 (setup.run request box).1 := by
  have hended := run_ended hstore request box
  generalize (setup.run request box).2 = after at hended ⊢
  generalize (setup.run request box).1 = result at hended ⊢
  cases hended with
  | @refused e hrefusal halike =>
    cases e with
    | remoteApi | conflict | invalidRecord => exact halike
    | partialFailure | autoPtr | history => simp [SyncError.isRefusal] at hrefusal
  | settled _ _ halike => exact halike
  | halfway hprepares hdeletes hmoved => exact ⟨_, _, hprepares, hdeletes, hmoved⟩
  | unrecorded hprepares hbatches hmoved hreverse _ hserver hhistory =>
    have hchanged := changed_of_reverse hzone hprepares hbatches hmoved hreverse hserver
    refine ⟨_, _, hchanged, ?_⟩
    rw [hhistory, (syncReverse_run hreverse).1.history, hmoved.history]
  | @recorded before prepared _ _ report hprepares hbatches hmoved hreverse hserver hhistory =>
    have hchanged := changed_of_reverse hzone hprepares hbatches hmoved hreverse hserver
    rw [(syncReverse_run hreverse).1.history, hmoved.history] at hhistory
    cases report with
    | ok autoPtr =>
      show if _ then _ else _
      rw [isNoop_of_batches hbatches, if_neg (by simp)]
      exact ⟨before, prepared, hchanged, hhistory, rfl, rfl⟩
    | error e =>
      obtain ⟨message, rfl⟩ := (syncReverse_run hreverse).2 e rfl
      exact ⟨before, prepared, hchanged, hhistory⟩

/-- The wish for a zone with one address. -/
def oneAddress : ApplyRequest :=
  ⟨"example.com", [.plain "www" (.named .a) "192.0.2.1"], "operator", none⟩

/-- The history is out of order, so the address is written and not recorded. -/
theorem run_tells_of_unrecorded :
    let setup := { plain ⟨false, true, [.named .a]⟩ with
      store := fun _ => return .error (.history "disk full") }
    let box := Sandbox.serving "example.com" []
    ¬InTree oneAddress.zone ∧
      (setup.run oneAddress box).1 = .error (.history "disk full") ∧
      setup.Tells oneAddress box (setup.run oneAddress box).2 (.error (.history "disk full")) := by
  intro setup box
  have hstore : setup.Recording := fun record box => Or.inr ⟨"disk full", rfl⟩
  have hzone : ¬InTree oneAddress.zone := by decide
  have hresult : (setup.run oneAddress box).1 = .error (.history "disk full") := by
    decide +kernel
  refine ⟨hzone, hresult, ?_⟩
  have htells := run_tells setup hstore oneAddress hzone box
  rwa [hresult] at htells

end Sandbox.Setup

end ZoneKeeper
