/-
What a second run does about reverse names that a first one did not get to.

A run works out which addresses come and go from the zone as it finds it.  When its pass over
reverse names fails, the zone already holds the addresses that are desired.  So for a second run
of the same request no address comes or goes, and it makes no pass: whatever the first one left
out stays out.

A pass sends its patches in the order of the zones.  So what is there after both runs is what the
first one had sent before the patch that was refused, and nothing else.
-/
import ZoneKeeper.Proofs.EditPolicy
import ZoneKeeper.Proofs.RequestOrder

namespace ZoneKeeper

open ReverseName

/-! ### A zone that is as desired -/

/-- **In a zone that has become what is desired no address comes or goes.** -/
theorem Prepared.ptrChanges_of_applied {policy : Policy} {desired : List FlatRow}
    (hdesired : ∀ row ∈ desired, row.changeType = .replace) (before : Snapshot) :
    (Prepared.between policy desired
      ((Prepared.between policy desired before).batches.applyTo before)).ptrChanges.isEmpty =
        true := by
  have hsteady {key : RRsetKey} (h : key.type.isAddress = true) :
      Reconciliation.SteadyAt policy desired before.rrsets key :=
    Reconciliation.steadyAt_of_isAddress hdesired h
  refine Prepared.ptrChanges_of_no_address (fun w hw => ?_) fun prior hprior => ?_
  · refine Bool.eq_false_iff.mpr fun htype => ?_
    obtain ⟨row, hrow, hkey⟩ := Reconciliation.exists_added_of_mem_replaces hw
    obtain ⟨-, v, hv, hvkey⟩ := Reconciliation.mem_added.mp hrow
    have haddress : v.key.type.isAddress = true := by rw [hvkey, hkey]; exact htype
    exact Reconciliation.not_mem_changed_outcome (hsteady haddress) hv
  · refine Bool.eq_false_iff.mpr fun htype => ?_
    rcases List.mem_append.mp hprior with hremoved | hchanged
    · exact Reconciliation.not_mem_removed_outcome (hsteady htype) hremoved
    · obtain ⟨w, hw, hcurrent⟩ := List.mem_filterMap.mp hchanged
      obtain ⟨-, hkey⟩ := mem_of_currentWithKey? hcurrent
      exact Reconciliation.not_mem_changed_outcome (hsteady (hkey ▸ htype)) hw

namespace Sandbox.Setup

variable {setup again : Setup} {request : ApplyRequest} {box changed reversed : Sandbox}
  {before : Snapshot} {prepared : Prepared} {detail : String}

/-- So a run that finds its zone as an earlier one made it has nothing to do about reverse
names. -/
theorem Prepares.ptrChanges_of_applied {before' : Snapshot} {prepared' : Prepared}
    (hpolicy : again.policyFor request.zone = setup.policyFor request.zone)
    (h : setup.Prepares request box before prepared)
    (hzone : changed.server.zone? request.zone = some (prepared.batches.applyTo before))
    (h' : again.Prepares request changed before' prepared') :
    prepared'.ptrChanges.isEmpty = true := by
  obtain ⟨desired, hdesired, rfl⟩ := h.eq_between
  obtain ⟨desired', hdesired', rfl⟩ := h'.eq_between
  obtain rfl : before' = _ := Option.some.inj (h'.zone.symm.trans hzone)
  rw [hpolicy] at hdesired' ⊢
  obtain rfl : desired' = desired := Except.ok.inj (hdesired'.symm.trans hdesired)
  exact Prepared.ptrChanges_of_applied (Reconciliation.changeType_of_desired hdesired) before

/-- A run makes no pass over reverse names, whatever it fails over. -/
structure Passless (setup : Setup) (request : ApplyRequest) (box : Sandbox) : Prop where
  /-- No address comes or goes. -/
  idle : ∀ before prepared, setup.Prepares request box before prepared →
    prepared.ptrChanges.isEmpty = true
  /-- What is asked for is a beginning of the patches of the zone, and nothing else. -/
  calls : ∃ asked, asked <+: setup.ownCalls request box ∧
    (setup.run request box).2.server.patches = box.server.patches ++ asked
  /-- No zone is created. -/
  created : (setup.run request box).2.server.created = box.server.created
  others : ∀ other, ¬Nameserver.SameZone other request.zone →
    (setup.run request box).2.server.zone? other = box.server.zone? other
  /-- No pass is reported, -/
  silent : ∀ summary, (setup.run request box).1 = .ok summary → summary.autoPtr = none
  /-- and none is what the run fails over. -/
  unblamed : ∀ zone message, (setup.run request box).1 ≠ .error (.autoPtr zone message)

/-- Where no address comes or goes no patch of a reverse zone is to be asked for. -/
theorem reverseCalls_of_idle (hidle : ∀ before prepared,
    setup.Prepares request box before prepared → prepared.ptrChanges.isEmpty = true) :
    setup.reverseCalls request box = [] := by
  rcases hprepare : runFrom (setup.applier.prepare request) box with ⟨result, after⟩
  unfold reverseCalls prepared?
  rw [hprepare]
  cases result with
  | error e => rfl
  | ok prepared =>
    obtain ⟨rfl, before, hprepares⟩ := prepare_run hprepare
    exact PtrChanges.calls_of_isEmpty (hidle before prepared hprepares) _

/-- A run for which no address comes or goes touches its own zone only and tells of no pass. -/
theorem run_of_idle (hstore : setup.Recording) (hidle : ∀ before prepared,
    setup.Prepares request box before prepared → prepared.ptrChanges.isEmpty = true) :
    (setup.run request box).2.server.created = box.server.created ∧
      (∀ other, ¬Nameserver.SameZone other request.zone →
        (setup.run request box).2.server.zone? other = box.server.zone? other) ∧
      (∀ summary, (setup.run request box).1 = .ok summary → summary.autoPtr = none) ∧
      ∀ zone message, (setup.run request box).1 ≠ .error (.autoPtr zone message) := by
  have hended := run_ended hstore request box
  generalize (setup.run request box).2 = after at hended ⊢
  generalize (setup.run request box).1 = result at hended ⊢
  cases hended with
  | refused hrefusal halike =>
    refine ⟨halike.server.created, fun other _ => halike.server.zone? other, by rintro _ ⟨⟩, ?_⟩
    rintro zone message ⟨⟩
    cases hrefusal
  | settled _ _ halike =>
    exact ⟨halike.server.created, fun other _ => halike.server.zone? other,
      by rintro _ ⟨⟩; rfl, by rintro _ _ ⟨⟩⟩
  | halfway _ _ hmoved =>
    exact ⟨hmoved.server.created, hmoved.server.others, by rintro _ ⟨⟩, by rintro _ _ ⟨⟩⟩
  | unrecorded hprepares _ hmoved hreverse _ hserver =>
    obtain ⟨rfl, -⟩ := syncReverse_of_isEmpty (hidle _ _ hprepares) hreverse
    rw [hserver]
    exact ⟨hmoved.server.created, hmoved.server.others, by rintro _ ⟨⟩, by rintro _ _ ⟨⟩⟩
  | recorded hprepares _ hmoved hreverse hserver =>
    obtain ⟨rfl, rfl⟩ := syncReverse_of_isEmpty (hidle _ _ hprepares) hreverse
    rw [hserver]
    exact ⟨hmoved.server.created, hmoved.server.others, by rintro _ ⟨⟩; rfl, by rintro _ _ ⟨⟩⟩

/-- **A run for which no address comes or goes makes no pass.** -/
theorem passless_of_idle (hstore : setup.Recording) (hidle : ∀ before prepared,
    setup.Prepares request box before prepared → prepared.ptrChanges.isEmpty = true) :
    setup.Passless request box := by
  obtain ⟨founded, made, refused, hcourse, hprefix, -⟩ := asked_run setup hstore request box
  rw [reverseCalls_of_idle hidle, List.append_nil] at hprefix
  have hcalls : (setup.run request box).2.server.patches =
      box.server.patches ++ (made ++ refused.toList) := by
    rw [hcourse.patches, List.append_assoc]
  obtain ⟨hcreated, hothers, hsilent, hunblamed⟩ := run_of_idle hstore hidle
  exact ⟨hidle, ⟨_, hprefix, hcalls⟩, hcreated, hothers, hsilent, hunblamed⟩

/-! ### A patch of a reverse zone that was refused -/

/-- What is left of a pass that was reported to have failed at a reverse zone. -/
theorem syncedBefore_of_syncReverse {zone : String} {changes : PtrChanges}
    (h : StateT.run (setup.applier.syncReverse zone changes) changed =
      (.error (.autoPtr zone ("reverse zone " ++ detail)), reversed)) :
    ∃ refused, (∃ cause : ApiError, detail = s!"{refused}: {cause.message}") ∧
      changes.SyncedBefore refused changed.server reversed.server := by
  rcases eq_or_runPass_of_syncReverse h with ⟨-, -, hnone⟩ | ⟨report, known, hpass, hresult⟩
  · cases hnone
  cases report with
  | ok report => cases hresult
  | error message =>
    obtain rfl : message = "reverse zone " ++ detail :=
      (SyncError.autoPtr.inj (Except.error.inj hresult)).2.symm
    rcases ReverseSync.of_runPass_error hpass with
      hunsent | ⟨refused, ⟨cause, htold⟩, hsynced⟩
    · exact absurd hunsent (ReverseSync.not_unsent_reverseZone detail)
    · refine ⟨refused, ⟨cause, ?_⟩, hsynced⟩
      simpa [toString, String.append_assoc] using htold

/-- Both batches of a run are in its zone, and the pass after them came to a patch of a reverse
zone that was refused. -/
structure Stranded (setup : Setup) (request : ApplyRequest) (box after : Sandbox)
    (before : Snapshot) (prepared : Prepared) (refused detail : String) : Prop where
  prepares : setup.Prepares request box before prepared
  zone : after.server.zone? request.zone = some (prepared.batches.applyTo before)
  told : ∃ cause : ApiError, detail = s!"{refused}: {cause.message}"
  synced : prepared.ptrChanges.SyncedBefore refused box.server after.server

/-- A run that reports the refused patch of a reverse zone is stranded there. -/
theorem stranded_of_failed (hstore : setup.Recording) (hzone : ¬InTree request.zone)
    (hfailed : (setup.run request box).1 =
      .error (.autoPtr request.zone ("reverse zone " ++ detail))) :
    ∃ before prepared refused,
      setup.Stranded request box (setup.run request box).2 before prepared refused detail := by
  have hended := run_ended hstore request box
  rw [hfailed] at hended
  generalize (setup.run request box).2 = after at hended ⊢
  generalize hresult : Except.error _ = result at hended
  cases hended with
  | refused hrefusal _ =>
    cases hresult
    contradiction
  | settled | halfway | unrecorded => cases hresult
  | @recorded before prepared changed reversed report hprepares _ hmoved hreverse hserver _ =>
    have hown : after.server.zone? request.zone = some (prepared.batches.applyTo before) := by
      rw [hserver, (syncReverse_run hreverse).1.zones _ hzone, hmoved.server.own]
    cases report with
    | ok autoPtr => cases hresult
    | error e =>
      obtain rfl := Except.error.inj hresult
      obtain ⟨refused, htold, hsynced⟩ := syncedBefore_of_syncReverse hreverse
      refine ⟨before, prepared, refused, hprepares, hown, htold, ?_⟩
      refine hsynced.congr (fun other hother => ?_) fun other _ => by rw [hserver]
      exact (hmoved.server.others other fun hsame => hzone ((inTree_congr hsame).mp hother)).symm

/-- **A second run does not make up for reverse names that a first one left out.**  Where the pass
of the first run came to a patch that was refused, a second run of the request makes no pass, under
the same policy but whatever it fails over.  So after both runs the reverse zones before the
refused one are in step, and the others are as they were to begin with. -/
theorem run_retry (setup again : Setup) (hstore : setup.Recording) (hagain : again.Recording)
    (request : ApplyRequest) (hzone : ¬InTree request.zone)
    (hpolicy : again.policyFor request.zone = setup.policyFor request.zone) (box : Sandbox)
    (detail : String)
    (hfailed : (setup.run request box).1 =
      .error (.autoPtr request.zone ("reverse zone " ++ detail))) :
    let failed := (setup.run request box).2
    let retried := again.run request failed
    again.Passless request failed ∧
      ∃ before prepared refused,
        setup.Stranded request box failed before prepared refused detail ∧
        prepared.ptrChanges.SyncedBefore refused box.server retried.2.server := by
  intro failed retried
  obtain ⟨before, prepared, refused, hstranded⟩ := stranded_of_failed hstore hzone hfailed
  have hpassless : again.Passless request failed := passless_of_idle hagain fun _ _ =>
    hstranded.prepares.ptrChanges_of_applied hpolicy hstranded.zone
  refine ⟨hpassless, before, prepared, refused, hstranded, ?_⟩
  exact hstranded.synced.congr (fun _ _ => rfl) fun other hother =>
    hpassless.others other fun hsame => hzone ((inTree_congr hsame).mp hother)

/-- A zone without records on a nameserver that refuses its second patch. -/
def refusingSecond (server : Nameserver) : Sandbox :=
  .ofServer ((server.insertZone "example.com" 1 []).failPatch 1)

/-- The reverse zone that refuses is wider than it could be, and the second run comes an hour
later. -/
theorem run_retry_wider :
    let setup := plain ⟨false, true, [.named .a]⟩
    let later := (Timestamp.ofClock? 3600000000000).getD .epoch
    let box := refusingSecond (Nameserver.empty.insertZone "192.in-addr.arpa" 1 [])
    let detail := "192.in-addr.arpa: Unexpected HTTP response from " ++
      "memory://zones/192.in-addr.arpa.: 500 injected failure"
    let failed := (setup.run oneAddress box).2
    let retried := { setup with now := later }.run oneAddress failed
    ¬InTree oneAddress.zone ∧
      (setup.run oneAddress box).1 = .error (.autoPtr "example.com" ("reverse zone " ++ detail)) ∧
      Passless { setup with now := later } oneAddress failed ∧
      ∃ before prepared refused,
        setup.Stranded oneAddress box failed before prepared refused detail ∧
        prepared.ptrChanges.SyncedBefore refused box.server retried.2.server := by
  intro setup later box detail failed retried
  have hzone : ¬InTree oneAddress.zone := by decide
  have hfailed : (setup.run oneAddress box).1 =
      .error (.autoPtr oneAddress.zone ("reverse zone " ++ detail)) := by
    decide +kernel
  have hstore : setup.Recording := recording_plain _
  have hagain : Setup.Recording { setup with now := later } := hstore
  refine ⟨hzone, hfailed, ?_⟩
  exact run_retry setup { setup with now := later } hstore hagain oneAddress hzone rfl box detail
    hfailed

/-- The second run succeeds, and the address that is there has no pointer anywhere. -/
theorem run_retry_leaves_out_pointer :
    let setup := plain ⟨false, true, [.named .a]⟩
    let failed := setup.run oneAddress (refusingSecond .empty)
    let retried := setup.run oneAddress failed.2
    failed.1 = .error (.autoPtr "example.com" ("reverse zone 2.0.192.in-addr.arpa: " ++
        "Unexpected HTTP response from memory://zones/2.0.192.in-addr.arpa.: " ++
        "500 injected failure")) ∧
      retried.1 = .ok ⟨"example.com", 0, 0, none⟩ ∧
      (∃ zone ∈ retried.2.server.zones, ∃ rrset ∈ zone.2.rrsets,
        rrset.type = .named .a ∧ rrset.records = [⟨"192.0.2.1", false⟩]) ∧
      ∀ zone ∈ retried.2.server.zones, ∀ rrset ∈ zone.2.rrsets, rrset.type ≠ .named .ptr := by
  decide +kernel

end Sandbox.Setup

end ZoneKeeper
