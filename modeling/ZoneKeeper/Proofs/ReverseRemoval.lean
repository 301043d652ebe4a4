/-
Which reverse names a run removes.

Removals come from the record sets that a run writes or deletes: an address that one of them had
and that is not written again under the same key counts as gone.  Whatever else the run writes is
looked at before its reverse name is deleted, however the address is spelled.  The record sets
that the run leaves alone are not looked at.  So the reverse name of an address that is written
stays, and an address that two owners share can lose its reverse name when one of them goes.

`Sending` is what carries this through a pass: all that has been sent follows from the addresses
that came and went, and no zone has other addresses than before.
-/
import ZoneKeeper.Proofs.Convergence
import ZoneKeeper.Proofs.ReverseProgress

namespace ZoneKeeper

open ReverseName

/-! ### The addresses of a zone -/

/-- The record sets of a zone that hold addresses. -/
def Snapshot.addressSets (snapshot : Snapshot) : List RRset :=
  snapshot.rrsets.filter (·.type.isAddress)

theorem Snapshot.mem_addressSets {snapshot : Snapshot} {r : RRset} :
    r ∈ snapshot.addressSets ↔ r ∈ snapshot.rrsets ∧ r.type.isAddress = true := by
  simp [addressSets]

/-! ### A pass sends what follows from the addresses -/

/-- What was sent since the pass began follows from the addresses that came and went, and the
addresses of all zones are as they were. -/
structure PtrChanges.Sending (changes : PtrChanges) (start box : Sandbox) : Prop where
  calls : ∃ calls, box.server.patches = start.server.patches ++ calls ∧
    ∀ call ∈ calls, ∀ change ∈ call.changes, changes.Allows change
  addresses : ∀ zone snapshot, start.server.zone? zone = some snapshot →
    ∃ held, box.server.zone? zone = some held ∧ held.addressSets = snapshot.addressSets

theorem PtrChanges.sending_refl (changes : PtrChanges) (box : Sandbox) :
    changes.Sending box box :=
  ⟨⟨[], by simp, by simp⟩, fun _ snapshot h => ⟨snapshot, h, rfl⟩⟩

/-- Only the nameserver counts. -/
theorem PtrChanges.Sending.of_server_eq {changes : PtrChanges} {start box after : Sandbox}
    (h : changes.Sending start box) (hserver : after.server = box.server) :
    changes.Sending start after :=
  ⟨hserver ▸ h.calls, hserver ▸ h.addresses⟩

/-- Changes to pointers leave the addresses of all zones alone. -/
theorem PtrChanges.addressSets_of_served {zones : String → Prop} {changes : PtrChanges}
    {server after : Nameserver} (h : server.Served (changes.Requests zones) after) {zone : String}
    {snapshot : Snapshot} (hzone : server.zone? zone = some snapshot) :
    ∃ held, after.zone? zone = some held ∧ held.addressSets = snapshot.addressSets := by
  have hhas : server.hasZone zone = true := by
    rw [Nameserver.hasZone, hzone]
    rfl
  obtain ⟨held, hheld⟩ : ∃ held, after.zone? zone = some held :=
    Option.isSome_iff_exists.mp (h.hasZone hhas)
  have haddresses : (after.rrsetsOf zone).filter (fun r => r.key.type.isAddress) =
      (server.rrsetsOf zone).filter fun r => r.key.type.isAddress := by
    refine h.filter_rrsetsOf (p := fun key => key.type.isAddress)
      fun request hrequest _ change hchange => ?_
    cases hrequest with
    | patch _ _ hallowed _ =>
      rw [(hallowed change hchange).type]
      rfl
    | create => cases hchange
  rw [Nameserver.rrsetsOf_of_some hzone, Nameserver.rrsetsOf_of_some hheld] at haddresses
  exact ⟨held, hheld, haddresses⟩

/-- What the requests of a pass add to what was sent. -/
theorem PtrChanges.Sending.of_served {zones : String → Prop} {changes : PtrChanges}
    {start box after : Sandbox} (h : changes.Sending start box)
    (hserved : box.server.Served (changes.Requests zones) after.server) :
    changes.Sending start after := by
  obtain ⟨calls, hpatches, hcalls⟩ := h.calls
  obtain ⟨more, hmore, hallowed⟩ := hserved.exists_calls
  refine ⟨⟨calls ++ more, by rw [hmore, hpatches, List.append_assoc],
    List.forall_mem_append.mpr ⟨hcalls, fun call hcall => ?_⟩⟩, fun zone snapshot hzone => ?_⟩
  · obtain ⟨zone, hrequest⟩ := hallowed call hcall
    cases hrequest with
    | patch _ _ hchanges _ => exact hchanges
  · obtain ⟨held, hheld, hsame⟩ := h.addresses zone snapshot hzone
    obtain ⟨last, hlast, hkept⟩ := PtrChanges.addressSets_of_served hserved hheld
    exact ⟨last, hlast, hkept.trans hsame⟩

namespace ReverseSync

/-- **All that a pass sends follows from the addresses that came and went.** -/
theorem sending_pass {setup : Sandbox.Setup} (changes : PtrChanges) (start : Sandbox) :
    Keeps (fun _ => changes.Sending start) (pass setup.services setup.reverseZones changes)
      fun _ => True := by
  intro known box hI
  -- nothing has to be known of the zones
  have hwithin : Within (fun _ => True) changes box known box :=
    ⟨fun _ _ _ _ => trivial, .refl _, rfl⟩
  exact (keeps_pass (fun _ _ _ => trivial) changes known box hwithin).mono
    (fun _ _ _ ⟨hwithin, _⟩ => ⟨hI.of_served hwithin.served, trivial⟩)
    fun _ _ _ hwithin => hI.of_served hwithin.served

end ReverseSync

/-! ### What a run sends -/

/-- The patches that a run asks of its own zone.  An empty batch is not sent. -/
def Prepared.calls (prepared : Prepared) (zone : String) : List PatchCall :=
  ([prepared.batches.deleteChanges, prepared.batches.replaceChanges].filter (!·.isEmpty)).map
    fun changes => ⟨DomainName.relative zone, changes⟩

namespace Sandbox.Setup

variable {setup : Setup} {request : ApplyRequest} {zone : String} {box after : Sandbox}
  {before : Snapshot} {prepared : Prepared} {summary : ApplySummary}

theorem syncReverse_sending {changes : PtrChanges} {result : Except SyncError (Option PtrReport)}
    (h : StateT.run (setup.applier.syncReverse zone changes) box = (result, after)) :
    changes.Sending box after := by
  rcases eq_or_runPass_of_syncReverse h with ⟨-, rfl, -⟩ | ⟨report, known, hpass, -⟩
  · exact changes.sending_refl _
  · exact (ReverseSync.sending_pass changes box).of_runPass (changes.sending_refl _) hpass

/-- A batch that goes through is asked for once, and an empty one not at all. -/
theorem patches_of_sendBatch {type : ChangeType} {changes : List Change}
    (h : runFrom (setup.applier.sendBatch zone type changes) box = (.ok (), after)) :
    after.server.patches = box.server.patches ++
      ([changes].filter (!·.isEmpty)).map fun changes => ⟨DomainName.relative zone, changes⟩ := by
  unfold Applier.sendBatch at h
  cases hempty : changes.isEmpty with
  | true =>
    simp only [hempty, if_true] at h
    obtain ⟨-, rfl⟩ := Prod.mk.inj h
    simp [hempty]
  | false =>
    simp only [hempty, Bool.false_eq_true, if_false] at h
    rw [runFrom_bind, runFrom_ask, applier_services] at h
    rcases hpatch : StateT.run (setup.services.patchRRsets zone changes) box with ⟨answer, patched⟩
    rw [hpatch] at h
    cases answer with
    | error e => cases h
    | ok _ =>
      obtain ⟨-, rfl⟩ := Prod.mk.inj h
      rcases patchRRsets_run hpatch with ⟨-, e, hrefused⟩ | ⟨server, hserver, rfl⟩
      · contradiction
      · show server.patches = _
        rw [Nameserver.patches_of_patch hserver]
        simp [hempty]

theorem patches_of_sent {deleted replaced : Sandbox}
    (hsent : setup.applier.Sent request prepared box deleted replaced) :
    replaced.server.patches = box.server.patches ++ prepared.calls request.zone := by
  rw [patches_of_sendBatch hsent.replace, patches_of_sendBatch hsent.delete, List.append_assoc,
    ← List.map_append, ← List.filter_append]
  rfl

theorem calls_of_isEmpty (h : prepared.batches.isEmpty = true) (zone : String) :
    prepared.calls zone = [] := by
  obtain ⟨hdeletes, hreplaces⟩ : prepared.batches.deletes = [] ∧
      prepared.batches.replaces = [] := by
    simpa [Batches.isEmpty] using h
  simp [Prepared.calls, Batches.deleteChanges, Batches.replaceChanges, hdeletes, hreplaces]

/-- A run that succeeds sends its batches.  If they are empty it is done, and otherwise the reverse
names are brought up to date. -/
theorem sent_of_ok (hstore : setup.Recording) (hok : (setup.run request box).1 = .ok summary) :
    ∃ before prepared changed, setup.Prepares request box before prepared ∧
      changed.server.patches = box.server.patches ++ prepared.calls request.zone ∧
      changed.server.zone? request.zone = some (prepared.batches.applyTo before) ∧
      ((prepared.batches.isEmpty = true ∧ summary.autoPtr = none ∧
          (setup.run request box).2.server = changed.server) ∨
        ∃ reversed,
          StateT.run (setup.applier.syncReverse request.zone prepared.ptrChanges) changed =
            (.ok summary.autoPtr, reversed) ∧
          (setup.run request box).2.server = reversed.server) := by
  obtain ⟨final, hran, hserver, -⟩ := setup.run_ran request box
  rw [hok] at hran
  generalize hresult : Except.ok summary = result at hran
  cases hran with
  | unprepared | undeleted | unreplaced | unrecorded => cases hresult
  | @settled prepared _ hprepare hbatches =>
    obtain ⟨rfl, before, hprepares⟩ := prepare_run hprepare
    obtain rfl := Except.ok.inj hresult
    refine ⟨before, prepared, final, hprepares, ?_, ?_, Or.inl ⟨hbatches, rfl, hserver⟩⟩
    · rw [calls_of_isEmpty hbatches, List.append_nil]
    · rw [hprepares.zone, Batches.applyTo_of_isEmpty hbatches]
  | @recorded prepared reversed _ _ _ replaced _ _ _ hprepare hsent hreverse hnow hpersist =>
    obtain ⟨rfl, before, hprepares⟩ := prepare_run hprepare
    cases hnow
    obtain ⟨hkept, -⟩ := persist_run hstore hpersist
    refine ⟨before, prepared, replaced, hprepares, patches_of_sent hsent,
      (moved_of_sent hprepares hsent).server.own, Or.inr ?_⟩
    cases reversed with
    | error e => cases hresult
    | ok autoPtr =>
      obtain rfl := Except.ok.inj hresult
      exact ⟨_, hreverse, hserver.trans hkept⟩

/-- A run that succeeds sends its batches, and after them only what a pass sends. -/
theorem sending_of_ok (hstore : setup.Recording) (hok : (setup.run request box).1 = .ok summary) :
    ∃ before prepared changed, setup.Prepares request box before prepared ∧
      changed.server.patches = box.server.patches ++ prepared.calls request.zone ∧
      changed.server.zone? request.zone = some (prepared.batches.applyTo before) ∧
      prepared.ptrChanges.Sending changed (setup.run request box).2 := by
  obtain ⟨before, prepared, changed, hprepares, hcalls, hzone, hrest⟩ := sent_of_ok hstore hok
  refine ⟨before, prepared, changed, hprepares, hcalls, hzone, ?_⟩
  rcases hrest with ⟨-, -, hserver⟩ | ⟨reversed, hreverse, hserver⟩
  · exact (prepared.ptrChanges.sending_refl changed).of_server_eq hserver
  · exact (syncReverse_sending hreverse).of_server_eq hserver

end Sandbox.Setup

/-! ### Which reverse names are deleted -/

namespace Prepared

variable {prepared : Prepared} {target : PtrTarget}

/-- The removals are the values that prior record sets of addresses had and their replacements
have not. -/
theorem mem_removals : target ∈ prepared.ptrChanges.removals ↔
    prepared.policy.autoPtr = true ∧
      ∃ prior ∈ prepared.reconciliation.prior, prior.type.isAddress = true ∧
        ∃ value ∈ PtrChanges.goneValues prepared.batches.replaces prior,
          prior.ptrTarget value = target := by
  unfold ptrChanges
  cases prepared.policy.autoPtr with
  | false => simp
  | true => simp [PtrChanges.ofApply, and_assoc]

/-- The additions are the values of all record sets of addresses that are written. -/
theorem mem_additions : target ∈ prepared.ptrChanges.additions ↔
    prepared.policy.autoPtr = true ∧
      ∃ w ∈ prepared.batches.replaces, w.type.isAddress = true ∧
        ∃ value ∈ w.records, w.ptrTarget value = target := by
  unfold ptrChanges
  cases prepared.policy.autoPtr with
  | false => simp
  | true => simp [PtrChanges.ofApply, and_assoc]

/-- Without addresses among what is written and what was there, none comes or goes. -/
theorem ptrChanges_of_no_address
    (hreplaces : ∀ w ∈ prepared.batches.replaces, w.type.isAddress = false)
    (hprior : ∀ prior ∈ prepared.reconciliation.prior, prior.type.isAddress = false) :
    prepared.ptrChanges.isEmpty = true := by
  have hadditions : prepared.ptrChanges.additions = [] := by
    refine List.eq_nil_iff_forall_not_mem.mpr fun target htarget => ?_
    obtain ⟨-, w, hw, htype, -⟩ := mem_additions.mp htarget
    cases htype.symm.trans (hreplaces w hw)
  have hremovals : prepared.ptrChanges.removals = [] := by
    refine List.eq_nil_iff_forall_not_mem.mpr fun target htarget => ?_
    obtain ⟨-, prior, hmem, htype, -⟩ := mem_removals.mp htarget
    cases htype.symm.trans (hprior prior hmem)
  rw [PtrChanges.isEmpty, hadditions, hremovals]
  rfl

/-- A reverse name may be deleted: its address is gone somewhere, and what still has it is a
record set that was there before and that the run left alone. -/
structure Releases (prepared : Prepared) (before after : Snapshot) (name : String) : Prop where
  gone : ∃ prior ∈ prepared.reconciliation.prior, prior.type.isAddress = true ∧
    ∃ value ∈ PtrChanges.goneValues prepared.batches.replaces prior,
      ofContent? value.content = some name
  kept : ∀ r ∈ after.rrsets, r.type.isAddress = true → ∀ value ∈ r.records,
    ofContent? value.content = some name →
      r ∈ before.rrsets ∧ r.key ∉ prepared.batches.replaces.map RRset.key

theorem releases_of_allows {before after : Snapshot} {change : Change}
    (hallows : prepared.ptrChanges.Allows change) (hdelete : change.type = .delete)
    (hafter : after.addressSets = (prepared.batches.applyTo before).addressSets) :
    prepared.Releases before after change.key.name := by
  obtain ⟨target, htarget, hname⟩ := hallows.gone hdelete
  obtain ⟨hauto, prior, hprior, htype, value, hvalue, rfl⟩ := mem_removals.mp htarget
  refine ⟨⟨prior, hprior, htype, value, hvalue, hname⟩, fun r hr hrtype value hvalue hname => ?_⟩
  have hheld : r ∈ (prepared.batches.applyTo before).addressSets := by
    rw [← hafter]
    exact Snapshot.mem_addressSets.mpr ⟨hr, hrtype⟩
  rcases Batches.mem_leave.mp (Snapshot.mem_addressSets.mp hheld).1 with hwritten | hold
  · have hadded := mem_additions.mpr ⟨hauto, r, hwritten, hrtype, value, hvalue, rfl⟩
    exact absurd hname (hallows.unwritten hdelete (r.ptrTarget value) hadded)
  · exact ⟨hold.1, hold.2.2⟩

end Prepared

namespace Sandbox.Setup

/-- **The reverse name of an address that a run writes is never deleted.**  After a run that
succeeds, the reverse zones were asked to delete only names whose address is gone somewhere, and
an address of the zone that has such a name is in a record set that the run left alone. -/
theorem run_spares_written (setup : Setup) (hstore : setup.Recording) (request : ApplyRequest)
    (box : Sandbox) (summary : ApplySummary) (hok : (setup.run request box).1 = .ok summary) :
    ∃ before prepared after reverse, setup.Prepares request box before prepared ∧
      (setup.run request box).2.server.zone? request.zone = some after ∧
      (setup.run request box).2.server.patches =
        box.server.patches ++ prepared.calls request.zone ++ reverse ∧
      ∀ call ∈ reverse, ∀ change ∈ call.changes, change.type = .delete →
        prepared.Releases before after change.key.name := by
  obtain ⟨before, prepared, changed, hprepares, hpatches, hzone, hsending⟩ :=
    sending_of_ok hstore hok
  obtain ⟨reverse, hreverse, hallowed⟩ := hsending.calls
  obtain ⟨after, hafter, haddresses⟩ := hsending.addresses _ _ hzone
  refine ⟨before, prepared, after, reverse, hprepares, hafter, by rw [hreverse, hpatches],
    fun call hcall change hchange hdelete => ?_⟩
  exact Prepared.releases_of_allows (hallowed call hcall change hchange) hdelete haddresses

/-- The address is written in another spelling, so one value of it goes and another comes. -/
theorem run_spares_written_respelled :
    let setup := plain ⟨false, true, [.named .a]⟩
    let box := Sandbox.serving "example.com"
      [⟨"www.example.com.", .named .a, 3600, [⟨"192.0.2.1 ", false⟩], []⟩]
    (setup.run oneAddress box).1 =
        .ok ⟨"example.com", 0, 1, some ⟨["2.0.192.in-addr.arpa"], 1, 0⟩⟩ ∧
      ∃ before prepared after reverse, setup.Prepares oneAddress box before prepared ∧
        (setup.run oneAddress box).2.server.zone? oneAddress.zone = some after ∧
        (setup.run oneAddress box).2.server.patches =
          box.server.patches ++ prepared.calls oneAddress.zone ++ reverse ∧
        ∀ call ∈ reverse, ∀ change ∈ call.changes, change.type = .delete →
          prepared.Releases before after change.key.name := by
  intro setup box
  have hok : (setup.run oneAddress box).1 =
      .ok ⟨"example.com", 0, 1, some ⟨["2.0.192.in-addr.arpa"], 1, 0⟩⟩ := by
    decide +kernel
  exact ⟨hok, run_spares_written setup (recording_plain ⟨false, true, [.named .a]⟩) oneAddress box
    ⟨"example.com", 0, 1, some ⟨["2.0.192.in-addr.arpa"], 1, 0⟩⟩ hok⟩

/-- Two owners share an address.  When one of them goes, so does the reverse name, although the
other still has the address. -/
theorem run_deletes_shared :
    let shared : RRset := ⟨"www.example.com.", .named .a, 3600, [⟨"192.0.2.1", false⟩], []⟩
    let pointer : RRset :=
      ⟨"1.2.0.192.in-addr.arpa.", .named .ptr, 3600, [⟨"www.example.com.", false⟩], []⟩
    let server := (Nameserver.empty.insertZone "2.0.192.in-addr.arpa" 1 [pointer]).insertZone
      "example.com" 1 [shared, { shared with name := "old.example.com." }]
    let after := (plain ⟨false, true, [.named .a]⟩).run oneAddress (.ofServer server)
    after.1 = .ok ⟨"example.com", 1, 0, some ⟨[], 0, 1⟩⟩ ∧
      after.2.server.zone? "example.com" = some ⟨"example.com.", 2, [shared]⟩ ∧
      ofContent? "192.0.2.1" = some pointer.name ∧
      after.2.server.patches.getLast? = some ⟨"2.0.192.in-addr.arpa", [.delete pointer.key]⟩ := by
  decide +kernel

end Sandbox.Setup

end ZoneKeeper
