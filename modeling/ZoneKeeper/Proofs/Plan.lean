/-
What a plan tells of the run that comes after it.

A plan prepares what a run prepares and changes nothing.  So a run right after it asks for the
patches of the plan, of the zone with the serial that the plan is for, then for those of its pass
over reverse names, and for no others.

The reverse names are another matter.  A plan counts the addresses that come and go.  A pass writes
once what two of them share, removes nothing that it writes and nothing for which there is no
reverse zone.  So a plan never counts too few, and it counts right exactly where none of this
happens.
-/
import ZoneKeeper.Proofs.RequestOrder

namespace ZoneKeeper

open ReverseName

/-! ### Plans -/

/-- The plan of what is prepared for a zone. -/
def Prepared.plan (prepared : Prepared) (zone : String) : ApplyPlan where
  zone := zone
  serial := prepared.serial
  batches := prepared.batches
  ptrAdditions := prepared.ptrChanges.additions.length
  ptrRemovals := prepared.ptrChanges.removals.length

/-- The patches that a plan announces.  An empty batch is not sent. -/
def ApplyPlan.calls (plan : ApplyPlan) : List PatchCall :=
  ([plan.batches.deleteChanges, plan.batches.replaceChanges].filter (!·.isEmpty)).map
    fun changes => ⟨DomainName.relative plan.zone, changes⟩

/-- What a plan tells of a run from one nameserver to another in which addresses come and go. -/
structure ApplyPlan.Foretells (plan : ApplyPlan) (changes : PtrChanges)
    (before after : Nameserver) (summary : ApplySummary) : Prop where
  /-- The zone has the serial that the plan is for. -/
  serial : ∃ snapshot, before.zone? plan.zone = some snapshot ∧ snapshot.serial = plan.serial
  /-- The patches of the plan are asked for, then those of the pass over reverse names, and no
  others. -/
  calls : after.patches = before.patches ++ plan.calls ++ changes.calls before
  /-- Those of the pass are of zones in the trees of reverse names. -/
  reverse : ∀ call ∈ changes.calls before, InTree call.zone
  /-- If there is no pass, it asks for nothing and the plan counts no reverse names. -/
  idle : summary.autoPtr = none →
    changes.calls before = [] ∧ plan.ptrAdditions = 0 ∧ plan.ptrRemovals = 0
  added_le : ∀ report ∈ summary.autoPtr, report.added ≤ plan.ptrAdditions
  /-- The plan counts right what is written if no two addresses that come share a name. -/
  added_iff : ∀ report ∈ summary.autoPtr,
    report.added = plan.ptrAdditions ↔ (reverseNames changes.additions).Nodup
  deleted_le : ∀ report ∈ summary.autoPtr, report.deleted ≤ plan.ptrRemovals
  /-- The plan counts right what is removed if no two addresses that go share a name, and each of
  their names is not written and has a reverse zone. -/
  deleted_iff : ∀ report ∈ summary.autoPtr, report.deleted = plan.ptrRemovals ↔
    (reverseNames changes.removals).Nodup ∧ ∀ name ∈ reverseNames changes.removals,
      name ∉ reverseNames changes.additions ∧ (after.location name).isSome = true

namespace PtrChanges.Synced

variable {changes : PtrChanges} {before after : Nameserver} {report : PtrReport}

theorem dropped_sublist (changes : PtrChanges) (after : Nameserver) :
    (changes.droppedNames.filter fun name => (after.location name).isSome).Sublist
      (reverseNames changes.removals) :=
  (List.filter_sublist.trans List.filter_sublist).trans (eraseDups_sublist _)

theorem length_reverseNames {targets : List PtrTarget}
    (h : ∀ target ∈ targets, target.reverse?.isSome = true) :
    (reverseNames targets).length = targets.length :=
  List.filterMap_length_eq_length.mpr h

variable (h : changes.Synced before after report)
include h

theorem length_additions : (reverseNames changes.additions).length = changes.additions.length :=
  length_reverseNames (List.forall_mem_append.mp h.readable).1

theorem length_removals : (reverseNames changes.removals).length = changes.removals.length :=
  length_reverseNames (List.forall_mem_append.mp h.readable).2

/-- A pass writes at most one name for each address that comes. -/
theorem added_le : report.added ≤ changes.additions.length := by
  rw [h.added, ← h.length_additions]
  exact (eraseDups_sublist _).length_le

theorem added_iff :
    report.added = changes.additions.length ↔ (reverseNames changes.additions).Nodup := by
  rw [h.added, ← h.length_additions]
  refine (length_eq_iff_of_sublist (P := fun _ => True) (eraseDups_sublist _) (nodup_eraseDups _)
    fun name => ?_).trans (and_iff_left fun _ _ => trivial)
  rw [List.mem_eraseDups, and_true]

/-- A pass removes at most one name for each address that goes. -/
theorem deleted_le : report.deleted ≤ changes.removals.length := by
  rw [h.deleted, ← h.length_removals]
  exact (dropped_sublist changes after).length_le

theorem deleted_iff : report.deleted = changes.removals.length ↔
    (reverseNames changes.removals).Nodup ∧ ∀ name ∈ reverseNames changes.removals,
      name ∉ reverseNames changes.additions ∧ (after.location name).isSome = true := by
  rw [h.deleted, ← h.length_removals]
  refine length_eq_iff_of_sublist (dropped_sublist changes after)
    (((nodup_eraseDups _).filter _).filter _) fun name => ?_
  rw [List.mem_filter, mem_droppedNames, and_assoc]

end PtrChanges.Synced

namespace Sandbox.Setup

variable {setup : Setup} {request : ApplyRequest} {box : Sandbox} {before : Snapshot}
  {prepared : Prepared} {summary : ApplySummary}

/-- The plan of a request, from a sandbox to the plan and the sandbox that it leaves. -/
@[irreducible]
def plan (setup : Setup) (request : ApplyRequest) (box : Sandbox) :
    Except SyncError ApplyPlan × Sandbox :=
  StateT.run (setup.applier.plan request) box

theorem plan_eq (setup : Setup) (request : ApplyRequest) (box : Sandbox) :
    setup.plan request box =
      ((runFrom (setup.applier.prepare request) box).1.map fun prepared =>
        prepared.plan request.zone,
      (runFrom (setup.applier.prepare request) box).2) := by
  unfold plan
  rfl

/-- A plan changes nothing. -/
theorem plan_leaves (setup : Setup) (request : ApplyRequest) (box : Sandbox) :
    (setup.plan request box).2 = box := by
  rw [plan_eq]
  exact (prepare_run rfl).1

theorem plan_of_prepares (h : setup.Prepares request box before prepared) :
    setup.plan request box = (.ok (prepared.plan request.zone), box) := by
  rw [plan_eq, runFrom_prepare h]
  rfl

/-! ### Runs that succeed -/

/-- After its batches a run that succeeds is done, or it makes a pass over reverse names. -/
theorem reverse_of_ok (hstore : setup.Recording) (hok : (setup.run request box).1 = .ok summary) :
    ∃ before prepared, setup.Prepares request box before prepared ∧
      ((summary.autoPtr = none ∧ prepared.ptrChanges.isEmpty = true) ∨
        ∃ report changed known reversed, summary.autoPtr = some report ∧
          ReverseSync.runPass (ReverseSync.pass setup.services setup.reverseZones
            prepared.ptrChanges) [] changed = (.ok report, known, reversed) ∧
          (setup.run request box).2.server = reversed.server) := by
  obtain ⟨before, prepared, changed, hprepares, -, -, hrest⟩ := sent_of_ok hstore hok
  refine ⟨before, prepared, hprepares, ?_⟩
  rcases hrest with ⟨hbatches, hnone, -⟩ | ⟨reversed, hreverse, hserver⟩
  · exact Or.inl ⟨hnone, hprepares.ptrChanges_of_isEmpty hbatches⟩
  rcases eq_or_runPass_of_syncReverse hreverse with
    ⟨hempty, rfl, hnone⟩ | ⟨result, known, hpass, hresult⟩
  · exact Or.inl ⟨Except.ok.inj hnone, hempty⟩
  cases result with
  | error e => cases hresult
  | ok report =>
    exact Or.inr ⟨report, changed, known, reversed, Except.ok.inj hresult, hpass, hserver⟩

/-- **A plan foretells the run that comes right after it,** but for reverse names that addresses
share, that are written and removed at once or that have no zone. -/
theorem run_foretold (setup : Setup) (hstore : setup.Recording) (request : ApplyRequest)
    (box : Sandbox) (summary : ApplySummary)
    (hok : (setup.run request (setup.plan request box).2).1 = .ok summary) :
    ∃ before prepared plan, setup.Prepares request box before prepared ∧
      setup.plan request box = (.ok plan, box) ∧
      plan.Foretells prepared.ptrChanges box.server
        (setup.run request (setup.plan request box).2).2.server summary := by
  rw [plan_leaves] at hok ⊢
  obtain ⟨before, prepared, hprepares, hreverse⟩ := reverse_of_ok hstore hok
  have hserial : ∃ snapshot, box.server.zone? request.zone = some snapshot ∧
      snapshot.serial = prepared.serial := by
    obtain ⟨desired, -, rfl⟩ := hprepares.eq_between
    exact ⟨before, hprepares.zone, rfl⟩
  have hcalls := patches_of_ok hstore hprepares (by rw [hok]; rfl)
  have hreversed : ∀ call ∈ prepared.ptrChanges.calls box.server, InTree call.zone :=
    fun call => PtrChanges.inTree_of_mem_calls
  refine ⟨before, prepared, prepared.plan request.zone, hprepares, plan_of_prepares hprepares, ?_⟩
  rcases hreverse with ⟨hnone, hempty⟩ | ⟨report, changed, known, reversed, hsome, hpass, hserver⟩
  · obtain ⟨hadditions, hremovals⟩ : prepared.ptrChanges.additions = [] ∧
        prepared.ptrChanges.removals = [] := by
      simpa [PtrChanges.isEmpty] using hempty
    refine ⟨hserial, hcalls, hreversed, fun _ => ⟨PtrChanges.calls_of_isEmpty hempty _, ?_⟩,
      ?_, ?_, ?_, ?_⟩
    · rw [Prepared.plan, hadditions, hremovals]
      exact ⟨rfl, rfl⟩
    all_goals
      rw [hnone]
      rintro _ ⟨⟩
  · have hsynced := ReverseSync.synced_of_runPass hpass
    rw [hserver] at hcalls ⊢
    refine ⟨hserial, hcalls, hreversed, ?_, ?_, ?_, ?_, ?_⟩
    · rw [hsome]
      exact fun hnone => by cases hnone
    all_goals
      rw [hsome]
      rintro _ ⟨⟩
    · exact hsynced.added_le
    · exact hsynced.added_iff
    · exact hsynced.deleted_le
    · exact hsynced.deleted_iff

/-- A zone with an address that stays and one that goes, and no reverse zone for either. -/
def leavingZone : List RRset :=
  [⟨"www.example.com.", .named .a, 3600, [⟨"192.0.2.1", false⟩], []⟩,
    ⟨"old.example.com.", .named .a, 3600, [⟨"192.0.2.2", false⟩], []⟩]

theorem run_foretold_leaving :
    let setup := plain ⟨false, true, [.named .a]⟩
    let box := Sandbox.serving "example.com" leavingZone
    let planned := setup.plan oneAddress box
    (setup.run oneAddress planned.2).1 = .ok ⟨"example.com", 1, 0, some ⟨[], 0, 0⟩⟩ ∧
      ∃ before prepared plan, setup.Prepares oneAddress box before prepared ∧
        planned = (.ok plan, box) ∧
        plan.Foretells prepared.ptrChanges box.server
          (setup.run oneAddress planned.2).2.server ⟨"example.com", 1, 0, some ⟨[], 0, 0⟩⟩ := by
  intro setup box planned
  have hok : (setup.run oneAddress planned.2).1 =
      .ok ⟨"example.com", 1, 0, some ⟨[], 0, 0⟩⟩ := by
    decide +kernel
  exact ⟨hok, run_foretold setup (recording_plain ⟨false, true, [.named .a]⟩) oneAddress box _ hok⟩

/-- An address is written in another spelling.  So its reverse name is written and not removed,
although the plan counts a removal. -/
theorem plan_miscounts_respelled :
    let setup := plain ⟨false, true, [.named .aaaa]⟩
    let held : RRset := ⟨"www.example.com.", .named .aaaa, 3600, [⟨"2001:db8:0::1", false⟩], []⟩
    let server := (Nameserver.empty.insertZone
      "0.0.0.0.0.0.0.0.0.0.0.0.0.0.0.0.0.0.0.0.0.0.0.8.b.d.0.1.0.0.2.ip6.arpa" 1 []).insertZone
      "example.com" 1 [held]
    let wish : ApplyRequest :=
      ⟨"example.com", [.plain "www" (.named .aaaa) "2001:db8::1"], "operator", none⟩
    let planned := setup.plan wish (.ofServer server)
    planned.1 = .ok ⟨"example.com", 1, ⟨[], [{ held with records := [⟨"2001:db8::1", false⟩] }]⟩,
        1, 1⟩ ∧
      (setup.run wish planned.2).1 = .ok ⟨"example.com", 0, 1, some ⟨[], 1, 0⟩⟩ := by
  decide +kernel

end Sandbox.Setup

end ZoneKeeper
