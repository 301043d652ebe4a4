/-
Applying desired records makes the zone what is desired, and doing so again changes nothing.

After a run that succeeds, a key of the zone is in one of four classes, and each is looked at
on its own.

  * A desired record set that the zone did not have is there as it was written.
  * A desired record set that the zone had is there as it was.
  * Nothing is there under a key that nobody wants, if its type may be taken away.
  * Under any other key the zone holds what it held.

So a desired record set never has to be written a second time and nothing is left to delete,
which is all that a second run looks at.  That reverse names are brought up to date in between
does not matter, as long as the zone itself is in no tree of reverse names.
-/
import ZoneKeeper.Proofs.Outcome
import ZoneKeeper.Proofs.OwnerName
import ZoneKeeper.Proofs.SameContent

namespace ZoneKeeper

open ReverseName

/-! ### What a run leaves, one key at a time -/

theorem RRset.sameContent_refl (r : RRset) : r.sameContent r = true :=
  sameContent_equivalence.refl r

/-- Whether a record set has to be written depends on what is there under its key. -/
theorem needsWrite_congr {current other : List RRset} {w : RRset}
    (h : RRset.withKey current w.key = RRset.withKey other w.key) :
    needsWrite current w = needsWrite other w := by
  unfold needsWrite
  rw [currentWithKey?_eq, currentWithKey?_eq, h]

theorem exists_of_needsWrite_eq_false {current : List RRset} {w : RRset}
    (h : needsWrite current w = false) :
    ∃ existing ∈ current, existing.key = w.key ∧ existing.sameContent w = true := by
  unfold needsWrite at h
  split at h
  · next existing hexisting =>
    obtain ⟨hmem, hkey⟩ := mem_of_currentWithKey? hexisting
    exact ⟨existing, hmem, hkey, by simpa using h⟩
  · contradiction

namespace Reconciliation

variable {policy : Policy} {desired : List FlatRow} {current : List RRset} {key : RRsetKey}
  {w : RRset}

/-- The record sets that are there when the zone has become what is desired. -/
def outcome (policy : Policy) (desired : List FlatRow) (current : List RRset) : List RRset :=
  ((between policy desired current).batches policy).leave current

theorem not_mem_deletes_of_wanted (hsteady : SteadyAt policy desired current w.key)
    (hw : w ∈ wanted policy desired) :
    w.key ∉ ((between policy desired current).batches policy).deletes := by
  intro hdeleted
  obtain ⟨r, hr, hkey⟩ := (mem_deletes_between hsteady).mp hdeleted
  exact (mem_removed.mp hr).2.1 w hw hkey.symm

theorem not_mem_replaces_of_unwanted (hsteady : SteadyAt policy desired current key)
    (hunwanted : ∀ w ∈ wanted policy desired, w.key ≠ key) :
    key ∉ ((between policy desired current).batches policy).replaces.map RRset.key := by
  intro hwritten
  obtain ⟨w, hw, rfl⟩ := List.mem_map.mp hwritten
  exact hunwanted w (mem_changed.mp ((mem_replaces_between hsteady).mp hw)).1 rfl

/-- What the zone did not have is there as it was written. -/
theorem withKey_outcome_of_changed (hsteady : SteadyAt policy desired current w.key)
    (hw : w ∈ wanted policy desired) (hneeds : needsWrite current w = true) :
    RRset.withKey (outcome policy desired current) w.key = [w] :=
  Batches.withKey_leave_of_written (Batches.wellFormed_ofRows _ _)
    ((mem_replaces_between hsteady).mpr (mem_changed.mpr ⟨hw, hneeds⟩))

/-- What the zone had already is there as it was. -/
theorem withKey_outcome_of_kept (hsteady : SteadyAt policy desired current w.key)
    (hw : w ∈ wanted policy desired) (hneeds : needsWrite current w = false) :
    RRset.withKey (outcome policy desired current) w.key = RRset.withKey current w.key :=
  Batches.withKey_leave_of_not_mem (not_mem_deletes_of_wanted hsteady hw)
    (not_mem_replaces_of_unchanged hw hneeds)

/-- What nobody wants and may be taken away is gone. -/
theorem withKey_outcome_of_unwanted (hsteady : SteadyAt policy desired current key)
    (hunwanted : ∀ w ∈ wanted policy desired, w.key ≠ key)
    (hmay : policy.mayDelete key.type = true) :
    RRset.withKey (outcome policy desired current) key = [] := by
  have hwritten : key ∉ ((between policy desired current).batches policy).replaces.map RRset.key :=
    not_mem_replaces_of_unwanted hsteady hunwanted
  by_cases hdeleted : key ∈ ((between policy desired current).batches policy).deletes
  · exact Batches.withKey_leave_of_deleted hdeleted hwritten
  rw [outcome, Batches.withKey_leave_of_not_mem hdeleted hwritten, RRset.withKey_eq_nil]
  -- anything under the key would have been deleted
  rintro r hr rfl
  exact hdeleted ((mem_deletes_between hsteady).mpr
    ⟨r, mem_removed.mpr ⟨hr, hunwanted, hmay⟩, rfl⟩)

/-- What nobody wants but may not be taken away is as it was. -/
theorem withKey_outcome_of_protected (hsteady : SteadyAt policy desired current key)
    (hunwanted : ∀ w ∈ wanted policy desired, w.key ≠ key)
    (hmay : policy.mayDelete key.type = false) :
    RRset.withKey (outcome policy desired current) key = RRset.withKey current key := by
  refine Batches.withKey_leave_of_not_mem ?_
    (not_mem_replaces_of_unwanted hsteady hunwanted)
  intro hdeleted
  obtain ⟨r, hr, rfl⟩ := (mem_deletes_between hsteady).mp hdeleted
  have hallowed : policy.mayDelete r.key.type = true := (mem_removed.mp hr).2.2
  rw [hmay] at hallowed
  contradiction

/-- The record sets of a zone before and after it has become what is desired. -/
structure Converged (policy : Policy) (desired : List FlatRow) (before after : List RRset) :
    Prop where
  /-- What is desired is there once, and with the desired content. -/
  wanted : ∀ w ∈ (Batches.ofRows policy desired).replaces,
    ∃ held, RRset.withKey after w.key = [held] ∧ held.sameContent w = true
  /-- What is not desired and may be taken away is gone. -/
  gone : ∀ key, key ∉ (Batches.ofRows policy desired).replaces.map RRset.key →
    policy.mayDelete key.type = true → RRset.withKey after key = []
  /-- What is not desired and may not be taken away is as it was. -/
  kept : ∀ key, key ∉ (Batches.ofRows policy desired).replaces.map RRset.key →
    policy.mayDelete key.type = false → RRset.withKey after key = RRset.withKey before key

/-- Where keys are distinct, a desired record set that is not written is there alone. -/
theorem exists_withKey_outcome_of_wanted (hsteady : SteadyAt policy desired current w.key)
    (hnodup : (current.map RRset.key).Nodup) (hw : w ∈ wanted policy desired) :
    ∃ held, RRset.withKey (outcome policy desired current) w.key = [held] ∧
      held.sameContent w = true := by
  cases hneeds : needsWrite current w with
  | true =>
    exact ⟨w, withKey_outcome_of_changed hsteady hw hneeds, RRset.sameContent_refl w⟩
  | false =>
    obtain ⟨held, hmem, hkey, hsame⟩ := exists_of_needsWrite_eq_false hneeds
    refine ⟨held, ?_, hsame⟩
    rw [withKey_outcome_of_kept hsteady hw hneeds, ← hkey]
    exact RRset.withKey_of_mem hnodup hmem

/-- **What is left is what is desired,** where keys are distinct to begin with. -/
theorem converged_outcome (hsteady : Steady policy desired current)
    (hnodup : (current.map RRset.key).Nodup) :
    Converged policy desired current (outcome policy desired current) where
  wanted w hw := exists_withKey_outcome_of_wanted (hsteady.steadyAt w.key) hnodup hw
  gone key hunwanted hmay := withKey_outcome_of_unwanted (hsteady.steadyAt key)
    (fun _ hw hkey => hunwanted (List.mem_map.mpr ⟨_, hw, hkey⟩)) hmay
  kept key hunwanted hmay := withKey_outcome_of_protected (hsteady.steadyAt key)
    (fun _ hw hkey => hunwanted (List.mem_map.mpr ⟨_, hw, hkey⟩)) hmay

/-! ### Nothing is left to do -/

/-- No desired record set has to be written again. -/
theorem needsWrite_outcome (hsteady : SteadyAt policy desired current w.key)
    (hw : w ∈ wanted policy desired) :
    needsWrite (outcome policy desired current) w = false := by
  cases hneeds : needsWrite current w with
  | true =>
    have hwritten := withKey_outcome_of_changed hsteady hw hneeds
    unfold needsWrite
    rw [currentWithKey?_eq, hwritten, List.getLast?_singleton]
    simp [RRset.sameContent_refl]
  | false =>
    rw [needsWrite_congr (withKey_outcome_of_kept hsteady hw hneeds), hneeds]

theorem not_mem_changed_outcome (hsteady : SteadyAt policy desired current w.key) :
    w ∉ changed policy desired (outcome policy desired current) := by
  intro hchanged
  obtain ⟨hw, hneeds⟩ := mem_changed.mp hchanged
  rw [needsWrite_outcome hsteady hw] at hneeds
  contradiction

theorem not_mem_removed_outcome {r : RRset} (hsteady : SteadyAt policy desired current r.key) :
    r ∉ removed policy desired (outcome policy desired current) := by
  intro hremoved
  obtain ⟨hmem, hunwanted, hmay⟩ := mem_removed.mp hremoved
  have hgone := withKey_outcome_of_unwanted hsteady hunwanted hmay
  exact RRset.withKey_eq_nil.mp hgone r hmem rfl

/-- **What is left needs nothing to become what is desired.** -/
theorem batches_outcome_isEmpty (hsteady : Steady policy desired current) :
    ((between policy desired (outcome policy desired current)).batches policy).isEmpty = true := by
  have hnone : between policy desired (outcome policy desired current) = ⟨[], [], []⟩ := by
    have hchanged : changed policy desired (outcome policy desired current) = [] :=
      List.eq_nil_iff_forall_not_mem.mpr fun w => not_mem_changed_outcome (hsteady.steadyAt w.key)
    have hremoved : removed policy desired (outcome policy desired current) = [] :=
      List.eq_nil_iff_forall_not_mem.mpr fun r => not_mem_removed_outcome (hsteady.steadyAt r.key)
    unfold between
    rw [hchanged, hremoved]
    simp
  rw [hnone]
  simp [batches, Batches.ofRows, Batches.runs, Batches.isEmpty]

end Reconciliation

/-! ### Runs that succeed -/

theorem Batches.applyTo_of_isEmpty {batches : Batches} (h : batches.isEmpty = true)
    (before : Snapshot) : batches.applyTo before = before := by
  obtain ⟨hdeletes, hreplaces⟩ : batches.deletes = [] ∧ batches.replaces = [] := by
    simpa [isEmpty] using h
  simp [applyTo, sent, leave, leaveDeleted, hdeletes, hreplaces]

namespace Sandbox.Setup

variable {setup : Setup} {request : ApplyRequest} {box : Sandbox} {before : Snapshot}
  {prepared : Prepared} {summary : ApplySummary}

/-- No pass over reverse names touches the zone, because there is none or because the zone is in
no tree of reverse names. -/
def Undisturbed (setup : Setup) (zone : String) : Prop :=
  (setup.policyFor zone).autoPtr = false ∨ ¬InTree zone

theorem Prepares.ptrChanges_isEmpty (h : setup.Prepares request box before prepared)
    (hauto : (setup.policyFor request.zone).autoPtr = false) :
    prepared.ptrChanges = ⟨[], []⟩ := by
  obtain ⟨desired, -, rfl⟩ := h.eq_between
  unfold Prepared.ptrChanges
  exact if_neg (by simp [Prepared.between, hauto])

/-- A run that succeeds leaves the zone with both batches in it, empty or not. -/
theorem zone?_of_ok (hstore : setup.Recording) (hquiet : setup.Undisturbed request.zone)
    (hok : (setup.run request box).1 = .ok summary) :
    ∃ before prepared, setup.Prepares request box before prepared ∧
      (setup.run request box).2.server.zone? request.zone =
        some (prepared.batches.applyTo before) := by
  have hended := run_ended hstore request box
  rw [hok] at hended
  generalize (setup.run request box).2 = after at hended ⊢
  generalize hresult : Except.ok summary = result at hended
  cases hended with
  | refused | halfway | unrecorded => cases hresult
  | settled hprepares hbatches halike =>
    refine ⟨_, _, hprepares, ?_⟩
    rw [halike.server.zone?, hprepares.zone, Batches.applyTo_of_isEmpty hbatches]
  | recorded hprepares hbatches hmoved hreverse hserver hhistory =>
    refine ⟨_, _, hprepares, ?_⟩
    rw [hserver]
    rcases hquiet with hauto | hzone
    · have hnone := hprepares.ptrChanges_isEmpty hauto
      obtain ⟨rfl, -⟩ := syncReverse_of_isEmpty (by rw [hnone]; rfl) hreverse
      exact hmoved.server.own
    · rw [(syncReverse_run hreverse).1.zones _ hzone, hmoved.server.own]

/-- A run that has nothing to send says so and leaves everything alone. -/
theorem run_of_isEmpty (hprepares : setup.Prepares request box before prepared)
    (hempty : prepared.batches.isEmpty = true) :
    (setup.run request box).1 = .ok ⟨request.zone, 0, 0, none⟩ ∧
      (setup.run request box).2.server = box.server ∧
      (setup.run request box).2.history = box.history := by
  obtain ⟨final, hran, hserver, hhistory⟩ := setup.run_ran request box
  rw [hserver, hhistory]
  generalize (setup.run request box).1 = result at hran ⊢
  have hprepare := runFrom_prepare hprepares
  cases hran with
  | settled hsame =>
    rw [hprepare] at hsame
    cases hsame
    exact ⟨rfl, rfl, rfl⟩
  | unprepared hfailed =>
    rw [hprepare] at hfailed
    cases hfailed
  | undeleted hsame hbatches | unreplaced hsame hbatches =>
    rw [hprepare] at hsame
    cases hsame
    rw [hempty] at hbatches
    contradiction
  | unrecorded hsame hsent | recorded hsame hsent =>
    rw [hprepare] at hsame
    cases hsame
    have hbatches := hsent.batches
    rw [hempty] at hbatches
    contradiction

/-- What is there after a run that succeeds, in terms of what is desired. -/
theorem outcome_of_ok (hstore : setup.Recording) (hquiet : setup.Undisturbed request.zone)
    (hzone : box.server.zone? request.zone = some before)
    (hok : (setup.run request box).1 = .ok summary) :
    setup.faults.requests.lookup (.fetch, request.zone) = none ∧
      ∃ desired after,
        desiredRows request.zone (setup.policyFor request.zone) request.rows = .ok desired ∧
        (setup.run request box).2.server.zone? request.zone = some after ∧
        after.rrsets = Reconciliation.outcome (setup.policyFor request.zone) desired
          before.rrsets := by
  obtain ⟨found, prepared, hprepares, hafter⟩ := zone?_of_ok hstore hquiet hok
  obtain rfl : before = found := Option.some.inj (hzone.symm.trans hprepares.zone)
  obtain ⟨desired, hdesired, rfl⟩ := hprepares.eq_between
  exact ⟨hprepares.fetched, desired, _, hdesired, hafter, rfl⟩

/-- **A run that succeeds makes the zone what is desired.** -/
theorem run_converges (setup : Setup) (hstore : setup.Recording) (request : ApplyRequest)
    (hauto : (setup.policyFor request.zone).autoPtr = false) (box : Sandbox) (before : Snapshot)
    (hzone : box.server.zone? request.zone = some before)
    (hnodup : (before.rrsets.map RRset.key).Nodup)
    (hkeeps : (setup.policyFor request.zone).KeepsOwners request.zone request.rows before.rrsets)
    (summary : ApplySummary) (hok : (setup.run request box).1 = .ok summary) :
    ∃ desired after,
      desiredRows request.zone (setup.policyFor request.zone) request.rows = .ok desired ∧
      (setup.run request box).2.server.zone? request.zone = some after ∧
      Reconciliation.Converged (setup.policyFor request.zone) desired before.rrsets
        after.rrsets := by
  obtain ⟨-, desired, after, hdesired, hafter, hrrsets⟩ :=
    outcome_of_ok hstore (Or.inl hauto) hzone hok
  refine ⟨desired, after, hdesired, hafter, ?_⟩
  rw [hrrsets]
  exact Reconciliation.converged_outcome (hkeeps.steady hdesired) hnodup

/-- A zone with a start of authority, an address that stays and one that goes. -/
def mixedZone : List RRset :=
  [⟨"example.com.", .named .soa, 3600, [⟨"ns.example.com. 1", false⟩], []⟩,
    ⟨"www.example.com.", .named .a, 3600, [⟨"192.0.2.1", false⟩], []⟩,
    ⟨"old.example.com.", .named .a, 3600, [⟨"192.0.2.2", false⟩], []⟩]

theorem run_converges_mixedZone :
    let policy : Policy := ⟨false, false, [.named .a]⟩
    let box := Sandbox.serving "example.com" mixedZone
    let after := ((plain policy).run oneAddress box).2
    (mixedZone.map RRset.key).Nodup ∧
      ((plain policy).run oneAddress box).1 = .ok ⟨"example.com", 1, 0, none⟩ ∧
      ∃ desired zone,
        desiredRows "example.com" policy oneAddress.rows = .ok desired ∧
        after.server.zone? "example.com" = some zone ∧
        Reconciliation.Converged policy desired mixedZone zone.rrsets := by
  intro policy box after
  have hzone : box.server.zone? oneAddress.zone = some ⟨"example.com.", 1, mixedZone⟩ := by decide
  have hnodup : (mixedZone.map RRset.key).Nodup := by decide
  have hkeeps : policy.KeepsOwners oneAddress.zone oneAddress.rows mixedZone :=
    Policy.keepsOwners_of_plain rfl _ _ _
  have hok : ((plain policy).run oneAddress box).1 = .ok ⟨"example.com", 1, 0, none⟩ := by
    decide +kernel
  refine ⟨hnodup, hok, ?_⟩
  exact run_converges (plain policy) (recording_plain policy) oneAddress rfl box
    ⟨"example.com.", 1, mixedZone⟩ hzone hnodup hkeeps ⟨"example.com", 1, 0, none⟩ hok

/-- **A second run of the same request changes nothing.**  It asks for no patch, creates no
zone and leaves no record, at whatever time it comes. -/
theorem run_idempotent (setup : Setup) (hstore : setup.Recording) (request : ApplyRequest)
    (hserial : request.serial = none) (hquiet : setup.Undisturbed request.zone) (box : Sandbox)
    (before : Snapshot) (hzone : box.server.zone? request.zone = some before)
    (hkeeps : (setup.policyFor request.zone).KeepsOwners request.zone request.rows before.rrsets)
    (summary : ApplySummary) (hok : (setup.run request box).1 = .ok summary)
    (later : Timestamp) :
    let after := (setup.run request box).2
    let again := { setup with now := later }.run request after
    again.1 = .ok ⟨request.zone, 0, 0, none⟩ ∧ again.2.server = after.server ∧
      again.2.history = after.history := by
  obtain ⟨hfetched, desired, after, hdesired, hafter, hrrsets⟩ :=
    outcome_of_ok hstore hquiet hzone hok
  have hsteady := hkeeps.steady hdesired
  have hprepared : Applier.prepareFrom (setup.policyFor request.zone) request after =
      .ok (.between (setup.policyFor request.zone) desired after) := by
    rw [Applier.prepareFrom_eq, Applier.checkSerial, hserial, hdesired]
    rfl
  refine run_of_isEmpty ⟨hfetched, hafter, hprepared⟩ ?_
  rw [Prepared.between, hrrsets]
  exact Reconciliation.batches_outcome_isEmpty hsteady

/-- The first run points a reverse name at the address, in a reverse zone that it creates, and
the second comes an hour later. -/
theorem run_idempotent_with_reverse_zone :
    let setup := plain ⟨false, true, [.named .a]⟩
    let box := Sandbox.serving "example.com" []
    let after := (setup.run oneAddress box).2
    let later := (Timestamp.ofClock? 3600000000000).getD .epoch
    let again := { setup with now := later }.run oneAddress after
    ¬InTree "example.com" ∧
      (setup.run oneAddress box).1 =
        .ok ⟨"example.com", 0, 1, some ⟨["2.0.192.in-addr.arpa"], 1, 0⟩⟩ ∧
      again.1 = .ok ⟨"example.com", 0, 0, none⟩ ∧ again.2.server = after.server ∧
      again.2.history = after.history := by
  intro setup box after later again
  have houtside : ¬InTree "example.com" := by decide
  have hzone : box.server.zone? oneAddress.zone = some ⟨"example.com.", 1, []⟩ := by decide
  have hkeeps : (setup.policyFor oneAddress.zone).KeepsOwners oneAddress.zone oneAddress.rows [] :=
    Policy.keepsOwners_of_plain rfl _ _ _
  have hok : (setup.run oneAddress box).1 =
      .ok ⟨"example.com", 0, 1, some ⟨["2.0.192.in-addr.arpa"], 1, 0⟩⟩ := by
    decide +kernel
  have hquiet : setup.Undisturbed oneAddress.zone := Or.inr houtside
  refine ⟨houtside, hok, ?_⟩
  exact run_idempotent setup (recording_plain ⟨false, true, [.named .a]⟩) oneAddress rfl
    hquiet box ⟨"example.com.", 1, []⟩ hzone hkeeps
    ⟨"example.com", 0, 1, some ⟨["2.0.192.in-addr.arpa"], 1, 0⟩⟩ hok later

end Sandbox.Setup

end ZoneKeeper
