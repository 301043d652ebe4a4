/-
What a run leaves alone.

A run asks for at most two patches of its own zone.  Only when both went through does a pass over
reverse names come, and only if the policy asks for one.  `Asked` says so of every run, and all
that a run can touch beside its own zone is what the requests of the pass can: zones outside of the
trees of reverse names stay as they are, in the trees only pointers of addresses that were written
or were there before can change, and only the narrowest candidate of a written address can be new.
-/
import ZoneKeeper.Proofs.ReverseDecision
import ZoneKeeper.Proofs.ReverseRemoval
import ZoneKeeper.Proofs.Watched

namespace ZoneKeeper

open ReverseName Nameserver

/-! ### Reverse names of addresses -/

/-- The reverse names of the addresses that record sets hold. -/
def RRset.reverseNamesOf (rrsets : List RRset) : List String :=
  ((rrsets.filter (·.type.isAddress)).flatMap fun rrset =>
    rrset.records.map RecordValue.content).filterMap ofContent?

theorem RRset.mem_reverseNamesOf {rrsets : List RRset} {name : String} :
    name ∈ reverseNamesOf rrsets ↔ ∃ rrset ∈ rrsets, rrset.type.isAddress = true ∧
      ∃ value ∈ rrset.records, ofContent? value.content = some name := by
  simp only [reverseNamesOf, List.mem_filterMap, List.mem_flatMap, List.mem_filter, List.mem_map]
  constructor
  · rintro ⟨content, ⟨rrset, ⟨hmem, htype⟩, value, hvalue, rfl⟩, hname⟩
    exact ⟨rrset, hmem, htype, value, hvalue, hname⟩
  · rintro ⟨rrset, hmem, htype, value, hvalue, hname⟩
    exact ⟨_, ⟨rrset, ⟨hmem, htype⟩, value, hvalue, rfl⟩, hname⟩

theorem RRset.reverseNamesOf_append (rrsets others : List RRset) :
    reverseNamesOf (rrsets ++ others) = reverseNamesOf rrsets ++ reverseNamesOf others := by
  simp [reverseNamesOf]

theorem PtrChanges.goneValues_subset (written : List RRset) (prior : RRset) :
    goneValues written prior ⊆ prior.records := by
  unfold goneValues
  split
  · exact List.filter_subset_self _
  · exact List.Subset.refl _

namespace Prepared

variable {prepared : Prepared} {name : String}

/-- The addresses that come are those of the record sets that are written. -/
theorem mem_reverseNamesOf_of_come (h : name ∈ reverseNames prepared.ptrChanges.additions) :
    name ∈ RRset.reverseNamesOf prepared.batches.replaces := by
  obtain ⟨target, htarget, hname⟩ := List.mem_filterMap.mp h
  obtain ⟨-, w, hw, htype, value, hvalue, rfl⟩ := mem_additions.mp htarget
  exact RRset.mem_reverseNamesOf.mpr ⟨w, hw, htype, value, hvalue, hname⟩

/-- The addresses that go are some of those of prior record sets. -/
theorem mem_reverseNamesOf_of_gone (h : name ∈ reverseNames prepared.ptrChanges.removals) :
    name ∈ RRset.reverseNamesOf prepared.reconciliation.prior := by
  obtain ⟨target, htarget, hname⟩ := List.mem_filterMap.mp h
  obtain ⟨-, prior, hprior, htype, value, hvalue, rfl⟩ := mem_removals.mp htarget
  exact RRset.mem_reverseNamesOf.mpr
    ⟨prior, hprior, htype, value, PtrChanges.goneValues_subset _ _ hvalue, hname⟩

end Prepared

/-! ### What a run asks for -/

namespace Sandbox.Setup

variable {setup : Setup} {request : ApplyRequest} {box after : Sandbox} {zone : String}

/-- The requests of a run about its own zone. -/
inductive OwnRequest (setup : Setup) (request : ApplyRequest) (box : Sandbox) :
    Nameserver.Request → Prop
  | deletions {before : Snapshot} {prepared : Prepared}
      (prepares : setup.Prepares request box before prepared) :
      OwnRequest setup request box (.patch request.zone prepared.batches.deleteChanges)
  | replacements {before : Snapshot} {prepared : Prepared}
      (prepares : setup.Prepares request box before prepared) :
      OwnRequest setup request box (.patch request.zone prepared.batches.replaceChanges)

/-- A run from a sandbox made these requests, and left this nameserver. -/
inductive Asked (setup : Setup) (request : ApplyRequest) (box : Sandbox) (after : Nameserver) : Prop
  /-- The batches were not both accepted, and nothing but they was asked for. -/
  | stopped
      (unsent : ∀ before prepared deleted replaced, setup.Prepares request box before prepared →
        ¬setup.applier.Sent request prepared box deleted replaced)
      (own : box.server.Served (setup.OwnRequest request box) after)
  /-- Both batches were accepted, and then came the reverse names. -/
  | reversed {before : Snapshot} {prepared : Prepared} {deleted replaced : Sandbox}
      (prepares : setup.Prepares request box before prepared)
      (sent : setup.applier.Sent request prepared box deleted replaced)
      (own : box.server.Served (setup.OwnRequest request box) replaced.server)
      (pass : replaced.server.Served (prepared.ptrChanges.Requests InTree) after)

/-- Whether the batches of a run are sent is settled by what it prepares. -/
theorem Prepares.unique {before before' : Snapshot} {prepared prepared' : Prepared}
    (h : setup.Prepares request box before prepared)
    (h' : setup.Prepares request box before' prepared') : prepared = prepared' := by
  have heq := (runFrom_prepare h).symm.trans (runFrom_prepare h')
  exact Except.ok.inj (Prod.mk.inj heq).1

/-- A batch is one patch, or none. -/
theorem sendBatch_served {type : ChangeType} {changes : List Change}
    {result : Except SyncError Unit} {allowed : Nameserver.Request → Prop}
    (hallowed : allowed (.patch zone changes))
    (h : runFrom (setup.applier.sendBatch zone type changes) box = (result, after)) :
    box.server.Served allowed after.server := by
  unfold Applier.sendBatch at h
  cases hempty : changes.isEmpty with
  | true =>
    simp only [hempty, if_true] at h
    obtain ⟨-, rfl⟩ := Prod.mk.inj h
    exact .refl _
  | false =>
    simp only [hempty, Bool.false_eq_true, if_false] at h
    rw [runFrom_bind, runFrom_ask, applier_services] at h
    rcases hpatch : StateT.run (setup.services.patchRRsets zone changes) box with ⟨answer, patched⟩
    have hserved : box.server.Served allowed patched.server := by
      rcases patchRRsets_run hpatch with ⟨rfl, -⟩ | ⟨server, hserver, rfl⟩
      · exact .refl _
      · obtain rfl := congrArg Prod.snd hserver
        exact .single hallowed
    rw [hpatch] at h
    cases answer with
    | error e =>
      obtain ⟨-, rfl⟩ := Prod.mk.inj h
      exact hserved
    | ok _ =>
      obtain ⟨-, rfl⟩ := Prod.mk.inj h
      exact hserved

theorem own_of_sent {before : Snapshot} {prepared : Prepared} {deleted replaced : Sandbox}
    (hprepares : setup.Prepares request box before prepared)
    (hsent : setup.applier.Sent request prepared box deleted replaced) :
    box.server.Served (setup.OwnRequest request box) replaced.server :=
  (sendBatch_served (.deletions hprepares) hsent.delete).trans
    (sendBatch_served (.replacements hprepares) hsent.replace)

end Sandbox.Setup

namespace Sandbox.Client

open Setup

/-- The history is kept apart from the nameserver. -/
theorem server_of_persist {client : Client} {record : HistoryRecord} {box after : Sandbox}
    {result : Except SyncError Unit}
    (h : StateT.run (client.services.persist record) box = (result, after)) :
    after.server = box.server := by
  obtain rfl : (StateT.run (client.store record) box).2 = after := congrArg Prod.snd h
  exact client.apart record box

/-- **A run asks for its batches, and for a pass only after both of them.** -/
theorem run_asked (client : Client) (request : ApplyRequest) (box : Sandbox) :
    client.Asked request box (client.run request box).2.server := by
  obtain ⟨final, hran, hserver, -⟩ := client.run_ran request box
  rw [hserver]
  generalize (client.run request box).1 = result at hran
  cases hran with
  | unprepared hfailed =>
    obtain ⟨rfl, -⟩ := prepare_run hfailed
    refine .stopped (fun _ _ _ _ hprepares _ => ?_) (.refl _)
    cases hfailed.symm.trans (runFrom_prepare hprepares)
  | @settled prepared _ hprepare hbatches =>
    obtain ⟨rfl, before, hprepares⟩ := prepare_run hprepare
    refine .stopped (fun _ _ _ _ hprepares' hsent => ?_) (.refl _)
    rw [← hprepares.unique hprepares'] at hsent
    cases hbatches.symm.trans hsent.batches
  | @undeleted prepared e _ _ hprepare hbatches hdelete =>
    obtain ⟨rfl, before, hprepares⟩ := prepare_run hprepare
    refine .stopped (fun _ _ _ _ hprepares' hsent => ?_)
      (sendBatch_served (.deletions hprepares) hdelete)
    rw [← hprepares.unique hprepares'] at hsent
    cases hdelete.symm.trans hsent.delete
  | @unreplaced prepared e _ _ _ hprepare hbatches hdelete hreplace =>
    obtain ⟨rfl, before, hprepares⟩ := prepare_run hprepare
    refine .stopped (fun _ _ _ _ hprepares' hsent => ?_)
      ((sendBatch_served (.deletions hprepares) hdelete).trans
        (sendBatch_served (.replacements hprepares) hreplace))
    rw [← hprepares.unique hprepares'] at hsent
    cases hdelete.symm.trans hsent.delete
    cases hreplace.symm.trans hsent.replace
  | unrecorded hprepare hsent hreverse hnow hpersist
  | recorded hprepare hsent hreverse hnow hpersist =>
    obtain ⟨rfl, before, hprepares⟩ := prepare_run hprepare
    cases hnow
    rw [server_of_persist hpersist]
    exact .reversed hprepares hsent (own_of_sent hprepares hsent)
      (syncReverse_served hosts_inTree hreverse).1

end Sandbox.Client

/-! ### What stays as it is -/

/-- The key of a pointer under the reverse name of an address of the record sets. -/
def RRsetKey.pointsFrom (rrsets : List RRset) (key : RRsetKey) : Bool :=
  key.type = .named .ptr ∧ key.name ∈ RRset.reverseNamesOf rrsets

/-- What a run for a zone leaves alone, where it wrote some record sets in place of prior ones. -/
structure Nameserver.Framed (policy : Policy) (zone : String) (written prior : List RRset)
    (server after : Nameserver) : Prop where
  /-- Other zones outside of the trees of reverse names are as they were. -/
  outside : ∀ other, ¬SameZone other zone → ¬InTree other →
    after.zone? other = server.zone? other
  /-- No zone is taken away. -/
  known : ∀ other, server.hasZone other = true → after.hasZone other = true
  /-- Of other zones only pointers from the addresses can be different. -/
  pointers : ∀ other, ¬SameZone other zone →
    (after.rrsetsOf other).filter (fun r => !r.key.pointsFrom (written ++ prior)) =
      (server.rrsetsOf other).filter fun r => !r.key.pointsFrom (written ++ prior)
  /-- A zone that is new is the narrowest candidate of an address that was written. -/
  created : ∀ other, server.hasZone other = false → after.hasZone other = true →
    ∃ name ∈ RRset.reverseNamesOf written,
      (zoneCandidates name).head? = some (DomainName.relative other)
  /-- Where the policy asks for no reverse names no other zone is different. -/
  unasked : policy.autoPtr = false → ∀ other, ¬SameZone other zone →
    after.zone? other = server.zone? other

namespace Sandbox.Setup

variable {setup : Setup} {request : ApplyRequest} {box : Sandbox}

/-- What a run writes, and the record sets that it finds in that place.  Nothing counts as written
unless both batches go through. -/
inductive Wrote (setup : Setup) (request : ApplyRequest) (box : Sandbox) :
    List RRset → List RRset → Prop
  | nothing
      (unsent : ∀ before prepared deleted replaced, setup.Prepares request box before prepared →
        ¬setup.applier.Sent request prepared box deleted replaced) :
      Wrote setup request box [] []
  | batches {before : Snapshot} {prepared : Prepared} {deleted replaced : Sandbox}
      (prepares : setup.Prepares request box before prepared)
      (sent : setup.applier.Sent request prepared box deleted replaced) :
      Wrote setup request box prepared.batches.replaces prepared.reconciliation.prior

/-- The batches of a run are to its own zone. -/
theorem zone?_of_own {after : Nameserver} {other : String}
    (h : box.server.Served (setup.OwnRequest request box) after)
    (hother : ¬SameZone other request.zone) : after.zone? other = box.server.zone? other :=
  h.zone?_eq fun _ hrequest => by cases hrequest <;> exact hother

theorem hasZone_of_own {after : Nameserver} {other : String}
    (h : box.server.Served (setup.OwnRequest request box) after) :
    after.hasZone other = box.server.hasZone other := by
  cases hnew : box.server.hasZone other with
  | true => exact h.hasZone hnew
  | false =>
    refine Bool.eq_false_iff.mpr fun hzone => ?_
    obtain ⟨own, kind, hrequest, -⟩ := h.exists_create hnew hzone
    cases hrequest

end Sandbox.Setup

namespace Sandbox.Client

open Setup

variable {client : Client} {request : ApplyRequest} {box : Sandbox} {after : Nameserver}

/-- Nothing but its own zone is touched by a run that stops before the reverse names. -/
theorem framed_of_stopped (h : box.server.Served (client.OwnRequest request box) after) :
    box.server.Framed (client.policyFor request.zone) request.zone [] [] after where
  outside _ hother _ := zone?_of_own h hother
  known _ hzone := h.hasZone hzone
  pointers other hother := by
    rw [rrsetsOf, zone?_of_own h hother]
    rfl
  created _ hnew hzone := by
    rw [hasZone_of_own h, hnew] at hzone
    cases hzone
  unasked _ _ hother := zone?_of_own h hother

/-- What a pass after both batches leaves alone. -/
theorem framed_of_reversed {before : Snapshot} {prepared : Prepared} {changed : Nameserver}
    (hprepares : client.Prepares request box before prepared)
    (hown : box.server.Served (client.OwnRequest request box) changed)
    (hpass : changed.Served (prepared.ptrChanges.Requests InTree) after) :
    box.server.Framed (client.policyFor request.zone) request.zone prepared.batches.replaces
      prepared.reconciliation.prior after where
  outside other hother houtside := by
    rw [← zone?_of_own hown hother]
    refine hpass.zone?_eq fun _ hrequest hsame => houtside ?_
    exact (inTree_congr hsame).mpr (hrequest.hosted hosts_inTree)
  known _ hzone := hpass.hasZone (hown.hasZone hzone)
  pointers other hother := by
    have hkept : changed.rrsetsOf other = box.server.rrsetsOf other := by
      rw [rrsetsOf, zone?_of_own hown hother]
      rfl
    rw [← hkept]
    refine hpass.filter_rrsetsOf (p := fun key => !key.pointsFrom _)
      fun _ hrequest _ change hchange => ?_
    cases hrequest with
    | create => cases hchange
    | patch _ _ hallowed hnamed =>
      have hname : change.key.name ∈ RRset.reverseNamesOf
          (prepared.batches.replaces ++ prepared.reconciliation.prior) := by
        have hnames := hnamed change hchange
        rw [reverseNames, List.filterMap_append, List.mem_append] at hnames
        rw [RRset.reverseNamesOf_append, List.mem_append]
        exact hnames.imp Prepared.mem_reverseNamesOf_of_come Prepared.mem_reverseNamesOf_of_gone
      simp [RRsetKey.pointsFrom, (hallowed change hchange).type, hname]
  created other hnew hzone := by
    rw [← hasZone_of_own hown] at hnew
    obtain ⟨own, kind, hrequest, hsame⟩ := hpass.exists_create hnew hzone
    cases hrequest with
    | @create name _ _ hcome hnarrowest =>
      refine ⟨name, Prepared.mem_reverseNamesOf_of_come hcome, ?_⟩
      rw [show DomainName.relative other = DomainName.relative own from hsame,
        (isReverse_of_mem_reverseNames hcome).relative_candidate
          (List.mem_of_mem_head? hnarrowest)]
      exact hnarrowest
  unasked hauto other hother := by
    rw [hprepares.ptrChanges_isEmpty hauto] at hpass
    rw [← zone?_of_own hown hother]
    exact hpass.zone?_eq fun _ hrequest => absurd hrequest PtrChanges.not_requests_nil

/-- **Beside its own zone a run touches only pointers of addresses that it wrote or found,**
however it ends and whatever is refused on the way. -/
theorem run_framed (client : Client) (request : ApplyRequest) (box : Sandbox) :
    ∃ written prior, client.Wrote request box written prior ∧
      box.server.Framed (client.policyFor request.zone) request.zone written prior
        (client.run request box).2.server := by
  cases client.run_asked request box with
  | stopped hunsent hown => exact ⟨[], [], .nothing hunsent, framed_of_stopped hown⟩
  | reversed hprepares hsent hown hpass =>
    exact ⟨_, _, .batches hprepares hsent, framed_of_reversed hprepares hown hpass⟩

end Sandbox.Client

end ZoneKeeper
