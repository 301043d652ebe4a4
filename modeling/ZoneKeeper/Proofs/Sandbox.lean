/-
What the services of a sandbox do to it.

A sandbox leaves open which failures are laid out, what the calendar shows, how the history
is kept, which policies there are and how reverse zones are made.  `Setup` chooses all of it,
and what is proved here holds of every choice:

  * what is prepared follows from the zone as it is, and preparing changes nothing,
  * a batch that goes through changes the zone and nothing else of the nameserver,
  * a batch that does not go through changes nothing of it at all.

A history that appends a record or fails without a trace is said by `Recording`; the
sandbox's own is one.
-/
import ZoneKeeper.Proofs.Nameserver
import ZoneKeeper.Proofs.Apply
import ZoneKeeper.Sandbox

namespace ZoneKeeper

/-! ### Setups -/

/-- What a sandbox leaves open about its runs. -/
structure Sandbox.Setup where
  faults : Faults
  now : Timestamp
  /-- The history: how a record is appended to it. -/
  store : HistoryRecord → StateM Sandbox (Except SyncError Unit)
  policyFor : (zone : String) → Policy
  reverseZones : ReverseZoneTemplate

namespace Sandbox.Setup

/-- The services of the sandbox, with the history of the setup. -/
def services (setup : Setup) : Services (StateM Sandbox) :=
  { Sandbox.services setup.faults setup.now with persist := setup.store }

/-- What applies desired records in the sandbox. -/
def applier (setup : Setup) : Applier (StateM Sandbox) :=
  ⟨setup.services, setup.policyFor, setup.reverseZones⟩

/-- One run of a request, from a sandbox to its result and the sandbox that it leaves. -/
@[irreducible]
def run (setup : Setup) (request : ApplyRequest) (box : Sandbox) :
    Except SyncError ApplySummary × Sandbox :=
  StateT.run (setup.applier.apply request) box

/-- The history appends a record, or fails and is as it was. -/
def Recording (setup : Setup) : Prop :=
  ∀ record box,
    StateT.run (setup.store record) box =
        (.ok (), { box with history := box.history ++ [record] }) ∨
      ∃ reason, StateT.run (setup.store record) box = (.error (.history reason), box)

/-- The sandbox's own history is one, as long as it is in order. -/
theorem recording_of_persist {setup : Setup} (hstore : setup.store = Sandbox.persist setup.faults)
    (hfaults : setup.faults.history = none) : setup.Recording := by
  intro record box
  left
  rw [hstore, Sandbox.persist, hfaults]
  rfl

/-- The setup without failures, at the beginning of 1970 and with one policy for all zones. -/
def plain (policy : Policy) : Setup where
  faults := .none
  now := .epoch
  store := Sandbox.persist .none
  policyFor _ := policy
  reverseZones := .default

theorem recording_plain (policy : Policy) : (plain policy).Recording :=
  recording_of_persist rfl rfl

end Sandbox.Setup

/-- A sandbox with one zone. -/
def Sandbox.serving (zone : String) (rrsets : List RRset) : Sandbox :=
  .ofServer (Nameserver.empty.insertZone zone 1 rrsets)

/-! ### Requests to the nameserver -/

namespace Sandbox

/-- Two sandboxes that differ at most in the metrics and in what the nameserver remembers of
the requests for patches. -/
structure Alike (box after : Sandbox) : Prop where
  server : box.server.Untouched after.server
  history : after.history = box.history

theorem Alike.refl (box : Sandbox) : Alike box box :=
  ⟨.refl _, rfl⟩

/-- From one sandbox to another, one zone comes to be `snapshot`, and that is all. -/
structure Moved (box after : Sandbox) (zone : String) (snapshot : Snapshot) : Prop where
  server : box.server.Moved after.server zone snapshot
  history : after.history = box.history

/-- Sandboxes that agree on the nameserver and the history are alike. -/
theorem Alike.of_eq {box after : Sandbox} (hserver : after.server = box.server)
    (hhistory : after.history = box.history) : Alike box after :=
  ⟨hserver ▸ .refl _, hhistory⟩

theorem Alike.trans {box middle after : Sandbox} (h₁ : Alike box middle)
    (h₂ : Alike middle after) : Alike box after :=
  ⟨⟨h₂.server.zones.trans h₁.server.zones, h₂.server.created.trans h₁.server.created⟩,
    h₂.history.trans h₁.history⟩

theorem Moved.trans {box middle after : Sandbox} {zone : String} {step snapshot : Snapshot}
    (h₁ : Moved box middle zone step) (h₂ : Moved middle after zone snapshot) :
    Moved box after zone snapshot :=
  ⟨h₁.server.trans h₂.server, h₂.history.trans h₁.history⟩

theorem Moved.trans_alike {box middle after : Sandbox} {zone : String} {snapshot : Snapshot}
    (h₁ : Moved box middle zone snapshot) (h₂ : Alike middle after) :
    Moved box after zone snapshot :=
  ⟨h₁.server.trans_untouched h₂.server, h₂.history.trans h₁.history⟩

variable {faults : Faults} {kind : RequestKind} {zone : String} {box after : Sandbox}

/-- A query changes nothing, and its answer is the nameserver's unless it is refused. -/
theorem query_run {α : Type} {answer : Nameserver → Except ApiError α} {result : Except ApiError α}
    (h : StateT.run (query faults kind zone answer) box = (result, after)) :
    after = box ∧ ((faults.requests.lookup (kind, zone) = none ∧ result = answer box.server) ∨
      ∃ e, result = .error e) := by
  unfold query at h
  cases hfault : faults.requests.lookup (kind, zone) with
  | none =>
    simp only [hfault] at h
    obtain ⟨rfl, rfl⟩ := Prod.mk.inj h
    exact ⟨rfl, Or.inl ⟨rfl, rfl⟩⟩
  | some e =>
    simp only [hfault] at h
    obtain ⟨rfl, rfl⟩ := Prod.mk.inj h
    exact ⟨rfl, Or.inr ⟨e, rfl⟩⟩

/-- A command is refused before it does anything, or does what the nameserver does. -/
theorem command_run {act : Nameserver → Except ApiError Unit × Nameserver}
    {result : Except ApiError Unit}
    (h : StateT.run (command faults kind zone act) box = (result, after)) :
    (after = box ∧ ∃ e, result = .error e) ∨
      ∃ server, act box.server = (result, server) ∧ after = { box with server } := by
  unfold command at h
  cases hfault : faults.requests.lookup (kind, zone) with
  | none =>
    simp only [hfault] at h
    obtain ⟨rfl, rfl⟩ := Prod.mk.inj h
    exact Or.inr ⟨_, rfl, rfl⟩
  | some e =>
    simp only [hfault] at h
    obtain ⟨rfl, rfl⟩ := Prod.mk.inj h
    exact Or.inl ⟨rfl, e, rfl⟩

namespace Setup

variable {setup : Setup}

@[simp]
theorem applier_services : setup.applier.services = setup.services := rfl

theorem fetchZone_run {result : Except ApiError Snapshot}
    (h : StateT.run (setup.services.fetchZone zone) box = (result, after)) :
    after = box ∧ ((setup.faults.requests.lookup (.fetch, zone) = none ∧
      result = box.server.fetch zone) ∨ ∃ e, result = .error e) := by
  change StateT.run (query setup.faults .fetch zone fun server => server.fetch zone) box = _ at h
  exact query_run h

theorem zoneExists_run {result : Except ApiError Bool}
    (h : StateT.run (setup.services.zoneExists zone) box = (result, after)) :
    after = box ∧ ((setup.faults.requests.lookup (.probe, zone) = none ∧
      result = .ok (box.server.hasZone zone)) ∨ ∃ e, result = .error e) := by
  change StateT.run (query setup.faults .probe zone fun server => .ok (server.hasZone zone)) box =
    _ at h
  exact query_run h

theorem patchRRsets_run {changes : List Change} {result : Except ApiError Unit}
    (h : StateT.run (setup.services.patchRRsets zone changes) box = (result, after)) :
    (after = box ∧ ∃ e, result = .error e) ∨
      ∃ server, box.server.patch zone changes = (result, server) ∧
        after = { box with server } := by
  change StateT.run (command setup.faults .patch zone fun server => server.patch zone changes) box =
    _ at h
  exact command_run h

theorem createZone_run {type : String} {masters : List String} {result : Except ApiError Unit}
    (h : StateT.run (setup.services.createZone zone type masters) box = (result, after)) :
    (after = box ∧ ∃ e, result = .error e) ∨
      ∃ server, box.server.create zone type = (result, server) ∧ after = { box with server } := by
  change StateT.run (command setup.faults .create zone fun server => server.create zone type) box =
    _ at h
  exact command_run h

/-- The history has one record more, or it is as it was and says so. -/
theorem persist_run {record : HistoryRecord} {result : Except SyncError Unit}
    (hstore : setup.Recording)
    (h : StateT.run (setup.services.persist record) box = (result, after)) :
    after.server = box.server ∧ match result with
      | .ok () => after.history = box.history ++ [record]
      | .error e => after.history = box.history ∧ ∃ reason, e = .history reason := by
  change StateT.run (setup.store record) box = _ at h
  rcases hstore record box with hkept | ⟨reason, hkept⟩
  · rw [hkept] at h
    obtain ⟨rfl, rfl⟩ := Prod.mk.inj h
    exact ⟨rfl, rfl⟩
  · rw [hkept] at h
    obtain ⟨rfl, rfl⟩ := Prod.mk.inj h
    exact ⟨rfl, rfl, reason, rfl⟩

end Setup

end Sandbox

/-! ### The steps of a run -/

namespace Sandbox.Setup

variable {setup : Setup} {request : ApplyRequest} {zone : String} {box after : Sandbox}

/-- The zone can be fetched, and this is prepared for the request from the zone as it is. -/
structure Prepares (setup : Setup) (request : ApplyRequest) (box : Sandbox) (before : Snapshot)
    (prepared : Prepared) : Prop where
  fetched : setup.faults.requests.lookup (.fetch, request.zone) = none
  zone : box.server.zone? request.zone = some before
  prepare : Applier.prepareFrom (setup.policyFor request.zone) request before = .ok prepared

theorem runFrom_ask {α : Type} (action : StateM Sandbox (Except ApiError α)) :
    runFrom (Applier.ask zone action) box =
      ((StateT.run action box).1.mapError (.ofApi zone), (StateT.run action box).2) :=
  rfl

theorem isRefusal_ofApi (zone : String) (e : ApiError) :
    (SyncError.ofApi zone e).isRefusal = true := rfl

/-- Preparing changes nothing.  What is prepared comes from the zone as it is, and a failure
to prepare is a refusal. -/
theorem prepare_run {result : Except SyncError Prepared}
    (h : runFrom (setup.applier.prepare request) box = (result, after)) :
    after = box ∧ match result with
      | .ok prepared => ∃ before, setup.Prepares request box before prepared
      | .error e => e.isRefusal = true := by
  rw [Applier.prepare, runFrom_bind, runFrom_ask, applier_services] at h
  rcases hfetch : StateT.run (setup.services.fetchZone request.zone) box with ⟨answer, fetched⟩
  obtain ⟨rfl, hanswer⟩ := fetchZone_run hfetch
  rw [hfetch] at h
  cases answer with
  | error e =>
    obtain ⟨rfl, rfl⟩ := Prod.mk.inj h
    exact ⟨rfl, isRefusal_ofApi _ _⟩
  | ok before =>
    obtain ⟨hfault, hzone⟩ : setup.faults.requests.lookup (.fetch, request.zone) = none ∧
        fetched.server.zone? request.zone = some before := by
      rcases hanswer with ⟨hfault, hanswer⟩ | ⟨e, hanswer⟩
      · unfold Nameserver.fetch at hanswer
        split at hanswer
        · next found hfound => exact ⟨hfault, by rw [hfound, Except.ok.inj hanswer]⟩
        · contradiction
      · contradiction
    obtain ⟨hresult, rfl⟩ := Prod.mk.inj h
    refine ⟨rfl, ?_⟩
    cases result with
    | ok prepared => exact ⟨before, hfault, hzone, hresult⟩
    | error e => exact Applier.isRefusal_of_prepareFrom_error hresult

/-- Where the zone can be fetched, what is prepared follows from it. -/
theorem runFrom_prepare_of_zone {before : Snapshot}
    (hfetch : setup.faults.requests.lookup (.fetch, request.zone) = none)
    (hzone : box.server.zone? request.zone = some before) :
    runFrom (setup.applier.prepare request) box =
      (Applier.prepareFrom (setup.policyFor request.zone) request before, box) := by
  have hanswer : StateT.run (setup.services.fetchZone request.zone) box = (.ok before, box) := by
    change StateT.run (query setup.faults .fetch request.zone fun server =>
      server.fetch request.zone) box = _
    simp only [query, hfetch]
    change (box.server.fetch request.zone, box) = _
    rw [Nameserver.fetch, hzone]
  rw [Applier.prepare, runFrom_bind, runFrom_ask, applier_services, hanswer]
  rfl

theorem runFrom_prepare {before : Snapshot} {prepared : Prepared}
    (h : setup.Prepares request box before prepared) :
    runFrom (setup.applier.prepare request) box = (.ok prepared, box) := by
  rw [runFrom_prepare_of_zone h.fetched h.zone, h.prepare]

/-- A batch that goes through, or is not sent because it is empty, changes the zone as it says
and nothing else.  A batch that does not go through changes nothing. -/
theorem sendBatch_run {type : ChangeType} {changes : List Change} {before : Snapshot}
    {result : Except SyncError Unit} (hzone : box.server.zone? zone = some before)
    (h : runFrom (setup.applier.sendBatch zone type changes) box = (result, after)) :
    match result with
    | .ok () => box.Moved after zone (before.after changes) ∧ (changes = [] → after = box)
    | .error e => box.Alike after ∧ e.isRefusal = true ∧ changes ≠ [] := by
  unfold Applier.sendBatch at h
  cases hempty : changes.isEmpty with
  | true =>
    simp only [hempty, if_true] at h
    obtain ⟨rfl, rfl⟩ := Prod.mk.inj h
    rw [Snapshot.after, hempty]
    exact ⟨⟨.refl hzone, rfl⟩, fun _ => rfl⟩
  | false =>
    simp only [hempty, Bool.false_eq_true, if_false] at h
    rw [runFrom_bind, runFrom_ask, applier_services] at h
    rcases hpatch : StateT.run (setup.services.patchRRsets zone changes) box with ⟨answer, patched⟩
    rw [hpatch] at h
    cases answer with
    | error e =>
      obtain ⟨rfl, rfl⟩ := Prod.mk.inj h
      refine ⟨?_, isRefusal_ofApi _ _, by simpa using hempty⟩
      rcases patchRRsets_run hpatch with ⟨rfl, -⟩ | ⟨server, hserver, rfl⟩
      · exact .refl _
      · exact ⟨Nameserver.untouched_of_patch_error hserver, rfl⟩
    | ok _ =>
      obtain ⟨rfl, rfl⟩ := Prod.mk.inj h
      rcases patchRRsets_run hpatch with ⟨-, e, hrefused⟩ | ⟨server, hserver, rfl⟩
      · contradiction
      · rw [Snapshot.after, hempty]
        exact ⟨⟨Nameserver.moved_of_patch_ok hzone hserver, rfl⟩,
          fun hnil => absurd hnil (by simpa using hempty)⟩

/-- Nothing but the metrics comes before and after the run itself. -/
theorem run_ran (setup : Setup) (request : ApplyRequest) (box : Sandbox) :
    ∃ final, setup.applier.Ran request box (setup.run request box).1 final ∧
      (setup.run request box).2.server = final.server ∧
      (setup.run request box).2.history = final.history := by
  refine ⟨(runFrom (setup.applier.perform request) box).2, ?_⟩
  have hran := setup.applier.perform_ran request box
  rcases hperform : runFrom (setup.applier.perform request) box with ⟨result, final⟩
  rw [hperform] at hran
  -- the first reading of the clock leaves the sandbox as it is
  have hresult : StateT.run (ExceptT.run (setup.applier.perform request))
      (StateT.run setup.applier.services.clock box).2 = (result, final) := hperform
  unfold run Applier.apply
  rw [stateM_run_bind, stateM_run_bind, hresult]
  cases result with
  | ok summary => exact ⟨hran, rfl, rfl⟩
  | error e => exact ⟨hran, rfl, rfl⟩

end Sandbox.Setup

end ZoneKeeper
