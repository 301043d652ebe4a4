/-
The runs of a request, case by case.

A run is a sequence of steps of which each may be the last: it fetches and reconciles, sends
the deletions, sends the replacements, turns to reverse names and appends to the history.
`Ran` lists where it can end and what the steps before that did, and `perform_ran` says that
nothing else happens.  Nothing is said here of what the services do.

What a run would send follows from the zone as it is: the serial has to be the one that the
caller saw, every row has to be usable, and the rest is the reconciliation.
-/
import ZoneKeeper.Proofs.Reconciliation
import ZoneKeeper.Apply

namespace ZoneKeeper

/-! ### Running one step after another -/

section Steps

variable {ε σ α β : Type}

/-- What a step that may fail does from a state. -/
def runFrom (x : ExceptT ε (StateM σ) α) (s : σ) : Except ε α × σ :=
  x.run.run s

theorem runFrom_bind (x : ExceptT ε (StateM σ) α) (f : α → ExceptT ε (StateM σ) β) (s : σ) :
    runFrom (x >>= f) s =
      match runFrom x s with
      | (.ok a, s') => runFrom (f a) s'
      | (.error e, s') => (.error e, s') := by
  show (ExceptT.bindCont f (runFrom x s).1).run (runFrom x s).2 = _
  obtain ⟨result, s'⟩ := runFrom x s
  cases result <;> rfl

theorem runFrom_mk_pure (result : Except ε α) (s : σ) :
    runFrom (ExceptT.mk (pure result) : ExceptT ε (StateM σ) α) s = (result, s) :=
  rfl

theorem runFrom_adapt {ε' : Type} (x : ExceptT ε (StateM σ) α) (f : ε → ε') (s : σ) :
    runFrom (x.adapt f) s = ((runFrom x s).1.mapError f, (runFrom x s).2) :=
  rfl

theorem runFrom_liftM (x : StateM σ α) (s : σ) :
    runFrom (liftM x : ExceptT ε (StateM σ) α) s = (.ok (x.run s).1, (x.run s).2) :=
  rfl

theorem stateM_run_bind (x : StateM σ α) (f : α → StateM σ β) (s : σ) :
    StateT.run (x >>= f) s = StateT.run (f (StateT.run x s).1) (StateT.run x s).2 :=
  rfl

end Steps

/-! ### What is prepared -/

/-- The failures before which nothing was changed. -/
def SyncError.isRefusal : SyncError → Bool
  | remoteApi .. | conflict .. | invalidRecord .. => true
  | partialFailure .. | autoPtr .. | history .. => false

theorem isRefusal_of_desiredRows_error {zone : String} {policy : Policy} {rows : List Row}
    {e : SyncError} (h : desiredRows zone policy rows = .error e) : e.isRefusal = true := by
  obtain ⟨row, -, hcheck⟩ := exists_of_mapM_error h
  unfold FlatRow.check at hcheck
  split at hcheck
  · obtain rfl := Except.error.inj hcheck
    rfl
  · contradiction

/-- What is prepared when these rows are desired of a zone as it is. -/
def Prepared.between (policy : Policy) (desired : List FlatRow) (before : Snapshot) : Prepared :=
  let reconciliation := Reconciliation.between policy desired before.rrsets
  ⟨policy, before.serial, reconciliation, reconciliation.batches policy⟩

namespace Applier

variable {policy : Policy} {request : ApplyRequest} {before : Snapshot}

theorem prepareFrom_eq (policy : Policy) (request : ApplyRequest) (before : Snapshot) :
    prepareFrom policy request before = do
      checkSerial request before.serial
      let desired ← desiredRows request.zone policy request.rows
      return Prepared.between policy desired before := by
  rw [prepareFrom, Reconciliation.reconcile_eq]
  cases checkSerial request before.serial <;> cases desiredRows request.zone policy request.rows <;>
    rfl

theorem checkSerial_error {serial : UInt32} {e : SyncError}
    (h : checkSerial request serial = .error e) : e.isRefusal = true := by
  unfold checkSerial at h
  split at h
  · split at h
    · contradiction
    · obtain rfl := Except.error.inj h
      rfl
  · contradiction

/-- Preparation succeeds only for the serial that the caller saw and for usable rows. -/
theorem eq_of_prepareFrom_ok {prepared : Prepared}
    (h : prepareFrom policy request before = .ok prepared) :
    checkSerial request before.serial = .ok () ∧
      ∃ desired, desiredRows request.zone policy request.rows = .ok desired ∧
        prepared = .between policy desired before := by
  rw [prepareFrom_eq] at h
  cases hserial : checkSerial request before.serial with
  | error e => simp [hserial, bind, Except.bind] at h
  | ok _ =>
    cases hdesired : desiredRows request.zone policy request.rows with
    | error e => simp [hserial, hdesired, bind, Except.bind] at h
    | ok desired =>
      simp only [hserial, hdesired, bind, Except.bind, pure, Except.pure, Except.ok.injEq] at h
      exact ⟨rfl, desired, rfl, h.symm⟩

theorem isRefusal_of_prepareFrom_error {e : SyncError}
    (h : prepareFrom policy request before = .error e) : e.isRefusal = true := by
  rw [prepareFrom_eq] at h
  cases hserial : checkSerial request before.serial with
  | error e' =>
    obtain rfl : e' = e := by simpa [hserial, bind, Except.bind] using h
    exact checkSerial_error hserial
  | ok _ =>
    cases hdesired : desiredRows request.zone policy request.rows with
    | error e' =>
      obtain rfl : e' = e := by simpa [hserial, hdesired, bind, Except.bind] using h
      exact isRefusal_of_desiredRows_error hdesired
    | ok desired => simp [hserial, hdesired, bind, Except.bind, pure, Except.pure] at h

end Applier

/-! ### Where a run can end -/

/-- The history record of a run. -/
def Prepared.record (prepared : Prepared) (request : ApplyRequest) (timestamp : Timestamp) :
    HistoryRecord where
  zone := request.zone
  added := prepared.batches.replaces
  removed := prepared.reconciliation.prior
  actor := request.actor
  timestamp := timestamp

namespace Applier

variable {σ : Type}

/-- The states that a run goes through up to and including its replacements. -/
structure Sent (applier : Applier (StateM σ)) (request : ApplyRequest) (prepared : Prepared)
    (start deleted replaced : σ) : Prop where
  batches : prepared.batches.isEmpty = false
  delete : runFrom (applier.sendBatch request.zone .delete prepared.batches.deleteChanges) start =
    (.ok (), deleted)
  replace : runFrom (applier.sendBatch request.zone .replace prepared.batches.replaceChanges)
    deleted = (.ok (), replaced)

/-- A run of a request from `s`: its result and the state it leaves. -/
inductive Ran (applier : Applier (StateM σ)) (request : ApplyRequest) (s : σ) :
    Except SyncError ApplySummary → σ → Prop
  /-- Nothing is sent, because there is no zone, the serial is stale or a row is unusable. -/
  | unprepared {e : SyncError} {s₁ : σ}
      (prepare : runFrom (applier.prepare request) s = (.error e, s₁)) :
      Ran applier request s (.error e) s₁
  /-- Nothing is sent, because nothing has to change. -/
  | settled {prepared : Prepared} {s₁ : σ}
      (prepare : runFrom (applier.prepare request) s = (.ok prepared, s₁))
      (batches : prepared.batches.isEmpty = true) :
      Ran applier request s (.ok ⟨request.zone, 0, 0, none⟩) s₁
  /-- The deletions are refused. -/
  | undeleted {prepared : Prepared} {e : SyncError} {s₁ s₂ : σ}
      (prepare : runFrom (applier.prepare request) s = (.ok prepared, s₁))
      (batches : prepared.batches.isEmpty = false)
      (delete : runFrom (applier.sendBatch request.zone .delete prepared.batches.deleteChanges)
        s₁ = (.error e, s₂)) :
      Ran applier request s (.error e) s₂
  /-- The replacements are refused, after deletions or without any. -/
  | unreplaced {prepared : Prepared} {e : SyncError} {s₁ s₂ s₃ : σ}
      (prepare : runFrom (applier.prepare request) s = (.ok prepared, s₁))
      (batches : prepared.batches.isEmpty = false)
      (delete : runFrom (applier.sendBatch request.zone .delete prepared.batches.deleteChanges)
        s₁ = (.ok (), s₂))
      (replace : runFrom (applier.sendBatch request.zone .replace prepared.batches.replaceChanges)
        s₂ = (.error e, s₃)) :
      Ran applier request s
        (.error (replaceFailure request.zone prepared.batches.deletes.length e)) s₃
  /-- The zone is changed, but the history takes no record of it. -/
  | unrecorded {prepared : Prepared} {reversed : Except SyncError (Option PtrReport)}
      {time : Timestamp} {e : SyncError} {s₁ s₂ s₃ s₄ s₅ s₆ : σ}
      (prepare : runFrom (applier.prepare request) s = (.ok prepared, s₁))
      (sent : applier.Sent request prepared s₁ s₂ s₃)
      (reverse : (applier.syncReverse request.zone prepared.ptrChanges).run s₃ = (reversed, s₄))
      (now : applier.services.now.run s₄ = (time, s₅))
      (persist : (applier.services.persist (prepared.record request time)).run s₅ =
        (.error e, s₆)) :
      Ran applier request s (.error e) s₆
  /-- The zone is changed and recorded, and what became of the reverse names is told. -/
  | recorded {prepared : Prepared} {reversed : Except SyncError (Option PtrReport)}
      {time : Timestamp} {s₁ s₂ s₃ s₄ s₅ s₆ : σ}
      (prepare : runFrom (applier.prepare request) s = (.ok prepared, s₁))
      (sent : applier.Sent request prepared s₁ s₂ s₃)
      (reverse : (applier.syncReverse request.zone prepared.ptrChanges).run s₃ = (reversed, s₄))
      (now : applier.services.now.run s₄ = (time, s₅))
      (persist : (applier.services.persist (prepared.record request time)).run s₅ =
        (.ok (), s₆)) :
      Ran applier request s
        (reversed.map fun autoPtr =>
          ⟨request.zone, prepared.batches.deletes.length, prepared.batches.replaces.length,
            autoPtr⟩) s₆

/-- **Every run ends in one of these ways.** -/
theorem perform_ran (applier : Applier (StateM σ)) (request : ApplyRequest) (s : σ) :
    Ran applier request s (runFrom (applier.perform request) s).1
      (runFrom (applier.perform request) s).2 := by
  unfold perform
  rw [runFrom_bind]
  rcases hprepare : runFrom (applier.prepare request) s with ⟨_ | prepared, s₁⟩
  · exact .unprepared hprepare
  cases hbatches : prepared.batches.isEmpty with
  | true =>
    simp only [hbatches, if_true]
    exact .settled hprepare hbatches
  | false =>
    simp only [hbatches, Bool.false_eq_true, if_false]
    rw [runFrom_bind]
    rcases hdelete : runFrom
      (applier.sendBatch request.zone .delete prepared.batches.deleteChanges) s₁ with ⟨_ | _, s₂⟩
    · exact .undeleted hprepare hbatches hdelete
    simp only []
    rw [runFrom_bind, runFrom_adapt]
    rcases hreplace : runFrom
      (applier.sendBatch request.zone .replace prepared.batches.replaceChanges) s₂ with ⟨_ | _, s₃⟩
    · exact .unreplaced hprepare hbatches hdelete hreplace
    have hsent : applier.Sent request prepared s₁ s₂ s₃ := ⟨hbatches, hdelete, hreplace⟩
    simp only [Except.mapError]
    rw [runFrom_bind, runFrom_liftM]
    rcases hreverse : (applier.syncReverse request.zone prepared.ptrChanges).run s₃ with
      ⟨reversed, s₄⟩
    simp only []
    rw [runFrom_bind, runFrom_liftM]
    rcases hnow : applier.services.now.run s₄ with ⟨time, s₅⟩
    simp only []
    rw [runFrom_bind]
    rcases hpersist : (applier.services.persist (prepared.record request time)).run s₅ with
      ⟨_ | _, s₆⟩
    · have hrun : runFrom (ExceptT.mk (applier.services.persist (prepared.record request time)))
        s₅ = (.error _, s₆) := hpersist
      unfold Prepared.record at hrun
      rw [hrun]
      exact .unrecorded hprepare hsent hreverse hnow hpersist
    · have hrun : runFrom (ExceptT.mk (applier.services.persist (prepared.record request time)))
        s₅ = (.ok _, s₆) := hpersist
      unfold Prepared.record at hrun
      rw [hrun]
      simp only []
      rw [runFrom_bind, runFrom_mk_pure]
      have h := Ran.recorded hprepare hsent hreverse hnow hpersist
      cases reversed with
      | error e => exact h
      | ok autoPtr => exact h

end Applier

end ZoneKeeper
