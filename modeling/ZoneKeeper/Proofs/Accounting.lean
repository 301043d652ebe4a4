/-
Metrics account for what happened.

What is seen of a call is its result, what the nameserver was asked for and what was added to its
catalog, and what the call got done.  Every call counts itself once and a failure once more, and
besides exactly what it got done.  So over any number of calls every counter goes up by a sum over
the calls, whatever fails in them and wherever they end.
-/
import ZoneKeeper.Proofs.Bookings
import ZoneKeeper.Proofs.Replay

namespace ZoneKeeper

open Sandbox.Setup

/-! ### What a call counts -/

/-- The series of runs, whatever their outcome. -/
def Series.isOfRuns : Series → Bool
  | applies _ => true
  | _ => false

/-- What is counted of a result: the run, and the failure if it is one. -/
def resultEntries (result : Except SyncError ApplySummary) : List (Series × Nat) :=
  (.applies (Applier.outcomeLabel result), 1) ::
    match result with
    | .ok _ => []
    | .error e => [(.errors e.kind, 1)]

/-- What is seen of a call. -/
structure Seen extends Deeds where
  result : Except SyncError ApplySummary
  /-- The patches that the nameserver was asked for in the call. -/
  patches : List PatchCall
  /-- The zones that were added to the catalog in the call, with their kinds. -/
  created : List (String × String)

namespace Seen

/-- The call is counted under this outcome. -/
def hasOutcome (outcome : String) (seen : Seen) : Bool :=
  Applier.outcomeLabel seen.result = outcome

/-- The call failed in this way. -/
def failedAs (kind : String) (seen : Seen) : Bool :=
  match seen.result with
  | .ok _ => false
  | .error e => e.kind = kind

/-- The call succeeded without a patch. -/
def isIdle (seen : Seen) : Bool :=
  seen.result.isOk && seen.patches.isEmpty

/-- What is counted in the call. -/
def entries (seen : Seen) : List (Series × Nat) :=
  seen.toDeeds.entries seen.created.length ++ resultEntries seen.result

end Seen

namespace Call

/-- What is seen of a call. -/
def seen (call : Call) (box : Sandbox) : Seen where
  toDeeds := call.setup.applier.deeds call.request box
  result := (call.run box).1
  patches := (call.run box).2.server.patches.drop box.server.patches.length
  created := (call.run box).2.server.created.drop box.server.created.length

/-- What is seen of calls, one after another. -/
def seenAll : List Call → Sandbox → List Seen
  | [], _ => []
  | call :: calls, box => call.seen box :: seenAll calls (call.run box).2

end Call

namespace Metrics

variable (among : Series → Bool)

theorem booked_batchEntries (type : ChangeType) (changes : List Change) :
    booked among (batchEntries type changes) =
      if among (.rrsetsPatched type.label) then changes.length else 0 := by
  cases changes with
  | nil => simp [batchEntries, booked]
  | cons change rest => simp [batchEntries, booked]

theorem booked_reportEntries (report : Option PtrReport) :
    booked among (reportEntries report) =
      (if among (.ptrOperations "add") then report.elim 0 PtrReport.added else 0) +
        if among (.ptrOperations "delete") then report.elim 0 PtrReport.deleted else 0 := by
  cases report <;> simp [reportEntries, booked]

theorem booked_resultEntries (result : Except SyncError ApplySummary) :
    booked among (resultEntries result) =
      (if among (.applies (Applier.outcomeLabel result)) then 1 else 0) +
        match result with
        | .ok _ => 0
        | .error e => if among (.errors e.kind) then 1 else 0 := by
  cases result <;> simp [resultEntries, booked]

/-- What is counted in a call, by the series that it goes to. -/
theorem booked_entries (seen : Seen) :
    booked among seen.entries =
      (if among (.rrsetsPatched "DELETE") then seen.deleted.length else 0) +
      (if among (.rrsetsPatched "REPLACE") then seen.replaced.length else 0) +
      ((if among .reverseZonesCreated then seen.created.length else 0) +
        ((if among (.ptrOperations "add") then seen.report.elim 0 PtrReport.added else 0) +
          if among (.ptrOperations "delete") then seen.report.elim 0 PtrReport.deleted else 0)) +
      ((if among (.applies (Applier.outcomeLabel seen.result)) then 1 else 0) +
        match seen.result with
        | .ok _ => 0
        | .error e => if among (.errors e.kind) then 1 else 0) := by
  rw [Seen.entries, Deeds.entries, booked_append, booked_append, booked_append, booked_append,
    booked_batchEntries, booked_batchEntries, foundingEntries, booked_replicate,
    booked_reportEntries, booked_resultEntries, Nat.mul_one]
  rfl

end Metrics

/-! ### One call -/

theorem SyncError.kind_ne (e : SyncError) : e.kind ≠ "ok" ∧ e.kind ≠ "noop" := by
  cases e <;> simp [kind]

namespace Applier

theorem outcomeLabel_ok_eq_noop_iff {summary : ApplySummary} :
    outcomeLabel (.ok summary) = "noop" ↔ summary.isNoop = true := by
  rw [outcomeLabel]
  split <;> simp [*]

end Applier

/-- Under the kind of a failure the calls are counted that fail so, and no others. -/
theorem Seen.hasOutcome_kind (e : SyncError) : hasOutcome e.kind = failedAs e.kind := by
  funext seen
  rw [hasOutcome, failedAs]
  cases seen.result with
  | error other => rfl
  | ok summary =>
    rw [decide_eq_false_iff_not, Applier.outcomeLabel]
    split
    · exact e.kind_ne.2.symm
    · exact e.kind_ne.1.symm

namespace Metrics

/-- Every call is counted under one outcome. -/
theorem booked_isOfRuns (seen : Seen) : booked Series.isOfRuns seen.entries = 1 := by
  rw [booked_entries]
  cases seen.result <;> simp [Series.isOfRuns]

theorem booked_applies (outcome : String) (seen : Seen) :
    booked (fun other => other = .applies outcome) seen.entries =
      if seen.hasOutcome outcome then 1 else 0 := by
  rw [booked_entries, Seen.hasOutcome]
  cases seen.result <;> simp

theorem booked_errors (kind : String) (seen : Seen) :
    booked (fun other => other = .errors kind) seen.entries =
      if seen.failedAs kind then 1 else 0 := by
  rw [booked_entries, Seen.failedAs]
  cases seen.result <;> simp

end Metrics

namespace Sandbox.Setup

variable {setup : Setup} {request : ApplyRequest} {box after s₂ s₃ : Sandbox} {prepared : Prepared}

/-- Where both batches go through, something was asked for. -/
theorem patches_lt_of_sent (h : setup.applier.Sent request prepared box s₂ s₃) :
    box.server.patches.length < s₃.server.patches.length := by
  by_cases hdeletes : prepared.batches.deletes = []
  · have hreplaces : prepared.batches.replaces ≠ [] := by
      simpa [Batches.isEmpty, hdeletes] using h.batches
    exact (booked_sendBatch h.delete).server.patches.length_le.trans_lt
      (patches_lt_of_sendBatch (by simpa [Batches.replaceChanges] using hreplaces) h.replace)
  · exact (patches_lt_of_sendBatch (by simpa [Batches.deleteChanges] using hdeletes)
      h.delete).trans_le (booked_sendBatch h.replace).server.patches.length_le

/-- A run is counted as idle exactly if it succeeds without a patch. -/
theorem outcomeLabel_run_eq_noop_iff (hapart : setup.KeptApart) (request : ApplyRequest)
    (box : Sandbox) :
    Applier.outcomeLabel (setup.run request box).1 = "noop" ↔
      (setup.run request box).1.isOk = true ∧
        (setup.run request box).2.server.patches.length ≤ box.server.patches.length := by
  obtain ⟨final, hran, hserver, -⟩ := setup.run_ran request box
  rw [hserver]
  generalize (setup.run request box).1 = result at hran
  have hfailed : ∀ e : SyncError, (Applier.outcomeLabel (.error e) = "noop" ↔
      (Except.error e : Except SyncError ApplySummary).isOk = true ∧
        final.server.patches.length ≤ box.server.patches.length) := fun e =>
    iff_of_false e.kind_ne.2 fun h => Bool.false_ne_true h.1
  cases hran with
  | unprepared => exact hfailed _
  | settled hprepare hbatches =>
    obtain ⟨rfl, -⟩ := prepare_run hprepare
    exact iff_of_true rfl ⟨rfl, Nat.le_refl _⟩
  | undeleted => exact hfailed _
  | unreplaced => exact hfailed _
  | unrecorded => exact hfailed _
  | @recorded prepared reversed _ _ _ _ _ _ _ hprepare hsent hreverse hnow hpersist =>
    obtain ⟨rfl, -⟩ := prepare_run hprepare
    cases hnow
    cases reversed with
    | error e => exact hfailed e
    | ok autoPtr =>
      obtain ⟨_, hreversed⟩ := booked_syncReverse hreverse
      have hlonger := (patches_lt_of_sent hsent).trans_le
        (hreversed.quiet (booked_persist hapart hpersist)).server.patches.length_le
      refine iff_of_false (fun hnoop => ?_) fun h => absurd h.2 (Nat.not_le.mpr hlonger)
      have hidle := Applier.outcomeLabel_ok_eq_noop_iff.mp hnoop
      rw [isNoop_of_batches hsent.batches] at hidle
      cases hidle

/-- A run that succeeds tells what it got done. -/
theorem deeds_of_ok {summary : ApplySummary} (hok : (setup.run request box).1 = .ok summary) :
    summary.deleted = (setup.applier.deeds request box).deleted.length ∧
      summary.replaced = (setup.applier.deeds request box).replaced.length ∧
      summary.autoPtr = (setup.applier.deeds request box).report := by
  obtain ⟨final, hran, -⟩ := setup.run_ran request box
  rw [hok] at hran
  generalize hresult : Except.ok summary = result at hran
  cases hran with
  | unprepared => cases hresult
  | settled hprepare hbatches =>
    cases hresult
    obtain ⟨rfl, before, hprepares⟩ := prepare_run hprepare
    rw [Applier.deeds_of_settled hprepare hbatches (hprepares.ptrChanges_of_isEmpty hbatches)]
    exact ⟨rfl, rfl, rfl⟩
  | undeleted => cases hresult
  | unreplaced => cases hresult
  | unrecorded => cases hresult
  | @recorded prepared reversed _ _ _ _ _ _ _ hprepare hsent hreverse =>
    rw [Applier.deeds_of_sent hprepare hsent hreverse]
    cases reversed with
    | error e => cases hresult
    | ok autoPtr =>
      cases hresult
      exact ⟨(List.length_map _).symm, (List.length_map _).symm, rfl⟩

/-- **A run counts itself and what it gets done.** -/
theorem run_books (hapart : setup.KeptApart) (request : ApplyRequest) (box : Sandbox) :
    ∃ founded, box.server.Enlarged founded (setup.run request box).2.server ∧
      (setup.run request box).2.metrics =
        (box.metrics.book ((setup.applier.deeds request box).entries founded ++
          resultEntries (setup.run request box).1)).observe
            (Applier.outcomeLabel (setup.run request box).1) 0 := by
  have hran := setup.applier.perform_ran request box
  rcases hperform : runFrom (setup.applier.perform request) box with ⟨result, final⟩
  rw [hperform] at hran
  obtain ⟨founded, hbooked⟩ := booked_of_ran hapart hran
  refine ⟨founded, ?_⟩
  rw [Metrics.book_append, ← hbooked.metrics]
  -- the first reading of the clock leaves the sandbox as it is
  have hresult : StateT.run (ExceptT.run (setup.applier.perform request))
      (StateT.run setup.applier.services.clock box).2 = (result, final) := hperform
  unfold run Applier.apply
  rw [stateM_run_bind, stateM_run_bind, hresult]
  cases result with
  | ok summary => exact ⟨hbooked.server, rfl⟩
  | error e => exact ⟨hbooked.server, rfl⟩

end Sandbox.Setup

/-! ### Calls one after another -/

/-- The counts in a list come to as many as there are of the kind. -/
theorem sum_map_ite {α : Type} (p : α → Bool) (xs : List α) :
    (xs.map fun x => if p x then 1 else 0).sum = xs.countP p := by
  induction xs with
  | nil => rfl
  | cons x xs ih => rw [List.map_cons, List.sum_cons, ih, List.countP_cons, Nat.add_comm]

/-- Between two sandboxes the metrics account for what was seen of the calls between them. -/
structure Sandbox.Accounted (box : Sandbox) (calls : List Seen) (after : Sandbox) : Prop where
  /-- Every call is counted once, under one outcome. -/
  runs : after.metrics.total Series.isOfRuns = box.metrics.total Series.isOfRuns + calls.length
  /-- Every call is timed once. -/
  timed : after.metrics.durations.length = box.metrics.durations.length + calls.length
  /-- A kind of failure is counted as an outcome and as an error, for every call that fails so. -/
  failures : ∀ e : SyncError,
    after.metrics.value (.applies e.kind) =
        box.metrics.value (.applies e.kind) + calls.countP (Seen.failedAs e.kind) ∧
      after.metrics.value (.errors e.kind) =
        box.metrics.value (.errors e.kind) + calls.countP (Seen.failedAs e.kind)
  /-- Idle are the calls that succeed without a patch. -/
  idle : after.metrics.value (.applies "noop") =
    box.metrics.value (.applies "noop") + calls.countP Seen.isIdle
  /-- What was deleted and replaced is counted, also of calls that failed later. -/
  deleted : after.metrics.value (.rrsetsPatched "DELETE") =
    box.metrics.value (.rrsetsPatched "DELETE") + (calls.map fun seen => seen.deleted.length).sum
  replaced : after.metrics.value (.rrsetsPatched "REPLACE") =
    box.metrics.value (.rrsetsPatched "REPLACE") + (calls.map fun seen => seen.replaced.length).sum
  /-- The zones that were created are those that the catalog has more. -/
  created : after.metrics.value .reverseZonesCreated =
    box.metrics.value .reverseZonesCreated + (calls.map fun seen => seen.created.length).sum
  catalog : after.server.zones.length =
    box.server.zones.length + (calls.map fun seen => seen.created.length).sum
  /-- Reverse names are counted as they are reported by the passes that were completed. -/
  pointersAdded : after.metrics.value (.ptrOperations "add") =
    box.metrics.value (.ptrOperations "add") +
      (calls.map fun seen => seen.report.elim 0 PtrReport.added).sum
  pointersDeleted : after.metrics.value (.ptrOperations "delete") =
    box.metrics.value (.ptrOperations "delete") +
      (calls.map fun seen => seen.report.elim 0 PtrReport.deleted).sum
  /-- Calls that succeed tell what was done. -/
  told : ∀ seen ∈ calls, ∀ summary, seen.result = .ok summary →
    summary.deleted = seen.deleted.length ∧ summary.replaced = seen.replaced.length ∧
      summary.autoPtr = seen.report
  /-- What is shown stays exact up to 53 bits. -/
  shown : box.metrics.ShowsTotals → after.metrics.ShowsTotals

namespace Call

variable {call : Call} {calls : List Call} {box : Sandbox}

/-- What holds of every call that is seen. -/
theorem forall_mem_seenAll {P : Seen → Prop} (h : ∀ call ∈ calls, ∀ box, P (call.seen box))
    (box : Sandbox) : ∀ seen ∈ seenAll calls box, P seen := by
  induction calls generalizing box with
  | nil => simp [seenAll]
  | cons call rest ih =>
    obtain ⟨hcall, hrest⟩ := List.forall_mem_cons.mp h
    exact List.forall_mem_cons.mpr ⟨hcall box, ih hrest (call.run box).2⟩

theorem length_seenAll (calls : List Call) (box : Sandbox) :
    (seenAll calls box).length = calls.length := by
  induction calls generalizing box with
  | nil => rfl
  | cons call rest ih => rw [seenAll, List.length_cons, List.length_cons, ih]

/-- **A call leaves the metrics with the counts of what is seen of it,** and with its time. -/
theorem books_run (hapart : call.setup.KeptApart) (box : Sandbox) :
    (call.run box).2.metrics = (box.metrics.book (call.seen box).entries).observe
        (Applier.outcomeLabel (call.seen box).result) 0 ∧
      (call.run box).2.server.zones.length =
        box.server.zones.length + (call.seen box).created.length := by
  obtain ⟨founded, henlarged, hmetrics⟩ := run_books hapart call.request box
  have hfounded : (call.seen box).created.length = founded := by
    rw [seen, run, List.length_drop, henlarged.created, Nat.add_sub_cancel_left]
  rw [hfounded]
  refine ⟨?_, henlarged.zones⟩
  rw [Seen.entries, hfounded]
  exact hmetrics

/-- The calls that are counted as idle are those that succeed without a patch. -/
theorem isIdle_seen (hapart : call.setup.KeptApart) (box : Sandbox) :
    (call.seen box).isIdle = true ↔ Applier.outcomeLabel (call.seen box).result = "noop" := by
  rw [Seen.isIdle, Bool.and_eq_true, List.isEmpty_iff, seen, List.drop_eq_nil_iff]
  exact (outcomeLabel_run_eq_noop_iff hapart call.request box).symm

/-- **What calls add to a reading is the sum of what is counted in each of them.** -/
theorem read_leave {read : Metrics → Nat} {among : Series → Bool}
    (hreads : Metrics.Reads read among) (hapart : ∀ call ∈ calls, call.setup.KeptApart)
    (box : Sandbox) :
    read (leave calls box).metrics = read box.metrics +
      ((seenAll calls box).map fun seen => Metrics.booked among seen.entries).sum := by
  induction calls generalizing box with
  | nil => rfl
  | cons call rest ih =>
    obtain ⟨hcall, hrest⟩ := List.forall_mem_cons.mp hapart
    rw [leave, ih hrest, (books_run hcall box).1, hreads.observe, hreads.book, seenAll,
      List.map_cons, List.sum_cons, Nat.add_assoc]

/-- A reading to which every call adds its share. -/
theorem read_leave_eq {read : Metrics → Nat} {among : Series → Bool} {share : Seen → Nat}
    (hreads : Metrics.Reads read among) (hapart : ∀ call ∈ calls, call.setup.KeptApart)
    (hshare : ∀ seen : Seen, Metrics.booked among seen.entries = share seen) (box : Sandbox) :
    read (leave calls box).metrics =
      read box.metrics + ((seenAll calls box).map share).sum := by
  rw [read_leave hreads hapart, funext hshare]

/-- A series that every call of a kind raises by one. -/
theorem value_leave_eq {series : Series} {counts : Seen → Bool}
    (hapart : ∀ call ∈ calls, call.setup.KeptApart)
    (hcounts : ∀ seen : Seen, Metrics.booked (fun other => other = series) seen.entries =
      if counts seen then 1 else 0) (box : Sandbox) :
    (leave calls box).metrics.value series =
      box.metrics.value series + (seenAll calls box).countP counts := by
  rw [read_leave_eq (Metrics.reads_value series) hapart hcounts, sum_map_ite]

theorem length_durations_leave (hapart : ∀ call ∈ calls, call.setup.KeptApart) (box : Sandbox) :
    (leave calls box).metrics.durations.length = box.metrics.durations.length + calls.length := by
  induction calls generalizing box with
  | nil => rfl
  | cons call rest ih =>
    obtain ⟨hcall, hrest⟩ := List.forall_mem_cons.mp hapart
    rw [leave, ih hrest, (books_run hcall box).1, Metrics.observe, List.length_append,
      Metrics.durations_book, List.length_singleton, List.length_cons, Nat.add_right_comm,
      Nat.add_assoc]

theorem length_zones_leave (hapart : ∀ call ∈ calls, call.setup.KeptApart) (box : Sandbox) :
    (leave calls box).server.zones.length = box.server.zones.length +
      ((seenAll calls box).map fun seen => seen.created.length).sum := by
  induction calls generalizing box with
  | nil => rfl
  | cons call rest ih =>
    obtain ⟨hcall, hrest⟩ := List.forall_mem_cons.mp hapart
    rw [leave, ih hrest, (books_run hcall box).2, seenAll, List.map_cons, List.sum_cons,
      Nat.add_assoc]

theorem showsTotals_leave (hapart : ∀ call ∈ calls, call.setup.KeptApart)
    (h : box.metrics.ShowsTotals) : (leave calls box).metrics.ShowsTotals := by
  induction calls generalizing box with
  | nil => exact h
  | cons call rest ih =>
    obtain ⟨hcall, hrest⟩ := List.forall_mem_cons.mp hapart
    refine ih hrest ?_
    rw [(books_run hcall box).1]
    exact Metrics.showsTotals_book h _

/-- **Metrics account for what happened,** over any calls and whatever fails in them. -/
theorem accounted_leave (calls : List Call) (hapart : ∀ call ∈ calls, call.setup.KeptApart)
    (box : Sandbox) : box.Accounted (seenAll calls box) (leave calls box) where
  runs := by
    rw [read_leave_eq (Metrics.reads_total _) hapart Metrics.booked_isOfRuns, List.map_const',
      List.sum_replicate_nat, Nat.mul_one]
  timed := by rw [length_durations_leave hapart, length_seenAll]
  failures e := by
    rw [← Seen.hasOutcome_kind]
    refine ⟨value_leave_eq hapart (Metrics.booked_applies e.kind) box, ?_⟩
    rw [Seen.hasOutcome_kind]
    exact value_leave_eq hapart (Metrics.booked_errors e.kind) box
  idle := by
    rw [value_leave_eq hapart (Metrics.booked_applies "noop")]
    refine congrArg (_ + ·) (List.countP_congr ?_)
    refine forall_mem_seenAll (fun call hcall box => ?_) box
    rw [isIdle_seen (hapart call hcall)]
    exact decide_eq_true_iff
  deleted := read_leave_eq (Metrics.reads_value _) hapart
    (fun seen => by cases h : seen.result <;> simp [Metrics.booked_entries, h]) box
  replaced := read_leave_eq (Metrics.reads_value _) hapart
    (fun seen => by cases h : seen.result <;> simp [Metrics.booked_entries, h]) box
  created := read_leave_eq (Metrics.reads_value _) hapart
    (fun seen => by cases h : seen.result <;> simp [Metrics.booked_entries, h]) box
  catalog := length_zones_leave hapart box
  pointersAdded := read_leave_eq (Metrics.reads_value _) hapart
    (fun seen => by cases h : seen.result <;> simp [Metrics.booked_entries, h]) box
  pointersDeleted := read_leave_eq (Metrics.reads_value _) hapart
    (fun seen => by cases h : seen.result <;> simp [Metrics.booked_entries, h]) box
  told := forall_mem_seenAll (fun _ _ _ _ hok => deeds_of_ok hok) box
  shown := showsTotals_leave hapart

/-- An address comes, and the reverse zone that is created for it refuses its patch.  When the call
is made again, nothing is left to do. -/
theorem accounted_leave_retried :
    let setup := plain ⟨false, true, [.named .a]⟩
    let calls : List Call := [⟨setup, oneAddress⟩, ⟨setup, oneAddress⟩]
    let box : Sandbox := .ofServer ((Nameserver.empty.insertZone "example.com" 1 []).failPatch 1)
    let after := leave calls box
    (∀ call ∈ calls, call.setup.KeptApart) ∧ box.Accounted (seenAll calls box) after ∧
      after.metrics.value (.applies "noop") = 1 ∧ after.metrics.value (.errors "auto_ptr") = 1 ∧
      after.metrics.value (.rrsetsPatched "REPLACE") = 1 ∧
      after.metrics.value .reverseZonesCreated = 1 ∧ after.server.zones.length = 2 ∧
      after.metrics.value (.ptrOperations "add") = 0 := by
  intro setup calls box after
  have hapart : ∀ call ∈ calls, call.setup.KeptApart := by
    have hplain : setup.KeptApart := (recording_plain _).keptApart
    exact List.forall_mem_cons.mpr ⟨hplain, List.forall_mem_singleton.mpr hplain⟩
  exact ⟨hapart, accounted_leave calls hapart box, by decide +kernel⟩

end Call

end ZoneKeeper
