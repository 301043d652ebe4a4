/-
What decides the outcome of a run.

Where no failures are laid out, four things are asked, one after another: that the zone exists,
that it has the serial the caller saw, that every row can be used, and, if reverse names are kept,
that every address that goes away is one.  The first that is not so makes the failure of the run,
and each makes a failure of its own kind.  If all of them hold the run succeeds.

So a run is never refused over something that it did itself: its batches name no record set twice,
the zones that it patches exist and those that it creates do not.  That is said by its agreement
with the strict run, which has no result if a patch or a creation is refused.
-/
import ZoneKeeper.Proofs.DesiredRows
import ZoneKeeper.Proofs.Refusal
import ZoneKeeper.Proofs.ReverseRemoval
import ZoneKeeper.Proofs.ValidReplacements

namespace ZoneKeeper

open ReverseName

/-! ### What is asked of a request -/

namespace ApplyRequest

/-- The zone exists. -/
def Known (request : ApplyRequest) (box : Sandbox) : Prop :=
  box.Serves request.zone

/-- The zone has the serial that the caller saw, if the caller said. -/
def Current (request : ApplyRequest) (box : Sandbox) : Prop :=
  ∀ before ∈ box.server.zone? request.zone, ∀ serial ∈ request.serial, serial = before.serial

/-- Every row has a content that its type can hold, rows for the start of authority apart. -/
def Usable (request : ApplyRequest) : Prop :=
  ∀ row ∈ request.rows, row.type ≠ .named .soa →
    row.type.contentFault? (row.content request.zone) = none

/-- If reverse names are kept, every value of an address record that was there before and is not
written again is an address. -/
def Readable (request : ApplyRequest) (policy : Policy) (box : Sandbox) : Prop :=
  policy.autoPtr = true → ∀ before ∈ box.server.zone? request.zone, ∀ r,
    reconcile request.zone policy request.rows before.rrsets = .ok r →
      ∀ prior ∈ r.prior, prior.type.isAddress = true →
        ∀ value ∈ PtrChanges.goneValues (r.batches policy).replaces prior,
          (Address.ofString? (Text.trim value.content)).isSome = true

/-- What a request comes to, by the first of the four conditions that does not hold. -/
inductive Verdict (request : ApplyRequest) (policy : Policy) (box : Sandbox) :
    Except SyncError ApplySummary → Prop
  | unknown {message : String} (unknown : ¬request.Known box) :
      Verdict request policy box (.error (.remoteApi request.zone message))
  | stale {submitted current : UInt32} (known : request.Known box) (stale : ¬request.Current box) :
      Verdict request policy box (.error (.conflict request.zone submitted current))
  | unusable {name reason : String} (known : request.Known box) (current : request.Current box)
      (unusable : ¬request.Usable) :
      Verdict request policy box (.error (.invalidRecord name reason))
  | unreadable {message : String} (known : request.Known box) (current : request.Current box)
      (usable : request.Usable) (unreadable : ¬request.Readable policy box) :
      Verdict request policy box (.error (.autoPtr request.zone message))
  | accepted {summary : ApplySummary} (known : request.Known box) (current : request.Current box)
      (usable : request.Usable) (readable : request.Readable policy box) :
      Verdict request policy box (.ok summary)

/-- Each kind of result comes of exactly one of the cases. -/
structure Decided (request : ApplyRequest) (policy : Policy) (box : Sandbox)
    (result : Except SyncError ApplySummary) : Prop where
  ok : (∃ summary, result = .ok summary) ↔
    request.Known box ∧ request.Current box ∧ request.Usable ∧ request.Readable policy box
  remoteApi : (∃ message, result = .error (.remoteApi request.zone message)) ↔ ¬request.Known box
  conflict : (∃ submitted current, result = .error (.conflict request.zone submitted current)) ↔
    request.Known box ∧ ¬request.Current box
  invalidRecord : (∃ name reason, result = .error (.invalidRecord name reason)) ↔
    request.Known box ∧ request.Current box ∧ ¬request.Usable
  autoPtr : (∃ message, result = .error (.autoPtr request.zone message)) ↔
    request.Known box ∧ request.Current box ∧ request.Usable ∧ ¬request.Readable policy box

theorem known_of_zone? {request : ApplyRequest} {box : Sandbox} {before : Snapshot}
    (hzone : box.server.zone? request.zone = some before) : request.Known box :=
  Option.isSome_iff_exists.mpr ⟨before, hzone⟩

theorem current_iff {request : ApplyRequest} {box : Sandbox} {before : Snapshot}
    (hzone : box.server.zone? request.zone = some before) :
    request.Current box ↔ ∀ serial ∈ request.serial, serial = before.serial := by
  simp [Current, hzone]

theorem Verdict.decided {request : ApplyRequest} {policy : Policy} {box : Sandbox}
    {result : Except SyncError ApplySummary} (h : request.Verdict policy box result) :
    request.Decided policy box result := by
  cases h with
  | unknown hunknown => constructor <;> simp [hunknown]
  | stale hknown hstale => constructor <;> simp [hknown, hstale]
  | unusable hknown hcurrent hunusable => constructor <;> simp [hknown, hcurrent, hunusable]
  | unreadable hknown hcurrent husable hunreadable =>
    constructor <;> simp [hknown, hcurrent, husable, hunreadable]
  | accepted hknown hcurrent husable hreadable =>
    constructor <;> simp [hknown, hcurrent, husable, hreadable]

end ApplyRequest

/-! ### What is prepared -/

/-- Either every row can be used, or the failure is about one that cannot. -/
theorem desiredRows_cases (policy : Policy) (request : ApplyRequest) :
    (∃ desired, desiredRows request.zone policy request.rows = .ok desired ∧ request.Usable) ∨
      ∃ name reason, desiredRows request.zone policy request.rows =
        .error (.invalidRecord name reason) ∧ ¬request.Usable := by
  cases hdesired : desiredRows request.zone policy request.rows with
  | ok desired =>
    refine Or.inl ⟨desired, rfl, fun row hrow htype => ?_⟩
    have hmem : row ∈ request.rows.filter fun row => row.type ≠ .named .soa :=
      List.mem_filter.mpr ⟨hrow, by simpa using htype⟩
    obtain ⟨checked, -, hcheck⟩ := exists_of_mapM_ok hdesired hmem
    exact (FlatRow.check_eq_ok_iff.mp hcheck).1
  | error e =>
    obtain ⟨row, hrow, hcheck⟩ := exists_of_mapM_error hdesired
    obtain ⟨hmem, htype⟩ := List.mem_filter.mp hrow
    unfold FlatRow.check at hcheck
    split at hcheck
    · next fault hfault =>
      obtain rfl := Except.error.inj hcheck
      refine Or.inr ⟨_, _, rfl, fun husable => ?_⟩
      have hnone := husable row hmem (by simpa using htype)
      exact absurd (hfault.symm.trans hnone) (by simp)
    · cases hcheck

/-- Either the serial is the one that the caller saw, or the failure names both. -/
theorem Applier.checkSerial_cases (request : ApplyRequest) (current : UInt32) :
    (checkSerial request current = .ok () ∧ ∀ serial ∈ request.serial, serial = current) ∨
      ∃ submitted, checkSerial request current = .error (.conflict request.zone submitted current) ∧
        submitted ∈ request.serial ∧ submitted ≠ current := by
  unfold checkSerial
  cases hserial : request.serial with
  | none => exact Or.inl ⟨rfl, by simp⟩
  | some submitted =>
    by_cases hsame : submitted = current
    · exact Or.inl ⟨by simp [hsame], by simpa using hsame⟩
    · exact Or.inr ⟨submitted, by simp [hsame], rfl, hsame⟩

/-! ### Which addresses have reverse names -/

theorem ofContent?_isSome {content : String} :
    (∃ name, ofContent? content = some name) ↔
      (Address.ofString? (Text.trim content)).isSome = true := by
  unfold ofContent?
  cases Address.ofString? (Text.trim content) <;> simp

namespace Reconciliation

variable {policy : Policy} {desired : List FlatRow} {current : List RRset}

/-- Where nothing is sent, no record set of addresses was to be replaced. -/
theorem isAddress_of_isEmpty (hdesired : ∀ row ∈ desired, row.changeType = .replace)
    (hempty : ((between policy desired current).batches policy).isEmpty = true) {prior : RRset}
    (hprior : prior ∈ (between policy desired current).prior) : prior.type.isAddress = false := by
  refine Bool.eq_false_iff.mpr fun haddress => ?_
  obtain ⟨hdeletes, hreplaces⟩ : ((between policy desired current).batches policy).deletes = [] ∧
      ((between policy desired current).batches policy).replaces = [] := by
    simpa [Batches.isEmpty] using hempty
  obtain ⟨-, htouched⟩ := touched_of_mem_prior (steadyAt_of_isAddress hdesired haddress) hprior
  simp [hdeletes, hreplaces] at htouched

end Reconciliation

namespace Sandbox.Setup

variable {setup : Setup} {request : ApplyRequest} {box : Sandbox} {before : Snapshot}
  {prepared : Prepared}

/-- Every address that is written has a reverse name. -/
theorem exists_name_of_addition (hprepares : setup.Prepares request box before prepared) :
    ∀ target ∈ prepared.ptrChanges.additions, ∃ name, ofContent? target.address = some name := by
  intro target htarget
  obtain ⟨desired, hdesired, rfl⟩ := hprepares.eq_between
  obtain ⟨-, w, hw, htype, value, hvalue, rfl⟩ := Prepared.mem_additions.mp htarget
  exact ((Reconciliation.valid_of_mem_replaces hdesired hw).suitable value hvalue).exists_name htype

/-- Where there is nothing to send, no address comes or goes. -/
theorem Prepares.ptrChanges_of_isEmpty (h : setup.Prepares request box before prepared)
    (hempty : prepared.batches.isEmpty = true) : prepared.ptrChanges.isEmpty = true := by
  obtain ⟨desired, hdesired, rfl⟩ := h.eq_between
  refine Prepared.ptrChanges_of_no_address (fun w hw => ?_) fun prior hprior => ?_
  · have hnone : (Prepared.between (setup.policyFor request.zone) desired before).batches.replaces =
        [] := by
      simpa [Batches.isEmpty] using (Bool.and_eq_true_iff.mp hempty).2
    rw [hnone] at hw
    contradiction
  · exact Reconciliation.isAddress_of_isEmpty (Reconciliation.changeType_of_desired hdesired) hempty
      hprior

/-- The condition on the addresses that go away is about the removals of the run. -/
theorem readable_iff (hprepares : setup.Prepares request box before prepared) :
    request.Readable (setup.policyFor request.zone) box ↔
      ∀ target ∈ prepared.ptrChanges.removals, ∃ name, ofContent? target.address = some name := by
  obtain ⟨desired, hdesired, rfl⟩ := hprepares.eq_between
  have hreconcile : reconcile request.zone (setup.policyFor request.zone) request.rows
      before.rrsets = .ok (.between (setup.policyFor request.zone) desired before.rrsets) := by
    rw [Reconciliation.reconcile_eq, hdesired]
    rfl
  constructor
  · intro hreadable target htarget
    obtain ⟨hauto, prior, hprior, htype, value, hvalue, rfl⟩ := Prepared.mem_removals.mp htarget
    exact ofContent?_isSome.mpr
      (hreadable hauto before hprepares.zone _ hreconcile prior hprior htype value hvalue)
  · intro hnames hauto found hfound r hr prior hprior htype value hvalue
    obtain rfl := Option.some.inj (hprepares.zone.symm.trans hfound)
    obtain rfl := Except.ok.inj (hreconcile.symm.trans hr)
    exact ofContent?_isSome.mp (hnames (prior.ptrTarget value)
      (Prepared.mem_removals.mpr ⟨hauto, prior, hprior, htype, value, hvalue, rfl⟩))

/-- A request that was prepared meets the first three conditions. -/
theorem conditions_of_prepares (hprepares : setup.Prepares request box before prepared) :
    request.Known box ∧ request.Current box ∧ request.Usable := by
  obtain ⟨hserial, desired, hdesired, -⟩ := Applier.eq_of_prepareFrom_ok hprepares.prepare
  refine ⟨ApplyRequest.known_of_zone? hprepares.zone, ?_, ?_⟩
  · rcases Applier.checkSerial_cases request before.serial with ⟨-, hcurrent⟩ | ⟨_, hconflict, -⟩
    · exact (ApplyRequest.current_iff hprepares.zone).mpr hcurrent
    · cases hserial.symm.trans hconflict
  · rcases desiredRows_cases (setup.policyFor request.zone) request with
      ⟨-, -, husable⟩ | ⟨_, _, hinvalid, -⟩
    · exact husable
    · cases hdesired.symm.trans hinvalid

/-! ### Nothing is refused -/

/-- A batch that names no record set twice goes through. -/
theorem strict_sendBatch (h : setup.Faultless) (hfailing : box.server.failing = []) {zone : String}
    (hzone : box.server.zone? zone = some before) (type : ChangeType) {changes : List Change}
    (hnodup : (changes.map Change.key).Nodup) :
    Answers (setup.strictApplier.sendBatch zone type changes).run box fun result after =>
      runFrom (setup.applier.sendBatch zone type changes) box = (.ok (), after) ∧
        result = .ok () ∧ after.server.failing = [] := by
  have hstrict : Answers (setup.strictApplier.sendBatch zone type changes).run box
      fun result after => result = .ok () ∧ after.server.failing = [] := by
    unfold Applier.sendBatch
    cases hempty : changes.isEmpty with
    | true => exact answers_pure ⟨rfl, hfailing⟩
    | false =>
      simp only [Bool.false_eq_true, if_false]
      have hpatch := h.patchRRsets_run (Nameserver.patch_of_nodup hfailing hzone hnodup)
      refine answers_run_bind (answers_run_adapt (x := ExceptT.mk _) (answers_insist hpatch ?_))
      refine answers_run_liftM (answers_permit fun _ after hcount => ?_)
      cases hcount
      exact ⟨rfl, hfailing⟩
  refine ((setup.heeds.sendBatch zone type changes).answers hstrict).mono ?_
  rintro _ after ⟨hrun, rfl, hfailing⟩
  exact ⟨hrun, rfl, hfailing⟩

/-- Both batches of a run go through. -/
theorem strict_batches (h : setup.Faultless) (hfailing : box.server.failing = [])
    (hprepares : setup.Prepares request box before prepared) :
    Answers (setup.strictApplier.sendBatch request.zone .delete prepared.batches.deleteChanges).run
      box fun result deleted =>
        runFrom (setup.applier.sendBatch request.zone .delete prepared.batches.deleteChanges) box =
          (.ok (), deleted) ∧ result = .ok () ∧
        Answers (setup.strictApplier.sendBatch request.zone .replace
            prepared.batches.replaceChanges).run deleted fun result replaced =>
          runFrom (setup.applier.sendBatch request.zone .replace prepared.batches.replaceChanges)
            deleted = (.ok (), replaced) ∧ result = .ok () ∧ replaced.server.failing = [] := by
  have hdeletes : (prepared.batches.deleteChanges.map Change.key).Nodup := by
    rw [Batches.map_key_deleteChanges]
    exact hprepares.wellFormed.deletes_nodup
  have hreplaces : (prepared.batches.replaceChanges.map Change.key).Nodup := by
    rw [Batches.map_key_replaceChanges]
    exact hprepares.wellFormed.replaces_nodup
  refine (strict_sendBatch h hfailing hprepares.zone .delete hdeletes).mono ?_
  rintro _ deleted ⟨hdelete, rfl, hfailing⟩
  have hzone := (sendBatch_run hprepares.zone hdelete).1.server.own
  exact ⟨hdelete, rfl, strict_sendBatch h hfailing hzone .replace hreplaces⟩

/-- Both batches of a run are accepted. -/
theorem exists_of_batches (h : setup.Faultless) (hfailing : box.server.failing = [])
    (hprepares : setup.Prepares request box before prepared) :
    ∃ deleted replaced,
      runFrom (setup.applier.sendBatch request.zone .delete prepared.batches.deleteChanges) box =
        (.ok (), deleted) ∧
      runFrom (setup.applier.sendBatch request.zone .replace prepared.batches.replaceChanges)
        deleted = (.ok (), replaced) ∧ replaced.server.failing = [] := by
  obtain ⟨_, deleted, -, hdelete, -, _, replaced, -, hreplace, -, hfailing⟩ :=
    strict_batches h hfailing hprepares
  exact ⟨deleted, replaced, hdelete, hreplace, hfailing⟩

/-- What is asked about reverse names fails only over a target that has no address. -/
theorem strict_syncReverse (h : setup.Faultless) (hfailing : box.server.failing = [])
    (zone : String) (changes : PtrChanges) :
    Answers (setup.strictApplier.syncReverse zone changes) box fun result _ =>
      (∃ report, result = .ok report) ↔ ∀ target ∈ changes.additions ++ changes.removals,
        ∃ name, ofContent? target.address = some name := by
  unfold Applier.syncReverse
  cases hempty : changes.isEmpty with
  | true =>
    obtain ⟨hadditions, hremovals⟩ : changes.additions = [] ∧ changes.removals = [] := by
      simpa [PtrChanges.isEmpty] using hempty
    exact answers_pure (by simp [hadditions, hremovals])
  | false =>
    simp only [Bool.false_eq_true, if_false]
    have hsync : ReverseSync.Ends [] box
        (ReverseSync.sync setup.strictServices setup.reverseZones zone changes)
        (fun _ _ _ => ∀ target ∈ changes.additions ++ changes.removals,
          ∃ name, ofContent? target.address = some name)
        fun _ _ _ => ReverseSync.Unreadable changes :=
      ReverseSync.ends_adapt (ReverseSync.strict_pass h hfailing changes)
    refine answers_bind (Answers.mono hsync fun out after hend => answers_pure ?_)
    obtain ⟨result, known⟩ := out
    cases result with
    | ok report => exact ⟨fun _ => hend, fun _ => ⟨some report, rfl⟩⟩
    | error e =>
      obtain ⟨target, htarget, hnone⟩ := hend
      refine ⟨fun hok => ?_, fun hnames => ?_⟩
      · obtain ⟨_, hok⟩ := hok
        cases hok
      · obtain ⟨name, hname⟩ := hnames target htarget
        cases hnone.symm.trans hname

/-- What is asked about reverse names fails only over a target that has no address. -/
theorem syncReverse_isOk_iff (h : setup.Faultless) (hfailing : box.server.failing = [])
    {zone : String} {changes : PtrChanges} {result : Except SyncError (Option PtrReport)}
    {after : Sandbox}
    (hrun : StateT.run (setup.applier.syncReverse zone changes) box = (result, after)) :
    (∃ report, result = .ok report) ↔ ∀ target ∈ changes.additions ++ changes.removals,
      ∃ name, ofContent? target.address = some name := by
  obtain ⟨_, _, -, hplain, hiff⟩ :=
    (setup.heeds.syncReverse zone changes).answers (strict_syncReverse h hfailing zone changes)
  cases hrun.symm.trans hplain
  exact hiff

theorem strict_perform (h : setup.Faultless) (hfailing : box.server.failing = [])
    (request : ApplyRequest) :
    Answers (setup.strictApplier.perform request).run box fun _ _ => True := by
  have hprepare : Answers (setup.strictApplier.prepare request).run box fun _ _ => True := by
    refine answers_run_bind (answers_run_adapt (x := ExceptT.mk _)
      (answers_permit fun result _ _ => ?_))
    cases result with
    | ok before => exact answers_pure trivial
    | error e => trivial
  unfold Applier.perform
  refine answers_run_bind (((setup.heeds.prepare request).answers hprepare).mono ?_)
  rintro result _ ⟨hrun, -⟩
  cases result with
  | error e => trivial
  | ok prepared =>
    obtain ⟨rfl, before, hprepares⟩ := prepare_run hrun
    cases hempty : prepared.batches.isEmpty with
    | true =>
      simp only [hempty, if_true]
      exact answers_pure trivial
    | false =>
      simp only [hempty, Bool.false_eq_true, if_false]
      refine answers_run_bind ((strict_batches h hfailing hprepares).mono ?_)
      rintro _ deleted ⟨-, rfl, hreplace⟩
      refine answers_run_bind (answers_run_adapt (hreplace.mono ?_))
      rintro _ replaced ⟨-, rfl, hfailing⟩
      have hreverse := strict_syncReverse h hfailing request.zone prepared.ptrChanges
      refine answers_run_bind (answers_run_liftM (hreverse.mono fun reversed _ _ => ?_))
      refine answers_run_bind (answers_run_liftM (answers_permit fun _ _ _ => ?_))
      refine answers_run_bind (x := ExceptT.mk _) (answers_permit fun result _ _ => ?_)
      cases result with
      | error e => trivial
      | ok _ =>
        refine answers_run_bind (x := ExceptT.mk _) (answers_pure ?_)
        cases reversed with
        | error e => trivial
        | ok report => exact answers_pure trivial

/-- The strict run has the result of the run, so nothing was refused. -/
theorem strictRun_eq (h : setup.Faultless) (hfailing : box.server.failing = [])
    (request : ApplyRequest) : setup.strictRun request box = some (setup.run request box) := by
  have hstrict : Answers (setup.strictApplier.apply request) box fun _ _ => True := by
    -- around the run itself there are only clocks and metrics, which refuse nothing
    unfold Applier.apply
    refine answers_bind (answers_permit fun _ _ hclock => ?_)
    cases hclock
    refine answers_bind ((strict_perform h hfailing request).mono fun result _ _ => ?_)
    refine answers_bind (answers_permit fun _ _ _ => ?_)
    refine answers_bind (answers_permit fun _ _ _ => ?_)
    refine answers_bind (answers_permit fun _ _ _ => ?_)
    cases result with
    | ok summary => exact answers_pure trivial
    | error e => exact answers_bind (answers_permit fun _ _ _ => answers_pure trivial)
  obtain ⟨result, after, hrun, -⟩ := hstrict
  have hplain : StateT.run (setup.applier.apply request) box = (result, after) :=
    setup.heeds.apply request box _ hrun
  unfold strictRun run
  rw [hrun, hplain]
  rfl

/-! ### What a request comes to -/

/-- A request that cannot be prepared fails one of the first three conditions. -/
theorem verdict_of_unprepared (h : setup.Faultless) {e : SyncError} {after : Sandbox}
    (hrun : runFrom (setup.applier.prepare request) box = (.error e, after)) :
    request.Verdict (setup.policyFor request.zone) box (.error e) := by
  rw [Applier.prepare, runFrom_bind, runFrom_ask, applier_services, h.fetchZone_run,
    Nameserver.fetch] at hrun
  cases hzone : box.server.zone? request.zone with
  | none =>
    rw [hzone] at hrun
    cases hrun
    refine .unknown fun hknown => ?_
    obtain ⟨before, hbefore⟩ := Option.isSome_iff_exists.mp hknown
    cases hzone.symm.trans hbefore
  | some before =>
    rw [hzone] at hrun
    have hknown := ApplyRequest.known_of_zone? hzone
    have herror : Applier.prepareFrom (setup.policyFor request.zone) request before = .error e :=
      congrArg Prod.fst hrun
    rw [Applier.prepareFrom_eq] at herror
    rcases Applier.checkSerial_cases request before.serial with
      ⟨hserial, hcurrent⟩ | ⟨submitted, hserial, hsubmitted, hstale⟩
    · have hcurrent := (ApplyRequest.current_iff hzone).mpr hcurrent
      rw [hserial] at herror
      rcases desiredRows_cases (setup.policyFor request.zone) request with
        ⟨desired, hdesired, -⟩ | ⟨name, reason, hdesired, hunusable⟩
      · rw [hdesired] at herror
        cases herror
      · rw [hdesired] at herror
        cases herror
        exact .unusable hknown hcurrent hunusable
    · rw [hserial] at herror
      cases herror
      exact .stale hknown fun hcurrent =>
        hstale ((ApplyRequest.current_iff hzone).mp hcurrent submitted hsubmitted)

/-- A run in which nothing is refused comes to what the conditions say. -/
theorem run_verdict (h : setup.Faultless) (hfailing : box.server.failing = [])
    (request : ApplyRequest) :
    request.Verdict (setup.policyFor request.zone) box (setup.run request box).1 := by
  obtain ⟨final, hran, -, -⟩ := setup.run_ran request box
  generalize (setup.run request box).1 = result at hran ⊢
  cases hran with
  | unprepared hprepare => exact verdict_of_unprepared h hprepare
  | settled hprepare hbatches =>
    obtain ⟨rfl, before, hprepares⟩ := prepare_run hprepare
    obtain ⟨hknown, hcurrent, husable⟩ := conditions_of_prepares hprepares
    refine .accepted hknown hcurrent husable ((readable_iff hprepares).mpr fun target htarget => ?_)
    obtain ⟨desired, hdesired, rfl⟩ := hprepares.eq_between
    -- nothing is sent, so there is no removal whose address could be none
    obtain ⟨-, prior, hprior, htype, -⟩ := Prepared.mem_removals.mp htarget
    cases htype.symm.trans (Reconciliation.isAddress_of_isEmpty
      (Reconciliation.changeType_of_desired hdesired) hbatches hprior)
  | undeleted hprepare hbatches hdelete =>
    obtain ⟨rfl, before, hprepares⟩ := prepare_run hprepare
    obtain ⟨_, _, hdeleted, -⟩ := exists_of_batches h hfailing hprepares
    cases hdelete.symm.trans hdeleted
  | unreplaced hprepare hbatches hdelete hreplace =>
    obtain ⟨rfl, before, hprepares⟩ := prepare_run hprepare
    obtain ⟨_, _, hdeleted, hreplaced, -⟩ := exists_of_batches h hfailing hprepares
    cases hdelete.symm.trans hdeleted
    cases hreplace.symm.trans hreplaced
  | unrecorded hprepare hsent hreverse hnow hpersist =>
    cases hpersist.symm.trans (h.store _ _)
  | @recorded prepared reversed _ _ _ _ _ _ _ hprepare hsent hreverse hnow hpersist =>
    obtain ⟨rfl, before, hprepares⟩ := prepare_run hprepare
    obtain ⟨hknown, hcurrent, husable⟩ := conditions_of_prepares hprepares
    obtain ⟨_, _, hdeleted, hreplaced, hfailing⟩ := exists_of_batches h hfailing hprepares
    cases hsent.delete.symm.trans hdeleted
    cases hsent.replace.symm.trans hreplaced
    have hok := syncReverse_isOk_iff h hfailing hreverse
    rw [List.forall_mem_append, ← readable_iff hprepares,
      and_iff_right (exists_name_of_addition hprepares)] at hok
    cases reversed with
    | ok report => exact .accepted hknown hcurrent husable (hok.mp ⟨report, rfl⟩)
    | error e =>
      obtain ⟨message, rfl⟩ := (syncReverse_run hreverse).2 e rfl
      exact .unreadable hknown hcurrent husable fun hreadable => by
        obtain ⟨_, hcontra⟩ := hok.mpr hreadable
        cases hcontra

/-- **No run is refused over something that it did itself.**  The result of a run without failures
is decided by four conditions on the request and the zone, and no patch and no creation of a zone
is refused on the way. -/
theorem run_unrefused (setup : Setup) (h : setup.Faultless) (request : ApplyRequest)
    (box : Sandbox) (hfailing : box.server.failing = []) :
    setup.strictRun request box = some (setup.run request box) ∧
      request.Decided (setup.policyFor request.zone) box (setup.run request box).1 :=
  ⟨strictRun_eq h hfailing request, (run_verdict h hfailing request).decided⟩

/-- One address comes, and the reverse zone for it is created on the way. -/
theorem run_unrefused_oneAddress :
    let setup := plain ⟨false, true, [.named .a]⟩
    let box := Sandbox.serving "example.com" []
    setup.Faultless ∧ box.server.failing = [] ∧
      (∃ summary, (setup.run oneAddress box).1 = .ok summary) ∧
      setup.strictRun oneAddress box = some (setup.run oneAddress box) ∧
      oneAddress.Known box ∧ oneAddress.Current box ∧ oneAddress.Usable ∧
        oneAddress.Readable ⟨false, true, [.named .a]⟩ box := by
  intro setup box
  have hfaultless : setup.Faultless := faultless_plain ⟨false, true, [.named .a]⟩
  obtain ⟨hstrict, hdecided⟩ := run_unrefused setup hfaultless oneAddress box rfl
  have hok : ∃ summary, (setup.run oneAddress box).1 = .ok summary :=
    ⟨⟨"example.com", 0, 1, some ⟨["2.0.192.in-addr.arpa"], 1, 0⟩⟩, by decide +kernel⟩
  exact ⟨hfaultless, rfl, hok, hstrict, hdecided.ok.mp hok⟩

end Sandbox.Setup

end ZoneKeeper
