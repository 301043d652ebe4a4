/-
What a pass over reverse names can touch.

A pass asks about zones, creates zones and patches zones, and all of them are candidates for
the reverse name of some address or were found under one.  It creates only the narrowest candidate
of an address that came, and it patches only pointers, under the reverse names of addresses that
came or went.  `Keeps` says of one step what carries this through a pass: an invariant that the
step keeps however it ends, and a property of what it yields.

Whatever holds of all candidates holds of the zones that a pass touches.  They are in the trees of
reverse names, so a zone outside of the trees is after the pass what it was before, however the
pass ends.
-/
import ZoneKeeper.Proofs.Requests
import ZoneKeeper.Proofs.ReverseName
import ZoneKeeper.Proofs.ReverseProgress
import ZoneKeeper.Proofs.Sandbox
import ZoneKeeper.Proofs.Steps

namespace ZoneKeeper

open ReverseName

/-- The sandboxes have the same history, and the same zones outside of the trees of reverse
names. -/
structure Sandbox.AlikeOutside (box after : Sandbox) : Prop where
  history : after.history = box.history
  zones : ∀ zone, ¬InTree zone → after.server.zone? zone = box.server.zone? zone

/-! ### Steps of a pass -/

namespace ReverseSync

section Steps

variable {ε α β : Type}

/-- What a step of a pass does from known locations and a sandbox. -/
def runPass (x : Locating (StateM Sandbox) ε α) (known : Locations) (box : Sandbox) :
    Except ε α × Locations × Sandbox :=
  let out : (Except ε α × Locations) × Sandbox := StateT.run (StateT.run (ExceptT.run x) known) box
  (out.1.1, out.1.2, out.2)

variable {known known' : Locations} {box box' : Sandbox} {x : Locating (StateM Sandbox) ε α}
  {I : Locations → Sandbox → Prop}

/-- How a step ends says what it does. -/
theorem Ends.of_runPass {P : α → Locations → Sandbox → Prop} {E : ε → Locations → Sandbox → Prop}
    (h : Ends known box x P E) : ∀ {result known' box'},
      runPass x known box = (result, known', box') → match result with
        | .ok a => P a known' box'
        | .error e => E e known' box' := by
  intro result known' box' hrun
  obtain ⟨⟨result', known''⟩, after, hout, hpost⟩ := h
  have hsame : runPass x known box = (result', known'', after) :=
    congrArg (fun out : (Except ε α × Locations) × Sandbox => (out.1.1, out.1.2, out.2)) hout
  cases hrun.symm.trans hsame
  exact hpost

/-- A step ends in one way only. -/
theorem Ends.and {P Q : α → Locations → Sandbox → Prop} {E F : ε → Locations → Sandbox → Prop}
    (h : Ends known box x P E) (h' : Ends known box x Q F) :
    Ends known box x (fun a known' after => P a known' after ∧ Q a known' after)
      fun e known' after => E e known' after ∧ F e known' after := by
  refine answers_of_run fun out after hrun => ?_
  have hsame : runPass x known box = (out.1, out.2, after) :=
    congrArg (fun out : (Except ε α × Locations) × Sandbox => (out.1.1, out.1.2, out.2)) hrun
  have hleft := h.of_runPass hsame
  have hright := h'.of_runPass hsame
  obtain ⟨result, known'⟩ := out
  cases result with
  | ok a => exact ⟨hleft, hright⟩
  | error e => exact ⟨hleft, hright⟩

/-- From any state with the invariant, the step keeps it, and what it yields satisfies `P`. -/
def Keeps (I : Locations → Sandbox → Prop) (x : Locating (StateM Sandbox) ε α) (P : α → Prop) :
    Prop :=
  ∀ known box, I known box →
    Ends known box x (fun a known' box' => I known' box' ∧ P a) fun _ => I

theorem Keeps.of_runPass {P : α → Prop} {result : Except ε α} (h : Keeps I x P)
    (hI : I known box) (hrun : runPass x known box = (result, known', box')) : I known' box' := by
  have hpost := (h known box hI).of_runPass hrun
  cases result with
  | ok a => exact hpost.1
  | error e => exact hpost

/-- A service keeps the invariant if it does so wherever it is called. -/
theorem keeps_call {action : StateM Sandbox (Except ε α)}
    (h : ∀ known box result after, I known box → StateT.run action box = (result, after) →
      I known after) : Keeps I (call action) fun _ => True := by
  intro known box hI
  refine ends_call (answers_of_run fun result after hrun => ?_)
  have hkept := h known box result after hI hrun
  cases result with
  | ok a => exact ⟨hkept, trivial⟩
  | error e => exact hkept

theorem keeps_callIn {action : StateM Sandbox (Except ApiError α)}
    (h : ∀ known box result after, I known box → StateT.run action box = (result, after) →
      I known after) (context : String) : Keeps I (callIn context action) fun _ => True :=
  fun known box hI => ends_adapt (keeps_call h known box hI)

end Steps

end ReverseSync

/-! ### The requests of a pass -/

/-- The requests that a pass may make for addresses that came and went, where all candidates of
reverse names are among the zones. -/
inductive PtrChanges.Requests (zones : String → Prop) (changes : PtrChanges) :
    Nameserver.Request → Prop
  /-- A zone is patched under reverse names of the addresses. -/
  | patch {zone : String} {batch : List Change} (hosted : zones zone) (some : batch ≠ [])
      (allowed : ∀ change ∈ batch, changes.Allows change)
      (named : ∀ change ∈ batch,
        change.key.name ∈ reverseNames (changes.additions ++ changes.removals)) :
      Requests zones changes (.patch zone batch)
  /-- The narrowest candidate of an address that came is created. -/
  | create {name zone kind : String} (come : name ∈ reverseNames changes.additions)
      (narrowest : (zoneCandidates name).head? = some zone) :
      Requests zones changes (.create zone kind)

/-- All candidates of reverse names are among the zones. -/
def Hosts (zones : String → Prop) : Prop :=
  ∀ address, ∀ zone ∈ zoneCandidates (ofAddress address), zones zone

theorem hosts_inTree : Hosts InTree := fun _ _ hzone =>
  inTree_of_mem_zoneCandidates hzone

theorem Hosts.of_reverse {zones : String → Prop} (h : Hosts zones) {content name : String}
    (hreverse : ofContent? content = some name) : ∀ zone ∈ zoneCandidates name, zones zone := by
  obtain ⟨address, -, rfl⟩ := Option.map_eq_some_iff.mp hreverse
  exact h address

/-- A zone that a pass asks to change is among the zones. -/
theorem PtrChanges.Requests.hosted {zones : String → Prop} {changes : PtrChanges}
    {request : Nameserver.Request} (h : changes.Requests zones request) (hzones : Hosts zones) :
    zones request.zone := by
  cases h with
  | patch hosted _ _ _ => exact hosted
  | create hcome hnarrowest =>
    obtain ⟨target, -, hreverse⟩ := List.mem_filterMap.mp hcome
    exact hzones.of_reverse hreverse _ (List.mem_of_mem_head? hnarrowest)

/-- Without addresses there is nothing to ask for. -/
theorem PtrChanges.not_requests_nil {zones : String → Prop} {request : Nameserver.Request} :
    ¬PtrChanges.Requests zones ⟨[], []⟩ request := by
  intro h
  cases h with
  | @patch zone batch _ hsome _ hnamed =>
    obtain ⟨change, hchange⟩ := List.exists_mem_of_ne_nil batch hsome
    cases hnamed change hchange
  | create hcome _ => cases hcome

namespace ReverseSync

/-- In the course of a pass every known location is among the zones, and only requests of the pass
have been made. -/
structure Within (zones : String → Prop) (changes : PtrChanges) (start : Sandbox)
    (known : Locations) (box : Sandbox) : Prop where
  known : ∀ entry ∈ known, ∀ zone ∈ entry.2, zones zone
  served : start.server.Served (changes.Requests zones) box.server
  history : box.history = start.history

variable {ε : Type} {setup : Sandbox.Setup} {zones : String → Prop} {changes : PtrChanges}
  {start : Sandbox} {name zone : String}

theorem within_start (zones : String → Prop) (changes : PtrChanges) (start : Sandbox) :
    Within zones changes start [] start :=
  ⟨by simp, .refl _, rfl⟩

theorem keeps_zoneExists (zone : String) :
    Keeps (Within zones changes start) (call (setup.services.zoneExists zone)) fun _ => True := by
  refine keeps_call fun known box result box' hI hrun => ?_
  obtain ⟨rfl, -⟩ := Sandbox.Setup.zoneExists_run hrun
  exact hI

theorem keeps_createZone {type : String} (h : changes.Requests zones (.create zone type))
    (masters : List String) (context : String) :
    Keeps (Within zones changes start)
      (callIn context (setup.services.createZone zone type masters)) fun _ => True := by
  refine keeps_callIn (fun known box result box' hI hrun => ?_) context
  rcases Sandbox.Setup.createZone_run hrun with ⟨rfl, -⟩ | ⟨server, hserver, rfl⟩
  · exact hI
  · obtain rfl := congrArg Prod.snd hserver
    exact ⟨hI.known, hI.served.trans (.single h), hI.history⟩

theorem keeps_patchRRsets {batch : List Change} (h : changes.Requests zones (.patch zone batch))
    (context : String) :
    Keeps (Within zones changes start) (callIn context (setup.services.patchRRsets zone batch))
      fun _ => True := by
  refine keeps_callIn (fun known box result box' hI hrun => ?_) context
  rcases Sandbox.Setup.patchRRsets_run hrun with ⟨rfl, -⟩ | ⟨server, hserver, rfl⟩
  · exact hI
  · obtain rfl := congrArg Prod.snd hserver
    exact ⟨hI.known, hI.served.trans (.single h), hI.history⟩

theorem keeps_count (series : Series) (n : Nat) :
    Keeps (Within zones changes start) (liftM (setup.services.count series n) : Locating _ ε Unit)
      fun _ => True := by
  intro known box hI
  refine ends_liftM (answers_of_run fun _ after hrun => ?_)
  cases hrun
  exact ⟨⟨hI.known, hI.served, hI.history⟩, trivial⟩

/-- What a pass reports is counted, and that is the last of it. -/
theorem ends_reported {known : Locations} {box : Sandbox} {report : PtrReport}
    {P : PtrReport → Locations → Sandbox → Prop} {E : ε → Locations → Sandbox → Prop}
    (h : P report known { box with
      metrics := (box.metrics.count (.ptrOperations "add") report.added).count
        (.ptrOperations "delete") report.deleted }) :
    Ends known box (do
      liftM (setup.services.count (.ptrOperations "add") report.added)
      liftM (setup.services.count (.ptrOperations "delete") report.deleted)
      return report : Locating (StateM Sandbox) ε PtrReport) P E := by
  refine ends_bind (ends_liftM (answers_of_run fun _ counted hcount => ?_))
  cases hcount
  refine ends_bind (ends_liftM (answers_of_run fun _ counted hcount => ?_))
  cases hcount
  exact ends_pure h

/-- One more location is known. -/
theorem Within.remember {known : Locations} {box : Sandbox} {found : Option String}
    (hI : Within zones changes start known box) (hfound : ∀ zone ∈ found, zones zone)
    (narrowest : String) :
    Within zones changes start ((narrowest, found) :: known) box :=
  ⟨List.forall_mem_cons.mpr ⟨hfound, hI.known⟩, hI.served, hI.history⟩

theorem keeps_firstExisting {candidates : List String} (h : ∀ zone ∈ candidates, zones zone) :
    Keeps (Within zones changes start) (firstExisting setup.services.toControlApi candidates)
      fun found => ∀ zone ∈ found, zones zone := by
  induction candidates with
  | nil => exact fun known box hI => ends_pure ⟨hI, by simp⟩
  | cons zone rest ih =>
    obtain ⟨hzone, hrest⟩ := List.forall_mem_cons.mp h
    intro known box hI
    refine (keeps_zoneExists zone known box hI).bind ?_
    rintro found known box ⟨hI, -⟩
    cases found with
    | true => exact ends_pure ⟨hI, by rintro _ ⟨⟩; exact hzone⟩
    | false => exact ih hrest known box hI

theorem keeps_locate (h : ∀ zone ∈ zoneCandidates name, zones zone) :
    Keeps (Within zones changes start) (locate setup.services.toControlApi name)
      fun found => ∀ zone ∈ found, zones zone := by
  intro known box hI
  refine ends_adapt ?_
  unfold findReverseZone
  cases hcandidates : zoneCandidates name with
  | nil => exact ends_pure ⟨hI, by simp⟩
  | cons narrowest wider =>
    rw [hcandidates] at h
    refine ends_bind (ends_get ?_)
    cases hlookup : known.lookup narrowest with
    | some found =>
      obtain ⟨before, after, rfl, -⟩ := List.lookup_eq_some_iff.mp hlookup
      exact ends_pure ⟨hI, hI.known (narrowest, found) (by simp)⟩
    | none =>
      refine (keeps_firstExisting h known box hI).bind ?_
      rintro found known box ⟨hI, hfound⟩
      exact ends_bind (ends_remember (ends_pure ⟨hI.remember hfound narrowest, hfound⟩))

theorem keeps_createNarrowest (h : ∀ zone ∈ zoneCandidates name, zones zone)
    (hcome : name ∈ reverseNames changes.additions) :
    Keeps (Within zones changes start) (createNarrowest setup.services setup.reverseZones name)
      zones := by
  intro known box hI
  unfold createNarrowest
  cases hcandidates : zoneCandidates name with
  | nil => exact ends_throw hI
  | cons zone wider =>
    have hnarrowest : (zoneCandidates name).head? = some zone := by
      rw [hcandidates]
      rfl
    have hzone : zones zone := h zone (List.mem_of_mem_head? hnarrowest)
    refine (keeps_createZone (.create hcome hnarrowest) _ _ known box hI).bind ?_
    rintro - known box ⟨hI, -⟩
    refine (keeps_count _ _ known box hI).bind ?_
    rintro - known box ⟨hI, -⟩
    exact ends_bind (ends_remember (ends_pure
      ⟨hI.remember (by rintro _ ⟨⟩; exact hzone) zone, hzone⟩))

theorem keeps_add (hzones : Hosts zones) (progress : PtrProgress) {target : PtrTarget}
    (htarget : target ∈ changes.additions) :
    Keeps (Within zones changes start) (add setup.services setup.reverseZones progress target)
      (target.Added zones progress) := by
  intro known box hI
  unfold add
  refine ends_bind (ends_ofResult (fun name hname => ?_) fun _ _ => hI)
  have hreverse := reverseName_eq_ok.mp hname
  cases hwrites : progress.writes name with
  | true => exact ends_pure ⟨hI, .kept hreverse hwrites⟩
  | false =>
    refine (keeps_locate (hzones.of_reverse hreverse) known box hI).bind ?_
    rintro found known box ⟨hI, hfound⟩
    cases found with
    | some zone => exact ends_pure ⟨hI, .placed hreverse hwrites (hfound zone rfl)⟩
    | none =>
      have hcome : name ∈ reverseNames changes.additions :=
        List.mem_filterMap.mpr ⟨target, htarget, hreverse⟩
      refine (keeps_createNarrowest (hzones.of_reverse hreverse) hcome known box hI).bind ?_
      rintro zone known box ⟨hI, hzone⟩
      exact ends_pure ⟨hI, .placed hreverse hwrites hzone⟩

theorem keeps_remove (hzones : Hosts zones) (progress : PtrProgress) (target : PtrTarget) :
    Keeps (Within zones changes start) (remove setup.services progress target)
      (target.Removed zones progress) := by
  intro known box hI
  unfold remove
  refine ends_bind (ends_ofResult (fun name hname => ?_) fun _ _ => hI)
  have hreverse := reverseName_eq_ok.mp hname
  cases hwrites : progress.writes name with
  | true => exact ends_pure ⟨hI, .kept hreverse⟩
  | false =>
    refine (keeps_locate (hzones.of_reverse hreverse) known box hI).bind ?_
    rintro found known box ⟨hI, hfound⟩
    cases found with
    | none => exact ends_pure ⟨hI, .kept hreverse⟩
    | some zone =>
      cases htouches : progress.touches zone name with
      | true =>
        simp only [htouches, if_true]
        exact ends_pure ⟨hI, .kept hreverse⟩
      | false =>
        simp only [htouches, Bool.false_eq_true, if_false]
        exact ends_pure ⟨hI, .dropped hreverse hwrites htouches (hfound zone rfl)⟩

theorem keeps_send {batches : List (String × List Change)}
    (h : ∀ batch ∈ batches, changes.Requests zones (.patch batch.1 batch.2)) :
    Keeps (Within zones changes start) (send setup.services batches) fun _ => True := by
  induction batches with
  | nil => exact fun known box hI => ends_pure ⟨hI, trivial⟩
  | cons batch rest ih =>
    obtain ⟨hfirst, hrest⟩ := List.forall_mem_cons.mp h
    intro known box hI
    refine (keeps_patchRRsets hfirst _ known box hI).bind ?_
    rintro - known box ⟨hI, -⟩
    exact ih hrest known box hI

theorem keeps_additions (hzones : Hosts zones) (changes : PtrChanges) :
    Keeps (Within zones changes start)
      (changes.additions.foldlM (add setup.services setup.reverseZones) ⟨[], []⟩)
      fun progress => progress.Adding zones changes.additions ∧
        progress.Named changes.additions := by
  intro known box hI
  refine ends_foldlM (Q := fun done progress known box => Within zones changes start known box ∧
      PtrProgress.Adding zones done progress ∧ progress.Named done) ?_ [] ⟨[], []⟩ known box
    ⟨hI, PtrProgress.adding_nil, by simp [PtrProgress.Named]⟩
  rintro target htarget done progress known box ⟨hI, hadding, hnamed⟩
  refine (keeps_add hzones progress htarget known box hI).mono ?_ fun _ _ _ => id
  rintro after known box ⟨hI, hadded⟩
  exact ⟨hI, hadding.step hadded, hadded.named hnamed⟩

theorem keeps_removals (hzones : Hosts zones) {progress : PtrProgress}
    (hadding : progress.Adding zones changes.additions)
    (hnamed : progress.Named changes.additions) :
    Keeps (Within zones changes start)
      (changes.removals.foldlM (remove setup.services) progress)
      fun progress => progress.Removing zones changes ∧
        progress.Named (changes.additions ++ changes.removals) := by
  intro known box hI
  refine ends_foldlM (Q := fun done progress known box => Within zones changes start known box ∧
      PtrProgress.Removing zones ⟨changes.additions, done⟩ progress ∧
      progress.Named (changes.additions ++ done)) ?_ [] progress known box
    ⟨hI, hadding.removing, by rwa [List.append_nil]⟩
  rintro target - done progress known box ⟨hI, hremoving, hnamed⟩
  refine (keeps_remove hzones progress target known box hI).mono ?_ fun _ _ _ => id
  rintro after known box ⟨hI, hremoved⟩
  refine ⟨hI, hremoving.step hremoved, ?_⟩
  rw [← List.append_assoc]
  exact hremoved.named hnamed

/-- **A pass makes only its requests,** wherever it ends. -/
theorem keeps_pass (hzones : Hosts zones) (changes : PtrChanges) :
    Keeps (Within zones changes start) (pass setup.services setup.reverseZones changes)
      fun _ => True := by
  intro known box hI
  refine (keeps_additions hzones changes known box hI).bind ?_
  rintro progress known box ⟨hI, hadding, hnamed⟩
  refine (keeps_removals hzones hadding hnamed known box hI).bind ?_
  rintro progress known box ⟨hI, hremoving, hnamed⟩
  have hrequests : ∀ batch ∈ progress.batches,
      changes.Requests zones (.patch batch.1 batch.2) := by
    intro batch hbatch
    obtain ⟨op, hop, hzone⟩ := PtrProgress.exists_zone_of_mem_batches hbatch
    refine .patch (hzone ▸ hremoving.hosted op hop) (PtrProgress.ne_nil_of_mem_batches hbatch)
      (fun change hchange => ?_) fun change hchange => ?_
    · obtain ⟨op, hop, -, rfl⟩ := PtrProgress.exists_of_mem_batches hbatch hchange
      exact hremoving.allowed op hop
    · obtain ⟨op, hop, -, rfl⟩ := PtrProgress.exists_of_mem_batches hbatch hchange
      exact hnamed op hop
  refine (keeps_send hrequests known box hI).bind ?_
  rintro - known box ⟨hI, -⟩
  exact ends_reported ⟨⟨hI.known, hI.served, hI.history⟩, trivial⟩

end ReverseSync

namespace Sandbox.Setup

variable {setup : Setup} {zone : String} {changes : PtrChanges} {box after : Sandbox}
  {result : Except SyncError (Option PtrReport)}

/-- Where no address came or went there is no pass. -/
theorem syncReverse_of_isEmpty (hempty : changes.isEmpty = true)
    (h : StateT.run (setup.applier.syncReverse zone changes) box = (result, after)) :
    after = box ∧ result = .ok none := by
  unfold Applier.syncReverse at h
  rw [if_pos hempty] at h
  obtain ⟨rfl, rfl⟩ := Prod.mk.inj h
  exact ⟨rfl, rfl⟩

/-- There is no pass, or it is run with nothing known and its failure is told as one. -/
theorem eq_or_runPass_of_syncReverse
    (h : StateT.run (setup.applier.syncReverse zone changes) box = (result, after)) :
    (changes.isEmpty = true ∧ after = box ∧ result = .ok none) ∨
      ∃ report known, ReverseSync.runPass
          (ReverseSync.pass setup.services setup.reverseZones changes) [] box =
            (report, known, after) ∧
        result = (report.mapError (.autoPtr zone)).map some := by
  cases hempty : changes.isEmpty with
  | true => exact Or.inl ⟨rfl, syncReverse_of_isEmpty hempty h⟩
  | false =>
    unfold Applier.syncReverse at h
    rw [if_neg (by simp [hempty])] at h
    have hrun : (((ReverseSync.runPass (ReverseSync.pass setup.services setup.reverseZones changes)
        [] box).1.mapError (.autoPtr zone)).map some,
        (ReverseSync.runPass (ReverseSync.pass setup.services setup.reverseZones changes)
        [] box).2.2) = (result, after) := h
    obtain ⟨rfl, rfl⟩ := Prod.mk.inj hrun
    exact Or.inr ⟨_, _, rfl, rfl⟩

/-- What is done about reverse names are the requests of a pass. -/
theorem syncReverse_served {zones : String → Prop} (hzones : Hosts zones)
    (h : StateT.run (setup.applier.syncReverse zone changes) box = (result, after)) :
    box.server.Served (changes.Requests zones) after.server ∧ after.history = box.history := by
  rcases eq_or_runPass_of_syncReverse h with ⟨-, rfl, -⟩ | ⟨report, known, hpass, -⟩
  · exact ⟨.refl _, rfl⟩
  · have hwithin := (ReverseSync.keeps_pass hzones changes).of_runPass
      (ReverseSync.within_start zones changes box) hpass
    exact ⟨hwithin.served, hwithin.history⟩

/-- **A pass leaves every zone outside of the trees of reverse names as it was,** and if it
fails the failure says that it is about reverse names. -/
theorem syncReverse_run
    (h : StateT.run (setup.applier.syncReverse zone changes) box = (result, after)) :
    box.AlikeOutside after ∧ ∀ e, result = .error e → ∃ message, e = .autoPtr zone message := by
  obtain ⟨hserved, hhistory⟩ := syncReverse_served hosts_inTree h
  refine ⟨⟨hhistory, fun other hother => hserved.zone?_eq fun request hrequest hsame => ?_⟩,
    fun e he => ?_⟩
  · exact hother ((inTree_congr hsame).mpr (hrequest.hosted hosts_inTree))
  rcases eq_or_runPass_of_syncReverse h with ⟨-, -, rfl⟩ | ⟨report, known, -, rfl⟩
  · cases he
  cases report with
  | ok report => simp [Except.mapError, Except.map] at he
  | error message =>
    obtain rfl : SyncError.autoPtr zone message = e := by
      simpa [Except.mapError, Except.map] using he
    exact ⟨message, rfl⟩

end Sandbox.Setup

end ZoneKeeper
