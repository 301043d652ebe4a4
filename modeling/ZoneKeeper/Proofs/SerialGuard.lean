/-
The serial guards against lost updates.

Clients make whole calls one after another, each with a setup of its own.  Every accepted patch
raises the serial of its zone by one, whoever asks for it and whatever becomes of the call that it
is part of, and nothing lowers a serial.  So a serial that was read before a patch was accepted is
out of date for good, and a run that carries it is refused before it changes anything.

A run that carries a serial and gets a batch of its own accepted has found that serial and left a
higher one.  So of all runs with one serial for one zone at most one comes so far.
-/
import ZoneKeeper.Proofs.Verdict
import ZoneKeeper.Proofs.Watched

namespace ZoneKeeper

/-! ### Batches of a run that are accepted -/

namespace Applier

variable {σ : Type}

/-- A batch of the request itself is accepted: its deletions or its replacements. -/
inductive Lands (applier : Applier (StateM σ)) (request : ApplyRequest) (s : σ) : Prop
  | deletions {prepared : Prepared} {s₁ s₂ : σ}
      (prepare : runFrom (applier.prepare request) s = (.ok prepared, s₁))
      (batch : prepared.batches.deletes ≠ [])
      (delete : runFrom (applier.sendBatch request.zone .delete prepared.batches.deleteChanges)
        s₁ = (.ok (), s₂))
  | replacements {prepared : Prepared} {s₁ s₂ s₃ : σ}
      (prepare : runFrom (applier.prepare request) s = (.ok prepared, s₁))
      (batch : prepared.batches.replaces ≠ [])
      (delete : runFrom (applier.sendBatch request.zone .delete prepared.batches.deleteChanges)
        s₁ = (.ok (), s₂))
      (replace : runFrom (applier.sendBatch request.zone .replace prepared.batches.replaceChanges)
        s₂ = (.ok (), s₃))

variable {applier : Applier (StateM σ)} {request : ApplyRequest} {s : σ}

/-- Before a batch can be accepted, something is prepared and the deletions go through. -/
theorem Lands.delete (h : applier.Lands request s) :
    ∃ prepared s₁ s₂, runFrom (applier.prepare request) s = (.ok prepared, s₁) ∧
      prepared.batches.isEmpty = false ∧
      runFrom (applier.sendBatch request.zone .delete prepared.batches.deleteChanges) s₁ =
        (.ok (), s₂) := by
  cases h with
  | deletions hprepare hbatch hdelete =>
    exact ⟨_, _, _, hprepare, by simp [Batches.isEmpty, hbatch], hdelete⟩
  | replacements hprepare hbatch hdelete _ =>
    exact ⟨_, _, _, hprepare, by simp [Batches.isEmpty, hbatch], hdelete⟩

end Applier

/-! ### Patches that are noted -/

namespace Watched

/-- The number of patches of a zone that were accepted. -/
def patchesOn (zone : String) (w : Watched) : Nat :=
  (AcceptedPatch.serialsOn zone w.accepted).length

theorem patchesOn_le {w w' : Watched} (h : w.accepted <+: w'.accepted) (zone : String) :
    w.patchesOn zone ≤ w'.patchesOn zone := by
  obtain ⟨more, hmore⟩ := h
  rw [patchesOn, patchesOn, ← hmore, AcceptedPatch.serialsOn_append, List.length_append]
  exact Nat.le_add_right _ _

end Watched

namespace Sandbox

namespace Client

variable {client : Client} {request : ApplyRequest} {zone : String} {w w' : Watched}

/-- A batch that is accepted for the plain services is accepted for the watched ones. -/
theorem lands_watched (h : client.applier.Lands request w.box) :
    client.watchedApplier.Lands request w := by
  cases h with
  | deletions hprepare hbatch hdelete =>
    obtain ⟨_, hprepare', -⟩ := (client.mirrored.prepare request).run w hprepare
    obtain ⟨_, hdelete', -⟩ := (client.mirrored.sendBatch _ _ _).run ⟨_, _⟩ hdelete
    exact .deletions hprepare' hbatch hdelete'
  | replacements hprepare hbatch hdelete hreplace =>
    obtain ⟨_, hprepare', -⟩ := (client.mirrored.prepare request).run w hprepare
    obtain ⟨_, hdelete', -⟩ := (client.mirrored.sendBatch _ _ _).run ⟨_, _⟩ hdelete
    obtain ⟨_, hreplace', -⟩ := (client.mirrored.sendBatch _ _ _).run ⟨_, _⟩ hreplace
    exact .replacements hprepare' hbatch hdelete' hreplace'

/-- A batch that goes through is noted. -/
theorem accepted_of_sendBatch {type : ChangeType} {changes : List Change}
    (h : runFrom (client.watchedApplier.sendBatch zone type changes) w = (.ok (), w'))
    (hne : changes ≠ []) :
    w'.accepted = w.accepted ++ [⟨zone, w.box.server.serial zone⟩] := by
  have hask : runFrom (Applier.ask zone (client.watchedServices.patchRRsets zone changes)) w =
      ((StateT.run (client.watchedServices.patchRRsets zone changes) w).1.mapError (.ofApi zone),
        (StateT.run (client.watchedServices.patchRRsets zone changes) w).2) := rfl
  have hservices : client.watchedApplier.services = client.watchedServices := rfl
  unfold Applier.sendBatch at h
  rw [if_neg (by simpa using hne), runFrom_bind, hservices, hask] at h
  rcases hpatch : StateT.run (client.watchedServices.patchRRsets zone changes) w with
    ⟨answer, patched⟩
  rw [hpatch] at h
  cases answer with
  | error e => cases h
  | ok _ =>
    have hcount : w'.accepted = patched.accepted :=
      (congrArg (fun out => out.2.accepted) h).symm
    exact hcount.trans (accepted_of_noted hpatch)

/-- Where a batch goes through, a patch of the zone is noted. -/
theorem patchesOn_lt_of_sendBatch {type : ChangeType} {changes : List Change}
    (h : runFrom (client.watchedApplier.sendBatch zone type changes) w = (.ok (), w'))
    (hne : changes ≠ []) : w.patchesOn zone < w'.patchesOn zone := by
  rw [Watched.patchesOn, Watched.patchesOn, accepted_of_sendBatch h hne,
    AcceptedPatch.serialsOn_append, AcceptedPatch.serialsOn_singleton_same rfl]
  simp

theorem patchesOn_le_of_sendBatch {type : ChangeType} {changes : List Change}
    {answer : Except SyncError Unit}
    (h : runFrom (client.watchedApplier.sendBatch zone type changes) w = (answer, w'))
    (other : String) : w.patchesOn other ≤ w'.patchesOn other :=
  Watched.patchesOn_le ((client.mirrored.sendBatch zone type changes).keeps_accepted h) other

/-- Where both batches go through, one of them is not empty. -/
theorem patchesOn_lt_of_sent {prepared : Prepared} {w₁ w₂ w₃ : Watched}
    (h : client.watchedApplier.Sent request prepared w₁ w₂ w₃) :
    w₁.patchesOn request.zone < w₃.patchesOn request.zone := by
  by_cases hdeletes : prepared.batches.deletes = []
  · have hreplaces : prepared.batches.replaces ≠ [] := by
      simpa [Batches.isEmpty, hdeletes] using h.batches
    exact (patchesOn_le_of_sendBatch h.delete request.zone).trans_lt
      (patchesOn_lt_of_sendBatch h.replace (by simpa [Batches.replaceChanges] using hreplaces))
  · exact (patchesOn_lt_of_sendBatch h.delete
      (by simpa [Batches.deleteChanges] using hdeletes)).trans_le
      (patchesOn_le_of_sendBatch h.replace request.zone)

/-- What comes after the batches forgets no patch. -/
theorem patchesOn_le_of_rest {changes : PtrChanges} {record : HistoryRecord}
    {reversed : Except SyncError (Option PtrReport)} {time : Timestamp}
    {answer : Except SyncError Unit} {w₁ w₂ w₃ w₄ : Watched}
    (hreverse : StateT.run (client.watchedApplier.syncReverse zone changes) w₁ = (reversed, w₂))
    (hnow : StateT.run client.watchedServices.now w₂ = (time, w₃))
    (hpersist : StateT.run (client.watchedServices.persist record) w₃ = (answer, w₄))
    (other : String) : w₁.patchesOn other ≤ w₄.patchesOn other :=
  Watched.patchesOn_le (((client.mirrored.syncReverse zone changes).keeps_accepted hreverse).trans
    ((client.mirrored.now.keeps_accepted hnow).trans
      ((client.mirrored.persist record).keeps_accepted hpersist))) other

/-- **A run that gets a batch of its own accepted notes a patch of its zone.** -/
theorem patchesOn_lt_of_lands (h : client.watchedApplier.Lands request w) :
    w.patchesOn request.zone <
      (runFrom (client.watchedApplier.perform request) w).2.patchesOn request.zone := by
  obtain ⟨prepared, w₁, w₂, hprepare, hbatches, hdelete⟩ := h.delete
  have hprepared : w.patchesOn request.zone ≤ w₁.patchesOn request.zone :=
    Watched.patchesOn_le ((client.mirrored.prepare request).keeps_accepted hprepare) _
  refine hprepared.trans_lt ?_
  have hran := client.watchedApplier.perform_ran request w
  generalize (runFrom (client.watchedApplier.perform request) w).2 = final at hran ⊢
  generalize (runFrom (client.watchedApplier.perform request) w).1 = result at hran
  cases hran with
  | unprepared hfailed => cases hprepare.symm.trans hfailed
  | settled hsame hempty =>
    cases hprepare.symm.trans hsame
    rw [hbatches] at hempty
    cases hempty
  | undeleted hsame _ hrefused =>
    cases hprepare.symm.trans hsame
    cases hdelete.symm.trans hrefused
  | unreplaced hsame _ hdeleted hrefused =>
    cases hprepare.symm.trans hsame
    cases h with
    | deletions hsame' hbatch hdelete' =>
      cases hprepare.symm.trans hsame'
      cases hdelete'.symm.trans hdeleted
      exact (patchesOn_lt_of_sendBatch hdeleted
        (by simpa [Batches.deleteChanges] using hbatch)).trans_le
        (patchesOn_le_of_sendBatch hrefused _)
    | replacements hsame' _ hdelete' hreplace =>
      cases hprepare.symm.trans hsame'
      cases hdelete'.symm.trans hdeleted
      cases hreplace.symm.trans hrefused
  | unrecorded hsame hsent hreverse hnow hpersist =>
    cases hprepare.symm.trans hsame
    exact (patchesOn_lt_of_sent hsent).trans_le (patchesOn_le_of_rest hreverse hnow hpersist _)
  | recorded hsame hsent hreverse hnow hpersist =>
    cases hprepare.symm.trans hsame
    exact (patchesOn_lt_of_sent hsent).trans_le (patchesOn_le_of_rest hreverse hnow hpersist _)

/-- Nothing is noted but in the run itself. -/
theorem accepted_apply (client : Client) (request : ApplyRequest) (w : Watched) :
    (StateT.run (client.watchedApplier.apply request) w).2.accepted =
      (runFrom (client.watchedApplier.perform request) w).2.accepted := by
  rcases hperform : runFrom (client.watchedApplier.perform request) w with ⟨result, final⟩
  -- the first reading of the clock notes nothing
  have hresult : StateT.run (ExceptT.run (client.watchedApplier.perform request))
      (StateT.run client.watchedApplier.services.clock w).2 = (result, final) := hperform
  unfold Applier.apply
  rw [stateM_run_bind, stateM_run_bind, hresult]
  cases result <;> rfl

end Client

/-! ### Runs with a serial that is out of date -/

namespace Setup

variable {setup : Setup} {request : ApplyRequest} {box : Sandbox} {current : Snapshot}
  {submitted : UInt32}

/-- A run that carries another serial than the zone has is refused and changes nothing. -/
theorem run_of_conflict (hfetch : setup.faults.requests.lookup (.fetch, request.zone) = none)
    (hzone : box.server.zone? request.zone = some current)
    (hserial : request.serial = some submitted) (hne : submitted ≠ current.serial) :
    (setup.run request box).1 = .error (.conflict request.zone submitted current.serial) ∧
      box.Alike (setup.run request box).2 := by
  have hprepareFrom : Applier.prepareFrom (setup.policyFor request.zone) request current =
      .error (.conflict request.zone submitted current.serial) := by
    have hcheck : Applier.checkSerial request current.serial =
        .error (.conflict request.zone submitted current.serial) := by
      rw [Applier.checkSerial, hserial]
      exact if_neg hne
    rw [Applier.prepareFrom_eq, hcheck]
    rfl
  have hprepare : runFrom (setup.applier.prepare request) box =
      (.error (.conflict request.zone submitted current.serial), box) := by
    rw [runFrom_prepare_of_zone hfetch hzone, hprepareFrom]
  obtain ⟨final, hran, hserver, hhistory⟩ := setup.run_ran request box
  generalize (setup.run request box).1 = result at hran ⊢
  cases hran with
  | unprepared hfailed =>
    cases hprepare.symm.trans hfailed
    exact ⟨rfl, .of_eq hserver hhistory⟩
  | settled hsame | undeleted hsame | unreplaced hsame | unrecorded hsame | recorded hsame =>
    cases hprepare.symm.trans hsame

/-- A run that gets a batch of its own accepted has found the serial that it carries. -/
theorem serial_of_lands (h : setup.applier.Lands request box)
    (hserial : request.serial = some submitted) : box.server.serial request.zone = submitted := by
  obtain ⟨prepared, _, _, hprepare, -, -⟩ := h.delete
  obtain ⟨rfl, before, hprepares⟩ := prepare_run hprepare
  obtain ⟨hcheck, -⟩ := Applier.eq_of_prepareFrom_ok hprepares.prepare
  rw [Nameserver.serial_of_some hprepares.zone]
  rcases Applier.checkSerial_cases request before.serial with ⟨-, hcurrent⟩ | ⟨_, hconflict, -⟩
  · exact (hcurrent submitted hserial).symm
  · cases hcheck.symm.trans hconflict

end Setup

/-! ### Calls of clients -/

/-- A whole call of a client, or the wish that a patch fails. -/
inductive ClientCall
  | apply (client : Client) (request : ApplyRequest)
  | patch (client : Client) (zone : String) (changes : List Change)
  | create (client : Client) (zone kind : String) (masters : List String)
  | failPatch (number : Nat)

namespace ClientCall

/-- The sandbox after a call. -/
def leave : ClientCall → Sandbox → Sandbox
  | apply client request, box => (client.run request box).2
  | patch client zone changes, box =>
    (StateT.run (client.services.patchRRsets zone changes) box).2
  | create client zone kind masters, box =>
    (StateT.run (client.services.createZone zone kind masters) box).2
  | failPatch number, box => { box with server := box.server.failPatch number }

/-- The watched sandbox after a call. -/
def watch : ClientCall → Watched → Watched
  | apply client request, w => (StateT.run (client.watchedApplier.apply request) w).2
  | patch client zone changes, w =>
    (StateT.run (client.watchedServices.patchRRsets zone changes) w).2
  | create client zone kind masters, w =>
    (StateT.run (client.watchedServices.createZone zone kind masters) w).2
  | failPatch number, w => { w with box.server := w.box.server.failPatch number }

/-- The patches that are accepted in a call. -/
def accepted (call : ClientCall) (box : Sandbox) : List AcceptedPatch :=
  (call.watch ⟨box, []⟩).accepted

/-- The sandbox after calls, one after another. -/
def leaveAll : List ClientCall → Sandbox → Sandbox
  | [], box => box
  | call :: calls, box => leaveAll calls (call.leave box)

/-- The patches that are accepted in calls, one after another. -/
def acceptedAll : List ClientCall → Sandbox → List AcceptedPatch
  | [], _ => []
  | call :: calls, box => call.accepted box ++ acceptedAll calls (call.leave box)

variable {call : ClientCall} {calls more : List ClientCall} {box : Sandbox} {zone : String}
  {serial : UInt32} {client : Client} {request : ApplyRequest}

/-- A watched call leaves what the call leaves, and the patches that it notes raise the
serials. -/
theorem watch_eq (call : ClientCall) (box : Sandbox) :
    call.watch ⟨box, []⟩ = ⟨call.leave box, call.accepted box⟩ ∧
      box.server.Climbed (call.leave box).server (call.accepted box) := by
  have hmirrored {α : Type} {x : StateM Watched α} {y : StateM Sandbox α} (h : Mirrors x y) :
      (StateT.run x ⟨box, []⟩).2.box = (StateT.run y box).2 ∧
        box.server.Climbed (StateT.run y box).2.server (StateT.run x ⟨box, []⟩).2.accepted := by
    obtain ⟨a, after, notes, hplain, hwatched, hclimbed⟩ := h ⟨box, []⟩
    have hplain : StateT.run y box = (a, after) := hplain
    rw [hplain, hwatched]
    exact ⟨rfl, hclimbed⟩
  have hcall : (call.watch ⟨box, []⟩).box = call.leave box ∧
      box.server.Climbed (call.leave box).server (call.watch ⟨box, []⟩).accepted := by
    cases call with
    | apply client request =>
      unfold leave Setup.run
      exact hmirrored (client.mirrored.apply request)
    | patch client zone changes => exact hmirrored (client.mirrored.patchRRsets zone changes)
    | create client zone kind masters => exact hmirrored (client.mirrored.createZone _ _ _)
    | failPatch number => exact ⟨rfl, .of_zones_eq rfl⟩
  exact ⟨by rw [← hcall.1]; rfl, hcall.2⟩

theorem leaveAll_append (calls more : List ClientCall) (box : Sandbox) :
    leaveAll (calls ++ more) box = leaveAll more (leaveAll calls box) := by
  induction calls generalizing box with
  | nil => rfl
  | cons call calls ih => exact ih (call.leave box)

theorem acceptedAll_append (calls more : List ClientCall) (box : Sandbox) :
    acceptedAll (calls ++ more) box =
      acceptedAll calls box ++ acceptedAll more (leaveAll calls box) := by
  induction calls generalizing box with
  | nil => rfl
  | cons call calls ih =>
    rw [List.cons_append, acceptedAll, ih, acceptedAll, List.append_assoc]
    rfl

/-- **In any calls the accepted patches raise the serials of their zones, each by one, and nothing
else changes a serial.** -/
theorem climbed_leaveAll (calls : List ClientCall) (box : Sandbox) :
    box.server.Climbed (leaveAll calls box).server (acceptedAll calls box) := by
  induction calls generalizing box with
  | nil => exact .refl _
  | cons call calls ih => exact (watch_eq call box).2.trans (ih (call.leave box))

/-- No patch is accepted that finds the last serial that there is. -/
def Roomy (calls : List ClientCall) (box : Sandbox) : Prop :=
  ∀ patch ∈ acceptedAll calls box, patch.serial.toNat + 1 < 2 ^ 32

theorem Roomy.append (h : Roomy (calls ++ more) box) :
    Roomy calls box ∧ Roomy more (leaveAll calls box) := by
  unfold Roomy at h
  rw [acceptedAll_append] at h
  exact List.forall_mem_append.mp h

/-- The serials that the accepted patches of a zone found are consecutive numbers. -/
theorem Roomy.consecutive (h : Roomy calls box) (zone : String) :
    (AcceptedPatch.serialsOn zone (acceptedAll calls box)).map UInt32.toNat =
        List.range' (box.server.serial zone).toNat
          (AcceptedPatch.serialsOn zone (acceptedAll calls box)).length ∧
      ((leaveAll calls box).server.serial zone).toNat = (box.server.serial zone).toNat +
        (AcceptedPatch.serialsOn zone (acceptedAll calls box)).length := by
  refine ((climbed_leaveAll calls box).serials zone).consecutive fun serial hserial => ?_
  obtain ⟨patch, hpatch, rfl⟩ := AcceptedPatch.mem_of_mem_serialsOn hserial
  exact h patch hpatch

/-- A zone has not the serial any more that it had before a patch was accepted. -/
theorem Roomy.serial_ne (h : Roomy calls box)
    (haccepted : AcceptedPatch.serialsOn zone (acceptedAll calls box) ≠ []) :
    (leaveAll calls box).server.serial zone ≠ box.server.serial zone := by
  intro hsame
  have hrisen := (h.consecutive zone).2
  rw [hsame] at hrisen
  have hpositive := List.length_pos_iff.mpr haccepted
  omega

/-- A run that gets a batch of its own accepted is a call in which a patch of the zone is. -/
theorem serialsOn_accepted_of_lands (h : client.applier.Lands request box)
    (hsame : Nameserver.SameZone request.zone zone) :
    AcceptedPatch.serialsOn zone ((apply client request).accepted box) ≠ [] := by
  have hlt := Client.patchesOn_lt_of_lands (Client.lands_watched (w := ⟨box, []⟩) h)
  rw [← AcceptedPatch.serialsOn_congr hsame]
  unfold accepted watch
  rw [Client.accepted_apply]
  exact List.length_pos_iff.mp hlt

/-! ### What the serial guards -/

/-- Call number `i` is a run for the zone that carries the serial and gets a batch of its own
accepted. -/
def LandsAt (zone : String) (serial : UInt32) (calls : List ClientCall) (box : Sandbox) (i : Nat) :
    Prop :=
  ∃ client request, calls[i]? = some (apply client request) ∧
    Nameserver.SameZone request.zone zone ∧ request.serial = some serial ∧
    client.applier.Lands request (leaveAll (calls.take i) box)

theorem LandsAt.found {i : Nat} (h : LandsAt zone serial calls box i) :
    (leaveAll (calls.take i) box).server.serial zone = serial := by
  obtain ⟨client, request, -, hsame, hserial, hlands⟩ := h
  rw [← Setup.serial_of_lands hlands hserial]
  exact Nameserver.serial_congr (Nameserver.zone?_congr hsame.symm)

/-- The calls before a later one are those before an earlier one, that one, and some more. -/
theorem take_eq_of_lt {i j : Nat} (hij : i < j) (hcall : calls[i]? = some call) :
    ∃ between, calls.take j = calls.take i ++ call :: between := by
  have hlater : (calls.take j)[i]? = some call := by rw [List.getElem?_take_of_lt hij, hcall]
  obtain ⟨hlength, rfl⟩ := List.getElem?_eq_some_iff.mp hlater
  refine ⟨(calls.take j).drop (i + 1), ?_⟩
  rw [← List.drop_eq_getElem_cons hlength]
  conv_lhs => rw [← List.take_append_drop i (calls.take j), List.take_take, min_eq_left hij.le]

/-- After a run that gets a batch of its own accepted, no other finds the serial. -/
theorem Roomy.not_landsAt_of_lt (hroom : Roomy calls box) {i j : Nat} (hij : i < j)
    (hi : LandsAt zone serial calls box i) : ¬LandsAt zone serial calls box j := by
  intro hj
  obtain ⟨client, request, hcall, hsame, -, hlands⟩ := id hi
  obtain ⟨between, hbetween⟩ := take_eq_of_lt hij hcall
  have hroomy : Roomy (apply client request :: between) (leaveAll (calls.take i) box) := by
    rw [← List.take_append_drop j calls, hbetween] at hroom
    exact hroom.append.1.append.2
  have haccepted : AcceptedPatch.serialsOn zone
      (acceptedAll (apply client request :: between) (leaveAll (calls.take i) box)) ≠ [] := by
    rw [acceptedAll, AcceptedPatch.serialsOn_append]
    exact List.append_ne_nil_of_left_ne_nil (serialsOn_accepted_of_lands hlands hsame) _
  refine hroomy.serial_ne haccepted ?_
  rw [← leaveAll_append, ← hbetween, hj.found, hi.found]

/-- What the serials of zones guard in calls, one after another. -/
structure Guarded (calls : List ClientCall) (box : Sandbox) : Prop where
  /-- No zone is taken away. -/
  known : ∀ zone, box.server.hasZone zone = true → (leaveAll calls box).server.hasZone zone = true
  /-- The accepted patches of a zone find one serial after the other, from the first one on, and
  the zone is left with the next. -/
  serials : ∀ zone,
    (AcceptedPatch.serialsOn zone (acceptedAll calls box)).map UInt32.toNat =
        List.range' (box.server.serial zone).toNat
          (AcceptedPatch.serialsOn zone (acceptedAll calls box)).length ∧
      ((leaveAll calls box).server.serial zone).toNat = (box.server.serial zone).toNat +
        (AcceptedPatch.serialsOn zone (acceptedAll calls box)).length
  /-- A run with a serial that was read before a patch of its zone was accepted is refused and
  changes nothing. -/
  stale : ∀ i zone read, (leaveAll (calls.take i) box).server.zone? zone = some read →
    AcceptedPatch.serialsOn zone
      (acceptedAll (calls.drop i) (leaveAll (calls.take i) box)) ≠ [] →
    ∀ (client : Client) (request : ApplyRequest), Nameserver.SameZone request.zone zone →
      request.serial = some read.serial →
      client.faults.requests.lookup (.fetch, request.zone) = none →
      ∃ current, (client.run request (leaveAll calls box)).1 =
          .error (.conflict request.zone read.serial current) ∧
        (leaveAll calls box).Alike (client.run request (leaveAll calls box)).2
  /-- Of the runs for a zone that carry one serial, at most one gets a batch of its own accepted. -/
  single : ∀ zone serial i j, LandsAt zone serial calls box i → LandsAt zone serial calls box j →
    i = j

/-- **The serial guards against lost updates.** -/
theorem calls_guarded (calls : List ClientCall) (box : Sandbox) (hroom : Roomy calls box) :
    Guarded calls box := by
  refine ⟨(climbed_leaveAll calls box).known, hroom.consecutive, ?_, ?_⟩
  · intro i zone read hread haccepted client request hsame hserial hfetch
    have hleave : leaveAll calls box =
        leaveAll (calls.drop i) (leaveAll (calls.take i) box) := by
      rw [← leaveAll_append, List.take_append_drop]
    rw [← List.take_append_drop i calls] at hroom
    have hrisen := hroom.append.2.serial_ne haccepted
    have hknown : (leaveAll calls box).server.hasZone zone = true := by
      rw [hleave]
      refine (climbed_leaveAll _ _).known zone ?_
      rw [Nameserver.hasZone, hread]
      rfl
    obtain ⟨current, hcurrent⟩ := Option.isSome_iff_exists.mp hknown
    rw [← hleave, Nameserver.serial_of_some hcurrent, Nameserver.serial_of_some hread] at hrisen
    refine ⟨current.serial, Setup.run_of_conflict hfetch ?_ hserial hrisen.symm⟩
    rw [Nameserver.zone?_congr hsame, hcurrent]
  · intro zone serial i j hi hj
    rcases Nat.lt_trichotomy i j with hlt | heq | hlt
    · exact absurd hj (hroom.not_landsAt_of_lt hlt hi)
    · exact heq
    · exact absurd hi (hroom.not_landsAt_of_lt hlt hj)

/-- Two operators that both saw the first serial, and a patch from elsewhere between their runs. -/
def rivalCalls : List ClientCall :=
  let client : Client := { Setup.plain ⟨false, false, [.named .a]⟩ with apart := fun _ _ => rfl }
  let other : RRset := ⟨"ftp.example.com.", .named .a, 60, [⟨"192.0.2.9", false⟩], []⟩
  [.apply client { Setup.oneAddress with serial := some 1 },
    .patch client "example.com." [.replace other],
    .apply client { Setup.oneAddress with actor := "rival", serial := some 1 }]

theorem calls_guarded_rivalCalls :
    let box := Sandbox.serving "example.com" []
    acceptedAll rivalCalls box = [⟨"example.com", 1⟩, ⟨"example.com.", 2⟩] ∧
      Roomy rivalCalls box ∧ Guarded rivalCalls box := by
  intro box
  have haccepted : acceptedAll rivalCalls box = [⟨"example.com", 1⟩, ⟨"example.com.", 2⟩] := by
    decide +kernel
  have hroom : Roomy rivalCalls box := by
    unfold Roomy
    rw [haccepted]
    decide
  exact ⟨haccepted, hroom, calls_guarded rivalCalls box hroom⟩

end ClientCall

end Sandbox

end ZoneKeeper
