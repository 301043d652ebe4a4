/-
What a pass over reverse names decides.

A target either changes nothing about the decisions or appends one operation to them, and it is
`Added` and `Removed` that say when.  All the rest is had by going along the targets:

  * in the end the reverse name of every addition is written,
  * a reverse name is deleted only for a removal, and only if no addition has it,
  * no reverse zone gets two operations on one name, so no batch names a record set twice.

Which zones the operations are on is left open here; `zones` stands for whatever is known of them.
-/
import Mathlib.Data.List.Nodup
import ZoneKeeper.ReverseSync

namespace ZoneKeeper

open ReverseName

theorem ReverseSync.reverseName_eq_ok {target : PtrTarget} {name : String} :
    reverseName target = .ok name ↔ ofContent? target.address = some name := by
  unfold reverseName
  cases ofContent? target.address <;> simp

/-! ### One target -/

/-- The reverse name of a target, if its address has one. -/
def PtrTarget.reverse? (target : PtrTarget) : Option String :=
  ofContent? target.address

/-- The reverse names of targets. -/
def reverseNames (targets : List PtrTarget) : List String :=
  targets.filterMap PtrTarget.reverse?

theorem reverseNames_concat {done : List PtrTarget} {target : PtrTarget} {name : String}
    (h : target.reverse? = some name) :
    reverseNames (done ++ [target]) = reverseNames done ++ [name] := by
  simp [reverseNames, h]

/-- The progress after a target that is added. -/
inductive PtrTarget.Added (zones : String → Prop) (target : PtrTarget) (progress : PtrProgress) :
    PtrProgress → Prop
  /-- An earlier target has the same reverse name and keeps it. -/
  | kept {name : String} (reverse : ofContent? target.address = some name)
      (written : progress.writes name = true) : Added zones target progress progress
  /-- The reverse name is written. -/
  | placed {name zone : String} {created : List String}
      (reverse : ofContent? target.address = some name) (fresh : progress.writes name = false)
      (hosted : zones zone) :
      Added zones target progress
        ⟨progress.operations ++ [⟨zone, .replace (ReverseSync.ptrRecord name target)⟩], created⟩

/-- The progress after a target that is removed. -/
inductive PtrTarget.Removed (zones : String → Prop) (target : PtrTarget) (progress : PtrProgress) :
    PtrProgress → Prop
  /-- The reverse name is written, is nowhere or is being removed already. -/
  | kept {name : String} (reverse : ofContent? target.address = some name) :
      Removed zones target progress progress
  /-- The reverse name is deleted. -/
  | dropped {name zone : String} (reverse : ofContent? target.address = some name)
      (fresh : progress.writes name = false) (untouched : progress.touches zone name = false)
      (hosted : zones zone) :
      Removed zones target progress { progress with
        operations := progress.operations ++ [⟨zone, .delete ⟨name, .named .ptr⟩⟩] }

namespace PtrProgress

variable {zones : String → Prop} {target : PtrTarget} {progress after : PtrProgress}
  {name zone : String} {operation : PtrOperation} {created : List String}

theorem writes_iff : progress.writes name = true ↔
    ∃ op ∈ progress.operations, op.change.type = .replace ∧ op.name = name := by
  simp [writes]

theorem touches_iff : progress.touches zone name = true ↔
    ∃ op ∈ progress.operations, op.zone = zone ∧ op.name = name := by
  simp [touches]

/-- What is written stays written. -/
theorem writes_append (h : progress.writes name = true) :
    (⟨progress.operations ++ [operation], created⟩ : PtrProgress).writes name = true := by
  obtain ⟨op, hop, hwrites⟩ := writes_iff.mp h
  exact writes_iff.mpr ⟨op, List.mem_append_left _ hop, hwrites⟩

/-- The zone and the name that each operation is about. -/
def sites (progress : PtrProgress) : List (String × String) :=
  progress.operations.map fun op => (op.zone, op.name)

/-- An operation on a name that is not touched is at a new site. -/
theorem sites_nodup_append (h : progress.sites.Nodup)
    (hfresh : progress.touches operation.zone operation.name = false) :
    (⟨progress.operations ++ [operation], created⟩ : PtrProgress).sites.Nodup := by
  unfold sites at h ⊢
  rw [List.map_append, List.map_singleton]
  refine h.append (List.nodup_singleton _) (List.disjoint_singleton.mpr fun hsite => ?_)
  obtain ⟨op, hop, heq⟩ := List.mem_map.mp hsite
  obtain ⟨hzone, hname⟩ := Prod.mk.inj heq
  have htouched := touches_iff.mpr ⟨op, hop, hzone, hname⟩
  exact absurd htouched (Bool.eq_false_iff.mp hfresh)

end PtrProgress

/-- Every operation so far is about the reverse name of a target. -/
def PtrProgress.Named (done : List PtrTarget) (progress : PtrProgress) : Prop :=
  ∀ op ∈ progress.operations, op.name ∈ reverseNames done

section Named

variable {zones : String → Prop} {target : PtrTarget} {progress after : PtrProgress}
  {done : List PtrTarget}

theorem PtrProgress.Named.concat (h : progress.Named done) {name : String}
    (hreverse : ofContent? target.address = some name) : progress.Named (done ++ [target]) := by
  intro op hop
  rw [reverseNames_concat hreverse]
  exact List.mem_append_left _ (h op hop)

/-- An operation on the reverse name of one more target. -/
theorem PtrProgress.Named.append (h : progress.Named done) {operation : PtrOperation}
    {created : List String} (hreverse : ofContent? target.address = some operation.name) :
    PtrProgress.Named (done ++ [target]) ⟨progress.operations ++ [operation], created⟩ := by
  refine List.forall_mem_append.mpr ⟨h.concat hreverse, List.forall_mem_singleton.mpr ?_⟩
  rw [reverseNames_concat hreverse]
  exact List.mem_append_right _ List.mem_cons_self

theorem PtrTarget.Added.named (hadded : target.Added zones progress after)
    (h : progress.Named done) : after.Named (done ++ [target]) := by
  cases hadded with
  | kept hreverse _ => exact h.concat hreverse
  | placed hreverse _ _ => exact h.append hreverse

theorem PtrTarget.Removed.named (hremoved : target.Removed zones progress after)
    (h : progress.Named done) : after.Named (done ++ [target]) := by
  cases hremoved with
  | kept hreverse => exact h.concat hreverse
  | dropped hreverse _ _ _ => exact h.append hreverse

end Named

/-! ### All additions -/

/-- The decisions when the targets so far were added. -/
structure PtrProgress.Adding (zones : String → Prop) (done : List PtrTarget)
    (progress : PtrProgress) : Prop where
  written : ∀ target ∈ done,
    ∃ name, ofContent? target.address = some name ∧ progress.writes name = true
  replaces : ∀ op ∈ progress.operations,
    op.change.type = .replace ∧ op.change.key.type = .named .ptr
  sites : progress.sites.Nodup
  hosted : ∀ op ∈ progress.operations, zones op.zone

namespace PtrProgress

variable {zones : String → Prop} {target : PtrTarget} {progress after : PtrProgress}
  {done : List PtrTarget}

theorem adding_nil : Adding zones [] ⟨[], []⟩ :=
  ⟨by simp, by simp, List.nodup_nil, by simp⟩

theorem Adding.mono {zones' : String → Prop} (h : progress.Adding zones done)
    (hzones : ∀ zone, zones zone → zones' zone) : progress.Adding zones' done :=
  ⟨h.written, h.replaces, h.sites, fun op hop => hzones _ (h.hosted op hop)⟩

theorem Adding.step (h : progress.Adding zones done)
    (hadded : target.Added zones progress after) : after.Adding zones (done ++ [target]) := by
  cases hadded with
  | kept hreverse hwritten =>
    exact ⟨List.forall_mem_append.mpr
      ⟨h.written, List.forall_mem_singleton.mpr ⟨_, hreverse, hwritten⟩⟩,
      h.replaces, h.sites, h.hosted⟩
  | @placed name zone created hreverse hfresh hhosted =>
    refine ⟨List.forall_mem_append.mpr ⟨fun other hother => ?_, List.forall_mem_singleton.mpr ?_⟩,
      List.forall_mem_append.mpr ⟨h.replaces, List.forall_mem_singleton.mpr ⟨rfl, rfl⟩⟩,
      sites_nodup_append h.sites ?_,
      List.forall_mem_append.mpr ⟨h.hosted, List.forall_mem_singleton.mpr hhosted⟩⟩
    · obtain ⟨written, hname, hwrites⟩ := h.written other hother
      exact ⟨written, hname, writes_append hwrites⟩
    · exact ⟨name, hreverse,
        writes_iff.mpr ⟨_, List.mem_append_right _ List.mem_cons_self, rfl, rfl⟩⟩
    · -- as long as everything is a replacement, what is touched is written
      refine Bool.eq_false_iff.mpr fun htouched => ?_
      obtain ⟨op, hop, -, hname⟩ := touches_iff.mp htouched
      have hwrites := writes_iff.mpr ⟨op, hop, (h.replaces op hop).1, hname⟩
      exact absurd hwrites (Bool.eq_false_iff.mp hfresh)

end PtrProgress

/-! ### All removals -/

/-- A change to a reverse zone that follows from the addresses that came and went. -/
structure PtrChanges.Allows (changes : PtrChanges) (change : Change) : Prop where
  type : change.key.type = .named .ptr
  gone : change.type = .delete →
    ∃ target ∈ changes.removals, ofContent? target.address = some change.key.name
  unwritten : change.type = .delete →
    ∀ target ∈ changes.additions, ofContent? target.address ≠ some change.key.name

/-- The decisions when all additions were added and the removals so far removed. -/
structure PtrProgress.Removing (zones : String → Prop) (changes : PtrChanges)
    (progress : PtrProgress) : Prop where
  written : ∀ target ∈ changes.additions,
    ∃ name, ofContent? target.address = some name ∧ progress.writes name = true
  readable : ∀ target ∈ changes.removals, ∃ name, ofContent? target.address = some name
  allowed : ∀ op ∈ progress.operations, changes.Allows op.change
  sites : progress.sites.Nodup
  hosted : ∀ op ∈ progress.operations, zones op.zone

namespace PtrProgress

variable {zones : String → Prop} {target : PtrTarget} {progress after : PtrProgress}
  {additions done : List PtrTarget} {change : Change}

theorem Adding.removing (h : progress.Adding zones additions) :
    progress.Removing zones ⟨additions, []⟩ := by
  refine ⟨h.written, by simp, fun op hop => ?_, h.sites, h.hosted⟩
  obtain ⟨hreplace, htype⟩ := h.replaces op hop
  exact ⟨htype, fun hdelete => by simp [hreplace] at hdelete,
    fun hdelete => by simp [hreplace] at hdelete⟩

/-- One removal more allows no less. -/
theorem allows_append (h : PtrChanges.Allows ⟨additions, done⟩ change) (target : PtrTarget) :
    PtrChanges.Allows ⟨additions, done ++ [target]⟩ change := by
  refine ⟨h.type, fun hdelete => ?_, h.unwritten⟩
  obtain ⟨gone, hgone, hname⟩ := h.gone hdelete
  exact ⟨gone, List.mem_append_left _ hgone, hname⟩

theorem Removing.mono {zones' : String → Prop} {changes : PtrChanges}
    (h : progress.Removing zones changes) (hzones : ∀ zone, zones zone → zones' zone) :
    progress.Removing zones' changes :=
  ⟨h.written, h.readable, h.allowed, h.sites, fun op hop => hzones _ (h.hosted op hop)⟩

theorem Removing.step (h : progress.Removing zones ⟨additions, done⟩)
    (hremoved : target.Removed zones progress after) :
    after.Removing zones ⟨additions, done ++ [target]⟩ := by
  have hallowed := fun op hop => allows_append (h.allowed op hop) target
  cases hremoved with
  | kept hreverse =>
    exact ⟨h.written, List.forall_mem_append.mpr
      ⟨h.readable, List.forall_mem_singleton.mpr ⟨_, hreverse⟩⟩, hallowed, h.sites, h.hosted⟩
  | @dropped name zone hreverse hfresh huntouched hhosted =>
    refine ⟨fun other hother => ?_, List.forall_mem_append.mpr
      ⟨h.readable, List.forall_mem_singleton.mpr ⟨name, hreverse⟩⟩,
      List.forall_mem_append.mpr ⟨hallowed, List.forall_mem_singleton.mpr ?_⟩,
      sites_nodup_append h.sites huntouched,
      List.forall_mem_append.mpr ⟨h.hosted, List.forall_mem_singleton.mpr hhosted⟩⟩
    · obtain ⟨written, hname, hwrites⟩ := h.written other hother
      exact ⟨written, hname, writes_append hwrites⟩
    · refine ⟨rfl, fun _ => ⟨target, by simp, hreverse⟩, fun _ other hother hsame => ?_⟩
      -- an addition with this reverse name would have it written
      obtain ⟨written, hname, hwrites⟩ := h.written other hother
      obtain rfl : written = name := Option.some.inj (hname.symm.trans hsame)
      exact absurd hwrites (Bool.eq_false_iff.mp hfresh)

/-! ### What is sent -/

variable {batch : String × List Change}

/-- The changes of a batch are those of the operations on its zone. -/
theorem exists_of_mem_batches (h : batch ∈ progress.batches) (hchange : change ∈ batch.2) :
    ∃ op ∈ progress.operations, op.zone = batch.1 ∧ op.change = change := by
  obtain ⟨zone, -, rfl⟩ := List.mem_map.mp h
  obtain ⟨op, hop, rfl⟩ := List.mem_map.mp hchange
  obtain ⟨hmem, hzone⟩ := List.mem_filter.mp (List.mem_mergeSort.mp hop)
  exact ⟨op, hmem, by simpa using hzone, rfl⟩

theorem exists_zone_of_mem_batches (h : batch ∈ progress.batches) :
    ∃ op ∈ progress.operations, op.zone = batch.1 := by
  obtain ⟨zone, hzone, rfl⟩ := List.mem_map.mp h
  rw [List.mem_mergeSort, List.mem_eraseDups] at hzone
  exact List.mem_map.mp hzone

/-- No batch is empty. -/
theorem ne_nil_of_mem_batches (h : batch ∈ progress.batches) : batch.2 ≠ [] := by
  obtain ⟨op, hop, hzone⟩ := exists_zone_of_mem_batches h
  obtain ⟨zone, -, rfl⟩ := List.mem_map.mp h
  have hown : op ∈ progress.operations.filter fun op => op.zone = zone :=
    List.mem_filter.mpr ⟨hop, by simpa using hzone⟩
  exact List.ne_nil_of_mem (List.mem_map_of_mem (List.mem_mergeSort.mpr hown))

/-- **No batch names a record set twice.** -/
theorem nodup_keys_of_mem_batches (hsites : progress.sites.Nodup) (h : batch ∈ progress.batches) :
    (batch.2.map Change.key).Nodup := by
  obtain ⟨zone, -, rfl⟩ := List.mem_map.mp h
  have hown : (progress.operations.filter fun op => op.zone = zone).Nodup :=
    (hsites.of_map _).filter _
  rw [List.map_map]
  refine List.Nodup.map_on (fun op hop other hother hkey => ?_)
    ((List.mergeSort_perm _ _).nodup_iff.mpr hown)
  obtain ⟨hop, hzone⟩ := List.mem_filter.mp (List.mem_mergeSort.mp hop)
  obtain ⟨hother, hotherZone⟩ := List.mem_filter.mp (List.mem_mergeSort.mp hother)
  have hsame : op.zone = other.zone :=
    (of_decide_eq_true hzone).trans (of_decide_eq_true hotherZone).symm
  have hname : op.name = other.name := congrArg RRsetKey.name hkey
  exact List.inj_on_of_nodup_map hsites hop hother (Prod.ext hsame hname)

end PtrProgress

end ZoneKeeper
