/-
Where the operations of a pass are.

Each reverse name gets at most one operation.  For every name among the additions that is the
replacement by the first of them, for every other name among the removals the deletion, and each
operation is on the zone in which the name is located.  `Written` says so of the additions so far,
together with the zones that were founded for them, and `Cleared` of the removals after them.

A zone is founded only for a name that has none, and then it is the narrowest candidate of the
name.  So the names that have a zone already stay where they are, and what was decided earlier
stays right.
-/
import ZoneKeeper.Proofs.ReverseLocation
import ZoneKeeper.Proofs.ReverseProgress

namespace ZoneKeeper

open ReverseName DomainName

/-! ### Additions -/

/-- The first target with a reverse name. -/
def firstTarget? (targets : List PtrTarget) (name : String) : Option PtrTarget :=
  targets.find? fun target => target.reverse? = some name

theorem isReverse_of_mem_reverseNames {targets : List PtrTarget} {name : String}
    (h : name ∈ reverseNames targets) : IsReverse name := by
  obtain ⟨target, -, hreverse⟩ := List.mem_filterMap.mp h
  exact isReverse_of_ofContent? hreverse

theorem readable_concat {done : List PtrTarget} {target : PtrTarget} {name : String}
    (h : ∀ other ∈ done, other.reverse?.isSome = true) (hreverse : target.reverse? = some name) :
    ∀ other ∈ done ++ [target], other.reverse?.isSome = true :=
  List.forall_mem_append.mpr ⟨h, List.forall_mem_singleton.mpr (by rw [hreverse]; rfl)⟩

/-- The first target with a name stays the first. -/
theorem firstTarget?_concat_of_mem {done : List PtrTarget} {target : PtrTarget} {name : String}
    (h : name ∈ reverseNames done) :
    firstTarget? (done ++ [target]) name = firstTarget? done name := by
  obtain ⟨first, hmem, hreverse⟩ := List.mem_filterMap.mp h
  rw [firstTarget?, firstTarget?, List.find?_append]
  refine Option.or_of_isSome (List.find?_isSome.mpr ⟨first, hmem, by simpa using hreverse⟩)

/-- A target with a new name is the first with that name. -/
theorem firstTarget?_concat_of_not_mem {done : List PtrTarget} {target : PtrTarget} {name : String}
    (hreverse : target.reverse? = some name) (h : name ∉ reverseNames done) :
    firstTarget? (done ++ [target]) name = some target := by
  have hnone : done.find? (fun t => t.reverse? = some name) = none :=
    List.find?_eq_none.mpr fun t ht hsame =>
      h (List.mem_filterMap.mpr ⟨t, ht, by simpa using hsame⟩)
  rw [firstTarget?, List.find?_append, hnone]
  simp [hreverse]

namespace PtrProgress

/-- The names that operations are about. -/
def names (progress : PtrProgress) : List String :=
  progress.operations.map PtrOperation.name

/-- The decisions when the targets so far were added, and the nameserver with the zones that were
founded for them since the pass began at `start`. -/
structure Written (start : Nameserver) (done : List PtrTarget) (progress : PtrProgress)
    (server : Nameserver) : Prop where
  readable : ∀ target ∈ done, target.reverse?.isSome = true
  nodup : progress.names.Nodup
  mem_names : ∀ name, name ∈ progress.names ↔ name ∈ reverseNames done
  /-- Each operation points a name at its first target, in the zone where the name is located. -/
  operations : ∀ op ∈ progress.operations, server.location op.name = some op.zone ∧
    ∃ target, firstTarget? done op.name = some target ∧
      op.change = .replace (ReverseSync.ptrRecord op.name target)
  founded : start.Founded server progress.created
  nodup_created : progress.created.Nodup
  /-- A zone was founded for each name that had none. -/
  mem_created : ∀ zone, zone ∈ progress.created ↔ ∃ name ∈ reverseNames done,
    start.location name = none ∧ (zoneCandidates name).head? = some zone

variable {start server after : Nameserver} {progress : PtrProgress} {done : List PtrTarget}
  {target : PtrTarget} {name zone : String} {created : List String}

theorem written_nil (server : Nameserver) : Written server [] ⟨[], []⟩ server :=
  ⟨by simp, List.nodup_nil, fun _ => Iff.rfl, by simp, .refl server, List.nodup_nil,
    by simp [reverseNames]⟩

theorem Written.writes_iff (h : Written start done progress server) :
    progress.writes name = true ↔ name ∈ reverseNames done := by
  rw [PtrProgress.writes_iff, ← h.mem_names, names, List.mem_map]
  refine exists_congr fun op => and_congr_right fun hop => and_iff_right ?_
  obtain ⟨-, target, -, hchange⟩ := h.operations op hop
  rw [hchange]
  rfl

/-- A name that is written already stays with its first target. -/
theorem Written.keep (h : Written start done progress server)
    (hreverse : target.reverse? = some name) (hwritten : name ∈ reverseNames done) :
    Written start (done ++ [target]) progress server := by
  have hnames : ∀ other, other ∈ reverseNames (done ++ [target]) ↔ other ∈ reverseNames done := by
    intro other
    rw [reverseNames_concat hreverse, List.mem_append, List.mem_singleton]
    exact or_iff_left_of_imp fun heq => heq ▸ hwritten
  refine ⟨readable_concat h.readable hreverse, h.nodup,
    fun other => (h.mem_names other).trans (hnames other).symm, fun op hop => ?_, h.founded,
    h.nodup_created, fun zone => ?_⟩
  · rw [firstTarget?_concat_of_mem ((h.mem_names _).mp (List.mem_map_of_mem hop))]
    exact h.operations op hop
  · rw [h.mem_created]
    exact exists_congr fun other => and_congr_left fun _ => (hnames other).symm

/-- A new name is written where it is located when zones have been founded for it. -/
theorem Written.place (h : Written start done progress server)
    (hreverse : target.reverse? = some name) (hfresh : name ∉ reverseNames done)
    (hlocated : after.location name = some zone)
    (hkept : ∀ other zone, IsReverse other → server.location other = some zone →
      after.location other = some zone)
    (hfounded : start.Founded after created) (hnodup : created.Nodup)
    (hcreated : ∀ zone, zone ∈ created ↔ zone ∈ progress.created ∨
      start.location name = none ∧ (zoneCandidates name).head? = some zone) :
    Written start (done ++ [target])
      ⟨progress.operations ++ [⟨zone, .replace (ReverseSync.ptrRecord name target)⟩], created⟩
      after := by
  have hnames : (⟨progress.operations ++ [⟨zone, .replace (ReverseSync.ptrRecord name target)⟩],
      created⟩ : PtrProgress).names = progress.names ++ [name] := by
    rw [names, List.map_append]
    rfl
  refine ⟨readable_concat h.readable hreverse, ?_, fun other => ?_, ?_, hfounded, hnodup,
    fun other => ?_⟩
  · rw [hnames]
    refine h.nodup.append (List.nodup_singleton _) (List.disjoint_singleton.mpr ?_)
    rwa [h.mem_names]
  · rw [hnames, reverseNames_concat hreverse, List.mem_append, List.mem_append, h.mem_names]
  · refine List.forall_mem_append.mpr ⟨fun op hop => ?_, List.forall_mem_singleton.mpr
      ⟨hlocated, target, firstTarget?_concat_of_not_mem hreverse hfresh, rfl⟩⟩
    have hold := (h.mem_names _).mp (List.mem_map_of_mem hop)
    obtain ⟨hplaced, hchange⟩ := h.operations op hop
    rw [firstTarget?_concat_of_mem hold]
    exact ⟨hkept _ _ (isReverse_of_mem_reverseNames hold) hplaced, hchange⟩
  · rw [hcreated, h.mem_created, reverseNames_concat hreverse]
    simp only [List.mem_append, List.mem_singleton, or_and_right, exists_or, exists_eq_left]

end PtrProgress

namespace ReverseSync

variable {setup : Sandbox.Setup} {start server : Nameserver} {progress : PtrProgress}
  {done : List PtrTarget} {known : Locations} {box : Sandbox}

theorem ends_add (hknown : Accurate known box.server)
    (h : progress.Written start done box.server) (target : PtrTarget) :
    Ends known box (add setup.services setup.reverseZones progress target)
      (fun after known' box' => Accurate known' box'.server ∧
        after.Written start (done ++ [target]) box'.server)
      fun e _ _ => Unsent e := by
  unfold add
  refine ends_bind (ends_ofResult (fun name hresult => ?_) fun _ => unsent_of_reverseName)
  have hreverse : target.reverse? = some name := reverseName_eq_ok.mp hresult
  have hname : IsReverse name := isReverse_of_ofContent? hreverse
  cases hwrites : progress.writes name with
  | true => exact ends_pure ⟨hknown, h.keep hreverse (h.writes_iff.mp hwrites)⟩
  | false =>
    have hfresh : name ∉ reverseNames done := fun hmem =>
      absurd (h.writes_iff.mpr hmem) (Bool.eq_false_iff.mp hwrites)
    refine (ends_locate hname hknown).bind ?_
    rintro found known box ⟨rfl, hknown, rfl⟩
    cases hlocated : box.server.location name with
    | some zone =>
      refine ends_pure ⟨hknown, h.place hreverse hfresh hlocated (fun _ _ _ => id) h.founded
        h.nodup_created fun other => (or_iff_left_of_imp ?_).symm⟩
      -- a name that came to be located is so in a zone that was founded
      rintro ⟨hnone, hnarrowest⟩
      obtain ⟨hfounded, hhead⟩ := h.founded.location_of_none hname hnone hlocated
      rwa [Option.some.inj (hnarrowest.symm.trans hhead)]
    | none =>
      refine (ends_createNarrowest hname hknown hlocated).bind ?_
      rintro zone known' box' ⟨hknown', hnarrowest, type, hcreate⟩
      have hfounded := h.founded.create hname hlocated hnarrowest hcreate
      have hone := (Nameserver.Founded.refl _).create hname hlocated hnarrowest hcreate
      have hnew : zone ∉ progress.created := by
        intro hold
        have hserved := (h.founded.hasZone zone).mpr (Or.inr ?_)
        · rw [Nameserver.location_eq_none.mp hlocated zone (List.mem_of_mem_head? hnarrowest)]
            at hserved
          cases hserved
        · rwa [hname.relative_candidate (List.mem_of_mem_head? hnarrowest)]
      refine ends_pure ⟨hknown', h.place hreverse hfresh ?_ (fun _ _ => hone.location_of_some)
        hfounded ?_ fun other => ?_⟩
      · exact (hone.location_of_mem hname List.mem_cons_self
          (List.mem_of_mem_head? hnarrowest)).2.1
      · exact h.nodup_created.append (List.nodup_singleton _) (List.disjoint_singleton.mpr hnew)
      · rw [List.mem_append, List.mem_singleton]
        refine or_congr_right ⟨?_, ?_⟩
        · rintro rfl
          exact ⟨h.founded.location_none hlocated, hnarrowest⟩
        · rintro ⟨-, hhead⟩
          exact Option.some.inj (hhead.symm.trans hnarrowest)

end ReverseSync

/-! ### Removals -/

namespace PtrProgress

/-- The progress with deletions decided on after everything else. -/
def withDeletes (progress : PtrProgress) (deletes : List PtrOperation) : PtrProgress :=
  { progress with operations := progress.operations ++ deletes }

/-- The deletions when the targets so far were removed.  No zone is founded for them. -/
structure Cleared (progress : PtrProgress) (server : Nameserver) (done : List PtrTarget)
    (deletes : List PtrOperation) : Prop where
  readable : ∀ target ∈ done, target.reverse?.isSome = true
  nodup : (deletes.map PtrOperation.name).Nodup
  mem_names : ∀ name, name ∈ deletes.map PtrOperation.name ↔
    name ∈ reverseNames done ∧ name ∉ progress.names ∧ (server.location name).isSome = true
  operations : ∀ op ∈ deletes, server.location op.name = some op.zone ∧
    op.change = .delete ⟨op.name, .named .ptr⟩

variable {start server : Nameserver} {progress : PtrProgress} {additions done : List PtrTarget}
  {target : PtrTarget} {deletes : List PtrOperation} {name zone : String}

theorem cleared_nil (progress : PtrProgress) (server : Nameserver) :
    progress.Cleared server [] [] :=
  ⟨by simp, List.nodup_nil, by simp [reverseNames], by simp⟩

/-- A target whose name is written, is nowhere or is being removed already changes nothing. -/
theorem Cleared.keep (h : progress.Cleared server done deletes)
    (hreverse : target.reverse? = some name)
    (hname : name ∉ progress.names → (server.location name).isSome = true →
      name ∈ reverseNames done) :
    progress.Cleared server (done ++ [target]) deletes := by
  refine ⟨readable_concat h.readable hreverse, h.nodup, fun other => ?_, h.operations⟩
  rw [h.mem_names, reverseNames_concat hreverse, List.mem_append, List.mem_singleton]
  constructor
  · rintro ⟨hdone, hrest⟩
    exact ⟨Or.inl hdone, hrest⟩
  · rintro ⟨hdone | rfl, hfresh, hlocated⟩
    · exact ⟨hdone, hfresh, hlocated⟩
    · exact ⟨hname hfresh hlocated, hfresh, hlocated⟩

/-- A new name is removed from the zone where it is located. -/
theorem Cleared.drop (h : progress.Cleared server done deletes)
    (hreverse : target.reverse? = some name) (hfresh : name ∉ progress.names)
    (hnew : name ∉ reverseNames done) (hlocated : server.location name = some zone) :
    progress.Cleared server (done ++ [target])
      (deletes ++ [⟨zone, .delete ⟨name, .named .ptr⟩⟩]) := by
  have hnames :
      (deletes ++ [(⟨zone, .delete ⟨name, .named .ptr⟩⟩ : PtrOperation)]).map PtrOperation.name =
        deletes.map PtrOperation.name ++ [name] := by
    rw [List.map_append]
    rfl
  refine ⟨readable_concat h.readable hreverse, ?_, fun other => ?_, List.forall_mem_append.mpr
    ⟨h.operations, List.forall_mem_singleton.mpr ⟨hlocated, rfl⟩⟩⟩
  · rw [hnames]
    refine h.nodup.append (List.nodup_singleton _) (List.disjoint_singleton.mpr fun hmem => ?_)
    exact hnew ((h.mem_names name).mp hmem).1
  · rw [hnames, List.mem_append, List.mem_singleton, h.mem_names, reverseNames_concat hreverse,
      List.mem_append, List.mem_singleton, or_and_right]
    refine or_congr_right (iff_self_and.mpr ?_)
    rintro rfl
    exact ⟨hfresh, by simp [hlocated]⟩

/-- Deletions write nothing. -/
theorem Cleared.writes_iff (hwritten : progress.Written start additions server)
    (h : progress.Cleared server done deletes) :
    (progress.withDeletes deletes).writes name = true ↔ name ∈ progress.names := by
  rw [hwritten.mem_names, ← hwritten.writes_iff, PtrProgress.writes_iff, PtrProgress.writes_iff]
  constructor
  · rintro ⟨op, hop, hreplace, hname⟩
    rcases List.mem_append.mp hop with hold | hdelete
    · exact ⟨op, hold, hreplace, hname⟩
    · rw [(h.operations op hdelete).2] at hreplace
      cases hreplace
  · rintro ⟨op, hop, hwrites⟩
    exact ⟨op, List.mem_append_left _ hop, hwrites⟩

/-- A name that is not written is touched where it is located if it is being removed. -/
theorem Cleared.touches_iff (h : progress.Cleared server done deletes)
    (hfresh : name ∉ progress.names) (hlocated : server.location name = some zone) :
    (progress.withDeletes deletes).touches zone name = true ↔ name ∈ reverseNames done := by
  rw [PtrProgress.touches_iff]
  constructor
  · rintro ⟨op, hop, -, rfl⟩
    rcases List.mem_append.mp hop with hold | hdelete
    · exact absurd (List.mem_map_of_mem hold) hfresh
    · exact ((h.mem_names _).mp (List.mem_map_of_mem hdelete)).1
  · intro hdone
    have hmem : name ∈ deletes.map PtrOperation.name :=
      (h.mem_names name).mpr ⟨hdone, hfresh, by simp [hlocated]⟩
    obtain ⟨op, hop, rfl⟩ := List.mem_map.mp hmem
    exact ⟨op, List.mem_append_right _ hop,
      Option.some.inj ((h.operations op hop).1.symm.trans hlocated), rfl⟩

end PtrProgress

namespace ReverseSync

variable {setup : Sandbox.Setup} {start : Nameserver} {progress : PtrProgress}
  {additions done : List PtrTarget} {deletes : List PtrOperation} {known : Locations}
  {box : Sandbox}

theorem ends_remove (hknown : Accurate known box.server)
    (hwritten : progress.Written start additions box.server)
    (h : progress.Cleared box.server done deletes) (target : PtrTarget) :
    Ends known box (remove setup.services (progress.withDeletes deletes) target)
      (fun after known' box' => box' = box ∧ Accurate known' box.server ∧
        ∃ deletes', after = progress.withDeletes deletes' ∧
          progress.Cleared box.server (done ++ [target]) deletes')
      fun e _ _ => Unsent e := by
  unfold remove
  refine ends_bind (ends_ofResult (fun name hresult => ?_) fun _ => unsent_of_reverseName)
  have hreverse : target.reverse? = some name := reverseName_eq_ok.mp hresult
  have hname : IsReverse name := isReverse_of_ofContent? hreverse
  cases hwrites : (progress.withDeletes deletes).writes name with
  | true =>
    have hold : name ∈ progress.names := (h.writes_iff hwritten).mp hwrites
    exact ends_pure ⟨rfl, hknown, deletes, rfl, h.keep hreverse fun hfresh => absurd hold hfresh⟩
  | false =>
    have hfresh : name ∉ progress.names := fun hold =>
      absurd ((h.writes_iff hwritten).mpr hold) (Bool.eq_false_iff.mp hwrites)
    refine (ends_locate hname hknown).bind ?_
    rintro found known box ⟨rfl, hknown, rfl⟩
    cases hlocated : box.server.location name with
    | none =>
      refine ends_pure ⟨rfl, hknown, deletes, rfl, h.keep hreverse fun _ hsome => ?_⟩
      rw [hlocated] at hsome
      cases hsome
    | some zone =>
      cases htouches : (progress.withDeletes deletes).touches zone name with
      | true =>
        simp only [htouches, if_true]
        have hdone := (h.touches_iff hfresh hlocated).mp htouches
        exact ends_pure ⟨rfl, hknown, deletes, rfl, h.keep hreverse fun _ _ => hdone⟩
      | false =>
        simp only [htouches, Bool.false_eq_true, if_false]
        have hnew : name ∉ reverseNames done := fun hdone =>
          absurd ((h.touches_iff hfresh hlocated).mpr hdone) (Bool.eq_false_iff.mp htouches)
        refine ends_pure ⟨rfl, hknown, _, ?_, h.drop hreverse hfresh hnew hlocated⟩
        rw [PtrProgress.withDeletes, PtrProgress.withDeletes, List.append_assoc]

end ReverseSync

end ZoneKeeper
