/-
What a pass over reverse names sends, said beforehand.

A pass finds its operations one target after another, founding zones on the way, and sorts them
when it has them all.  What it sends does not depend on any of that: each name has one operation
at most, a name is located in the end where it was located at the start, and one that was not is
located in its narrowest candidate if a name that is written has the same.  So the batches can be
computed from the addresses and from the zones that exist at the start, and it is these that a
pass sends once it has decided everything.
-/
import ZoneKeeper.Proofs.ReverseFailure

namespace ZoneKeeper

open ReverseName DomainName

/-! ### Batches do not depend on the order of operations -/

namespace PtrProgress

variable {progress other : PtrProgress}

/-- Operations on distinct names come in the order of their names. -/
theorem ascending_names {operations : List PtrOperation}
    (hnames : (operations.map PtrOperation.name).Nodup) :
    (operations.mergeSort fun a b => decide (a.name ≤ b.name)).Pairwise
      fun a b => a.name < b.name := by
  have hsorted := sorted_mergeSort (f := PtrOperation.name)
    (fun a b => decide_eq_true_iff) operations
  have hdistinct : (operations.mergeSort fun a b => decide (a.name ≤ b.name)).Pairwise
      fun a b => a.name ≠ b.name :=
    List.pairwise_map.mp (((List.mergeSort_perm _ _).map PtrOperation.name).nodup_iff.mpr hnames)
  exact (hsorted.and hdistinct).imp fun ⟨hle, hne⟩ => lt_of_le_of_ne hle hne

theorem batches_perm (h : progress.operations.Perm other.operations)
    (hnames : progress.names.Nodup) : progress.batches = other.batches := by
  have hzones : (progress.operations.map PtrOperation.zone).eraseDups.mergeSort
      (fun a b => decide (a ≤ b)) =
      (other.operations.map PtrOperation.zone).eraseDups.mergeSort fun a b => decide (a ≤ b) := by
    refine eq_of_ascending (f := id) (by simpa [map_fst_batches] using progress.zones_ascending)
      (by simpa [map_fst_batches] using other.zones_ascending) fun zone => ?_
    rw [List.mem_mergeSort, List.mem_mergeSort, List.mem_eraseDups, List.mem_eraseDups,
      (h.map PtrOperation.zone).mem_iff]
  unfold batches
  rw [hzones]
  refine List.map_congr_left fun zone _ => Prod.ext rfl (congrArg (List.map _) ?_)
  have hown := h.filter fun op => op.zone = zone
  have hfirst : ((progress.operations.filter fun op => op.zone = zone).map
      PtrOperation.name).Nodup := hnames.sublist (List.filter_sublist.map _)
  refine eq_of_ascending (f := PtrOperation.name) (ascending_names hfirst)
    (ascending_names ((hown.map _).nodup_iff.mp hfirst)) fun op => ?_
  rw [List.mem_mergeSort, List.mem_mergeSort, hown.mem_iff]

end PtrProgress

/-! ### The batches for addresses that came and went -/

namespace PtrChanges

/-- A zone is the narrowest candidate of a name that is written. -/
def wants (changes : PtrChanges) (zone : String) : Bool :=
  changes.writtenNames.any fun written => (zoneCandidates written).head? = some zone

/-- Where a name will be: where it is at the start, and otherwise in its narrowest candidate if
that is founded for a name that is written. -/
def home? (changes : PtrChanges) (server : Nameserver) (name : String) : Option String :=
  (server.location name).or ((zoneCandidates name).head?.filter changes.wants)

/-- What becomes of a name: it points where its first target says, or nowhere. -/
def change (changes : PtrChanges) (name : String) : Change :=
  match firstTarget? changes.additions name with
  | some target => .replace (ReverseSync.ptrRecord name target)
  | none => .delete ⟨name, .named .ptr⟩

/-- The operations on all names that have a zone. -/
def operations (changes : PtrChanges) (server : Nameserver) : List PtrOperation :=
  (changes.writtenNames ++ changes.droppedNames).filterMap fun name =>
    (changes.home? server name).map fun zone => ⟨zone, changes.change name⟩

/-- The batches for all zones that have operations, in the order of the zones. -/
def batches (changes : PtrChanges) (server : Nameserver) : List (String × List Change) :=
  PtrProgress.batches ⟨changes.operations server, []⟩

variable {changes : PtrChanges} {server after : Nameserver} {name zone : String}
  {op : PtrOperation}

theorem wants_iff : changes.wants zone = true ↔
    ∃ name ∈ reverseNames changes.additions, (zoneCandidates name).head? = some zone := by
  rw [wants, List.any_eq_true]
  refine exists_congr fun name => ?_
  rw [mem_writtenNames, decide_eq_true_iff]

theorem name_change (changes : PtrChanges) (name : String) :
    (changes.change name).key.name = name := by
  unfold change
  split <;> rfl

theorem mem_operations : op ∈ changes.operations server ↔
    (op.name ∈ changes.writtenNames ∨ op.name ∈ changes.droppedNames) ∧
      changes.home? server op.name = some op.zone ∧ op.change = changes.change op.name := by
  rw [operations, List.mem_filterMap]
  constructor
  · rintro ⟨name, hname, hop⟩
    obtain ⟨zone, hzone, rfl⟩ := Option.map_eq_some_iff.mp hop
    have hsame : (⟨zone, changes.change name⟩ : PtrOperation).name = name :=
      name_change changes name
    rw [hsame]
    exact ⟨List.mem_append.mp hname, hzone, rfl⟩
  · rintro ⟨hname, hzone, hchange⟩
    refine ⟨op.name, List.mem_append.mpr hname, ?_⟩
    rw [hzone, Option.map_some, ← hchange]

theorem nodup_names_operations (changes : PtrChanges) (server : Nameserver) :
    ((changes.operations server).map PtrOperation.name).Nodup := by
  have hnames : (changes.writtenNames ++ changes.droppedNames).Nodup := by
    refine (nodup_eraseDups _).append ((nodup_eraseDups _).filter _)
      fun name hwritten hdropped => ?_
    exact (mem_droppedNames.mp hdropped).2 (mem_writtenNames.mp hwritten)
  have hlocated : (changes.operations server).map PtrOperation.name =
      (changes.writtenNames ++ changes.droppedNames).filter fun name =>
        (changes.home? server name).isSome := by
    rw [operations, List.map_filterMap, ← List.filterMap_eq_filter]
    refine List.filterMap_congr fun name _ => ?_
    cases hzone : changes.home? server name with
    | none => simp [hzone, Option.guard]
    | some zone =>
      simpa [hzone, Option.guard, PtrOperation.name] using name_change changes name
  rw [hlocated]
  exact hnames.filter _

/-- A name is at home in one of its candidates. -/
theorem mem_candidates_of_home? (h : changes.home? server name = some zone) :
    zone ∈ zoneCandidates name := by
  rcases Option.or_eq_some_iff.mp h with hlocated | ⟨-, hnarrowest⟩
  · exact (Nameserver.location_eq_some hlocated).1
  · exact List.mem_of_mem_head? (Option.filter_eq_some_iff.mp hnarrowest).1

/-- Only the zones that exist matter, and of those only candidates. -/
theorem batches_congr (h : ∀ zone, after.hasZone zone = server.hasZone zone) :
    changes.batches after = changes.batches server := by
  have hhome : ∀ name, changes.home? after name = changes.home? server name := fun name => by
    rw [home?, home?, Nameserver.location_congr fun zone _ => h zone]
  have hoperations : changes.operations after = changes.operations server :=
    List.filterMap_congr fun name _ => by rw [hhome]
  rw [batches, batches, hoperations]

theorem zones_ascending (changes : PtrChanges) (server : Nameserver) :
    ((changes.batches server).map Prod.fst).Pairwise fun zone other => zone < other :=
  PtrProgress.zones_ascending _

/-- Zones of batches are spelled without a dot at their end. -/
theorem relative_of_mem_batches {batch : String × List Change}
    (h : batch ∈ changes.batches server) : relative batch.1 = batch.1 := by
  obtain ⟨op, hop, hzone⟩ := PtrProgress.exists_zone_of_mem_batches h
  obtain ⟨hname, hhome, -⟩ := mem_operations.mp hop
  have hreverse : IsReverse op.name := isReverse_of_mem (List.mem_append.mpr hname)
  rw [← hzone]
  exact hreverse.relative_candidate (mem_candidates_of_home? hhome)

/-! ### What a pass decides is what was said -/

section Decided

variable {start : Nameserver} {progress : PtrProgress} {deletes : List PtrOperation}

theorem firstTarget?_eq_none {targets : List PtrTarget} (h : name ∉ reverseNames targets) :
    firstTarget? targets name = none :=
  List.find?_eq_none.mpr fun target htarget hsame =>
    h (List.mem_filterMap.mpr ⟨target, htarget, of_decide_eq_true hsame⟩)

/-- **A name is located where it was said to be,** when all zones are founded. -/
theorem location_eq_home? (hwritten : progress.Written start changes.additions server)
    (hname : IsReverse name) : server.location name = changes.home? start name := by
  unfold home?
  cases hstart : start.location name with
  | some zone =>
    rw [Option.some_or]
    exact hwritten.founded.location_of_some hname hstart
  | none =>
    obtain ⟨narrowest, hnarrowest⟩ := hname.exists_narrowest
    rw [Option.none_or, hnarrowest, Option.filter_some]
    split
    · next hshared =>
      obtain ⟨written, hcome, hhead⟩ := wants_iff.mp hshared
      have hsame := zoneCandidates_eq_of_narrowest_mem hname (isReverse_of_mem_reverseNames hcome)
        hnarrowest (List.mem_of_mem_head? hhead)
      have hcreated : narrowest ∈ progress.created := (hwritten.mem_created narrowest).mpr
        ⟨written, hcome, (Nameserver.location_eq_of_candidates hsame).trans hstart, hhead⟩
      exact (hwritten.founded.location_of_mem hname hcreated
        (List.mem_of_mem_head? hnarrowest)).2.1
    · next hshared =>
      cases hafter : server.location name with
      | none => rfl
      | some zone =>
        -- the zone would be founded for a name that is written
        obtain ⟨hcreated, hhead⟩ := hwritten.founded.location_of_none hname hstart hafter
        obtain rfl := Option.some.inj (hnarrowest.symm.trans hhead)
        obtain ⟨written, hcome, -, hfirst⟩ := (hwritten.mem_created narrowest).mp hcreated
        exact absurd (wants_iff.mpr ⟨written, hcome, hfirst⟩) hshared

variable (hwritten : progress.Written start changes.additions server)
  (hcleared : progress.Cleared server changes.removals deletes)
include hwritten hcleared

/-- An operation that was decided is one of those that were said. -/
theorem mem_operations_of_decided (hop : op ∈ (progress.withDeletes deletes).operations) :
    op ∈ changes.operations start := by
  obtain ⟨hname, hlocated⟩ := (PtrProgress.placed_withDeletes hwritten hcleared).located op hop
  rw [location_eq_home? hwritten hname] at hlocated
  refine mem_operations.mpr ?_
  unfold change
  rcases List.mem_append.mp hop with hwrites | hdeletes
  · have hcome := (hwritten.mem_names _).mp (List.mem_map_of_mem hwrites)
    obtain ⟨-, target, hfirst, hchange⟩ := hwritten.operations op hwrites
    rw [hfirst]
    exact ⟨Or.inl (mem_writtenNames.mpr hcome), hlocated, hchange⟩
  · obtain ⟨hgone, hfresh, -⟩ := (hcleared.mem_names _).mp (List.mem_map_of_mem hdeletes)
    rw [hwritten.mem_names] at hfresh
    rw [firstTarget?_eq_none hfresh]
    exact ⟨Or.inr (mem_droppedNames.mpr ⟨hgone, hfresh⟩), hlocated,
      (hcleared.operations op hdeletes).2⟩

/-- A name that was said to have an operation has one. -/
theorem exists_decided (hop : op ∈ changes.operations start) :
    ∃ decided ∈ (progress.withDeletes deletes).operations, decided.name = op.name := by
  obtain ⟨hname, hhome, -⟩ := mem_operations.mp hop
  have hreverse : IsReverse op.name := isReverse_of_mem (List.mem_append.mpr hname)
  rcases hname with hcome | hgone
  · obtain ⟨decided, hdecided, hsame⟩ := List.mem_map.mp
      ((hwritten.mem_names op.name).mpr (mem_writtenNames.mp hcome))
    exact ⟨decided, List.mem_append_left _ hdecided, hsame⟩
  · obtain ⟨hgone, hfresh⟩ := mem_droppedNames.mp hgone
    rw [← location_eq_home? hwritten hreverse] at hhome
    have hdeleted : op.name ∈ deletes.map PtrOperation.name :=
      (hcleared.mem_names op.name).mpr
        ⟨hgone, by rwa [hwritten.mem_names], by rw [hhome]; rfl⟩
    obtain ⟨decided, hdecided, hsame⟩ := List.mem_map.mp hdeleted
    exact ⟨decided, List.mem_append_right _ hdecided, hsame⟩

/-- **A pass sends the batches that were said,** once it has decided everything. -/
theorem batches_eq : (progress.withDeletes deletes).batches = changes.batches start := by
  have hplaced := PtrProgress.placed_withDeletes hwritten hcleared
  refine PtrProgress.batches_perm ((List.perm_ext_iff_of_nodup (hplaced.nodup.of_map _)
    ((nodup_names_operations changes start).of_map _)).mpr fun op => ?_) hplaced.nodup
  refine ⟨mem_operations_of_decided hwritten hcleared, fun hop => ?_⟩
  obtain ⟨decided, hdecided, hsame⟩ := exists_decided hwritten hcleared hop
  -- the operation on a name is determined by the name
  obtain ⟨-, hhome, hchange⟩ := mem_operations.mp hop
  obtain ⟨-, hhome', hchange'⟩ :=
    mem_operations.mp (mem_operations_of_decided hwritten hcleared hdecided)
  rw [hsame] at hhome' hchange'
  have heq : decided = op := by
    cases decided
    cases op
    simp only [PtrOperation.mk.injEq]
    exact ⟨Option.some.inj (hhome'.symm.trans hhome), hchange'.trans hchange.symm⟩
  exact heq ▸ hdecided

end Decided

end PtrChanges

end ZoneKeeper
