/-
A plan does not depend on how the nameserver orders its answer.

A nameserver may report the record sets of a zone in any order, and the values of a record set in
any order.  `Shuffled` relates two such answers.  What a reconciliation looks at survives this.  It
looks a record set up by its key, which finds the same one, up to the order of its values, because
the keys of a zone are distinct; and it compares it with `sameContent`, which sorts the values.  So
the same record sets have changed, and the same ones are to go, in whatever order.

The deletion rows come in another order, with other values in front, but a batch of deletions is
read off the keys alone.  What is kept as prior state is shuffled as the answer was, and so are the
addresses that go.
-/
import ZoneKeeper.Proofs.Reconciliation
import ZoneKeeper.Proofs.RowOrder
import ZoneKeeper.Proofs.SameContent
import ZoneKeeper.ReverseSync

namespace ZoneKeeper

/-! ### Record sets in any order -/

namespace RRset

/-- The same record sets in any order, each with its values in any order. -/
def Shuffled (xs ys : List RRset) : Prop :=
  ∃ zs, xs.Perm zs ∧ List.Forall₂ Reordered zs ys

variable {r s w : RRset} {xs ys xs' ys' : List RRset}

theorem Reordered.name (h : r.Reordered s) : r.name = s.name := congrArg RRsetKey.name h.key

theorem Reordered.type (h : r.Reordered s) : r.type = s.type := congrArg RRsetKey.type h.key

/-- A comparison with anything does not notice the order of the values. -/
theorem Reordered.sameContent (h : r.Reordered s) (w : RRset) :
    r.sameContent w = s.sameContent w := by
  have hremark : r.remark = s.remark := by rw [remark, remark, h.comments]
  have hsame : r.sameContent s = true := sameContent_iff.mpr ⟨h.ttl, h.records, hremark⟩
  exact (sameContent_congr hsame w).1.symm

/-- There are as many deletion rows, and they are for the same key. -/
theorem Reordered.deletionRows (h : r.Reordered s) : r.deletionRows.Perm s.deletionRows := by
  unfold RRset.deletionRows
  rw [h.key, h.ttl]
  by_cases hempty : r.records.isEmpty = true
  · have hempty' : s.records.isEmpty = true := by
      rw [List.isEmpty_iff] at hempty ⊢
      exact List.nil_perm.mp (hempty ▸ h.records)
    rw [if_pos hempty, if_pos hempty']
  · have hempty' : ¬s.records.isEmpty = true := by
      rw [List.isEmpty_iff] at hempty ⊢
      intro hnil
      exact hempty (List.perm_nil.mp (hnil ▸ h.records))
    rw [if_neg hempty, if_neg hempty']
    exact h.records.map _

namespace Shuffled

theorem of_forall₂ (h : List.Forall₂ Reordered xs ys) : Shuffled xs ys :=
  ⟨xs, .refl xs, h⟩

theorem append (h : Shuffled xs ys) (h' : Shuffled xs' ys') : Shuffled (xs ++ xs') (ys ++ ys') := by
  obtain ⟨zs, hperm, hreordered⟩ := h
  obtain ⟨zs', hperm', hreordered'⟩ := h'
  exact ⟨zs ++ zs', hperm.append hperm', List.rel_append hreordered hreordered'⟩

/-- A choice that does not look at the order of the values makes no difference. -/
theorem filter {p : RRset → Bool} (hp : ∀ r s, Reordered r s → p r = p s) (h : Shuffled xs ys) :
    Shuffled (xs.filter p) (ys.filter p) := by
  obtain ⟨zs, hperm, hreordered⟩ := h
  refine ⟨zs.filter p, hperm.filter p, List.rel_filter ?_ hreordered⟩
  intro r s hrs
  show p r = true ↔ p s = true
  rw [hp r s hrs]

/-- What is made of each record set is in another order. -/
theorem flatMap_perm {β : Type} {f : RRset → List β}
    (hf : ∀ r s, Reordered r s → (f r).Perm (f s)) (h : Shuffled xs ys) :
    (xs.flatMap f).Perm (ys.flatMap f) := by
  obtain ⟨zs, hperm, hreordered⟩ := h
  refine (hperm.flatMap_right f).trans ?_
  clear hperm
  induction hreordered with
  | nil => exact .refl _
  | cons hrs _ ih =>
    rw [List.flatMap_cons, List.flatMap_cons]
    exact (hf _ _ hrs).append ih

theorem eq_nil (h : Shuffled [] ys) : ys = [] := by
  obtain ⟨zs, hperm, hreordered⟩ := h
  rw [List.nil_perm.mp hperm] at hreordered
  exact List.forall₂_nil_left_iff.mp hreordered

theorem eq_singleton (h : Shuffled [r] ys) : ∃ s, ys = [s] ∧ Reordered r s := by
  obtain ⟨zs, hperm, hreordered⟩ := h
  rw [← List.singleton_perm.mp hperm] at hreordered
  obtain ⟨s, rest, hrs, hrest, rfl⟩ := List.forall₂_cons_left_iff.mp hreordered
  exact ⟨s, by rw [List.forall₂_nil_left_iff.mp hrest], hrs⟩

/-- **Where keys are distinct, looking one up finds the same record set,** up to the order of its
values, or finds none on either side. -/
theorem currentWithKey? (h : Shuffled xs ys) (hnodup : (xs.map key).Nodup) (k : RRsetKey) :
    Option.Rel Reordered (ZoneKeeper.currentWithKey? xs k) (ZoneKeeper.currentWithKey? ys k) := by
  have hkeyed : Shuffled (withKey xs k) (withKey ys k) := h.filter fun r s hrs => by rw [hrs.key]
  rw [currentWithKey?_eq, currentWithKey?_eq]
  by_cases hfound : ∃ r ∈ xs, r.key = k
  · obtain ⟨r, hr, rfl⟩ := hfound
    rw [withKey_of_mem hnodup hr] at hkeyed ⊢
    obtain ⟨s, hs, hrs⟩ := hkeyed.eq_singleton
    rw [hs]
    exact .some hrs
  · have hnone : withKey xs k = [] :=
      withKey_eq_nil.mpr fun r hr hkey => hfound ⟨r, hr, hkey⟩
    rw [hnone] at hkeyed ⊢
    rw [hkeyed.eq_nil]
    exact .none

end Shuffled

end RRset

/-! ### Reconciliations -/

namespace Reconciliation

variable {policy : Policy} {desired : List FlatRow} {current other : List RRset}

/-- The rows that delete write nothing. -/
theorem filter_deleted (key : RRsetKey) :
    (between policy desired current).deleted.filter (FlatRow.Changes policy .replace key) = [] := by
  refine List.filter_eq_nil_iff.mpr fun row hrow hchanges => ?_
  obtain ⟨-, -, -, hdelete⟩ := mem_deleted hrow
  obtain ⟨hreplace, -⟩ := of_decide_eq_true hchanges
  exact absurd (hdelete.symm.trans hreplace) (by decide)

section

variable (h : RRset.Shuffled current other)
include h

theorem removed_shuffled :
    RRset.Shuffled (removed policy desired current) (removed policy desired other) :=
  h.filter fun r s hrs => by rw [hrs.key, hrs.type]

theorem deleted_perm :
    (between policy desired current).deleted.Perm (between policy desired other).deleted :=
  (removed_shuffled h).flatMap_perm fun _ _ hrs => hrs.deletionRows

variable (hnodup : (current.map RRset.key).Nodup)
include hnodup

theorem needsWrite_eq (w : RRset) : needsWrite current w = needsWrite other w := by
  have hfound := h.currentWithKey? hnodup w.key
  unfold needsWrite
  generalize currentWithKey? current w.key = found at hfound ⊢
  generalize currentWithKey? other w.key = found' at hfound ⊢
  cases hfound with
  | none => rfl
  | some hrs => simp only [hrs.sameContent]

theorem changed_eq : changed policy desired current = changed policy desired other :=
  List.filter_congr fun w _ => needsWrite_eq h hnodup w

theorem added_eq :
    (between policy desired current).added = (between policy desired other).added := by
  unfold between
  rw [changed_eq h hnodup]

theorem prior_shuffled :
    RRset.Shuffled (between policy desired current).prior (between policy desired other).prior := by
  refine (removed_shuffled h).append (.of_forall₂ ?_)
  rw [← changed_eq h hnodup]
  refine List.rel_filterMap ?_ (show List.Forall₂ Eq _ _ from List.forall₂_refl _)
  rintro w _ rfl
  exact h.currentWithKey? hnodup w.key

/-- **The batches are the same,** although the deletion rows come in another order. -/
theorem batches_eq : (between policy desired current).batches policy =
    (between policy desired other).batches policy := by
  have hperm : ((between policy desired current).deleted ++
      (between policy desired current).added).Perm
      ((between policy desired other).deleted ++ (between policy desired other).added) := by
    rw [added_eq h hnodup]
    exact (deleted_perm h).append_right _
  have hdeletes := Batches.deletes_congr (Batches.exists_changes_of_perm hperm policy .delete)
  have hreplaces : (Batches.ofRows policy ((between policy desired current).deleted ++
        (between policy desired current).added)).replaces =
      (Batches.ofRows policy ((between policy desired other).deleted ++
        (between policy desired other).added)).replaces := by
    refine Batches.replaces_congr fun key => ?_
    rw [List.filter_append, List.filter_append, filter_deleted, filter_deleted, added_eq h hnodup]
  exact congrArg₂ Batches.mk hdeletes hreplaces

end

end Reconciliation

/-! ### Addresses that come and go -/

/-- What is gone from a record set does not depend on the order of its values. -/
theorem RRset.Reordered.goneTargets {r s : RRset} (h : r.Reordered s) (written : List RRset) :
    ((PtrChanges.goneValues written r).map r.ptrTarget).Perm
      ((PtrChanges.goneValues written s).map s.ptrTarget) := by
  have hgone : (PtrChanges.goneValues written r).Perm (PtrChanges.goneValues written s) := by
    unfold PtrChanges.goneValues
    rw [h.key]
    cases written.find? fun w => w.key = s.key with
    | none => exact h.records
    | some replacement => exact h.records.filter _
  have htarget : r.ptrTarget = s.ptrTarget := by
    funext value
    rw [RRset.ptrTarget, RRset.ptrTarget, h.name, h.ttl]
  rw [htarget]
  exact hgone.map _

/-- The addresses that go are the same in another order. -/
theorem RRset.Shuffled.removals_perm {prior other : List RRset} (h : RRset.Shuffled prior other)
    (written : List RRset) :
    (PtrChanges.ofApply written prior).removals.Perm
      (PtrChanges.ofApply written other).removals := by
  have haddresses : RRset.Shuffled (prior.filter (·.type.isAddress))
      (other.filter (·.type.isAddress)) := h.filter fun r s hrs => by rw [hrs.type]
  exact haddresses.flatMap_perm fun _ _ hrs => hrs.goneTargets written

/-! ### Plans -/

namespace Reconciliation

/-- Two reconciliations have the same effect, and keep the same in any order. -/
structure Alike (policy : Policy) (plan plan' : Reconciliation) : Prop where
  batches : plan.batches policy = plan'.batches policy
  prior : RRset.Shuffled plan.prior plan'.prior
  additions : (PtrChanges.ofApply (plan.batches policy).replaces plan.prior).additions =
    (PtrChanges.ofApply (plan'.batches policy).replaces plan'.prior).additions
  removals : (PtrChanges.ofApply (plan.batches policy).replaces plan.prior).removals.Perm
    (PtrChanges.ofApply (plan'.batches policy).replaces plan'.prior).removals

/-- **The plan does not depend on the order of the answer.**  Where the keys of a zone are distinct,
its record sets and their values can be reported in any order: the reconciliation fails with the
same failure, or it sends the same batches, keeps the same prior state in some order, and sees the
same addresses come and go. -/
theorem reconcile_shuffled (zone : String) (policy : Policy) (rows : List Row)
    (current other : List RRset) (hnodup : (current.map RRset.key).Nodup)
    (h : RRset.Shuffled current other) :
    (∃ failure, reconcile zone policy rows current = .error failure ∧
      reconcile zone policy rows other = .error failure) ∨
    ∃ plan plan', reconcile zone policy rows current = .ok plan ∧
      reconcile zone policy rows other = .ok plan' ∧ plan.Alike policy plan' := by
  rw [reconcile_eq, reconcile_eq]
  cases desiredRows zone policy rows with
  | error failure => exact .inl ⟨failure, rfl, rfl⟩
  | ok desired =>
    have hbatches : (between policy desired current).batches policy =
        (between policy desired other).batches policy := batches_eq h hnodup
    have hprior : RRset.Shuffled (between policy desired current).prior
        (between policy desired other).prior := prior_shuffled h hnodup
    refine .inr ⟨between policy desired current, between policy desired other, rfl, rfl, hbatches,
      hprior, ?_, ?_⟩
    · rw [hbatches]
      rfl
    · rw [hbatches]
      exact hprior.removals_perm _

/-- A record set that is written again with one of its values, and one that goes. -/
def twoValues : List RRset :=
  [⟨"www.example.com.", .named .a, 3600, [⟨"192.0.2.1", false⟩, ⟨"192.0.2.2", true⟩], []⟩,
    ⟨"old.example.com.", .named .a, 60, [⟨"192.0.2.3", false⟩, ⟨"192.0.2.4", false⟩], []⟩]

theorem reconcile_shuffled_twoValues :
    let policy : Policy := ⟨false, true, [.named .a]⟩
    let rows : List Row := [.plain "www" (.named .a) "192.0.2.1"]
    let other := (twoValues.map fun r => { r with records := r.records.reverse }).reverse
    (twoValues.map RRset.key).Nodup ∧ RRset.Shuffled twoValues other ∧
      ∃ plan plan', reconcile "example.com" policy rows twoValues = .ok plan ∧
        reconcile "example.com" policy rows other = .ok plan' ∧ plan ≠ plan' ∧
        plan.Alike policy plan' := by
  intro policy rows other
  have hnodup : (twoValues.map RRset.key).Nodup := by decide
  have hshuffled : RRset.Shuffled twoValues other := by
    refine ⟨twoValues.reverse, (List.reverse_perm twoValues).symm, ?_⟩
    exact .cons ⟨rfl, rfl, rfl, by decide⟩ (.cons ⟨rfl, rfl, rfl, by decide⟩ .nil)
  have hok : (reconcile "example.com" policy rows twoValues).isOk = true := by decide +kernel
  have hdiffer : reconcile "example.com" policy rows twoValues ≠
      reconcile "example.com" policy rows other := by
    decide +kernel
  refine ⟨hnodup, hshuffled, ?_⟩
  rcases reconcile_shuffled "example.com" policy rows twoValues other hnodup hshuffled with
    ⟨failure, hfailed, -⟩ | ⟨plan, plan', hplan, hplan', halike⟩
  · rw [hfailed] at hok
    contradiction
  · rw [hplan, hplan'] at hdiffer
    exact ⟨plan, plan', hplan, hplan', fun heq => hdiffer (congrArg _ heq), halike⟩

end Reconciliation

end ZoneKeeper
