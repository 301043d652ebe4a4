/-
How much of the batches depends on the order in which rows are submitted.

Deletions do not depend on it at all, and neither do the keys that are written, because both are
read off which rows there are.  What is written under a key is made of the rows for that key in
their order, so it is the same as long as the rows of each change keep theirs.

Where the order within a change is lost, three choices can come out otherwise: the first time to
live, the first comment, and the first flag of a content.  If the rows of a replacement agree on all
three there is nothing to choose, and only the order of the values can differ.
-/
import ZoneKeeper.Proofs.Gathering

namespace ZoneKeeper

/-! ### Record sets whose values are in another order -/

/-- The record sets differ at most in the order of their values. -/
structure RRset.Reordered (r s : RRset) : Prop where
  key : r.key = s.key
  ttl : r.ttl = s.ttl
  comments : r.comments = s.comments
  records : r.records.Perm s.records

/-- Lists with the same keys in the same order go together element by element. -/
theorem forall₂_of_map_eq {α κ : Type} {f : α → κ} {R : α → α → Prop} {xs ys : List α}
    (hkeys : xs.map f = ys.map f) (h : ∀ x ∈ xs, ∀ y ∈ ys, f x = f y → R x y) :
    List.Forall₂ R xs ys := by
  induction xs generalizing ys with
  | nil =>
    rw [List.map_nil] at hkeys
    rw [List.map_eq_nil_iff.mp hkeys.symm]
    exact .nil
  | cons x xs ih =>
    cases ys with
    | nil => simp at hkeys
    | cons y ys =>
      obtain ⟨hkey, hrest⟩ := List.cons.inj hkeys
      refine .cons (h x List.mem_cons_self y List.mem_cons_self hkey) (ih hrest ?_)
      intro a ha b hb
      exact h a (List.mem_cons_of_mem x ha) b (List.mem_cons_of_mem y hb)

/-! ### Rows that agree -/

/-- Two rows of one replacement do not contradict each other. -/
structure FlatRow.Agree (r s : FlatRow) : Prop where
  ttl : r.ttl = s.ttl
  /-- Rows that say nothing agree with every comment. -/
  comment : ∀ text ∈ r.remark?, ∀ other ∈ s.remark?, text = other
  disabled : r.value.content = s.value.content → r.disabled = s.disabled

instance (r s : FlatRow) : Decidable (r.Agree s) :=
  decidable_of_iff (r.ttl = s.ttl ∧ (∀ text ∈ r.remark?, ∀ other ∈ s.remark?, text = other) ∧
      (r.value.content = s.value.content → r.disabled = s.disabled))
    ⟨fun ⟨ttl, comment, disabled⟩ => ⟨ttl, comment, disabled⟩,
      fun ⟨ttl, comment, disabled⟩ => ⟨ttl, comment, disabled⟩⟩

namespace RecordValue

/-- Where a content has one flag only, the first value of each content is any of them. -/
theorem mem_firstOfEach {vs : List RecordValue}
    (h : ∀ v ∈ vs, ∀ w ∈ vs, v.content = w.content → v = w) {v : RecordValue} :
    v ∈ firstOfEach vs ↔ v ∈ vs := by
  constructor
  · exact mem_of_mem_firstOfEach
  · intro hv
    obtain ⟨kept, hkept, hcontent⟩ := exists_firstOfEach hv
    rwa [← h kept (mem_of_mem_firstOfEach hkept) v hv hcontent]

/-- Then the order of the values makes no difference to which are kept. -/
theorem firstOfEach_perm {vs ws : List RecordValue} (hperm : vs.Perm ws)
    (h : ∀ v ∈ vs, ∀ w ∈ vs, v.content = w.content → v = w) :
    (firstOfEach vs).Perm (firstOfEach ws) := by
  have hws : ∀ v ∈ ws, ∀ w ∈ ws, v.content = w.content → v = w := by
    intro v hv w hw
    exact h v (hperm.mem_iff.mpr hv) w (hperm.mem_iff.mpr hw)
  refine (List.perm_ext_iff_of_nodup (nodup_content_firstOfEach vs).of_map
    (nodup_content_firstOfEach ws).of_map).mpr fun v => ?_
  rw [mem_firstOfEach h, mem_firstOfEach hws, hperm.mem_iff]

end RecordValue

namespace RRset

variable {r s : RRset} {rows others : List FlatRow}

/-- Rows that agree have one comment between them, whichever comes first. -/
theorem findSome?_remark?_of_perm (hperm : rows.Perm others)
    (hagree : ∀ row ∈ rows, ∀ other ∈ rows, row.Agree other) :
    rows.findSome? FlatRow.remark? = others.findSome? FlatRow.remark? := by
  cases hrows : rows.findSome? FlatRow.remark? with
  | none =>
    symm
    rw [List.findSome?_eq_none_iff] at hrows ⊢
    intro row hrow
    exact hrows row (hperm.mem_iff.mpr hrow)
  | some text =>
    obtain ⟨row, hrow, htext⟩ := List.exists_of_findSome?_eq_some hrows
    cases hothers : others.findSome? FlatRow.remark? with
    | none =>
      have hnone := List.findSome?_eq_none_iff.mp hothers row (hperm.mem_iff.mp hrow)
      rw [htext] at hnone
      contradiction
    | some text' =>
      obtain ⟨other, hother, htext'⟩ := List.exists_of_findSome?_eq_some hothers
      have hagreed := hagree row hrow other (hperm.mem_iff.mpr hother)
      rw [hagreed.comment text htext text' htext']

/-- What rows that agree make depends on their order by the order of the values alone. -/
theorem Gathers.reordered (hr : r.Gathers rows) (hs : s.Gathers others)
    (hperm : rows.Perm others) (hkey : r.key = s.key)
    (hagree : ∀ row ∈ rows, ∀ other ∈ rows, row.Agree other) : r.Reordered s := by
  refine ⟨hkey, ?_, ?_, ?_⟩
  · obtain ⟨first, hfirst, hrttl⟩ := Option.map_eq_some_iff.mp hr.ttl
    obtain ⟨second, hsecond, hsttl⟩ := Option.map_eq_some_iff.mp hs.ttl
    have hmem : second ∈ rows := hperm.mem_iff.mpr (List.mem_of_head? hsecond)
    rw [← hrttl, ← hsttl, (hagree first (List.mem_of_head? hfirst) second hmem).ttl]
  · rw [hr.comments, hs.comments, ← findSome?_remark?, ← findSome?_remark?,
      findSome?_remark?_of_perm hperm hagree]
  · have hvalues : ∀ v ∈ rows.map FlatRow.value, ∀ w ∈ rows.map FlatRow.value,
        v.content = w.content → v = w := by
      intro v hv w hw hcontent
      obtain ⟨row, hrow, rfl⟩ := List.mem_map.mp hv
      obtain ⟨other, hother, rfl⟩ := List.mem_map.mp hw
      have hdisabled := (hagree row hrow other hother).disabled hcontent
      exact congrArg₂ RecordValue.mk hcontent hdisabled
    rw [hr.records, hs.records, ← RecordValue.firstOfEach_eq_eraseDupsBy,
      ← RecordValue.firstOfEach_eq_eraseDupsBy]
    exact RecordValue.firstOfEach_perm (hperm.map FlatRow.value) hvalues

end RRset

namespace Batches

variable {policy : Policy} {rows others : List FlatRow}

/-! ### What batches are determined by -/

/-- Which keys are deleted is decided by which rows delete something. -/
theorem deletes_congr (h : ∀ key, (∃ row ∈ rows, row.Changes policy .delete key) ↔
      ∃ row ∈ others, row.Changes policy .delete key) :
    (ofRows policy rows).deletes = (ofRows policy others).deletes := by
  refine eq_of_ascending deletes_ascending deletes_ascending fun key => ?_
  rw [mem_deletes, mem_deletes, exists_normalized_iff, exists_normalized_iff, h]

/-- Which keys are written is decided by which rows write something. -/
theorem map_key_replaces_congr (h : ∀ key, (∃ row ∈ rows, row.Changes policy .replace key) ↔
      ∃ row ∈ others, row.Changes policy .replace key) :
    (ofRows policy rows).replaces.map RRset.key =
      (ofRows policy others).replaces.map RRset.key := by
  refine eq_of_ascending (f := RRsetKey.sortKey) (List.pairwise_map.mpr replaces_ascending)
    (List.pairwise_map.mpr replaces_ascending) fun key => ?_
  rw [mem_map_key_replaces, mem_map_key_replaces, h]

/-- What is written is decided by the rows for each key in their order. -/
theorem replaces_congr (h : ∀ key, rows.filter (FlatRow.Changes policy .replace key) =
      others.filter (FlatRow.Changes policy .replace key)) :
    (ofRows policy rows).replaces = (ofRows policy others).replaces := by
  refine eq_of_ascending replaces_ascending replaces_ascending fun w => ?_
  rw [mem_replaces, mem_replaces, rowsFor_eq_map_filter, rowsFor_eq_map_filter, h]

/-! ### Rows in another order -/

/-- Rows that take part in one change come in the same order in both lists. -/
def KeepsOrder (policy : Policy) (rows others : List FlatRow) : Prop :=
  ∀ row ∈ rows,
    rows.filter (FlatRow.Changes policy row.changeType ⟨row.ownerName policy, row.type⟩) =
      others.filter (FlatRow.Changes policy row.changeType ⟨row.ownerName policy, row.type⟩)

instance (policy : Policy) (rows others : List FlatRow) :
    Decidable (KeepsOrder policy rows others) :=
  inferInstanceAs (Decidable (∀ row ∈ rows, _))

/-- Rows that write one record set agree. -/
def Agreed (policy : Policy) (rows : List FlatRow) : Prop :=
  ∀ row ∈ rows, ∀ other ∈ rows, row.changeType = .replace →
    other.Changes policy .replace ⟨row.ownerName policy, row.type⟩ → row.Agree other

instance (policy : Policy) (rows : List FlatRow) : Decidable (Agreed policy rows) :=
  inferInstanceAs (Decidable (∀ row ∈ rows, ∀ other ∈ rows, _ → _ → _))

theorem exists_changes_of_perm (h : rows.Perm others) (policy : Policy) (type : ChangeType)
    (key : RRsetKey) :
    (∃ row ∈ rows, row.Changes policy type key) ↔ ∃ row ∈ others, row.Changes policy type key := by
  simp only [h.mem_iff]

theorem KeepsOrder.filter_eq (hkeeps : KeepsOrder policy rows others) (h : rows.Perm others)
    (type : ChangeType) (key : RRsetKey) :
    rows.filter (FlatRow.Changes policy type key) =
      others.filter (FlatRow.Changes policy type key) := by
  by_cases hmet : ∃ row ∈ rows, row.Changes policy type key
  · obtain ⟨row, hrow, rfl, hname, htype⟩ := hmet
    have hkept := hkeeps row hrow
    rwa [hname, htype] at hkept
  · have hnone : ∀ row ∈ rows, ¬decide (row.Changes policy type key) = true := by
      intro row hrow hchanges
      exact hmet ⟨row, hrow, of_decide_eq_true hchanges⟩
    rw [List.filter_eq_nil_iff.mpr hnone, eq_comm, List.filter_eq_nil_iff]
    intro row hrow
    exact hnone row (h.mem_iff.mpr hrow)

theorem Agreed.agree (hagreed : Agreed policy rows) (key : RRsetKey) :
    ∀ row ∈ rows.filter (FlatRow.Changes policy .replace key),
      ∀ other ∈ rows.filter (FlatRow.Changes policy .replace key), row.Agree other := by
  intro row hrow other hother
  obtain ⟨hrow, hchanges⟩ := List.mem_filter.mp hrow
  obtain ⟨hother, hchanges'⟩ := List.mem_filter.mp hother
  obtain ⟨hreplace, hname, htype⟩ := of_decide_eq_true hchanges
  refine hagreed row hrow other hother hreplace ?_
  rw [hname, htype]
  exact of_decide_eq_true hchanges'

/-- **The order of the rows matters as little as it can.**  However rows are put in another order,
the same keys are deleted and the same are written.  Nothing else changes as long as the rows of
each change keep their order; and if the rows of each replacement agree, nothing but the order of
the values. -/
theorem ofRows_permuted (policy : Policy) (rows others : List FlatRow) (h : rows.Perm others) :
    (ofRows policy rows).deletes = (ofRows policy others).deletes ∧
      (ofRows policy rows).replaces.map RRset.key =
        (ofRows policy others).replaces.map RRset.key ∧
      (KeepsOrder policy rows others → ofRows policy rows = ofRows policy others) ∧
      (Agreed policy rows → List.Forall₂ RRset.Reordered (ofRows policy rows).replaces
        (ofRows policy others).replaces) := by
  have hdeletes := deletes_congr (exists_changes_of_perm h policy .delete)
  have hkeys := map_key_replaces_congr (exists_changes_of_perm h policy .replace)
  refine ⟨hdeletes, hkeys, ?_, ?_⟩
  · intro hkeeps
    have hreplaces := replaces_congr (hkeeps.filter_eq h .replace)
    exact congrArg₂ Batches.mk hdeletes hreplaces
  · intro hagreed
    refine forall₂_of_map_eq hkeys fun r hr s hs hkey => ?_
    have hs := gathers_of_mem_replaces hs
    rw [← hkey] at hs
    exact (gathers_of_mem_replaces hr).reordered hs (h.filter _) hkey (hagreed.agree r.key)

/-- Rows for two record sets of which one has two values, and a deletion. -/
def sampleRows : List FlatRow :=
  let web : FlatRow := ⟨"www.example.com.", .named .a, .replace, 300, "192.0.2.1", false, none⟩
  [web, { web with content := "192.0.2.2", disabled := true, comment := some "spare" },
    .deletion ⟨"old.example.com.", .named .mx⟩,
    ⟨"ftp.example.com.", .named .cname, .replace, 60, "www.example.com", false, some ""⟩]

/-- Turned by two, the rows of each change keep their order; backwards they do not. -/
theorem ofRows_permuted_sampleRows :
    let policy : Policy := ⟨false, false, []⟩
    let turned := sampleRows.rotateLeft 2
    let backwards := sampleRows.reverse
    (sampleRows.Perm turned ∧ KeepsOrder policy sampleRows turned ∧
        ofRows policy sampleRows = ofRows policy turned) ∧
      sampleRows.Perm backwards ∧ ¬KeepsOrder policy sampleRows backwards ∧
        Agreed policy sampleRows ∧ List.Forall₂ RRset.Reordered
          (ofRows policy sampleRows).replaces (ofRows policy backwards).replaces := by
  intro policy turned backwards
  have hturned : sampleRows.Perm turned := by decide +kernel
  have hkeeps : KeepsOrder policy sampleRows turned := by decide +kernel
  have hbackwards : sampleRows.Perm backwards := by decide +kernel
  have hloses : ¬KeepsOrder policy sampleRows backwards := by decide +kernel
  have hagreed : Agreed policy sampleRows := by decide +kernel
  obtain ⟨-, -, hsame, -⟩ := ofRows_permuted policy sampleRows turned hturned
  obtain ⟨-, -, -, hreordered⟩ := ofRows_permuted policy sampleRows backwards hbackwards
  exact ⟨⟨hturned, hkeeps, hsame hkeeps⟩, hbackwards, hloses, hagreed, hreordered hagreed⟩

end Batches

end ZoneKeeper
