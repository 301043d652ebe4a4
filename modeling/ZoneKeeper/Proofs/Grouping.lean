/-
What the batches of a list of rows are.

Sorting and cutting at the changes of the sort key gives one run for each key that occurs,
the keys ascending, and each run is the rows with its key as they were submitted.  The sort
is stable, which is what keeps them so.  From this everything about batches is read off:

  * `mem_deletes`: a key is deleted exactly if some row deletes it,
  * `mem_replaces`: a record set is written exactly if it is made of the rows for its key,
  * `deletes_ascending`, `replaces_ascending`: both batches ascend strictly, so no key
    occurs twice in either.
-/
import ZoneKeeper.Proofs.Order
import Mathlib.Data.List.SplitBy
import Mathlib.Data.List.Sort

namespace ZoneKeeper

/-! ### Sorting and cutting -/

section Classes

variable {α κ : Type} [LinearOrder κ] {f : α → κ}

/-- In a sorted list the elements of the least key come first. -/
theorem eq_filter_append_of_sorted {k : κ} {xs : List α}
    (hsorted : xs.Pairwise fun a b => f a ≤ f b) (hleast : ∀ x ∈ xs, k ≤ f x) :
    xs = xs.filter (fun x => f x = k) ++ xs.filter fun x => f x ≠ k := by
  induction xs with
  | nil => rfl
  | cons x xs ih =>
    obtain ⟨hx, hxs⟩ := List.pairwise_cons.mp hsorted
    by_cases hk : f x = k
    · have hrest := ih hxs fun y hy => hleast y (List.mem_cons_of_mem x hy)
      simpa [hk] using hrest
    · -- the first element is beyond the key, so all of them are
      have hlt : k < f x := lt_of_le_of_ne (hleast x List.mem_cons_self) (Ne.symm hk)
      have hall : ∀ y ∈ x :: xs, f y ≠ k := by
        intro y hy
        rcases List.mem_cons.mp hy with rfl | hy
        · exact hk
        · exact (lt_of_lt_of_le hlt (hx y hy)).ne'
      have hnone : (x :: xs).filter (fun x => f x = k) = [] :=
        List.filter_eq_nil_iff.mpr fun y hy => by simpa using hall y hy
      have hevery : (x :: xs).filter (fun x => f x ≠ k) = x :: xs :=
        List.filter_eq_self.mpr fun y hy => by simpa using hall y hy
      rw [hnone, hevery, List.nil_append]

/-- Elements of one key are one run. -/
theorem splitBy_filter_eq {k : κ} {xs : List α} (hmem : ∃ x ∈ xs, f x = k) :
    (xs.filter fun x => f x = k).splitBy (fun a b => decide (f a = f b)) =
      [xs.filter fun x => f x = k] := by
  obtain ⟨x, hx, hk⟩ := hmem
  refine List.splitBy_of_isChain ?_ ?_
  · exact List.ne_nil_of_mem (List.mem_filter.mpr ⟨hx, by simpa using hk⟩)
  · refine List.Pairwise.isChain (List.pairwise_iff_forall_sublist.mpr fun {a b} hab => ?_)
    have ha := List.mem_filter.mp (hab.subset (by simp : a ∈ [a, b]))
    have hb := List.mem_filter.mp (hab.subset (by simp : b ∈ [a, b]))
    simp only [decide_eq_true_eq] at ha hb ⊢
    rw [ha.2, hb.2]

/-- The elements of one key are followed by others at a border of runs. -/
theorem border_filter (k : κ) (xs : List α) :
    ∀ a ∈ (xs.filter fun x => f x = k).getLast?, ∀ b ∈ (xs.filter fun x => f x ≠ k).head?,
      decide (f a = f b) = false := by
  intro a ha b hb
  have ha := (List.mem_filter.mp (List.mem_of_getLast? ha)).2
  have hb := (List.mem_filter.mp (List.mem_of_mem_head? hb)).2
  simp only [decide_eq_true_eq, decide_eq_false_iff_not] at ha hb ⊢
  rw [ha]
  exact fun h => hb h.symm

/-- Leaving out one key does not touch the class of another. -/
theorem filter_filter_ne {k l : κ} (h : l ≠ k) (xs : List α) :
    (xs.filter fun x => f x ≠ k).filter (fun x => f x = l) = xs.filter fun x => f x = l := by
  rw [List.filter_filter]
  refine List.filter_congr fun x _ => ?_
  by_cases hx : f x = l
  · simp [hx, h]
  · simp [hx]

/-- The runs of a sorted list are its classes, one for each key, the keys ascending. -/
theorem exists_splitBy_eq_of_sorted (xs : List α) (hsorted : xs.Pairwise fun a b => f a ≤ f b) :
    ∃ keys : List κ, keys.Pairwise (· < ·) ∧ (∀ k, k ∈ keys ↔ ∃ x ∈ xs, f x = k) ∧
      xs.splitBy (fun a b => decide (f a = f b)) =
        keys.map fun k => xs.filter fun x => f x = k := by
  -- the class of the least key goes first, and what is left is shorter
  induction hn : xs.length using Nat.strong_induction_on generalizing xs with
  | _ n ih =>
    cases xs with
    | nil => exact ⟨[], by simp⟩
    | cons x xs =>
      have hleast : ∀ y ∈ x :: xs, f x ≤ f y := by
        intro y hy
        rcases List.mem_cons.mp hy with rfl | hy
        · exact le_refl _
        · exact (List.pairwise_cons.mp hsorted).1 y hy
      have hshort : ((x :: xs).filter fun y => f y ≠ f x).length < n := by
        rw [List.filter_cons_of_neg (by simp), ← hn, List.length_cons]
        exact Nat.lt_succ_of_le (List.length_filter_le _ xs)
      obtain ⟨keys, hascending, hkeys, hruns⟩ :=
        ih _ hshort _ (hsorted.sublist List.filter_sublist) rfl
      have hkeys : ∀ l, l ∈ keys ↔ l ≠ f x ∧ ∃ y ∈ x :: xs, f y = l := by
        intro l
        rw [hkeys]
        constructor
        · rintro ⟨y, hy, rfl⟩
          obtain ⟨hy, hne⟩ := List.mem_filter.mp hy
          exact ⟨by simpa using hne, y, hy, rfl⟩
        · rintro ⟨hne, y, hy, rfl⟩
          exact ⟨y, List.mem_filter.mpr ⟨hy, by simpa using hne⟩, rfl⟩
      refine ⟨f x :: keys, List.pairwise_cons.mpr ⟨?_, hascending⟩, ?_, ?_⟩
      · intro l hl
        obtain ⟨hne, y, hy, rfl⟩ := (hkeys l).mp hl
        exact lt_of_le_of_ne (hleast y hy) hne.symm
      · intro l
        rw [List.mem_cons, hkeys]
        constructor
        · rintro (rfl | ⟨-, hl⟩)
          · exact ⟨x, List.mem_cons_self, rfl⟩
          · exact hl
        · intro hl
          by_cases hne : l = f x
          · exact Or.inl hne
          · exact Or.inr ⟨hne, hl⟩
      · conv_lhs => rw [eq_filter_append_of_sorted hsorted hleast]
        rw [List.splitBy_append (border_filter (f x) (x :: xs)),
          splitBy_filter_eq ⟨x, List.mem_cons_self, rfl⟩, hruns, List.map_cons,
          List.singleton_append]
        congr 1
        exact List.map_congr_left fun l hl => filter_filter_ne ((hkeys l).mp hl).1 (x :: xs)

/-- Sorting by a key keeps the elements of one key as they were. -/
theorem filter_mergeSort (k : κ) (xs : List α) :
    (xs.mergeSort fun a b => decide (f a ≤ f b)).filter (fun x => f x = k) =
      xs.filter fun x => f x = k := by
  have hclass : (xs.filter fun x => f x = k).Pairwise fun a b => decide (f a ≤ f b) = true := by
    refine List.pairwise_iff_forall_sublist.mpr fun {a b} hab => ?_
    have ha := List.mem_filter.mp (hab.subset (by simp : a ∈ [a, b]))
    have hb := List.mem_filter.mp (hab.subset (by simp : b ∈ [a, b]))
    simp only [decide_eq_true_eq] at ha hb ⊢
    rw [ha.2, hb.2]
  have hsub : (xs.filter fun x => f x = k).Sublist
      (xs.mergeSort fun a b => decide (f a ≤ f b)) :=
    List.sublist_mergeSort (atMost_trans fun _ _ => decide_eq_true_iff)
      (atMost_total fun _ _ => decide_eq_true_iff) hclass List.filter_sublist
  have hsub' := hsub.filter fun x => f x = k
  rw [List.filter_filter] at hsub'
  simp only [Bool.and_self] at hsub'
  refine (hsub'.eq_of_length ?_).symm
  exact (((List.mergeSort_perm xs _).filter fun x => decide (f x = k)).length_eq).symm

/-- **Sorting and cutting gives the classes of a list**, one for each key that occurs, the keys
ascending and each class in its old order. -/
theorem exists_splitBy_mergeSort_eq (xs : List α) :
    ∃ keys : List κ, keys.Pairwise (· < ·) ∧ (∀ k, k ∈ keys ↔ ∃ x ∈ xs, f x = k) ∧
      (xs.mergeSort fun a b => decide (f a ≤ f b)).splitBy (fun a b => decide (f a = f b)) =
        keys.map fun k => xs.filter fun x => f x = k := by
  have hsorted : (xs.mergeSort fun a b => decide (f a ≤ f b)).Pairwise fun a b => f a ≤ f b :=
    sorted_mergeSort (fun _ _ => decide_eq_true_iff) xs
  obtain ⟨keys, hascending, hkeys, hruns⟩ := exists_splitBy_eq_of_sorted _ hsorted
  refine ⟨keys, hascending, ?_, ?_⟩
  · intro k
    rw [hkeys]
    simp only [List.mem_mergeSort]
  · rw [hruns]
    exact List.map_congr_left fun k _ => filter_mergeSort k xs

/-- Lists that ascend strictly are determined by which elements they have. -/
theorem eq_of_ascending {xs ys : List α} (hxs : xs.Pairwise fun a b => f a < f b)
    (hys : ys.Pairwise fun a b => f a < f b) (hmem : ∀ x, x ∈ xs ↔ x ∈ ys) : xs = ys := by
  have hnodup : ∀ {zs : List α}, (zs.Pairwise fun a b => f a < f b) → zs.Nodup :=
    fun hzs => hzs.imp fun hlt heq => hlt.ne (congrArg f heq)
  refine List.Perm.eq_of_pairwise ?_ hxs hys
    ((List.perm_ext_iff_of_nodup (hnodup hxs) (hnodup hys)).mpr hmem)
  intro a b _ _ hab hba
  exact absurd hba hab.asymm

end Classes

/-! ### Lists without repeated keys -/

/-- Where keys are distinct, the element with a key is the one that is found for it. -/
theorem find?_eq_some_iff_of_nodup_map {α κ : Type} [DecidableEq κ] {f : α → κ} {xs : List α}
    (hnodup : (xs.map f).Nodup) {k : κ} {x : α} :
    (xs.find? fun y => f y = k) = some x ↔ x ∈ xs ∧ f x = k := by
  constructor
  · intro h
    exact ⟨List.mem_of_find?_eq_some h, by simpa using List.find?_some h⟩
  · rintro ⟨hx, rfl⟩
    obtain ⟨y, hy⟩ : ∃ y, (xs.find? fun y => f y = f x) = some y :=
      Option.isSome_iff_exists.mp (List.find?_isSome.mpr ⟨x, hx, by simp⟩)
    have hsame : f y = f x := by simpa using List.find?_some hy
    rw [hy, List.inj_on_of_nodup_map hnodup (List.mem_of_find?_eq_some hy) hx hsame]

/-- Where keys are distinct, the element with a key is the only one. -/
theorem filter_eq_singleton_of_nodup_map {α κ : Type} [DecidableEq κ] {f : α → κ} {xs : List α}
    (hnodup : (xs.map f).Nodup) {x : α} (hx : x ∈ xs) : (xs.filter fun y => f y = f x) = [x] := by
  obtain ⟨front, back, rfl⟩ := List.append_of_mem hx
  rw [List.map_append, List.map_cons, List.nodup_middle, List.nodup_cons, List.mem_append,
    not_or] at hnodup
  obtain ⟨⟨hfront, hback⟩, -⟩ := hnodup
  have hnone : ∀ ys : List α, f x ∉ ys.map f → (ys.filter fun y => f y = f x) = [] := by
    intro ys hys
    refine List.filter_eq_nil_iff.mpr fun y hy => ?_
    rw [decide_eq_true_eq]
    exact fun hsame => hys (hsame ▸ List.mem_map_of_mem hy)
  rw [List.filter_append, List.filter_cons_of_pos (by simp), hnone front hfront, hnone back hback]
  rfl

theorem eraseDups_sublist {α : Type} [BEq α] [LawfulBEq α] (xs : List α) :
    xs.eraseDups.Sublist xs := by
  induction hn : xs.length using Nat.strong_induction_on generalizing xs with
  | _ n ih =>
    cases xs with
    | nil => exact .slnil
    | cons x rest =>
      have hshort : (rest.filter fun y => !y == x).length < n := by
        rw [← hn, List.length_cons]
        exact Nat.lt_succ_of_le (List.length_filter_le _ rest)
      rw [List.eraseDups_cons]
      exact ((ih _ hshort _ rfl).trans List.filter_sublist).cons_cons x

/-- Of what is repeated one is kept. -/
theorem nodup_eraseDups {α : Type} [BEq α] [LawfulBEq α] (xs : List α) : xs.eraseDups.Nodup := by
  induction hn : xs.length using Nat.strong_induction_on generalizing xs with
  | _ n ih =>
    cases xs with
    | nil => exact List.nodup_nil
    | cons x rest =>
      have hshort : (rest.filter fun y => !y == x).length < n := by
        rw [← hn, List.length_cons]
        exact Nat.lt_succ_of_le (List.length_filter_le _ rest)
      rw [List.eraseDups_cons, List.nodup_cons]
      refine ⟨fun hx => ?_, ih _ hshort _ rfl⟩
      simpa using (List.mem_filter.mp ((eraseDups_sublist _).subset hx)).2

/-- A list that leaves out what is repeated and what does not satisfy `P` leaves out nothing where
there is no such thing. -/
theorem length_eq_iff_of_sublist {α : Type} {P : α → Prop} {xs ys : List α} (hsub : ys.Sublist xs)
    (hnodup : ys.Nodup) (hmem : ∀ x, x ∈ ys ↔ x ∈ xs ∧ P x) :
    ys.length = xs.length ↔ xs.Nodup ∧ ∀ x ∈ xs, P x := by
  constructor
  · intro hlength
    obtain rfl : ys = xs := hsub.eq_of_length hlength
    exact ⟨hnodup, fun x hx => ((hmem x).mp hx).2⟩
  · rintro ⟨hdistinct, hall⟩
    have hperm : ys.Perm xs := (List.perm_ext_iff_of_nodup hnodup hdistinct).mpr fun x => by
      rw [hmem]
      exact and_iff_left_of_imp (hall x)
    exact hperm.length_eq

/-! ### Values of one content -/

namespace RecordValue

theorem exists_firstOfEach {vs : List RecordValue} {v : RecordValue} (h : v ∈ vs) :
    ∃ kept ∈ firstOfEach vs, kept.content = v.content := by
  induction vs with
  | nil => contradiction
  | cons first rest ih =>
    by_cases hsame : v.content = first.content
    · exact ⟨first, List.mem_cons_self, hsame.symm⟩
    · have hrest : v ∈ rest := by
        rcases List.mem_cons.mp h with rfl | hrest
        · contradiction
        · exact hrest
      obtain ⟨kept, hkept, hcontent⟩ := ih hrest
      refine ⟨kept, List.mem_cons_of_mem _ (List.mem_filter.mpr ⟨hkept, ?_⟩), hcontent⟩
      simpa [hcontent] using hsame

theorem firstOfEach_sublist (vs : List RecordValue) : (firstOfEach vs).Sublist vs := by
  induction vs with
  | nil => exact .slnil
  | cons first rest ih => exact (List.filter_sublist.trans ih).cons_cons first

theorem mem_of_mem_firstOfEach {vs : List RecordValue} {v : RecordValue}
    (h : v ∈ firstOfEach vs) : v ∈ vs :=
  (firstOfEach_sublist vs).subset h

/-- No content is there twice. -/
theorem nodup_content_firstOfEach (vs : List RecordValue) :
    ((firstOfEach vs).map content).Nodup := by
  induction vs with
  | nil => exact List.nodup_nil
  | cons first rest ih =>
    rw [firstOfEach, List.map_cons, List.nodup_cons]
    refine ⟨fun hmem => ?_, ih.sublist (List.filter_sublist.map content)⟩
    obtain ⟨kept, hkept, hcontent⟩ := List.mem_map.mp hmem
    simpa [hcontent] using (List.mem_filter.mp hkept).2

/-- Where no content is there twice nothing is left out. -/
theorem firstOfEach_eq_self {vs : List RecordValue} (h : (vs.map content).Nodup) :
    firstOfEach vs = vs := by
  induction vs with
  | nil => rfl
  | cons first rest ih =>
    obtain ⟨hfresh, hrest⟩ := List.nodup_cons.mp h
    rw [firstOfEach, ih hrest, List.filter_eq_self.mpr]
    intro v hv
    have hne : v.content ≠ first.content := fun hcontent =>
      hfresh (List.mem_map.mpr ⟨v, hv, hcontent⟩)
    simpa using hne

end RecordValue

/-! ### Contents -/

namespace RRType

variable {type : RRType} {content : String}

/-- Only the contents of some types end in a name. -/
theorem canonicalContent_of_not_endsInName (h : type.endsInName = false) :
    type.canonicalContent content = content := by
  simp [canonicalContent, h]

/-- A content that ends in a name ends in a dot, if there is anything of it. -/
theorem getLast?_canonicalContent (h : type.endsInName = true) (hne : content ≠ "") :
    (type.canonicalContent content).toList.getLast? = some '.' := by
  by_cases hdot : content.toList.getLast? = some '.'
  · simp [canonicalContent, hdot]
  · simp [canonicalContent, h, hne, hdot]

theorem canonicalContent_ne_empty (hne : content ≠ "") : type.canonicalContent content ≠ "" := by
  unfold canonicalContent
  split
  · intro h
    simpa using congrArg String.toList h
  · exact hne

/-- What was made absolute is absolute. -/
theorem canonicalContent_canonicalContent (type : RRType) (content : String) :
    type.canonicalContent (type.canonicalContent content) = type.canonicalContent content := by
  by_cases hends : type.endsInName = true
  · by_cases hempty : content = ""
    · simp [canonicalContent, hempty]
    · have hdot := getLast?_canonicalContent hends hempty
      rw [canonicalContent, if_neg fun h => h.2.2 hdot]
  · rw [canonicalContent_of_not_endsInName (by simpa using hends)]

end RRType

@[simp]
theorem RRset.key_ofRows (first : FlatRow) (others : List FlatRow) :
    (RRset.ofRows first others).key = first.key := rfl

namespace Batches

/-- The rows that change one record set in one way, under their owner names. -/
def rowsFor (policy : Policy) (rows : List FlatRow) (type : ChangeType) (key : RRsetKey) :
    List FlatRow :=
  (rows.map (FlatRow.normalize policy)).filter fun row => row.key = key ∧ row.changeType = type

variable {policy : Policy} {rows : List FlatRow}

/-! ### The runs -/

theorem mem_rowsFor {type : ChangeType} {key : RRsetKey} {row : FlatRow} :
    row ∈ rowsFor policy rows type key ↔
      row ∈ rows.map (FlatRow.normalize policy) ∧ row.key = key ∧ row.changeType = type := by
  simp [rowsFor]

theorem filter_sortKey_eq_rowsFor (row : FlatRow) :
    (rows.map (FlatRow.normalize policy)).filter (fun r => r.sortKey = row.sortKey) =
      rowsFor policy rows row.changeType row.key := by
  unfold rowsFor
  refine List.filter_congr fun r _ => ?_
  rw [Bool.eq_iff_iff, decide_eq_true_iff, decide_eq_true_iff, FlatRow.sortKey_eq_iff]

/-- Each run is all rows of one change. -/
theorem mem_runs {run : List FlatRow} :
    run ∈ runs policy rows ↔ ∃ row ∈ rows.map (FlatRow.normalize policy),
      run = rowsFor policy rows row.changeType row.key := by
  unfold runs
  rw [FlatRow.atMost_eq, FlatRow.sameChange_eq]
  obtain ⟨keys, -, hkeys, hruns⟩ :=
    exists_splitBy_mergeSort_eq (f := FlatRow.sortKey) (rows.map (FlatRow.normalize policy))
  rw [hruns, List.mem_map]
  constructor
  · rintro ⟨k, hk, rfl⟩
    obtain ⟨row, hrow, rfl⟩ := (hkeys k).mp hk
    exact ⟨row, hrow, filter_sortKey_eq_rowsFor row⟩
  · rintro ⟨row, hrow, rfl⟩
    exact ⟨row.sortKey, (hkeys _).mpr ⟨row, hrow, rfl⟩, filter_sortKey_eq_rowsFor row⟩

/-- The rows of an earlier run sort strictly before those of a later one. -/
theorem runs_ascending :
    (runs policy rows).Pairwise fun g h => ∀ r ∈ g, ∀ s ∈ h, r.sortKey < s.sortKey := by
  unfold runs
  rw [FlatRow.atMost_eq, FlatRow.sameChange_eq]
  obtain ⟨keys, hascending, -, hruns⟩ :=
    exists_splitBy_mergeSort_eq (f := FlatRow.sortKey) (rows.map (FlatRow.normalize policy))
  rw [hruns, List.pairwise_map]
  refine hascending.imp fun {k l} hkl r hr s hs => ?_
  have hr : r.sortKey = k := by simpa using (List.mem_filter.mp hr).2
  have hs : s.sortKey = l := by simpa using (List.mem_filter.mp hs).2
  rw [hr, hs]
  exact hkl

/-! ### The deletions -/

theorem deleteOfRun?_eq_some {run : List FlatRow} {key : RRsetKey}
    (h : deleteOfRun? run = some key) :
    ∃ row ∈ run, row.key = key ∧ row.changeType = .delete := by
  cases run with
  | nil => simp [deleteOfRun?] at h
  | cons row others =>
    by_cases hdelete : row.changeType = .delete
    · exact ⟨row, List.mem_cons_self, by simpa [deleteOfRun?, hdelete] using h, hdelete⟩
    · simp [deleteOfRun?, hdelete] at h

/-- **A record set is deleted exactly if some row deletes it.** -/
theorem mem_deletes {key : RRsetKey} :
    key ∈ (ofRows policy rows).deletes ↔
      ∃ row ∈ rows.map (FlatRow.normalize policy), row.key = key ∧ row.changeType = .delete := by
  simp only [ofRows, List.mem_filterMap]
  constructor
  · rintro ⟨run, hrun, hkey⟩
    obtain ⟨first, -, rfl⟩ := mem_runs.mp hrun
    obtain ⟨row, hrow, hrowKey, hdelete⟩ := deleteOfRun?_eq_some hkey
    exact ⟨row, (mem_rowsFor.mp hrow).1, hrowKey, hdelete⟩
  · rintro ⟨row, hrow, rfl, hdelete⟩
    refine ⟨rowsFor policy rows row.changeType row.key, mem_runs.mpr ⟨row, hrow, rfl⟩, ?_⟩
    have hmem : row ∈ rowsFor policy rows row.changeType row.key :=
      mem_rowsFor.mpr ⟨hrow, rfl, rfl⟩
    -- whichever row comes first in the run, it has the same key and way of change
    cases hrun : rowsFor policy rows row.changeType row.key with
    | nil => rw [hrun] at hmem; simp at hmem
    | cons first others =>
      have hfirst : first ∈ rowsFor policy rows row.changeType row.key := by simp [hrun]
      obtain ⟨-, hkey, htype⟩ := mem_rowsFor.mp hfirst
      simp [deleteOfRun?, hkey, htype, hdelete]

theorem deletes_ascending :
    (ofRows policy rows).deletes.Pairwise fun k l => k.sortKey < l.sortKey := by
  refine List.Pairwise.filterMap _ ?_ runs_ascending
  intro g h hgh k hk l hl
  obtain ⟨r, hr, rfl, hrDelete⟩ := deleteOfRun?_eq_some hk
  obtain ⟨s, hs, rfl, hsDelete⟩ := deleteOfRun?_eq_some hl
  have hlt := hgh r hr s hs
  unfold FlatRow.sortKey at hlt
  rw [hrDelete, hsDelete, Prod.Lex.toLex_lt_toLex] at hlt
  simpa using hlt

theorem deletes_nodup : (ofRows policy rows).deletes.Nodup :=
  deletes_ascending.imp fun hlt heq => hlt.ne (congrArg RRsetKey.sortKey heq)

/-! ### The replacements -/

theorem replaceOfRun?_eq_some {run : List FlatRow} {w : RRset}
    (h : replaceOfRun? run = some w) :
    ∃ first others, run = first :: others ∧ first.changeType = .replace ∧
      w = .ofRows first others := by
  cases run with
  | nil => simp [replaceOfRun?] at h
  | cons first others =>
    by_cases hreplace : first.changeType = .replace
    · refine ⟨first, others, rfl, hreplace, ?_⟩
      simpa [replaceOfRun?, hreplace] using h.symm
    · simp [replaceOfRun?, hreplace] at h

/-- **A record set is written exactly if it is made of the rows for its key.** -/
theorem mem_replaces {w : RRset} :
    w ∈ (ofRows policy rows).replaces ↔
      ∃ first others, rowsFor policy rows .replace w.key = first :: others ∧
        w = .ofRows first others := by
  simp only [ofRows, List.mem_filterMap]
  constructor
  · rintro ⟨run, hrun, hw⟩
    obtain ⟨row, -, rfl⟩ := mem_runs.mp hrun
    obtain ⟨first, others, hcons, hreplace, rfl⟩ := replaceOfRun?_eq_some hw
    have hfirst : first ∈ rowsFor policy rows row.changeType row.key := by simp [hcons]
    obtain ⟨-, hkey, htype⟩ := mem_rowsFor.mp hfirst
    refine ⟨first, others, ?_, rfl⟩
    rw [← hcons, ← htype, ← hkey, hreplace]
    rfl
  · rintro ⟨first, others, hcons, rfl⟩
    have hfirst : first ∈ rowsFor policy rows .replace (RRset.ofRows first others).key := by
      rw [hcons]
      exact List.mem_cons_self
    obtain ⟨hmem, hkey, htype⟩ := mem_rowsFor.mp hfirst
    refine ⟨first :: others, mem_runs.mpr ⟨first, hmem, ?_⟩, ?_⟩
    · rw [← hcons, htype]
      rfl
    · simp [replaceOfRun?, htype]

theorem replaces_ascending :
    (ofRows policy rows).replaces.Pairwise fun r s => r.key.sortKey < s.key.sortKey := by
  refine List.Pairwise.filterMap _ ?_ runs_ascending
  intro g h hgh v hv w hw
  obtain ⟨r, others, rfl, hrReplace, rfl⟩ := replaceOfRun?_eq_some hv
  obtain ⟨s, others', rfl, hsReplace, rfl⟩ := replaceOfRun?_eq_some hw
  have hlt := hgh r List.mem_cons_self s List.mem_cons_self
  unfold FlatRow.sortKey at hlt
  rw [hrReplace, hsReplace, Prod.Lex.toLex_lt_toLex] at hlt
  simpa using hlt

theorem replaces_nodup : ((ofRows policy rows).replaces.map RRset.key).Nodup :=
  List.pairwise_map.mpr <|
    replaces_ascending.imp fun hlt heq => hlt.ne (congrArg RRsetKey.sortKey heq)

/-- A record set that is written holds at least the value of its first row. -/
theorem records_ne_nil {w : RRset} (hw : w ∈ (ofRows policy rows).replaces) : w.records ≠ [] := by
  obtain ⟨first, others, -, rfl⟩ := mem_replaces.mp hw
  simp [RRset.ofRows, RecordValue.firstOfEach]

/-- A record set that is written holds no content twice. -/
theorem nodup_contents {w : RRset} (hw : w ∈ (ofRows policy rows).replaces) :
    (w.records.map RecordValue.content).Nodup := by
  obtain ⟨first, others, -, rfl⟩ := mem_replaces.mp hw
  exact RecordValue.nodup_content_firstOfEach _

/-- A record set that is written has at most one comment, which says something and names no
account. -/
theorem comments_of_mem_replaces {w : RRset} (hw : w ∈ (ofRows policy rows).replaces) :
    w.comments = [] ∨ ∃ text, text ≠ "" ∧ w.comments = [⟨text, ""⟩] := by
  obtain ⟨first, others, -, rfl⟩ := mem_replaces.mp hw
  cases hremark : (first :: others).findSome? FlatRow.remark? with
  | none => exact .inl (by simp [RRset.ofRows, hremark])
  | some text =>
    obtain ⟨row, -, htext⟩ := List.exists_of_findSome?_eq_some hremark
    have hsays : text ≠ "" := by simpa using (Option.filter_eq_some_iff.mp htext).2
    exact .inr ⟨text, hsays, by simp [RRset.ofRows, hremark]⟩

/-! ### The changes -/

theorem map_key_deleteChanges (batches : Batches) :
    batches.deleteChanges.map Change.key = batches.deletes := by
  rw [deleteChanges, List.map_map]
  exact List.map_id _

theorem map_key_replaceChanges (batches : Batches) :
    batches.replaceChanges.map Change.key = batches.replaces.map RRset.key := by
  rw [replaceChanges, List.map_map]
  rfl

end Batches

end ZoneKeeper
