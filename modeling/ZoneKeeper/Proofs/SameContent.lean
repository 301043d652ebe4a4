/-
When two record sets say the same.

Two record sets are compared by sorting the values of each.  Values that sort alike are the same
value, so the sorted lists are equal exactly if every value, enabled or disabled, is as often in the
one as in the other: repeated values count, and the order in which they came does not.  With the
time to live and the text of the first comment, that is all that is looked at.

What is not looked at is said by `Edited`, one case for each kind of change that may be made
unnoticed.  The list is complete: from a record set to any other with the same content there is
a way by such changes alone.
-/
import Mathlib.Logic.Relation
import ZoneKeeper.Proofs.Order

namespace ZoneKeeper.RRset

open Relation

variable {r r' s : RRset}

/-- A change that leaves what a record set says. -/
inductive Edited : RRset → RRset → Prop
  /-- The values come in another order. -/
  | reordered (r : RRset) {values : List RecordValue} (h : r.records.Perm values) :
      Edited r { r with records := values }
  /-- The record set is moved to another owner name or type. -/
  | moved (r : RRset) (name : String) (type : RRType) :
      Edited r { r with name := name, type := type }
  /-- The same comments were made by others. -/
  | signed (r : RRset) {comments : List Comment}
      (h : comments.map Comment.content = r.comments.map Comment.content) :
      Edited r { r with comments := comments }
  /-- There are other comments behind the first. -/
  | discussed (r : RRset) {first : Comment} {comments : List Comment} (others : List Comment)
      (h : r.comments = first :: comments) : Edited r { r with comments := first :: others }

/-! ### An equivalence -/

theorem sameContent_equivalence : Equivalence fun r s : RRset => r.sameContent s = true where
  refl r := sameContent_iff.mpr ⟨rfl, .refl _, rfl⟩
  symm h := by
    obtain ⟨httl, hvalues, hremark⟩ := sameContent_iff.mp h
    exact sameContent_iff.mpr ⟨httl.symm, hvalues.symm, hremark.symm⟩
  trans h h' := by
    obtain ⟨httl, hvalues, hremark⟩ := sameContent_iff.mp h
    obtain ⟨httl', hvalues', hremark'⟩ := sameContent_iff.mp h'
    exact sameContent_iff.mpr
      ⟨httl.trans httl', hvalues.trans hvalues', hremark.trans hremark'⟩

/-- What has the same content cannot be told apart by a comparison with anything. -/
theorem sameContent_congr (h : r.sameContent r' = true) (s : RRset) :
    r'.sameContent s = r.sameContent s ∧ s.sameContent r' = s.sameContent r := by
  have hback : r'.sameContent r = true := sameContent_equivalence.symm h
  constructor
  · refine Bool.eq_iff_iff.mpr ⟨fun hs => ?_, fun hs => ?_⟩
    · exact sameContent_equivalence.trans h hs
    · exact sameContent_equivalence.trans hback hs
  · refine Bool.eq_iff_iff.mpr ⟨fun hs => ?_, fun hs => ?_⟩
    · exact sameContent_equivalence.trans hs hback
    · exact sameContent_equivalence.trans hs h

/-! ### Changes that are not noticed -/

theorem Edited.sameContent (h : Edited r s) : r.sameContent s = true := by
  rw [sameContent_iff]
  cases h with
  | reordered h => exact ⟨rfl, h, rfl⟩
  | moved name type => exact ⟨rfl, .refl _, rfl⟩
  | signed h =>
    refine ⟨rfl, .refl _, ?_⟩
    rw [remark, remark, ← List.head?_map, ← List.head?_map, h]
  | discussed others h =>
    refine ⟨rfl, .refl _, ?_⟩
    rw [remark, h]
    rfl

/-- Comments with one and the same beginning can be had from each other. -/
theorem edited_comments (h : r.remark = s.remark) :
    ReflTransGen Edited r { r with comments := s.comments } := by
  unfold remark at h
  cases hr : r.comments with
  | nil =>
    cases hs : s.comments with
    | nil =>
      rw [← hr]
    | cons other others => simp [hr, hs] at h
  | cons first comments =>
    cases hs : s.comments with
    | nil => simp [hr, hs] at h
    | cons other others =>
      have htext : first.content = other.content := by simpa [hr, hs] using h
      refine .tail (.single (.discussed r others hr)) (.signed _ ?_)
      rw [List.map_cons, List.map_cons, htext]

/-- **Same content is what such changes lead to,** and nothing else. -/
theorem sameContent_iff_edited : r.sameContent s = true ↔ ReflTransGen Edited r s := by
  constructor
  · intro h
    obtain ⟨httl, hvalues, hremark⟩ := sameContent_iff.mp h
    have hs : s = { r with
        comments := s.comments, records := s.records, name := s.name, type := s.type } := by
      rw [httl]
    rw [hs]
    exact ((edited_comments hremark).tail (.reordered _ hvalues)).tail (.moved _ s.name s.type)
  · intro h
    induction h with
    | refl => exact sameContent_equivalence.refl r
    | tail _ hedit ih => exact sameContent_equivalence.trans ih hedit.sameContent

/-- **Record sets are compared as multisets of values.**  The comparison is an equivalence, and the
changes that it never notices are those of the values' order, of the key, of the comments' accounts
and of the comments behind the first. -/
theorem sameContent_multiset :
    (∀ r s : RRset, r.sameContent s = true ↔
      r.ttl = s.ttl ∧
      (∀ content disabled,
        r.records.count ⟨content, disabled⟩ = s.records.count ⟨content, disabled⟩) ∧
      r.comments.head?.map Comment.content = s.comments.head?.map Comment.content) ∧
    Equivalence (fun r s : RRset => r.sameContent s = true) ∧
    ∀ r r' : RRset, ReflTransGen Edited r r' ↔
      ∀ s, r'.sameContent s = r.sameContent s ∧ s.sameContent r' = s.sameContent r := by
  refine ⟨fun r s => ?_, sameContent_equivalence, fun r r' => ⟨fun h => ?_, fun h => ?_⟩⟩
  · rw [sameContent_iff, List.perm_iff_count]
    exact and_congr_right' (and_congr_left' ⟨fun h _ _ => h _, fun h _ => h _ _⟩)
  · exact sameContent_congr (sameContent_iff_edited.mpr h)
  · have hself : r.sameContent r' = r.sameContent r := (h r).2
    exact sameContent_iff_edited.mp (hself.trans (sameContent_equivalence.refl r))

end ZoneKeeper.RRset
