/-
The orders that keys, rows and values are sorted by.

A key is compared by its name and then by the mnemonic of its type, a row by its key and then
by its way of change, and a value by its content and then by its flag.  Each is a lexicographic
order in disguise, and seen so it needs no laws of its own: `sortKey` is the tuple that is really
compared.  A mnemonic determines its type, so keys that sort alike are the same key, and values
that sort alike are the same value.  So record sets can be compared by their sorted values.
-/
import ZoneKeeper.Batch
import Mathlib.Data.Prod.Lex
import Mathlib.Data.String.Basic

namespace ZoneKeeper

/-! ### Sorting -/

section Sorting

variable {α κ : Type} [LinearOrder κ] {f : α → κ} {atMost : α → α → Bool}

theorem atMost_trans (hatMost : ∀ a b, atMost a b = true ↔ f a ≤ f b) (a b c : α) :
    atMost a b = true → atMost b c = true → atMost a c = true := by
  rw [hatMost, hatMost, hatMost]
  exact le_trans

theorem atMost_total (hatMost : ∀ a b, atMost a b = true ↔ f a ≤ f b) (a b : α) :
    (atMost a b || atMost b a) = true := by
  rw [Bool.or_eq_true, hatMost, hatMost]
  exact le_total _ _

/-- What is sorted ascends. -/
theorem sorted_mergeSort (hatMost : ∀ a b, atMost a b = true ↔ f a ≤ f b) (xs : List α) :
    (xs.mergeSort atMost).Pairwise fun a b => f a ≤ f b :=
  (List.pairwise_mergeSort (atMost_trans hatMost) (atMost_total hatMost) xs).imp
    fun {a b} => (hatMost a b).mp

/-- Where nothing is twice and nothing sorts alike, what is sorted ascends strictly. -/
theorem ascending_mergeSort (hatMost : ∀ a b, atMost a b = true ↔ f a ≤ f b)
    (hinjective : ∀ a b, f a = f b → a = b) {xs : List α} (hnodup : xs.Nodup) :
    (xs.mergeSort atMost).Pairwise fun a b => f a < f b := by
  have hnodup' : (xs.mergeSort atMost).Nodup := (List.mergeSort_perm _ _).nodup_iff.mpr hnodup
  exact ((sorted_mergeSort hatMost xs).and hnodup').imp fun ⟨hle, hne⟩ =>
    lt_of_le_of_ne hle fun heq => hne (hinjective _ _ heq)

end Sorting

/-! ### Keys -/

namespace RRsetKey

/-- The two texts of a key, in the order in which they are compared. -/
def sortKey (key : RRsetKey) : String ×ₗ String :=
  toLex (key.name, key.type.mnemonic)

theorem sortKey_injective {k l : RRsetKey} (h : k.sortKey = l.sortKey) : k = l := by
  obtain ⟨name, type⟩ := k
  obtain ⟨name', type'⟩ := l
  have hpair : (name, type.mnemonic) = (name', type'.mnemonic) := toLex.injective h
  obtain ⟨rfl, htype⟩ := Prod.mk.inj hpair
  rw [RRType.mnemonic_injective htype]

theorem atMost_iff {k l : RRsetKey} : k.atMost l = true ↔ k.sortKey ≤ l.sortKey := by
  unfold sortKey
  rw [Prod.Lex.toLex_le_toLex]
  simp [atMost, RRType.atMost]

end RRsetKey

/-! ### Rows -/

namespace ChangeType

/-- The place of a way of change where nothing else decides. -/
def rank : ChangeType → Nat
  | replace => 0
  | delete => 1

theorem rank_injective {s t : ChangeType} (h : s.rank = t.rank) : s = t := by
  cases s <;> cases t <;> simp_all [rank]

theorem atMost_iff {s t : ChangeType} : s.atMost t = true ↔ s.rank ≤ t.rank := by
  cases s <;> cases t <;> decide

end ChangeType

namespace FlatRow

/-- What a row is sorted by. -/
def sortKey (row : FlatRow) : (String ×ₗ String) ×ₗ Nat :=
  toLex (row.key.sortKey, row.changeType.rank)

theorem sortKey_eq_iff {r s : FlatRow} :
    r.sortKey = s.sortKey ↔ r.key = s.key ∧ r.changeType = s.changeType := by
  constructor
  · intro h
    have hpair : (r.key.sortKey, r.changeType.rank) = (s.key.sortKey, s.changeType.rank) :=
      toLex.injective h
    obtain ⟨hkey, hrank⟩ := Prod.mk.inj hpair
    exact ⟨RRsetKey.sortKey_injective hkey, ChangeType.rank_injective hrank⟩
  · rintro ⟨hkey, htype⟩
    rw [sortKey, sortKey, hkey, htype]

theorem atMost_iff {r s : FlatRow} : r.atMost s = true ↔ r.sortKey ≤ s.sortKey := by
  unfold sortKey atMost
  rw [Prod.Lex.toLex_le_toLex]
  by_cases hkey : r.key = s.key
  · rw [if_pos hkey, ChangeType.atMost_iff, hkey]
    simp
  · have hne : r.key.sortKey ≠ s.key.sortKey := fun h => hkey (RRsetKey.sortKey_injective h)
    rw [if_neg hkey, RRsetKey.atMost_iff, le_iff_lt_or_eq]
    simp [hne]

theorem atMost_eq : atMost = fun r s => decide (r.sortKey ≤ s.sortKey) := by
  funext r s
  rw [Bool.eq_iff_iff, atMost_iff, decide_eq_true_iff]

theorem sameChange_eq : sameChange = fun r s => decide (r.sortKey = s.sortKey) := by
  funext r s
  rw [Bool.eq_iff_iff, decide_eq_true_iff, sortKey_eq_iff]
  simp [sameChange]

end FlatRow

/-! ### Values -/

namespace RecordValue

/-- What a value is sorted by. -/
def sortKey (value : RecordValue) : String ×ₗ Bool :=
  toLex (value.content, value.disabled)

theorem sortKey_injective {v w : RecordValue} (h : v.sortKey = w.sortKey) : v = w := by
  obtain ⟨content, disabled⟩ := v
  obtain ⟨content', disabled'⟩ := w
  have hpair : (content, disabled) = (content', disabled') := toLex.injective h
  obtain ⟨rfl, rfl⟩ := Prod.mk.inj hpair
  rfl

theorem atMost_iff {v w : RecordValue} : v.atMost w = true ↔ v.sortKey ≤ w.sortKey := by
  unfold sortKey
  rw [Prod.Lex.toLex_le_toLex]
  simp [atMost]

end RecordValue

/-! ### Record sets -/

namespace RRset

variable {r s : RRset}

/-- The sorted values do not depend on the order in which they came. -/
theorem sortedRecords_eq_of_perm (h : r.records.Perm s.records) :
    r.sortedRecords = s.sortedRecords := by
  have hsorted (vs : List RecordValue) :
      (vs.mergeSort RecordValue.atMost).Pairwise fun v w => v.sortKey ≤ w.sortKey :=
    sorted_mergeSort (f := RecordValue.sortKey) (fun _ _ => RecordValue.atMost_iff) vs
  have hperm : r.sortedRecords.Perm s.sortedRecords :=
    (List.mergeSort_perm _ _).trans (h.trans (List.mergeSort_perm _ _).symm)
  exact hperm.eq_of_pairwise
    (fun _ _ _ _ hvw hwv => RecordValue.sortKey_injective (le_antisymm hvw hwv))
    (hsorted r.records) (hsorted s.records)

/-- They tell the values apart from that order. -/
theorem sortedRecords_eq_iff : r.sortedRecords = s.sortedRecords ↔ r.records.Perm s.records := by
  refine ⟨fun h => ?_, sortedRecords_eq_of_perm⟩
  have hperm : r.records.Perm s.sortedRecords := h ▸ (List.mergeSort_perm _ _).symm
  exact hperm.trans (List.mergeSort_perm _ _)

/-- Two record sets have the same content if the one's values are a rearrangement of the
other's, and their times to live and their remarks agree. -/
theorem sameContent_iff : r.sameContent s = true ↔
    r.ttl = s.ttl ∧ r.records.Perm s.records ∧ r.remark = s.remark := by
  rw [sameContent, Bool.and_eq_true, Bool.and_eq_true, beq_iff_eq, beq_iff_eq, beq_iff_eq,
    sortedRecords_eq_iff, and_assoc]

end RRset

end ZoneKeeper
