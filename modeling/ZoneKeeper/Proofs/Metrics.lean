/-
What counting does to metrics.

A count raises its own series, and with it the sums in which the series is, and nothing else.  So
of many counts, one after another, only the amounts that went to certain series matter for what is
read of them afterwards, and those add up (`booked`).  `Reads` says which readings are of this kind.

The numbers that are shown have 53 significant bits.  As long as a counter's total has no more, it
is what is shown.
-/
import Mathlib.Algebra.Ring.Nat
import ZoneKeeper.Metrics

namespace ZoneKeeper

namespace Metrics

/-! ### One count -/

theorem lookup_addTo (series other : Series) (n : Nat) (counters : List (Series × Counter)) :
    (addTo series n counters).lookup other =
      if other = series then some (((counters.lookup other).getD .zero).add n)
      else counters.lookup other := by
  induction counters with
  | nil =>
    unfold addTo
    split
    · next hown => rw [hown, List.lookup_cons_self, List.lookup_nil, Option.getD_none]
    · next hother => rw [List.lookup_cons, beq_false_of_ne hother]
  | cons entry rest ih =>
    obtain ⟨first, counter⟩ := entry
    unfold addTo
    by_cases hfirst : other = first
    · subst hfirst
      split
      · rw [List.lookup_cons_self, List.lookup_cons_self, Option.getD_some]
      · rw [List.lookup_cons_self, List.lookup_cons_self]
    · have hskip : ∀ (c : Counter) (tail : List (Series × Counter)),
          ((first, c) :: tail).lookup other = tail.lookup other := fun c tail => by
        rw [List.lookup_cons, beq_false_of_ne hfirst]
      split
      · next hown => rw [if_neg (hown ▸ hfirst), hskip, hskip]
      · rw [hskip, hskip, ih]

/-- Counting a series raises it, and no other. -/
theorem value_count (metrics : Metrics) (series other : Series) (n : Nat) :
    (metrics.count series n).value other =
      if other = series then metrics.value other + n else metrics.value other := by
  unfold value count
  rw [lookup_addTo]
  split <;> rfl

/-- The sum over certain series. -/
def total (metrics : Metrics) (among : Series → Bool) : Nat :=
  (metrics.counters.map fun entry => if among entry.1 then entry.2.total else 0).sum

/-- Counting a series raises the sums in which it is, and no others. -/
theorem total_count (metrics : Metrics) (series : Series) (n : Nat) (among : Series → Bool) :
    (metrics.count series n).total among =
      metrics.total among + if among series then n else 0 := by
  unfold total count
  generalize metrics.counters = counters
  induction counters with
  | nil => simp [addTo, Counter.add, Counter.zero]
  | cons entry rest ih =>
    obtain ⟨first, counter⟩ := entry
    rw [addTo]
    by_cases hfirst : first = series
    · rw [if_pos hfirst, hfirst, List.map_cons, List.map_cons, List.sum_cons, List.sum_cons]
      by_cases hamong : among series = true
      · rw [if_pos hamong, if_pos hamong, if_pos hamong]
        exact Nat.add_right_comm counter.total n _
      · rw [if_neg hamong, if_neg hamong, if_neg hamong, Nat.add_zero]
    · rw [if_neg hfirst, List.map_cons, List.map_cons, List.sum_cons, List.sum_cons, ih,
        Nat.add_assoc]

/-- A reading that goes up by what is counted of certain series, and by nothing else. -/
structure Reads (read : Metrics → Nat) (among : Series → Bool) : Prop where
  count : ∀ metrics series n,
    read (metrics.count series n) = read metrics + if among series then n else 0
  observe : ∀ metrics outcome nanoseconds,
    read (metrics.observe outcome nanoseconds) = read metrics

theorem reads_value (series : Series) :
    Reads (fun metrics => metrics.value series) fun other => other = series where
  count metrics other n := by
    rw [value_count]
    by_cases hsame : series = other
    · simp [hsame]
    · simp [hsame, Ne.symm hsame]
  observe _ _ _ := rfl

theorem reads_total (among : Series → Bool) :
    Reads (fun metrics => metrics.total among) among where
  count metrics series n := metrics.total_count series n among
  observe _ _ _ := rfl

/-- What is shown of a counter is its total, as long as that has 53 bits. -/
def ShowsTotals (metrics : Metrics) : Prop :=
  ∀ entry ∈ metrics.counters, entry.2.total < 2 ^ 53 → entry.2.shown = entry.2.total

theorem showsTotals_count {metrics : Metrics} (h : metrics.ShowsTotals) (series : Series)
    (n : Nat) : (metrics.count series n).ShowsTotals := by
  have hadd : ∀ counter : Counter, (counter.total < 2 ^ 53 → counter.shown = counter.total) →
      (counter.add n).total < 2 ^ 53 → (counter.add n).shown = (counter.add n).total := by
    intro counter hcounter hbound
    have hsum : counter.total + n < 2 ^ 53 := hbound
    exact Counter.shown_add (hcounter (by omega)) hsum
  unfold ShowsTotals count at *
  generalize metrics.counters = counters at h
  induction counters with
  | nil => exact List.forall_mem_singleton.mpr (hadd .zero fun _ => rfl)
  | cons entry rest ih =>
    obtain ⟨first, counter⟩ := entry
    obtain ⟨hfirst, hrest⟩ := List.forall_mem_cons.mp h
    dsimp only [addTo]
    split
    · exact List.forall_mem_cons.mpr ⟨hadd counter hfirst, hrest⟩
    · exact List.forall_mem_cons.mpr ⟨hfirst, ih hrest⟩

/-! ### Many counts -/

/-- The metrics after many counts, one after another. -/
def book (metrics : Metrics) (entries : List (Series × Nat)) : Metrics :=
  entries.foldl (fun metrics (series, n) => metrics.count series n) metrics

/-- What many counts add up to, as far as they are of certain series. -/
def booked (among : Series → Bool) (entries : List (Series × Nat)) : Nat :=
  (entries.map fun entry => if among entry.1 then entry.2 else 0).sum

variable {metrics : Metrics} {entries more : List (Series × Nat)}

theorem book_append (metrics : Metrics) (entries more : List (Series × Nat)) :
    metrics.book (entries ++ more) = (metrics.book entries).book more :=
  List.foldl_append

theorem booked_append (among : Series → Bool) (entries more : List (Series × Nat)) :
    booked among (entries ++ more) = booked among entries + booked among more := by
  rw [booked, List.map_append, List.sum_append, ← booked, ← booked]

theorem booked_replicate (among : Series → Bool) (times : Nat) (series : Series) (n : Nat) :
    booked among (List.replicate times (series, n)) = if among series then times * n else 0 := by
  rw [booked, List.map_replicate, List.sum_replicate_nat]
  split <;> simp

/-- **What one count adds to a reading, many counts add up to.** -/
theorem Reads.book {read : Metrics → Nat} {among : Series → Bool} (h : Reads read among)
    (metrics : Metrics) (entries : List (Series × Nat)) :
    read (metrics.book entries) = read metrics + booked among entries := by
  induction entries generalizing metrics with
  | nil => rfl
  | cons entry rest ih =>
    obtain ⟨series, n⟩ := entry
    rw [Metrics.book, List.foldl_cons, ← Metrics.book, ih, h.count, booked, booked, List.map_cons,
      List.sum_cons, Nat.add_assoc]

theorem durations_book (metrics : Metrics) (entries : List (Series × Nat)) :
    (metrics.book entries).durations = metrics.durations := by
  induction entries generalizing metrics with
  | nil => rfl
  | cons entry rest ih => exact ih (metrics.count entry.1 entry.2)

theorem showsTotals_book (h : metrics.ShowsTotals) (entries : List (Series × Nat)) :
    (metrics.book entries).ShowsTotals := by
  induction entries generalizing metrics with
  | nil => exact h
  | cons entry rest ih => exact ih (showsTotals_count h entry.1 entry.2)

end Metrics

end ZoneKeeper
