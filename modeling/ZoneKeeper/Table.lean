/-
Tables: lists of entries under keys, in the order in which the keys came.

The entry under a key is the first one that has it.  Putting an entry takes the place of
that one, so the keys of a table stay distinct if they were.
-/
namespace ZoneKeeper

/-- Entries under keys. -/
abbrev Table (κ α : Type) := List (κ × α)

namespace Table

variable {κ α : Type} [DecidableEq κ]

/-- The table with `value` under `key`, whatever was there before. -/
def put (key : κ) (value : α) : Table κ α → Table κ α
  | [] => [(key, value)]
  | (other, old) :: rest =>
    if other = key then (key, value) :: rest else (other, old) :: put key value rest

theorem lookup_put_self (key : κ) (value : α) (table : Table κ α) :
    (put key value table).lookup key = some value := by
  induction table with
  | nil => simp [put]
  | cons entry rest ih =>
    obtain ⟨other, old⟩ := entry
    by_cases h : other = key
    · simp [put, h]
    · have hne : (key == other) = false := by simpa using fun e : key = other => h e.symm
      rw [put, if_neg h, List.lookup_cons, hne]
      exact ih

theorem lookup_put_of_ne {key other : κ} (h : other ≠ key) (value : α) (table : Table κ α) :
    (put key value table).lookup other = table.lookup other := by
  have hne : (other == key) = false := by simpa using h
  induction table with
  | nil => simp [put, List.lookup_cons, hne]
  | cons entry rest ih =>
    obtain ⟨own, old⟩ := entry
    by_cases hown : own = key
    · subst hown
      rw [put, if_pos rfl, List.lookup_cons, List.lookup_cons, hne]
    · rw [put, if_neg hown, List.lookup_cons, List.lookup_cons, ih]

/-- The entries that `entries` put into a table, one after another. -/
def putAll (table : Table κ α) (entries : List (κ × α)) : Table κ α :=
  entries.foldl (fun table (key, value) => put key value table) table

end Table
end ZoneKeeper
