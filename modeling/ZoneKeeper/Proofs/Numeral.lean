/-
Numbers that are written and read again.

A run of digits is read as the number that the library makes of it.  So a number is read again
from its decimal numeral, and zeros in front make no difference.  Where a sign may stand in front,
a plus makes no difference either.
-/
import Mathlib.Algebra.Group.Nat.Defs
import Mathlib.Data.List.Forall2
import ZoneKeeper.Timestamp

namespace ZoneKeeper

/-- The characters do not start with one that has the property. -/
def Text.Apart (p : Char → Bool) (cs : List Char) : Prop :=
  ∀ c ∈ cs.head?, p c = false

theorem Text.apart_cons {p : Char → Bool} {c : Char} {cs : List Char} (h : p c = false) :
    Apart p (c :: cs) := by
  rintro _ ⟨⟩
  exact h

theorem Text.dropWhile_of_apart {p : Char → Bool} {cs : List Char} (h : Apart p cs) :
    cs.dropWhile p = cs := by
  cases cs with
  | nil => rfl
  | cons c cs => rw [List.dropWhile_cons_of_neg (by simp [h c rfl])]

/-- Everything is read when each part is. -/
theorem mapM_eq_some {α β : Type} {f : α → Option β} {g : α → β} {xs : List α}
    (h : ∀ x ∈ xs, f x = some (g x)) : xs.mapM f = some (xs.map g) := by
  induction xs with
  | nil => rfl
  | cons x xs ih =>
    obtain ⟨hx, hxs⟩ := List.forall_mem_cons.mp h
    rw [List.mapM_cons, hx, ih hxs]
    rfl

/-- What was written part by part is read again. -/
theorem mapM_map_eq_some {α β : Type} {f : α → β} {g : β → Option α} {xs : List α}
    (h : ∀ x ∈ xs, g (f x) = some x) : (xs.map f).mapM g = some xs := by
  have hread := mapM_eq_some (f := g ∘ f) (g := id) h
  rwa [List.map_id, ← List.mapM_map] at hread

/-- What is read is the parts that each was read as. -/
theorem mapM_eq_some_iff {α β : Type} {f : α → Option β} {xs : List α} {ys : List β} :
    xs.mapM f = some ys ↔ List.Forall₂ (fun x y => f x = some y) xs ys := by
  induction xs generalizing ys with
  | nil => simp [eq_comm]
  | cons x xs ih =>
    rw [List.mapM_cons, List.forall₂_cons_left_iff]
    cases hx : f x with
    | none => simp
    | some y => cases hxs : xs.mapM f <;> simp [← ih, hxs, eq_comm]

theorem exists_of_mapM_eq_some {α β : Type} {f : α → Option β} {xs : List α} {ys : List β}
    (h : xs.mapM f = some ys) {x : α} (hx : x ∈ xs) : ∃ y, f x = some y := by
  have hread := mapM_eq_some_iff.mp h
  clear h
  induction hread with
  | nil => contradiction
  | cons hfirst _ ih =>
    rcases List.mem_cons.mp hx with rfl | hx
    · exact ⟨_, hfirst⟩
    · exact ih hx

namespace Numeral

variable {cs : List Char}

/-- A decimal numeral is a run of digits. -/
theorem isDigit_of_decimal? {n : Nat} (h : decimal? cs = some n) : ∀ c ∈ cs, c.isDigit = true := by
  intro c hc
  rw [decimal?, Option.ite_none_left_eq_some, Option.map_eq_some_iff] at h
  obtain ⟨-, digits, hdigits, -⟩ := h
  obtain ⟨digit, hdigit⟩ := exists_of_mapM_eq_some hdigits hc
  exact (Option.ite_none_right_eq_some.mp hdigit).1

/-- A run of digits is a decimal numeral. -/
theorem decimal?_eq (hne : cs ≠ []) (h : ∀ c ∈ cs, c.isDigit = true) :
    decimal? cs = some (Nat.ofDigitChars 10 cs 0) := by
  have hvalue : ofDigits 10 (cs.map fun c => c.toNat - '0'.toNat) = Nat.ofDigitChars 10 cs 0 := by
    rw [ofDigits, List.foldl_map, Nat.ofDigitChars_eq_foldl]
    simp only [Nat.mul_comm]
  have hdigits : cs.mapM digit? = some (cs.map fun c => c.toNat - '0'.toNat) :=
    mapM_eq_some fun c hc => if_pos (h c hc)
  rw [decimal?, if_neg (by simpa using hne), hdigits, Option.map_some, hvalue]

theorem decimal?_eq_some_iff {n : Nat} : decimal? cs = some n ↔
    cs ≠ [] ∧ (∀ c ∈ cs, c.isDigit = true) ∧ Nat.ofDigitChars 10 cs 0 = n := by
  constructor
  · intro h
    have hne : cs ≠ [] := by
      intro hnil
      rw [hnil] at h
      cases h
    have hdigits := isDigit_of_decimal? h
    exact ⟨hne, hdigits, Option.some.inj ((decimal?_eq hne hdigits).symm.trans h)⟩
  · intro ⟨hne, hdigits, hvalue⟩
    rw [decimal?_eq hne hdigits, hvalue]

/-- Digits, and at least one of them, of a number that is not above the bound. -/
def IsNumeralUpTo (bound : Nat) (cs : List Char) : Prop :=
  cs ≠ [] ∧ (∀ c ∈ cs, c.isDigit = true) ∧ Nat.ofDigitChars 10 cs 0 ≤ bound

theorem filter_decimal?_isSome_iff {bound : Nat} :
    ((decimal? cs).filter (· ≤ bound)).isSome = true ↔ IsNumeralUpTo bound cs := by
  simp only [Option.isSome_iff_exists, Option.filter_eq_some_iff, decimal?_eq_some_iff,
    decide_eq_true_iff]
  constructor
  · intro ⟨n, ⟨hne, hdigits, hvalue⟩, hbound⟩
    exact ⟨hne, hdigits, hvalue ▸ hbound⟩
  · intro ⟨hne, hdigits, hbound⟩
    exact ⟨_, ⟨hne, hdigits, rfl⟩, hbound⟩

/-- What is read as a number without a sign is a numeral, or one with a plus in front. -/
theorem unsigned?_isSome_iff {bound : Nat} : (unsigned? bound cs).isSome = true ↔
    IsNumeralUpTo bound cs ∨ ∃ digits, cs = '+' :: digits ∧ IsNumeralUpTo bound digits := by
  rw [unsigned?, filter_decimal?_isSome_iff]
  cases cs with
  | nil => simp [IsNumeralUpTo]
  | cons c cs =>
    by_cases hc : c = '+'
    · subst hc
      have hsign : ¬IsNumeralUpTo bound ('+' :: cs) := by
        intro ⟨_, hdigits, _⟩
        exact absurd (hdigits '+' List.mem_cons_self) (by decide)
      simp [hsign]
    · simp [hc]

theorem isDigit_of_mem_toString {n : Nat} {c : Char} (h : c ∈ (toString n).toList) :
    c.isDigit = true := by
  rw [Nat.toString_eq_ofList_toDigits, String.toList_ofList] at h
  exact Nat.isDigit_of_mem_toDigits (by decide) (by decide) h

theorem toList_toString_ne_nil (n : Nat) : (toString n).toList ≠ [] := by
  rw [Nat.toString_eq_ofList_toDigits, String.toList_ofList]
  exact Nat.toDigits_ne_nil

/-- Only the numeral of zero starts with a zero. -/
theorem head?_toString_ne_zero {n : Nat} (h : 0 < n) : (toString n).toList.head? ≠ some '0' := by
  have hdigit : ∀ n < 10, 0 < n → [n.digitChar].head? ≠ some '0' := by decide
  rw [Nat.toString_eq_ofList_toDigits, String.toList_ofList]
  induction n using Nat.strongRecOn with
  | ind n ih =>
    rcases Nat.lt_or_ge n 10 with hsmall | hbig
    · rw [Nat.toDigits_of_lt_base hsmall]
      exact hdigit n hsmall h
    · obtain ⟨d, ds, hds⟩ :=
        List.exists_cons_of_ne_nil (Nat.toDigits_ne_nil (b := 10) (n := n / 10))
      have hhead := ih (n / 10) (by omega) (by omega)
      rw [hds] at hhead
      rw [Nat.toDigits_of_base_le (by decide) hbig, hds]
      exact hhead

/-- **A number is read again from its numeral.** -/
theorem decimal?_toString (n : Nat) : decimal? (toString n).toList = some n := by
  rw [decimal?_eq (toList_toString_ne_nil n) fun _ => isDigit_of_mem_toString,
    Nat.toString_eq_ofList_toDigits, String.toList_ofList, Nat.ofDigitChars_ten_toDigits]

end Numeral

namespace Timestamp

variable {width n : Nat} {c : Char}

theorem toList_padded (width n : Nat) : (padded width n).toList =
    List.replicate (width - (Nat.toDigits 10 n).length) '0' ++ Nat.toDigits 10 n := by
  rw [padded, Text.padStart, Nat.toString_eq_ofList_toDigits, String.toList_append,
    String.toList_ofList, String.toList_ofList, String.length_ofList]

theorem isDigit_of_mem_padded (h : c ∈ (padded width n).toList) : c.isDigit = true := by
  rw [toList_padded, List.mem_append] at h
  rcases h with hzero | hdigit
  · rw [List.eq_of_mem_replicate hzero]
    rfl
  · exact Nat.isDigit_of_mem_toDigits (by decide) (by decide) hdigit

theorem toList_padded_ne_nil (width n : Nat) : (padded width n).toList ≠ [] := by
  rw [toList_padded]
  exact List.append_ne_nil_of_right_ne_nil _ Nat.toDigits_ne_nil

/-- Zeros in front do not change the value, and those behind multiply it. -/
theorem ofDigitChars_padded (width n zeros : Nat) :
    Nat.ofDigitChars 10 ((padded width n).toList ++ List.replicate zeros '0') 0 =
      10 ^ zeros * n := by
  rw [toList_padded, Nat.ofDigitChars_append, Nat.ofDigitChars_append,
    Nat.ofDigitChars_replicate_zero, Nat.ofDigitChars_replicate_zero, Nat.mul_zero,
    Nat.ofDigitChars_ten_toDigits]

theorem decimal?_padded (width n zeros : Nat) :
    Numeral.decimal? ((padded width n).toList ++ List.replicate zeros '0') =
      some (10 ^ zeros * n) := by
  rw [Numeral.decimal?_eq (List.append_ne_nil_of_left_ne_nil (toList_padded_ne_nil width n) _),
    ofDigitChars_padded]
  intro c hc
  rcases List.mem_append.mp hc with hdigit | hzero
  · exact isDigit_of_mem_padded hdigit
  · rw [List.eq_of_mem_replicate hzero]
    rfl

/-- A number that is not too big fills the width. -/
theorem length_padded (hwidth : 0 < width) (h : n < 10 ^ width) :
    (padded width n).toList.length = width := by
  have hlength := (Nat.length_toDigits_le_iff (b := 10) (n := n) (by decide) hwidth).mpr h
  rw [toList_padded, List.length_append, List.length_replicate]
  omega

end Timestamp

end ZoneKeeper
