/-
How the types of records are spelled and ordered.

Both readers of types ask for a mnemonic only, and a text has the mnemonic of every other that
differs from it in the case of letters and in the blanks around it.  So a type is read from all
spellings of a text or from none, and from its own mnemonic, which is the shortest of them.  The
reader of reports takes what the reader of operators takes, as the same type.

A type is what its mnemonic says.  So types that are ordered alike are the same type, and no
mnemonic of a type with a name of its own is carried as text.
-/
import Mathlib.Data.String.Basic
import ZoneKeeper.Proofs.Stored

namespace ZoneKeeper

/-! ### Case and blanks -/

namespace Text

variable {s t before after : String}

/-- The capital of a small letter is the letter that it was made of. -/
theorem toUpper_toLower (c : Char) : c.toLower.toUpper = c.toUpper := by
  unfold Char.toLower
  split
  · next h =>
    have hlow : 65 ≤ c.toNat := UInt32.le_iff_toNat_le.mp h.1
    have hhigh : c.toNat ≤ 90 := UInt32.le_iff_toNat_le.mp h.2
    have hsmall : (c.val + ('a'.val - 'A'.val)).toNat = c.toNat + 32 := by
      rw [UInt32.toNat_add]
      show (c.toNat + 32) % 4294967296 = c.toNat + 32
      omega
    have hletter : c.val + ('a'.val - 'A'.val) ≥ 'a'.val ∧
        c.val + ('a'.val - 'A'.val) ≤ 'z'.val := by
      rw [ge_iff_le, UInt32.le_iff_toNat_le, UInt32.le_iff_toNat_le, hsmall]
      exact ⟨Nat.add_le_add_right hlow 32, Nat.add_le_add_right hhigh 32⟩
    have hcapital : c.toUpper = c := by
      rcases toUpper_eq_or c with h | ⟨hlow, -⟩
      · exact h
      · omega
    have hback : c.val + ('a'.val - 'A'.val) + ('A'.val - 'a'.val) = c.val := by
      have hzero : 'a'.val - 'A'.val + ('A'.val - 'a'.val) = 0 := by decide
      rw [UInt32.add_assoc, hzero, UInt32.add_zero]
    rw [hcapital]
    unfold Char.toUpper
    rw [dif_pos hletter]
    exact Char.ext hback
  · rfl

theorem upper_lower (s : String) : upper (lower s) = upper s := by
  simp only [upper, lower, String.toList_ofList, List.map_map, Function.comp_def, toUpper_toLower]

theorem upper_congr (h : sameLetters s t = true) : upper s = upper t := by
  have hlower : lower s = lower t := by simpa [sameLetters] using h
  rw [← upper_lower s, hlower, upper_lower]

theorem trimChars_append (bs cs ds : List Char) (hbs : ∀ c ∈ bs, isBlank c = true)
    (hds : ∀ c ∈ ds, isBlank c = true) : trimChars (bs ++ cs ++ ds) = trimChars cs := by
  unfold trimChars
  rw [List.append_assoc, List.dropWhile_append_of_pos hbs, List.dropWhile_append]
  by_cases hcs : (cs.dropWhile isBlank).isEmpty = true
  · rw [if_pos hcs, List.dropWhile_eq_nil_iff.mpr hds, List.isEmpty_iff.mp hcs]
  · rw [if_neg hcs, dropEndWhile, List.reverse_append, List.dropWhile_append_of_pos, dropEndWhile]
    intro c hc
    exact hds c (List.mem_reverse.mp hc)

theorem trim_append (hbefore : isBlankText before = true) (hafter : isBlankText after = true)
    (s : String) : trim (before ++ s ++ after) = trim s := by
  rw [trim, String.toList_append, String.toList_append,
    trimChars_append _ _ _ (List.all_eq_true.mp hbefore) (List.all_eq_true.mp hafter), trim]

end Text

namespace RRType

open Text

variable {s t : String} {type : RRType}

/-! ### Spellings -/

/-- The texts that a text becomes when letters change their case and blanks are put around it. -/
inductive Respelled (s : String) : String → Prop
  | same : Respelled s s
  | letters {t u : String} (spelled : Respelled s t) (same : sameLetters t u = true) :
    Respelled s u
  | blanks {t : String} (spelled : Respelled s t) (before after : String)
    (blankBefore : isBlankText before = true) (blankAfter : isBlankText after = true) :
    Respelled s (before ++ t ++ after)

theorem mnemonicOf_of_sameLetters (h : sameLetters s t = true) : mnemonicOf t = mnemonicOf s := by
  rw [mnemonicOf, mnemonicOf, ← trim_upper, ← trim_upper, upper_congr h]

/-- A text has the mnemonic of all its spellings. -/
theorem Respelled.mnemonicOf (h : Respelled s t) : mnemonicOf t = mnemonicOf s := by
  induction h with
  | same => rfl
  | letters _ same ih => rw [mnemonicOf_of_sameLetters same, ih]
  | blanks _ before after blankBefore blankAfter ih =>
    rw [RRType.mnemonicOf, trim_append blankBefore blankAfter]
    exact ih

theorem ofString?_eq_some_iff : ofString? s = some type ↔
    isAccepted (mnemonicOf s) = true ∧ ofMnemonic (mnemonicOf s) = type := by
  unfold ofString?
  rw [Option.ite_none_right_eq_some, Option.some.injEq]

theorem ofReport?_of_ofString? (h : ofString? s = some type) : ofReport? s = some type := by
  obtain ⟨haccepted, rfl⟩ := ofString?_eq_some_iff.mp h
  unfold ofReport?
  rw [if_pos (by rw [haccepted, Bool.true_or])]

theorem ofString?_respelled (h : ofString? s = some type) (ht : Respelled s t) :
    ofString? t = some type := by
  rw [ofString?_eq_some_iff, ht.mnemonicOf]
  exact ofString?_eq_some_iff.mp h

/-- A type that an operator wrote is read again from its mnemonic. -/
theorem ofString?_mnemonic (h : ofString? s = some type) :
    ofString? type.mnemonic = some type := by
  obtain ⟨haccepted, rfl⟩ := ofString?_eq_some_iff.mp h
  rw [ofString?_eq_some_iff, mnemonic_ofMnemonic, mnemonicOf_mnemonicOf]
  exact ⟨haccepted, rfl⟩

/-! ### The order of types -/

/-- The order of two types is that of their mnemonics. -/
def order (type other : RRType) : Ordering :=
  compare type.mnemonic other.mnemonic

theorem order_eq_iff {type other : RRType} :
    type.order other = .eq ↔ type.mnemonic = other.mnemonic :=
  compare_eq_iff_eq

/-- What sorting asks of the order. -/
theorem isLE_order (type other : RRType) : (type.order other).isLE = type.atMost other := by
  rw [Bool.eq_iff_iff, order, Std.LawfulBCmp.isLE_iff_le, atMost, decide_eq_true_iff]

/-- A type without a name of its own has the mnemonic of none that has one. -/
theorem isOther_iff (type : RRType) :
    type.isOther = true ↔ type.mnemonic ∉ NamedType.all.map NamedType.mnemonic := by
  rw [← NamedType.ofMnemonic?_isSome_iff, Option.not_isSome_iff_eq_none]
  cases type with
  | named type => simp [isOther, mnemonic, NamedType.ofMnemonic?_mnemonic]
  | other m unnamed => simp [isOther, mnemonic, unnamed]

/-- **Readers, mnemonics and order agree.**  What an operator may write is read as the same type
from a report, from its mnemonic, and from every other spelling.  What a report may hold is read
again from its mnemonic, and is carried as text only if no type with a name has that mnemonic.
Types that are ordered alike are the same, and so are types with one mnemonic. -/
theorem readers_agree :
    (∀ s type, ofString? s = some type → ofReport? s = some type ∧
      ofString? type.mnemonic = some type ∧ ∀ t, Respelled s t → ofString? t = some type) ∧
    (∀ s type, ofReport? s = some type → ofReport? type.mnemonic = some type ∧
      (type.isOther = true ↔ type.mnemonic ∉ NamedType.all.map NamedType.mnemonic)) ∧
    ∀ type other : RRType, (type.order other).isLE = type.atMost other ∧
      (type.order other = .eq ↔ type = other) ∧
      (type.order other = .eq ↔ type.mnemonic = other.mnemonic) := by
  refine ⟨?_, ?_, ?_⟩
  · intro s type h
    exact ⟨ofReport?_of_ofString? h, ofString?_mnemonic h, fun t ht => ofString?_respelled h ht⟩
  · intro s type h
    exact ⟨ofReport?_mnemonic h, type.isOther_iff⟩
  · intro type other
    refine ⟨type.isLE_order other, ?_, order_eq_iff⟩
    rw [order_eq_iff]
    exact ⟨mnemonic_injective, congrArg mnemonic⟩

/-- A type that is carried as text, in one of its spellings. -/
theorem readers_agree_spelled : ∃ type, ofString? "nsap-ptr" = some type ∧
    ofReport? "nsap-ptr" = some type ∧ ofString? type.mnemonic = some type ∧
    ofString? " Nsap-PTR\n" = some type ∧ ofReport? type.mnemonic = some type ∧
    type.isOther = true := by
  have hread : ofString? "nsap-ptr" = some (ofMnemonic "NSAP-PTR") := by
    decide +kernel
  have hletters : Respelled "nsap-ptr" "Nsap-PTR" := .letters .same (by decide +kernel)
  have hspelled : Respelled "nsap-ptr" " Nsap-PTR\n" :=
    hletters.blanks " " "\n" (by decide +kernel) (by decide +kernel)
  obtain ⟨hwritten, hreported, -⟩ := readers_agree
  obtain ⟨hreport, hmnemonic, hspellings⟩ := hwritten _ _ hread
  obtain ⟨hagain, hother⟩ := hreported _ _ hreport
  exact ⟨_, hread, hreport, hmnemonic, hspellings _ hspelled, hagain,
    hother.mpr (by decide +kernel)⟩

end RRType
end ZoneKeeper
