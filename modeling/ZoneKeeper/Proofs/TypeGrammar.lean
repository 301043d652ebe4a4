/-
Which texts an operator may write for a type.

There are the types with names, the registered ones, and a numeric form for all others.  Its number
is read as any number without a sign is, and that reader lets a plus stand in front of the digits.
So one family of texts is accepted that the numeric form does not have, and nothing else is.
-/
import ZoneKeeper.RRType
import ZoneKeeper.Proofs.Numeral

namespace ZoneKeeper.RRType

open Numeral

variable {m : String}

/-- The word that the numeric form starts with. -/
def numericWord : List Char :=
  ['T', 'Y', 'P', 'E']

/-- The numeric form: the word and behind it only digits, of a number of sixteen bits. -/
def IsNumbered (m : String) : Prop :=
  ∃ digits, m.toList = numericWord ++ digits ∧ IsNumeralUpTo 65535 digits

/-- The numeric form with a plus in front of the digits. -/
def IsSigned (m : String) : Prop :=
  ∃ digits, m.toList = numericWord ++ '+' :: digits ∧ IsNumeralUpTo 65535 digits

/-- The mnemonics that are meant to be accepted. -/
def IsStrict (m : String) : Prop :=
  m ∈ NamedType.all.map NamedType.mnemonic ∨ m ∈ registered ∨ IsNumbered m

theorem isNumeric_iff : isNumeric m = true ↔ IsNumbered m ∨ IsSigned m := by
  unfold isNumeric
  split
  · next digits hm =>
    rw [unsigned?_isSome_iff]
    simp [IsNumbered, IsSigned, hm, numericWord, UInt16.size]
  · next hm =>
    have hnot : ∀ cs, m.toList ≠ numericWord ++ cs := hm
    simp [IsNumbered, IsSigned, hnot]

theorem isAccepted_iff : isAccepted m = true ↔ IsStrict m ∨ IsSigned m := by
  rw [isAccepted, Bool.or_eq_true, Bool.or_eq_true, NamedType.ofMnemonic?_isSome_iff,
    List.contains_iff_mem, isNumeric_iff, IsStrict, or_assoc, or_assoc, or_assoc]

/-- No plus stands in a mnemonic that is meant to be accepted. -/
theorem plus_not_mem_of_isStrict (h : IsStrict m) : '+' ∉ m.toList := by
  have hlisted : ∀ m ∈ NamedType.all.map NamedType.mnemonic ++ registered, '+' ∉ m.toList := by
    decide +kernel
  obtain hnamed | hregistered | ⟨digits, hm, -, hdigits, -⟩ := h
  · exact hlisted m (List.mem_append_left _ hnamed)
  · exact hlisted m (List.mem_append_right _ hregistered)
  · rw [hm, List.mem_append]
    intro hplus
    rcases hplus with hword | hdigit
    · exact absurd hword (by decide)
    · exact absurd (hdigits '+' hdigit) (by decide)

theorem not_isStrict_of_isSigned (h : IsSigned m) : ¬IsStrict m := by
  obtain ⟨digits, hm, -⟩ := h
  intro hstrict
  refine plus_not_mem_of_isStrict hstrict ?_
  rw [hm]
  exact List.mem_append_right _ List.mem_cons_self

/-- **What an operator may write for a type.**  A text names a type if its mnemonic, which is what
it says in upper case and without blanks around it, is the one of a type with a name, a registered
one, or the word TYPE with the digits of a number of sixteen bits behind it, and in one case more:
if a plus stands before the digits, which is none of these. -/
theorem accepts_iff (s : String) :
    ((∃ type, ofString? s = some type) ↔ IsStrict (mnemonicOf s) ∨ IsSigned (mnemonicOf s)) ∧
      ¬(IsStrict (mnemonicOf s) ∧ IsSigned (mnemonicOf s)) := by
  constructor
  · rw [← isAccepted_iff, ofString?]
    split <;> simp_all
  · intro ⟨hstrict, hsigned⟩
    exact not_isStrict_of_isSigned hsigned hstrict

/-- A number with a plus is accepted, and is not in the numeric form. -/
theorem accepts_plus :
    ofString? "TYPE+5" = some (ofMnemonic "TYPE+5") ∧ ¬IsStrict (mnemonicOf "TYPE+5") := by
  refine ⟨by decide +kernel, fun hstrict => ?_⟩
  exact absurd (plus_not_mem_of_isStrict hstrict) (by decide +kernel)

end ZoneKeeper.RRType
