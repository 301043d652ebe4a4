/-
Records read from JSON.

A record is written as an object whose members are its fields, or as an array that lists
the fields in their declared order.  Members that name no field are skipped whatever they
hold; a field given twice is a mistake, as is an array with more items than fields.  A
field that is absent has its default, or is missing when it has none, and null counts as
a value like any other: only an optional value may be null.
-/
import ZoneKeeper.Json
import ZoneKeeper.Numeral

namespace ZoneKeeper

/-- A type whose values are read from JSON. -/
class OfJson (α : Type) where
  ofJson? : Json → Option α

export OfJson (ofJson?)

namespace Json

/-- An integer without sign, fraction or exponent, of value at most `bound`. -/
def natUpTo? (bound : Nat) : Json → Option Nat
  | .number literal => (Numeral.decimal? literal.toList).filter (· ≤ bound)
  | _ => none

instance : OfJson Json := ⟨some⟩
instance : OfJson String := ⟨text?⟩
instance : OfJson Bool := ⟨bool?⟩
instance : OfJson UInt16 := ⟨fun j => (natUpTo? (UInt16.size - 1) j).map UInt16.ofNat⟩
instance : OfJson UInt32 := ⟨fun j => (natUpTo? (UInt32.size - 1) j).map UInt32.ofNat⟩

instance {α : Type} [OfJson α] : OfJson (Option α) :=
  ⟨fun
    | .null => some none
    | j => (ofJson? j).map some⟩

instance {α : Type} [OfJson α] : OfJson (List α) :=
  ⟨fun j => do (← j.items?).mapM ofJson?⟩

/-- The fields found for a record, each with its value. -/
abbrev Fields := List (String × Json)

/-- The fields of a record with the given field names, in their declared order. -/
def fields? (names : List String) : Json → Option Fields
  | .array items => if items.length ≤ names.length then some (names.zip items) else none
  | .object members => do
    let members ← members.mapM fun (key, value) => key.map fun key => (key, value)
    let known := members.filter fun (key, _) => names.contains key
    if (known.map Prod.fst).Nodup then some known else none
  | _ => none

/-- The value of a field that must be there. -/
def Fields.required? {α : Type} [OfJson α] (fields : Fields) (name : String) : Option α :=
  (fields.lookup name).bind ofJson?

/-- The value of a field that stands for `default` when it is absent. -/
def Fields.withDefault? {α : Type} [OfJson α] (fields : Fields) (name : String) (default : α) :
    Option α :=
  match fields.lookup name with
  | some value => ofJson? value
  | none => some default

end Json
end ZoneKeeper
