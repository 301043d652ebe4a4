/-
JSON values.

A value keeps what its readers may ask for.  A number keeps its literal, because whether
`300` and `3e2` mean the same is for the reader to say.  A string literal has a text
unless one of its escapes is half of a surrogate pair standing alone: such a literal is
well-formed JSON and may be skipped over, but no reader of texts accepts it.  An object
keeps its members in order, repetitions included.
-/
namespace ZoneKeeper

/-- A JSON value. -/
inductive Json
  | null
  | bool (value : Bool)
  | number (literal : String)
  | string (text : Option String)
  | array (items : List Json)
  | object (members : List (Option String × Json))
deriving Repr, Inhabited

/-- A type whose values are written as JSON. -/
class ToJson (α : Type) where
  toJson : α → Json

export ToJson (toJson)

namespace Json

/-! ### Building values -/

/-- The object with these members, in this order. -/
def ofFields (fields : List (String × Json)) : Json :=
  .object (fields.map fun (name, value) => (some name, value))

instance : ToJson Json := ⟨id⟩
instance : ToJson Bool := ⟨.bool⟩
instance : ToJson String := ⟨fun s => .string (some s)⟩
instance : ToJson Nat := ⟨fun n => .number (toString n)⟩
instance : ToJson UInt16 := ⟨fun n => .number (toString n.toNat)⟩
instance : ToJson UInt32 := ⟨fun n => .number (toString n.toNat)⟩

instance {α : Type} [ToJson α] : ToJson (Option α) :=
  ⟨fun
    | none => .null
    | some a => toJson a⟩

instance {α : Type} [ToJson α] : ToJson (List α) :=
  ⟨fun xs => .array (xs.map toJson)⟩

/-! ### Reading values -/

/-- The text of a string. -/
def text? : Json → Option String
  | .string text => text
  | _ => none

/-- The truth value. -/
def bool? : Json → Option Bool
  | .bool value => some value
  | _ => none

/-- The items of an array. -/
def items? : Json → Option (List Json)
  | .array items => some items
  | _ => none

end Json
end ZoneKeeper
