/-
YAML nodes, and what their readers make of them.

A node is a scalar, a sequence or a mapping.  A scalar is a text and little more: what it
means is for its reader to say.  Only a plain scalar can mean a number, a truth value or
null, or one whose tag says that it does.  Where a text is wanted, every scalar is one,
whatever it looks like.

Where nothing is written there is a plain scalar with an empty text.  It stands for an
empty sequence or mapping too, which an explicit null does not.
-/
import ZoneKeeper.Numeral

namespace ZoneKeeper

namespace Yaml

/-- How a scalar is written. -/
inductive Style
  | plain
  | quoted
  /-- A block whose line ends stay. -/
  | literal
  /-- A block whose line ends fold. -/
  | folded
deriving DecidableEq, Repr

end Yaml

/-- A YAML node.  The members of a mapping are kept in order, repetitions included. -/
inductive Yaml
  | scalar (style : Yaml.Style) (tag : Option String) (text : String)
  | sequence (items : List Yaml)
  | mapping (members : List (Yaml × Yaml))
  /-- A reference to a collection that the reference is a part of.  No reader takes it. -/
  | cycle
deriving Repr, Inhabited

namespace Yaml

open Numeral

/-- The node where nothing is written. -/
def nothing : Yaml := .scalar .plain none ""

/-! ### What scalars mean -/

/-- The tag of a scalar that says that there is no value. -/
def nullTag : String := "tag:yaml.org,2002:null"

/-- The tag of a truth value. -/
def boolTag : String := "tag:yaml.org,2002:bool"

/-- The tag of an integer. -/
def intTag : String := "tag:yaml.org,2002:int"

/-- The text of a scalar. -/
def text? : Yaml → Option String
  | .scalar _ _ text => some text
  | _ => none

/-- The text of a scalar that may mean a value of the kind that is wanted: a plain one, or a
literal block with the tag of the kind. -/
def literalText? (wanted : String) : Yaml → Option String
  | .scalar .plain _ text => some text
  | .scalar .literal tag text => if tag = some wanted then some text else none
  | _ => none

/-- The word means that there is no value. -/
def isNullWord (word : String) : Bool :=
  ["~", "null", "Null", "NULL"].contains word

/-- The truth value that a word means. -/
def boolOf? (word : String) : Option Bool :=
  if ["true", "True", "TRUE"].contains word then some true
  else if ["false", "False", "FALSE"].contains word then some false
  else none

/-- The truth value of a scalar where one is wanted. -/
def bool? (node : Yaml) : Option Bool :=
  (node.literalText? boolTag).bind boolOf?

/-- The truth value that a scalar has wherever it stands. -/
def evidentBool? : Yaml → Option Bool
  | .scalar .plain none text => boolOf? text
  | .scalar _ tag text => if tag = some boolTag then boolOf? text else none
  | _ => none

/-- The value of a numeral: decimal without leading zeros, or with a mark for its base. -/
def numeral? : List Char → Option Nat
  | '0' :: 'x' :: cs => inBase? 16 cs
  | '0' :: 'o' :: cs => inBase? 8 cs
  | '0' :: 'b' :: cs => inBase? 2 cs
  | '0' :: _ :: _ => none
  | cs => decimal? cs

/-- An integer of value at most `bound`, with one leading plus allowed. -/
def natUpTo? (bound : Nat) (node : Yaml) : Option Nat := do
  let cs := (← node.literalText? intTag).toList
  (numeral? (if cs.head? = some '+' then cs.tail else cs)).filter (· ≤ bound)

/-! ### What collections hold -/

/-- The items of a sequence. -/
def items? : Yaml → Option (List Yaml)
  | .sequence items => some items
  | .scalar .plain _ "" => some []
  | _ => none

/-- The members of a mapping whose keys are texts. -/
def members? : Yaml → Option (List (String × Yaml))
  | .mapping members => members.mapM fun (key, value) => key.text?.map fun text => (text, value)
  | .scalar .plain _ "" => some []
  | _ => none

end Yaml

/-- A type whose values are read from YAML. -/
class OfYaml (α : Type) where
  ofYaml? : Yaml → Option α

export OfYaml (ofYaml?)

namespace Yaml

instance : OfYaml String := ⟨text?⟩
instance : OfYaml Bool := ⟨bool?⟩
instance : OfYaml UInt32 := ⟨fun node => (natUpTo? (UInt32.size - 1) node).map UInt32.ofNat⟩
instance : OfYaml UInt64 := ⟨fun node => (natUpTo? (UInt64.size - 1) node).map UInt64.ofNat⟩

/-- A value may be missing where a plain scalar is empty or says so.  A tag says that there
is one, unless it says that there is none. -/
instance {α : Type} [OfYaml α] : OfYaml (Option α) :=
  ⟨fun node =>
    match node with
    | .scalar .plain none text =>
      if text.isEmpty || isNullWord text then some none else (ofYaml? node).map some
    | .scalar .plain (some tag) text =>
      if tag ≠ nullTag then (ofYaml? node).map some
      else if isNullWord text then some none
      else none
    | _ => (ofYaml? node).map some⟩

instance {α : Type} [OfYaml α] : OfYaml (List α) :=
  ⟨fun node => do (← node.items?).mapM ofYaml?⟩

/-- The fields found for a record, each with its node. -/
abbrev Fields := List (String × Yaml)

/-- The fields of a record with the given field names.  Members that name no field are
skipped whatever they hold; a field given twice is a mistake. -/
def fields? (names : List String) (node : Yaml) : Option Fields := do
  let known := (← node.members?).filter fun (key, _) => names.contains key
  if (known.map Prod.fst).Nodup then some known else none

/-- The value of a field that must be there. -/
def Fields.required? {α : Type} [OfYaml α] (fields : Fields) (name : String) : Option α :=
  (fields.lookup name).bind ofYaml?

/-- The value of a field that stands for `default` when it is absent. -/
def Fields.withDefault? {α : Type} [OfYaml α] (fields : Fields) (name : String) (default : α) :
    Option α :=
  match fields.lookup name with
  | some node => ofYaml? node
  | none => some default

end Yaml
end ZoneKeeper
