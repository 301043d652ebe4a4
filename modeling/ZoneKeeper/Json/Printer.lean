/-
Writing JSON text.

Two layouts are offered.  The compact one has no blanks at all, and is what is stored and
sent; the pretty one puts every item and member on a line of its own, indented by two
spaces a level, and is what people read.  Both escape the quote, the backslash and the
control characters, and leave every other character as it is.
-/
import ZoneKeeper.Json
import ZoneKeeper.Numeral

namespace ZoneKeeper.Json

open Numeral

/-! ### Strings -/

/-- A character inside a string literal. -/
def escapeChar (c : Char) : List Char :=
  match c with
  | '"' => ['\\', '"']
  | '\\' => ['\\', '\\']
  | '\x08' => ['\\', 'b']
  | '\x0c' => ['\\', 'f']
  | '\n' => ['\\', 'n']
  | '\r' => ['\\', 'r']
  | '\t' => ['\\', 't']
  | c =>
    if c.toNat < 0x20 then
      ['\\', 'u', '0', '0', hexDigit (c.toNat / 16), hexDigit (c.toNat % 16)]
    else [c]

/-- The literal of a string.  A string without a text is written as half of a surrogate pair. -/
def quote : Option String → List Char
  | some s => '"' :: s.toList.flatMap escapeChar ++ ['"']
  | none => "\"\\ud800\"".toList

/-! ### The compact layout -/

mutual

/-- The characters of a value, without blanks. -/
def chars : Json → List Char
  | .null => "null".toList
  | .bool value => (if value then "true" else "false").toList
  | .number literal => literal.toList
  | .string text => quote text
  | .array items => '[' :: itemsChars items ++ [']']
  | .object members => '{' :: membersChars members ++ ['}']

/-- The items of an array, with commas between them. -/
def itemsChars : List Json → List Char
  | [] => []
  | [item] => item.chars
  | item :: items => item.chars ++ ',' :: itemsChars items

/-- The members of an object, with commas between them. -/
def membersChars : List (Option String × Json) → List Char
  | [] => []
  | [(key, value)] => quote key ++ ':' :: value.chars
  | (key, value) :: members => quote key ++ ':' :: value.chars ++ ',' :: membersChars members

end

/-- The compact text of a value. -/
def compact (j : Json) : String :=
  String.ofList j.chars

/-! ### The pretty layout -/

/-- The start of a line at a level. -/
def lineStart (level : Nat) : List Char :=
  '\n' :: List.replicate (2 * level) ' '

mutual

/-- The characters of a value that starts at a level. -/
def prettyChars (level : Nat) : Json → List Char
  | .array [] => ['[', ']']
  | .object [] => ['{', '}']
  | .array items => '[' :: prettyItems (level + 1) items ++ lineStart level ++ [']']
  | .object members => '{' :: prettyMembers (level + 1) members ++ lineStart level ++ ['}']
  | .null => "null".toList
  | .bool value => (if value then "true" else "false").toList
  | .number literal => literal.toList
  | .string text => quote text

/-- The items of an array, each on its line. -/
def prettyItems (level : Nat) : List Json → List Char
  | [] => []
  | [item] => lineStart level ++ item.prettyChars level
  | item :: items => lineStart level ++ item.prettyChars level ++ ',' :: prettyItems level items

/-- The members of an object, each on its line. -/
def prettyMembers (level : Nat) : List (Option String × Json) → List Char
  | [] => []
  | [(key, value)] => lineStart level ++ quote key ++ ':' :: ' ' :: value.prettyChars level
  | (key, value) :: members =>
    lineStart level ++ quote key ++ ':' :: ' ' :: value.prettyChars level ++
      ',' :: prettyMembers level members

end

/-- The text of a value for people to read. -/
def pretty (j : Json) : String :=
  String.ofList (j.prettyChars 0)

end ZoneKeeper.Json
