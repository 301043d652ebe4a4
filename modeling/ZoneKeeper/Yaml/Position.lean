/-
Places in a YAML text.

Indentation says what belongs together, and a key must have its colon on its own line and
not too many bytes behind it, so whoever reads a text keeps count of lines, columns and
bytes.  A line ends at a line feed or at one
of the two separators that Unicode has for lines and paragraphs.  The separators are kept
where line ends are kept, and only line feeds ever fold into spaces.
-/
import ZoneKeeper.Text

namespace ZoneKeeper.Yaml

/-- A blank inside a line. -/
def isBlank (c : Char) : Bool :=
  c == ' ' || c == '\t'

/-- The character ends a line. -/
def isBreak (c : Char) : Bool :=
  c == '\n' || c == '\u2028' || c == '\u2029'

/-- Nothing of a word follows. -/
def atWordEnd (cs : List Char) : Bool :=
  cs.head?.all fun c => isBlank c || isBreak c

/-- A place in a text.  Everything is counted from zero. -/
structure Position where
  line : Nat
  /-- The number of characters before it in its line. -/
  column : Nat
  /-- The number of bytes before it. -/
  offset : Nat
deriving DecidableEq, Repr

/-- The place after a character. -/
def Position.after (place : Position) (c : Char) : Position :=
  let offset := place.offset + c.utf8Size
  if isBreak c then ⟨place.line + 1, 0, offset⟩ else ⟨place.line, place.column + 1, offset⟩

/-- The place so many ASCII characters further on in its line. -/
def Position.right (place : Position) (count : Nat) : Position :=
  { place with column := place.column + count, offset := place.offset + count }

/-- How far reading has come. -/
structure Cursor where
  place : Position
  /-- In its line the cursor has nothing before it but spaces and the marks of items and
  keys, so that a block collection may begin here. -/
  startsLine : Bool
  rest : List Char
deriving DecidableEq, Repr

/-- The lines of a text, each with the character that ends it. -/
def linesOf (cs : List Char) : List (List Char) :=
  cs.foldr (fun c lines => if isBreak c then [c] :: lines else Text.consPiece c lines) [[]]

end ZoneKeeper.Yaml
