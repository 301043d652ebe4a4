/-
Names of hosts.

A host name is written in any characters that the standard of international names admits,
and is cut into labels at dots.  A label may also be given in ASCII: behind four characters
that mark it there is its Punycode, which must write a label with characters outside ASCII.

Such labels obey rules of their own: none begins with a mark, characters that join others
stand only where there is something to join, and where anything is written from right to
left, no label mixes the directions.
-/
import ZoneKeeper.HostName.Punycode
import ZoneKeeper.HostName.Traits

namespace ZoneKeeper.HostName

open Text

/-- The character is one of ASCII. -/
def isAscii (c : Char) : Bool :=
  c.toNat < 0x80

/-! ### Joiners -/

/-- The nearest character that is not transparent joins in one of these ways. -/
def joins (ways : List Joining) (cs : List Char) : Bool :=
  ((cs.map fun c => (traitsOf c).joining).dropWhile (· == .transparent)).head?.any ways.contains

/-- The two joiners, the one that keeps characters apart first, stand after a virama or,
the first one, between characters that would join.  The characters before come last first. -/
def joinersFit (before : List Char) : List Char → Bool
  | [] => true
  | c :: cs =>
    let afterVirama := before.head?.any fun b => (traitsOf b).isVirama
    let fits :=
      match c with
      | '\u200c' => afterVirama || (joins [.left, .both] before && joins [.right, .both] cs)
      | '\u200d' => afterVirama
      | _ => true
    fits && joinersFit (c :: before) cs

/-! ### Directions -/

/-- Something in the characters is written from right to left. -/
def hasRightToLeft (cs : List Char) : Bool :=
  cs.any fun c =>
    (traitsOf c).direction == .rightToLeft || (traitsOf c).direction == .arabicNumber

/-- The directions of a label go together: nothing in it runs against its first character,
and it ends, apart from marks, in a letter or a number. -/
def directionsFit (label : List Char) : Bool :=
  let directions := label.map fun c => (traitsOf c).direction
  let last := (dropEndWhile (· == .nonspacing) directions).getLast?
  let hasBothNumbers := directions.contains .europeanNumber && directions.contains .arabicNumber
  match directions.head? with
  | none => true
  | some .leftToRight =>
    last.any [.leftToRight, .europeanNumber].contains &&
      directions.all fun d => d != .rightToLeft && d != .arabicNumber
  | some .rightToLeft =>
    last.any [.rightToLeft, .europeanNumber, .arabicNumber].contains &&
      !directions.contains .leftToRight && !hasBothNumbers
  | some _ => false

/-! ### Names -/

/-- The label that a label in ASCII or in other characters means. -/
def meaning? (label : List Char) : Option (List Char) :=
  if "xn--".toList.isPrefixOf label then do
    let cs ← decodePunycode? (label.drop 4)
    if label.length ≤ 2004 && cs.all isKept && !cs.all isAscii then some cs else none
  else some label

/-- The label is in ASCII, or obeys the rules for other labels. -/
def isWellFormed (label : List Char) : Bool :=
  label.all isAscii ||
    (label.length ≤ 1000 && !label.head?.any (fun c => (traitsOf c).isMark) && joinersFit [] label)

/-- The labels of the host name that characters write, with what they stand for in place of
the characters that stand for ASCII. -/
def labels? (cs : List Char) : Option (List (List Char)) := do
  let labels := cutAt '.' (← cs.mapM mapped?).flatten
  let meanings ← labels.mapM meaning?
  if meanings.all isWellFormed && (!meanings.any hasRightToLeft || meanings.all directionsFit) then
    some labels
  else none

end ZoneKeeper.HostName
