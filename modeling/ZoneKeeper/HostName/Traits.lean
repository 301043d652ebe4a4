/-
What characters are in host names.

A character is kept, or it stands for other characters, or it counts for nothing, or it must
not occur.  Outside ASCII the standard of international names says which; of the characters
that stand for others outside ASCII it is enough to know how they behave, which is like the
character that they stand for.

Rules on the order of characters look at four traits: the direction in which a character is
written, whether it is a mark on the one before it, how it joins with its neighbours, and
whether it is a virama.
-/
import ZoneKeeper.HostName.Table
import ZoneKeeper.Numeral
import ZoneKeeper.Text

namespace ZoneKeeper.HostName

open Numeral

/-- How a character takes part in the direction of a text. -/
inductive Direction
  | leftToRight
  | rightToLeft
  | europeanNumber
  | arabicNumber
  /-- A mark that takes no place of its own. -/
  | nonspacing
  | neutral
deriving DecidableEq, Repr

/-- With which of its neighbours a character joins. -/
inductive Joining
  | none
  | left
  | right
  | both
  /-- The neighbours on its two sides join with each other. -/
  | transparent
deriving DecidableEq, Repr

/-- What rules on the order of characters look at. -/
structure Traits where
  direction : Direction
  isMark : Bool
  joining : Joining
  isVirama : Bool
deriving DecidableEq, Repr

/-- A character without special traits, but for its direction. -/
def Traits.plain (direction : Direction) : Traits :=
  ⟨direction, false, .none, false⟩

/-- What a character is in a host name. -/
inductive Reading
  | kept (traits : Traits)
  /-- It stands for characters outside ASCII. -/
  | folded (traits : Traits)
  /-- It stands for ASCII characters. -/
  | replaced (text : List Char)
  | ignored
  | forbidden
deriving DecidableEq, Repr

/-! ### The tables -/

/-- The digits that the table of classes uses; its letters come after them. -/
def isTableDigit (c : Char) : Bool :=
  c.isDigit || ('a' ≤ c && c ≤ 'f')

/-- The first code points of runs with the letters of their classes. -/
def runsFrom (start : Nat) : List Char → List (Nat × Char)
  | [] => []
  | letter :: cs =>
    let length := (hex? (cs.takeWhile isTableDigit)).getD 1
    (start, letter) :: runsFrom (start + length) (cs.dropWhile isTableDigit)
termination_by cs => cs.length
decreasing_by
  have := Text.length_dropWhile_le isTableDigit cs
  simp only [List.length_cons]
  omega

/-- The runs of all classes, last first. -/
def runs : List (Nat × Char) :=
  (runsFrom 0x80 (classRuns.flatMap String.toList)).reverse

/-- The characters whose codes are written by pairs of hexadecimal digits. -/
def pairs : List Char → List Char
  | a :: b :: cs => Char.ofNat ((hex? [a, b]).getD 0) :: pairs cs
  | _ => []

/-- The code points of an entry, with the first text that it gives. -/
def entryOf (entry : List Char) : Nat × Nat × List Char :=
  let codes := entry.takeWhile (· != '=')
  let start := (hex? (codes.takeWhile (· != '+'))).getD 0
  let count := (hex? ((codes.dropWhile (· != '+')).drop 1)).getD 1
  (start, count, pairs (entry.drop (codes.length + 1)))

/-- The texts of characters that stand for ASCII. -/
def images : List (Nat × Nat × List Char) :=
  (imageEntries.flatMap fun line => Text.cutAt ' ' line.toList).map entryOf

/-- The ASCII text that a code point stands for. -/
def imageOf (n : Nat) : List Char :=
  match images.find? fun (start, count, _) => start ≤ n && n < start + count with
  | some (start, 1, text) => if start = n then text else []
  | some (start, _, text) => text.map fun c => Char.ofNat (c.toNat + (n - start))
  | none => []

/-- What the characters of a class are, of which `n` is one. -/
def readingOfClass (n : Nat) : Char → Reading
  | 'g' => .kept (.plain .leftToRight)
  | 'i' => .folded (.plain .leftToRight)
  | 'j' => .kept ⟨.nonspacing, true, .transparent, false⟩
  | 'k' => .kept ⟨.leftToRight, true, .none, false⟩
  | 'l' => .kept (.plain .neutral)
  | 'm' => .replaced (imageOf n)
  | 'n' => .kept (.plain .rightToLeft)
  | 'o' => .kept ⟨.rightToLeft, false, .both, false⟩
  | 'p' => .kept ⟨.rightToLeft, false, .right, false⟩
  | 'q' => .folded (.plain .rightToLeft)
  | 'r' => .kept ⟨.nonspacing, true, .transparent, true⟩
  | 's' => .folded (.plain .neutral)
  | 't' => .kept ⟨.leftToRight, false, .transparent, false⟩
  | 'u' => .ignored
  | 'v' => .folded ⟨.nonspacing, true, .none, false⟩
  | 'w' => .kept ⟨.leftToRight, true, .none, true⟩
  | 'x' => .folded (.plain .europeanNumber)
  | 'y' => .kept (.plain .arabicNumber)
  | 'z' => .kept ⟨.rightToLeft, false, .transparent, false⟩
  | 'G' => .kept ⟨.leftToRight, false, .both, false⟩
  | 'H' => .kept ⟨.rightToLeft, false, .left, false⟩
  | 'I' => .kept ⟨.leftToRight, true, .transparent, false⟩
  | 'J' => .kept (.plain .europeanNumber)
  | 'K' => .kept ⟨.neutral, false, .both, false⟩
  | 'L' => .kept ⟨.leftToRight, false, .left, false⟩
  | 'M' => .kept ⟨.nonspacing, true, .none, false⟩
  | 'N' => .kept ⟨.leftToRight, true, .transparent, true⟩
  | _ => .forbidden

/-! ### Characters -/

/-- The ASCII characters that must not occur in a host name. -/
def isForbidden (c : Char) : Bool :=
  c.toNat ≤ 0x20 || c.toNat == 0x7F || "#/:<>?@[\\]^|%".toList.contains c

/-- What a character is in a host name. -/
def readingOf (c : Char) : Reading :=
  if 0x80 ≤ c.toNat then
    match runs.find? fun (start, _) => start ≤ c.toNat with
    | some (_, letter) => readingOfClass c.toNat letter
    | none => .forbidden
  else if isForbidden c then .forbidden
  else if c.isUpper then .replaced [c.toLower]
  else
    .kept (.plain
      (if c.isLower then .leftToRight else if c.isDigit then .europeanNumber else .neutral))

/-- The characters that a character stands for, unless it is forbidden.  Those outside ASCII
are left as they are. -/
def mapped? (c : Char) : Option (List Char) :=
  match readingOf c with
  | .kept _ | .folded _ => some [c]
  | .replaced text => some text
  | .ignored => some []
  | .forbidden => none

/-- The traits of a character that is kept or folded. -/
def traitsOf (c : Char) : Traits :=
  match readingOf c with
  | .kept traits | .folded traits => traits
  | _ => .plain .neutral

/-- The character stands for itself. -/
def isKept (c : Char) : Bool :=
  match readingOf c with
  | .kept _ => true
  | _ => false

end ZoneKeeper.HostName
