/-
Block scalars.

A block scalar is a region of indented lines under a mark.  The header behind the mark says
how far the lines are indented and what becomes of the line ends after the last of them.
Where it does not say how far, the first line that is not empty does, and no empty line
before that one may be indented further.

In a folded block a line feed between two lines that do not start with a blank becomes a
space, or nothing where empty lines follow, and the line ends of empty lines stay.
-/
import ZoneKeeper.Numeral
import ZoneKeeper.Yaml.Scalar

namespace ZoneKeeper.Yaml

open Numeral

/-! ### The header -/

/-- What becomes of the line ends after the last line of a block scalar. -/
inductive Chomping
  /-- None stays. -/
  | strip
  /-- One stays. -/
  | clip
  /-- All stay. -/
  | keep
deriving DecidableEq, Repr

/-- What the header of a block scalar says. -/
structure BlockHeader where
  isFolded : Bool
  chomping : Chomping
  /-- The indentation beyond that of the collection around the scalar. -/
  indent : Option Nat
deriving DecidableEq, Repr

/-- The header that the characters after its mark write. -/
def BlockHeader.ofMarks? (isFolded : Bool) (marks : List Char) : Option BlockHeader :=
  let chomping? : Char → Option Chomping
    | '-' => some .strip
    | '+' => some .keep
    | _ => none
  let indent? (c : Char) : Option Nat := (digit? c).filter (0 < ·)
  match marks with
  | [] => some ⟨isFolded, .clip, none⟩
  | [c] =>
    match chomping? c with
    | some chomping => some ⟨isFolded, chomping, none⟩
    | none => (indent? c).map fun n => ⟨isFolded, .clip, some n⟩
  | [c, d] =>
    match chomping? c, chomping? d with
    | some chomping, none => (indent? d).map fun n => ⟨isFolded, chomping, some n⟩
    | none, some chomping => (indent? c).map fun n => ⟨isFolded, chomping, some n⟩
    | _, _ => none
  | _ => none

/-- The greatest indentation among the empty lines at the front and the line after them,
which must not be indented by tabs. -/
def frontIndent? (column deepest : Nat) : List Char → Option Nat
  | [] => some (max deepest column)
  | c :: cs =>
    if c = ' ' then frontIndent? (column + 1) deepest cs
    else if isBreak c then frontIndent? 0 (max deepest column) cs
    else if c = '\t' then none
    else some (max deepest column)

/-- The indentation of the block that these characters begin. -/
def BlockHeader.indentOf? (header : BlockHeader) (ctx : Context) (cs : List Char) : Option Nat :=
  match header.indent with
  | some n => some (ctx.minColumn - 1 + n)
  | none => (frontIndent? 0 0 cs).map fun n => max n (max ctx.minColumn 1)

/-! ### The lines -/

/-- A line of a block without its indentation, and the line end after it if there is one. -/
structure BlockLine where
  text : List Char
  ending : List Char

/-- The line is empty, or indented by as much as asked for. -/
def isInBlock (indent : Nat) (line : List Char) : Bool :=
  line.all (· == ' ') || (line.take indent == List.replicate indent ' ')

/-- The lines of a block, the place where they end and what follows them. -/
def scanBlockLines (indent : Nat) (place : Position) (cs : List Char) :
    List BlockLine × Position × List Char :=
  let line := cs.takeWhile (!isBreak ·)
  if isInBlock indent line then
    match _below : cs.dropWhile (!isBreak ·) with
    | [] => ([⟨line.drop indent, []⟩], place.right line.length, [])
    | c :: below =>
      let (lines, rest) := scanBlockLines indent (place.after c) below
      (⟨line.drop indent, [c]⟩ :: lines, rest)
  else ([], place, cs)
termination_by cs.length
decreasing_by
  have := Text.length_dropWhile_le (!isBreak ·) cs
  simp_all only [List.length_cons]
  omega

/-- What lies between two lines that are not empty: the end of the first one, and the ends of
the empty lines between them. -/
structure LineGap where
  ending : List Char
  emptyLines : List Char

/-- The text that lies between two lines, where `isOpen` says that neither starts with a
blank. -/
def LineGap.text (gap : LineGap) (isFolded isOpen : Bool) : List Char :=
  if !(isFolded && isOpen && gap.ending == ['\n']) then gap.ending ++ gap.emptyLines
  else if gap.emptyLines.isEmpty then [' ']
  else gap.emptyLines

/-- The text of lines after a gap, and the gap after them.  The line before the gap starts
with a blank if `startsBlank` says so. -/
def joinLines (isFolded : Bool) (gap : LineGap) (startsBlank : Bool) :
    List BlockLine → List Char × LineGap
  | [] => ([], gap)
  | line :: lines =>
    match line.text with
    | [] =>
      joinLines isFolded { gap with emptyLines := gap.emptyLines ++ line.ending } startsBlank lines
    | c :: _ =>
      let (text, last) := joinLines isFolded ⟨line.ending, []⟩ (isBlank c) lines
      (gap.text isFolded (!startsBlank && !isBlank c) ++ line.text ++ text, last)

/-- The text of a block scalar with these lines. -/
def BlockHeader.text (header : BlockHeader) (lines : List BlockLine) : List Char :=
  let (text, last) := joinLines header.isFolded ⟨[], []⟩ false lines
  match header.chomping with
  | .strip => text
  | .clip => text ++ last.ending
  | .keep => text ++ last.ending ++ last.emptyLines

/-- The text of a block scalar whose mark has been read, and how far it reaches. -/
def scanBlock (ctx : Context) (isFolded : Bool) (place : Position) (cs : List Char) :
    Option (List Char × Cursor) := do
  let first := cs.takeWhile (!isBreak ·)
  let below := (cs.dropWhile (!isBreak ·)).tail
  let isMark (c : Char) : Bool := !isBlank c && c != '#'
  let remark := (first.dropWhile isMark).dropWhile isBlank
  let header ← BlockHeader.ofMarks? isFolded (first.takeWhile isMark)
  if remark.isEmpty || remark.head? = some '#' then
    let indent ← header.indentOf? ctx below
    let (lines, place, rest) := scanBlockLines indent (place.after '\n') below
    some (header.text lines, ⟨place, true, rest⟩)
  else none

/-! ### The scanner leaves no more than it was given -/

theorem length_scanBlockLines {indent : Nat} {place : Position} {cs : List Char} :
    (scanBlockLines indent place cs).2.2.length ≤ cs.length := by
  fun_induction scanBlockLines indent place cs with
  | case1 => simp
  | case2 place cs line hblock c below hbelow lines rest hrest ih =>
    have := Text.length_dropWhile_le (!isBreak ·) cs
    simp_all only [List.length_cons]
    omega
  | case3 => simp

theorem length_scanBlock {ctx : Context} {isFolded : Bool} {place : Position}
    {cs text : List Char} {next : Cursor}
    (h : scanBlock ctx isFolded place cs = some (text, next)) : next.rest.length ≤ cs.length := by
  simp only [scanBlock, Option.bind_eq_bind, Option.bind_eq_some_iff] at h
  obtain ⟨header, -, h⟩ := h
  split at h
  case isFalse => simp at h
  case isTrue =>
    simp only [Option.bind_eq_some_iff, Option.some.injEq, Prod.mk.injEq] at h
    obtain ⟨indent, -, -, rfl⟩ := h
    have hdrop := Text.length_dropWhile_le (!isBreak ·) cs
    have htail : (cs.dropWhile (!isBreak ·)).tail.length ≤ (cs.dropWhile (!isBreak ·)).length := by
      simp
    exact Nat.le_trans length_scanBlockLines (Nat.le_trans htail hdrop)

end ZoneKeeper.Yaml
