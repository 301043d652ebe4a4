/-
Anchors and tags.

An anchor names a node, so that a reference can stand for the node later on.  A tag says of
what kind a node is.  Tags are long, so they are written with a handle in front: a document
may say in directives what its handles stand for, and two handles mean something without
that.  A tag in angle brackets is written out.
-/
import ZoneKeeper.Numeral
import ZoneKeeper.Yaml.Position

namespace ZoneKeeper.Yaml

open Numeral

/-! ### Anchors -/

/-- The character may occur in the name of an anchor or a handle. -/
def isNameChar (c : Char) : Bool :=
  c.isAlphanum || c == '_' || c == '-'

/-- What follows the name of an anchor shows that the name has ended. -/
def endsName (rest : List Char) : Bool :=
  atWordEnd rest || rest.head?.any ['?', ':', ',', ']', '}', '%', '@', '\x60'].contains

/-- The name of an anchor, and what follows it. -/
def scanName (cs : List Char) : Option (String × List Char) :=
  let rest := cs.dropWhile isNameChar
  match cs.takeWhile isNameChar with
  | [] => none
  | name => if endsName rest then some (String.ofList name, rest) else none

/-! ### Tags -/

/-- The character may occur in a tag.  Inside angle brackets and in directives commas and
brackets may as well. -/
def isTagChar (isWide : Bool) (c : Char) : Bool :=
  isNameChar c || ";/?:@&=+$.!~*'()".toList.contains c || (isWide && ",[]".toList.contains c)

/-- The value that the first of a character's bytes begins, and how many bytes go on with it. -/
def leadByte? (byte : Nat) : Option (Nat × Nat) :=
  if byte < 0x80 then some (byte, 0)
  else if byte / 32 = 6 then some (byte % 32, 1)
  else if byte / 16 = 14 then some (byte % 16, 2)
  else if byte / 8 = 30 then some (byte % 8, 3)
  else none

/-- The text of a tag.  Percent signs with two digits each stand for the bytes of characters.
Of the character that is being read, `count` bytes are missing, and those before them make
up the value `n`. -/
def tagTextFrom? (isWide : Bool) (n count : Nat) : List Char → Option (List Char)
  | [] => if count = 0 then some [] else none
  | '%' :: a :: b :: cs => do
    let byte ← hex? [a, b]
    let (value, missing) ←
      if count = 0 then leadByte? byte
      else if byte / 64 = 2 then some (n * 64 + byte % 64, count - 1)
      else none
    if missing = 0 then (tagTextFrom? isWide 0 0 cs).map (Char.ofNat value :: ·)
    else tagTextFrom? isWide value missing cs
  | c :: cs =>
    if count = 0 ∧ isTagChar isWide c then (tagTextFrom? isWide 0 0 cs).map (c :: ·) else none

/-- The text of a tag. -/
def tagText? (isWide : Bool) (cs : List Char) : Option String :=
  (tagTextFrom? isWide 0 0 cs).map String.ofList

/-- A tag as it is written.  A tag that is written out has no handle. -/
structure TagMark where
  handle : String
  suffix : String
deriving DecidableEq, Repr

/-- The tag that the characters after an exclamation mark write.  The mark alone is a tag
too. -/
def TagMark.ofChars? (cs : List Char) : Option TagMark :=
  let name := cs.takeWhile isNameChar
  match cs, cs.dropWhile isNameChar with
  | [], _ => some ⟨"", "!"⟩
  | '<' :: text, _ =>
    if text.length < 2 ∨ text.getLast? ≠ some '>' then none
    else (tagText? true text.dropLast).map fun text => ⟨"", text⟩
  | _, '!' :: suffix =>
    if suffix.isEmpty then none
    else (tagText? false suffix).map fun text => ⟨String.ofList ('!' :: name ++ ['!']), text⟩
  | _, _ => (tagText? false cs).map fun text => ⟨"!", text⟩

/-- The characters of a tag after its exclamation mark, and what follows them. -/
def cutTag (inFlow : Bool) (cs : List Char) : List Char × List Char :=
  if cs.head? = some '<' then
    let closing := (cs.dropWhile (· != '>')).take 1
    (cs.takeWhile (· != '>') ++ closing, (cs.dropWhile (· != '>')).tail)
  else
    let goesOn (c : Char) : Bool := !isBlank c && !isBreak c && !(inFlow && c == ',')
    (cs.takeWhile goesOn, cs.dropWhile goesOn)

/-- The tag after an exclamation mark, and what follows it. -/
def scanTag (inFlow : Bool) (cs : List Char) : Option (TagMark × List Char) := do
  let (tag, rest) := cutTag inFlow cs
  let mark ← TagMark.ofChars? tag
  if atWordEnd rest || (inFlow && rest.head? = some ',') then some (mark, rest) else none

/-! ### What handles stand for -/

/-- The beginnings of tags by their handles. -/
abbrev Handles := List (String × String)

/-- The handles that mean something in every document. -/
def Handles.default : Handles :=
  [("!", "!"), ("!!", "tag:yaml.org,2002:")]

/-- The tag that a mark stands for, if its handle means something. -/
def TagMark.tag? (handles : Handles) (mark : TagMark) : Option String :=
  if mark.handle.isEmpty then some mark.suffix
  else (handles.lookup mark.handle).map (· ++ mark.suffix)

/-! ### The scanners leave no more than they were given -/

theorem length_scanName {cs rest : List Char} {name : String}
    (h : scanName cs = some (name, rest)) : rest.length ≤ cs.length := by
  simp only [scanName] at h
  split at h
  case h_1 => simp at h
  case h_2 =>
    split at h
    case isTrue =>
      simp only [Option.some.injEq, Prod.mk.injEq] at h
      exact h.2 ▸ Text.length_dropWhile_le isNameChar cs
    case isFalse => simp at h

theorem length_scanTag {inFlow : Bool} {cs rest : List Char} {mark : TagMark}
    (h : scanTag inFlow cs = some (mark, rest)) : rest.length ≤ cs.length := by
  have hcut : (cutTag inFlow cs).2.length ≤ cs.length := by
    unfold cutTag
    split
    case isTrue =>
      have := Text.length_dropWhile_le (· != '>') cs
      simp only [List.length_tail]
      omega
    case isFalse => exact Text.length_dropWhile_le _ cs
  simp only [scanTag, Option.bind_eq_bind, Option.bind_eq_some_iff] at h
  obtain ⟨_, -, h⟩ := h
  split at h
  case isTrue =>
    simp only [Option.some.injEq, Prod.mk.injEq] at h
    exact h.2 ▸ hcut
  case isFalse => simp at h

end ZoneKeeper.Yaml
