/-
Quoted and plain scalars.

A scalar may go on over several lines, and is then folded: the blanks around a line end go
away, one line feed becomes a space, and of more line ends all but a line feed at the front
stay.  Characters that an escape names are never folded.

A plain scalar ends where it could be taken for something else: before a comment, at a
colon that makes it a key, at a bracket or comma inside a flow collection, or at a line
that is not indented enough.  The blanks and line ends after it are read with it.

A scanner returns what it has read, the place where it stopped and the characters that
follow, and each one has a lemma that it read something.
-/
import ZoneKeeper.Numeral
import ZoneKeeper.Yaml.Position

namespace ZoneKeeper.Yaml

open Numeral

/-! ### Folding -/

/-- A part of a plain or quoted scalar. -/
inductive Part
  | char (c : Char)
  | blank (c : Char)
  | lineEnd (c : Char)
  /-- A line end that an escape takes away. -/
  | joined
deriving DecidableEq, Repr

/-- The part that a character is when nothing about it is special. -/
def partOf (c : Char) : Part :=
  if isBreak c then .lineEnd c else if isBlank c then .blank c else .char c

/-- The part lies between words. -/
def Part.isGap : Part → Bool
  | .blank _ | .lineEnd _ => true
  | .char _ | .joined => false

/-- What lies between two characters of a scalar. -/
inductive Gap
  /-- Blanks in one line, which stay. -/
  | blanks (cs : List Char)
  /-- Line ends.  None is the first where an escape has taken it away. -/
  | lineEnds (first : Option Char) (others : List Char)

/-- The gap with one more part. -/
def Gap.push : Gap → Part → Gap
  | .blanks _, .lineEnd c => .lineEnds (some c) []
  | .blanks cs, .blank c => .blanks (cs ++ [c])
  | .lineEnds first others, .lineEnd c => .lineEnds first (others ++ [c])
  | gap, _ => gap

/-- The text that a gap becomes. -/
def Gap.text : Gap → List Char
  | .blanks cs => cs
  | .lineEnds none others => others
  | .lineEnds (some c) others =>
    if c ≠ '\n' then c :: others else if others.isEmpty then [' '] else others

/-- The text that parts become after a gap. -/
def foldFrom (gap : Gap) : List Part → List Char
  | [] => gap.text
  | .char c :: parts => gap.text ++ c :: foldFrom (.blanks []) parts
  | .joined :: parts => gap.text ++ foldFrom (.lineEnds none []) parts
  | part :: parts => foldFrom (gap.push part) parts

/-- The text that the parts of a scalar become. -/
def fold (parts : List Part) : List Char :=
  foldFrom (.blanks []) parts

/-! ### Quoted scalars -/

/-- The parts of a scalar, the place where it ends and what follows it. -/
abbrev Parts := List Part × Position × List Char

/-- The scalar with one more part at the front. -/
def Parts.cons (part : Part) (scalar : Parts) : Parts :=
  (part :: scalar.1, scalar.2)

/-- A scalar in single quotes up to the closing quote. -/
def scanSingle (place : Position) : List Char → Option Parts
  | [] => none
  | '\'' :: '\'' :: cs => (scanSingle (place.right 2) cs).map (.cons (.char '\''))
  | '\'' :: cs => some ([], place.right 1, cs)
  | c :: cs => (scanSingle (place.after c) cs).map (.cons (partOf c))

/-- The character that follows a backslash in a two-character escape. -/
def escaped? : Char → Option Char
  | '0' => some '\x00'
  | 'a' => some '\x07'
  | 'b' => some '\x08'
  | 't' | '\t' => some '\t'
  | 'n' => some '\n'
  | 'v' => some '\x0b'
  | 'f' => some '\x0c'
  | 'r' => some '\r'
  | 'e' => some '\x1b'
  | ' ' => some ' '
  | '"' => some '"'
  | '/' => some '/'
  | '\\' => some '\\'
  | 'N' => some '\u0085'
  | '_' => some '\u00a0'
  | 'L' => some '\u2028'
  | 'P' => some '\u2029'
  | _ => none

/-- The part that a backslash and the character after it make.  A backslash at the end of a
line takes the line end away. -/
def escapedPart? (e : Char) : Option Part :=
  if isBreak e then some .joined else (escaped? e).map .char

/-- The character with the number that hexadecimal digits write. -/
def coded? (digits : List Char) : Option Char := do
  let n ← hex? digits
  if n.isValidChar then some (Char.ofNat n) else none

/-- A scalar in double quotes up to the closing quote. -/
def scanDouble (place : Position) : List Char → Option Parts
  | [] => none
  | '"' :: cs => some ([], place.right 1, cs)
  | '\\' :: 'x' :: a :: b :: cs => do
    let c ← coded? [a, b]
    (scanDouble (place.right 4) cs).map (.cons (.char c))
  | '\\' :: 'u' :: a :: b :: c :: d :: cs => do
    let c ← coded? [a, b, c, d]
    (scanDouble (place.right 6) cs).map (.cons (.char c))
  | '\\' :: 'U' :: a :: b :: c :: d :: e :: f :: g :: h :: cs => do
    let c ← coded? [a, b, c, d, e, f, g, h]
    (scanDouble (place.right 10) cs).map (.cons (.char c))
  | '\\' :: e :: cs => do
    let part ← escapedPart? e
    (scanDouble ((place.right 1).after e) cs).map (.cons part)
  | c :: cs => (scanDouble (place.after c) cs).map (.cons (partOf c))

/-! ### Plain scalars -/

/-- Where a scalar stands. -/
structure Context where
  /-- Inside brackets or braces. -/
  inFlow : Bool
  /-- The least column at which a scalar outside brackets may go on. -/
  minColumn : Nat

/-- The brackets, braces and the comma. -/
def isFlowMark (c : Char) : Bool :=
  ['[', ']', '{', '}', ','].contains c

/-- A plain scalar may begin with the character `c` that is followed by `cs`. -/
def startsPlain (inFlow : Bool) (c : Char) (cs : List Char) : Bool :=
  if c == '-' then !atWordEnd cs
  else if c == '?' || c == ':' then !inFlow && !atWordEnd cs
  else !(isFlowMark c || isBlank c || isBreak c ||
    ['#', '&', '*', '!', '|', '>', '\'', '"', '%', '@', '\x60'].contains c)

/-- What stands before a character of a plain scalar. -/
inductive Before
  /-- Another character of the word. -/
  | word
  | blanks
  /-- A line end, and perhaps blanks. -/
  | lineEnds
deriving DecidableEq, Repr

/-- A plain scalar ends before a word in column `column` that starts with the character `c`,
or before the character inside a word. -/
def endsPlain (ctx : Context) (before : Before) (column : Nat) (c : Char) (cs : List Char) :
    Bool :=
  (before == .lineEnds && !ctx.inFlow && column < ctx.minColumn) ||
    (before != .word && c == '#') || (c == ':' && atWordEnd cs) || (ctx.inFlow && isFlowMark c)

/-- The colon is no part of a scalar inside brackets, and makes no key of it either. -/
def isStray (ctx : Context) (c : Char) (cs : List Char) : Bool :=
  ctx.inFlow && c == ':' && cs.head?.any fun d => isFlowMark d || d == '?'

/-- A plain scalar with the blanks and line ends after it.  No tab stands in the
indentation of its lines. -/
def scanPlain (ctx : Context) (before : Before) (place : Position) : List Char → Option Parts
  | [] => some ([], place, [])
  | c :: cs =>
    if isBreak c then (scanPlain ctx .lineEnds (place.after c) cs).map (.cons (.lineEnd c))
    else if isBlank c then
      if before = .lineEnds ∧ c = '\t' ∧ place.column < ctx.minColumn then none
      else
        let before := if before = .lineEnds then .lineEnds else .blanks
        (scanPlain ctx before (place.after c) cs).map (.cons (.blank c))
    else if endsPlain ctx before place.column c cs then some ([], place, c :: cs)
    else if isStray ctx c cs then none
    else (scanPlain ctx .word (place.after c) cs).map (.cons (.char c))

/-- The text of a plain scalar: what lies after its last word does not belong to it. -/
def plainText (parts : List Part) : List Char :=
  fold (Text.dropEndWhile Part.isGap parts)

/-- A line has ended after the last word. -/
def endsInNewLine (parts : List Part) : Bool :=
  (parts.reverse.takeWhile Part.isGap).any fun
    | .lineEnd _ => true
    | _ => false

/-! ### Every scanner leaves less than it was given -/

theorem length_scanSingle {place : Position} {cs : List Char} {scalar : Parts}
    (h : scanSingle place cs = some scalar) : scalar.2.2.length < cs.length := by
  fun_induction scanSingle place cs generalizing scalar with
  | case1 => simp at h
  | case3 =>
    simp only [Option.some.injEq] at h
    simp [← h]
  | case2 _ _ ih | case4 _ _ _ _ _ ih =>
    simp only [Option.map_eq_some_iff] at h
    obtain ⟨_, hs, rfl⟩ := h
    have := ih hs
    simp only [Parts.cons, List.length_cons]
    omega

theorem length_scanDouble {place : Position} {cs : List Char} {scalar : Parts}
    (h : scanDouble place cs = some scalar) : scalar.2.2.length < cs.length := by
  fun_induction scanDouble place cs generalizing scalar with
  | case1 => simp at h
  | case2 =>
    simp only [Option.some.injEq] at h
    simp [← h]
  | case7 _ _ _ _ _ _ _ _ ih =>
    simp only [Option.map_eq_some_iff] at h
    obtain ⟨_, hs, rfl⟩ := h
    have := ih hs
    simp only [Parts.cons, List.length_cons]
    omega
  | _ =>
    rename_i ih
    simp only [Option.bind_eq_bind, Option.bind_eq_some_iff, Option.map_eq_some_iff] at h
    obtain ⟨_, -, _, hs, rfl⟩ := h
    have := ih hs
    simp only [Parts.cons, List.length_cons]
    omega

theorem length_scanPlain_le {ctx : Context} {before : Before} {place : Position}
    {cs : List Char} {scalar : Parts} (h : scanPlain ctx before place cs = some scalar) :
    scalar.2.2.length ≤ cs.length := by
  fun_induction scanPlain ctx before place cs generalizing scalar with
  | case1 | case5 =>
    simp only [Option.some.injEq] at h
    simp [← h]
  | case3 | case6 => simp at h
  | _ =>
    rename_i ih
    simp only [Option.map_eq_some_iff] at h
    obtain ⟨_, hs, rfl⟩ := h
    have := ih hs
    simp only [Parts.cons, List.length_cons]
    omega

/-- A character that may begin a plain scalar is read. -/
theorem length_scanPlain {ctx : Context} {place : Position} {c : Char} {cs : List Char}
    {scalar : Parts} (hc : startsPlain ctx.inFlow c cs = true)
    (h : scanPlain ctx .word place (c :: cs) = some scalar) :
    scalar.2.2.length < (c :: cs).length := by
  have hfacts : isBreak c = false ∧ isBlank c = false ∧
      endsPlain ctx .word place.column c cs = false := by
    unfold startsPlain at hc
    split at hc
    case isTrue hdash => simp_all [isBreak, isBlank, endsPlain, isFlowMark]
    case isFalse =>
      split at hc
      case isTrue hmark =>
        have hmark : c = '?' ∨ c = ':' := by simpa using hmark
        rcases hmark with rfl | rfl <;> simp_all [isBreak, isBlank, endsPlain, isFlowMark]
      case isFalse => simp_all [isBreak, isBlank, endsPlain, isFlowMark]
  rw [scanPlain, if_neg (by simp [hfacts.1]), if_neg (by simp [hfacts.2.1]),
    if_neg (by simp [hfacts.2.2])] at h
  split at h
  case isTrue => simp at h
  case isFalse =>
    simp only [Option.map_eq_some_iff] at h
    obtain ⟨_, hs, rfl⟩ := h
    have := length_scanPlain_le hs
    simp only [Parts.cons, List.length_cons]
    omega

end ZoneKeeper.Yaml
