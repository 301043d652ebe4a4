/-
Reading YAML text.

A text holds one document.  Marks in the first column of a line say where it begins and
ends: three dashes, behind which it may begin at once, and three dots.  Before the dashes
there may be directives, after the dots nothing but comments.  A second document is refused,
and a text without any is a document in which nothing is written.
-/
import ZoneKeeper.Yaml.State

namespace ZoneKeeper.Yaml

/-! ### The document -/

/-- The machine run over all tokens from the cursor on. -/
def run? (s : State) (here : Cursor) : Option Yaml :=
  let start := here.skip (inFlow s.outer)
  if start.rest.isEmpty then s.result?
  else
    match _scan : scanToken s.context start with
    | some (token, next) =>
      match s.step? ⟨token, start.place, start.startsLine⟩ with
      | some following => run? following next
      | none => none
    | none => none
termination_by here.rest.length
decreasing_by
  exact Nat.lt_of_lt_of_le (length_scanToken _scan) (length_skip_le (inFlow s.outer) here)

/-! ### Around the document -/

/-- The text with a line feed at the line ends that have other forms. -/
def lineFeeds (cs : List Char) : List Char :=
  (cs.zip (cs.drop 1 ++ ['\x00'])).filterMap fun (c, next) =>
    if c = '\r' then if next = '\n' then none else some '\n'
    else if c = '\u0085' then some '\n'
    else some c

/-- The character may occur in a text. -/
def isPrintable (c : Char) : Bool :=
  let n := c.toNat
  c == '\t' || c == '\n' || (0x20 ≤ n && n ≤ 0x7E) || (0xA0 ≤ n && n ≤ 0xFFFD) || 0x10000 ≤ n

/-- Nothing follows in the line but a comment. -/
def isRemark (line : List Char) : Bool :=
  line.head?.all fun c => c == '#' || isBreak c

/-- The line holds nothing but spaces and a comment, after a byte order mark if there is
one. -/
def isFreeLine (line : List Char) : Bool :=
  let line := if line.head? = some '\ufeff' then line.tail else line
  isRemark (line.dropWhile (· == ' '))

/-- The line begins with three characters that mark where a document begins or ends. -/
def isMark (mark : Char) (line : List Char) : Bool :=
  [mark, mark, mark].isPrefixOf line && atWordEnd (line.drop 3)

/-- The line marks an end, and nothing else. -/
def isEnd (line : List Char) : Bool :=
  isMark '.' line && isRemark ((line.drop 3).dropWhile isBlank)

/-- The lines of a document up to the mark of its end, unless something follows the mark. -/
def untilEnd? (lines : List (List Char)) : Option (List Char) :=
  let inside := lines.takeWhile (!isMark '.' ·)
  match lines.dropWhile (!isMark '.' ·) with
  | [] => some inside.flatten
  | mark :: beyond =>
    if isEnd mark && beyond.all fun line => isFreeLine line || isEnd line then some inside.flatten
    else none

/-! ### Directives -/

/-- What the directives of a document say. -/
structure Directives where
  /-- The version of the language is given. -/
  hasVersion : Bool
  /-- The handles that the document declares. -/
  handles : Handles

/-- The handles that mean something in the document.  Its own ones come first. -/
def Directives.allHandles (directives : Directives) : Handles :=
  directives.handles ++ Handles.default

/-- The number of a version at the front of characters, and what follows it. -/
def scanNumber (cs : List Char) : Option (Nat × List Char) := do
  let digits := cs.takeWhile Char.isDigit
  if digits.length > 9 then none
  else (Numeral.decimal? digits).map fun n => (n, cs.dropWhile Char.isDigit)

/-- The rest of a directive after the version that it gives, which must be one of those that
are read here. -/
def afterVersion? (cs : List Char) : Option (List Char) := do
  let (major, rest) ← scanNumber cs
  match rest with
  | '.' :: below =>
    let (minor, rest) ← scanNumber below
    if major = 1 ∧ (minor = 1 ∨ minor = 2) then some rest else none
  | _ => none

/-- The handle and the beginning of tags that a directive gives, and the rest of it. -/
def scanHandle (cs : List Char) : Option ((String × String) × List Char) := do
  let word (c : Char) : Bool := !isBlank c && !isBreak c
  let handle := cs.takeWhile word
  let below := (cs.dropWhile word).dropWhile isBlank
  let name := (handle.drop 1).dropLast
  if handle ≠ ['!'] ∧
      ¬ (handle.length > 1 ∧ handle.head? = some '!' ∧ handle.getLast? = some '!' ∧
        name.all isNameChar) then none
  else
    match below.takeWhile word with
    | [] => none
    | text => (tagText? true text).map fun text =>
      ((String.ofList handle, text), below.dropWhile word)

/-- The directives with the one that a line gives after its percent sign. -/
def Directives.add? (directives : Directives) (line : List Char) : Option Directives := do
  let word (c : Char) : Bool := !isBlank c && !isBreak c
  let value := (line.dropWhile word).dropWhile isBlank
  match String.ofList (line.takeWhile word) with
  | "YAML" =>
    let rest ← afterVersion? value
    if !directives.hasVersion && isRemark (rest.dropWhile isBlank) then
      some { directives with hasVersion := true }
    else none
  | "TAG" =>
    let (declared, rest) ← scanHandle value
    if (directives.handles.lookup declared.1).isNone && isRemark (rest.dropWhile isBlank) then
      some { directives with handles := declared :: directives.handles }
    else none
  | _ => none

/-- The directives at the front of lines, and the lines from the first one on that is neither
free nor a directive. -/
def readDirectives? (directives : Directives) :
    List (List Char) → Option (Directives × List (List Char))
  | [] => some (directives, [])
  | line :: lines =>
    if isFreeLine line then readDirectives? directives lines
    else
      match line with
      | '%' :: directive => do readDirectives? (← directives.add? directive) lines
      | _ => some (directives, line :: lines)

/-! ### Reading a text -/

/-- The document that a text writes, unless the text is no YAML or holds more than one. -/
def parse? (s : String) : Option Yaml := do
  let cs := lineFeeds s.toList
  if !cs.all isPrintable then none
  else
    let (directives, lines) ← readDirectives? ⟨false, []⟩ (linesOf cs)
    let hasDirectives := directives.hasVersion || !directives.handles.isEmpty
    match lines with
    | [] => if hasDirectives then none else some nothing
    | first :: below =>
      if below.any (isMark '-') then none
      else if isMark '-' first then
        let document ← untilEnd? (first.drop 3 :: below)
        run? (.start directives.allHandles) ⟨⟨0, 3, 3⟩, false, document⟩
      else if hasDirectives || isMark '.' first then none
      else run? (.start directives.allHandles) ⟨⟨0, 0, 0⟩, true, ← untilEnd? lines⟩

end ZoneKeeper.Yaml
