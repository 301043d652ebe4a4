/-
Reading JSON text.

Reading goes in two stages.  A scanner takes one token off the front of the characters;
a stack machine takes one token at a time and keeps the arrays and objects that are still
open.  The machine never looks ahead and never nests a call, so the depth of a value is
bounded by memory alone, and the whole reading is one pass over the characters.

The grammar is the strict one: no comments, no trailing commas, no leading zeros, no raw
control characters in strings, and nothing but space, tab, line feed and carriage return
between tokens.
-/
import ZoneKeeper.Json
import ZoneKeeper.Numeral
import ZoneKeeper.Text

namespace ZoneKeeper.Json

open Numeral

/-! ### Strings -/

/-- A part of a string literal: a character, or the UTF-16 unit that an escape names. -/
inductive Part
  | char (c : Char)
  | unit (n : Nat)

/-- The character that follows a backslash in a two-character escape. -/
def escaped? : Char → Option Char
  | '"' => some '"'
  | '\\' => some '\\'
  | '/' => some '/'
  | 'b' => some '\x08'
  | 'f' => some '\x0c'
  | 'n' => some '\n'
  | 'r' => some '\r'
  | 't' => some '\t'
  | _ => none

/-- The parts of a string literal up to its closing quote, and what follows the quote. -/
def scanString : List Char → Option (List Part × List Char)
  | [] => none
  | '"' :: cs => some ([], cs)
  | '\\' :: 'u' :: h₁ :: h₂ :: h₃ :: h₄ :: cs => do
    let unit ← hex? [h₁, h₂, h₃, h₄]
    let (parts, rest) ← scanString cs
    some (.unit unit :: parts, rest)
  | '\\' :: e :: cs => do
    let c ← escaped? e
    let (parts, rest) ← scanString cs
    some (.char c :: parts, rest)
  | c :: cs =>
    if c.toNat < 0x20 then none
    else do
      let (parts, rest) ← scanString cs
      some (.char c :: parts, rest)

/-- The unit is the first half of a surrogate pair. -/
def isHighSurrogate (n : Nat) : Bool := 0xD800 ≤ n && n ≤ 0xDBFF

/-- The unit is the second half of a surrogate pair. -/
def isLowSurrogate (n : Nat) : Bool := 0xDC00 ≤ n && n ≤ 0xDFFF

/-- The characters that the parts spell, unless half of a surrogate pair stands alone. -/
def spell? : List Part → Option (List Char)
  | [] => some []
  | .char c :: parts => (spell? parts).map (c :: ·)
  | .unit high :: .unit low :: parts =>
    if isHighSurrogate high then
      if isLowSurrogate low then
        (spell? parts).map (Char.ofNat (0x10000 + (high - 0xD800) * 0x400 + (low - 0xDC00)) :: ·)
      else none
    else if isLowSurrogate high then none
    else (spell? (.unit low :: parts)).map (Char.ofNat high :: ·)
  | .unit n :: parts =>
    if isHighSurrogate n || isLowSurrogate n then none
    else (spell? parts).map (Char.ofNat n :: ·)

/-! ### Numbers -/

/-- The characters that occur in number literals. -/
def isNumberChar (c : Char) : Bool :=
  c.isDigit || c == '-' || c == '+' || c == '.' || c == 'e' || c == 'E'

/-- The text is empty or an exponent: a letter, an optional sign, and digits. -/
def isExponent : List Char → Bool
  | [] => true
  | e :: cs =>
    let digits := if cs.head? = some '+' ∨ cs.head? = some '-' then cs.tail else cs
    (e == 'e' || e == 'E') && !digits.isEmpty && digits.all Char.isDigit

/-- The text is what may follow the integer part: a fraction, an exponent, both or neither. -/
def isFractionAndExponent : List Char → Bool
  | '.' :: cs =>
    let rest := cs.dropWhile Char.isDigit
    cs.head?.any Char.isDigit && isExponent rest
  | cs => isExponent cs

/-- The text is a number literal. -/
def isNumber (cs : List Char) : Bool :=
  let cs := if cs.head? = some '-' then cs.tail else cs
  let whole := cs.takeWhile Char.isDigit
  !whole.isEmpty && (whole.head? != some '0' || whole == ['0']) &&
    isFractionAndExponent (cs.dropWhile Char.isDigit)

/-! ### Tokens -/

/-- A token of JSON text. -/
inductive Token
  | openArray
  | closeArray
  | openObject
  | closeObject
  | comma
  | colon
  | null
  | bool (value : Bool)
  | number (literal : String)
  | string (text : Option String)

/-- The characters that may stand between tokens. -/
def isSpace (c : Char) : Bool :=
  c == ' ' || c == '\t' || c == '\n' || c == '\r'

/-- The token at the front of characters that do not start with a space, and the rest. -/
def scanToken : List Char → Option (Token × List Char)
  | '[' :: cs => some (.openArray, cs)
  | ']' :: cs => some (.closeArray, cs)
  | '{' :: cs => some (.openObject, cs)
  | '}' :: cs => some (.closeObject, cs)
  | ',' :: cs => some (.comma, cs)
  | ':' :: cs => some (.colon, cs)
  | 'n' :: 'u' :: 'l' :: 'l' :: cs => some (.null, cs)
  | 't' :: 'r' :: 'u' :: 'e' :: cs => some (.bool true, cs)
  | 'f' :: 'a' :: 'l' :: 's' :: 'e' :: cs => some (.bool false, cs)
  | '"' :: cs => (scanString cs).map fun (parts, rest) =>
    (.string ((spell? parts).map String.ofList), rest)
  | cs =>
    let literal := cs.takeWhile isNumberChar
    if isNumber literal then
      some (.number (String.ofList literal), cs.dropWhile isNumberChar)
    else none

/-! ### The stack machine -/

/-- An array or object that is still open, with what it holds so far, last first.  An
object that waits for a member's value keeps the member's key. -/
inductive Frame
  | array (items : List Json)
  | object (members : List (Option String × Json)) (key : Option String)

/-- What the machine expects next. -/
inductive State
  /-- A value. -/
  | expectValue (outer : List Frame)
  /-- The first item of an array, or its end. -/
  | expectItem (outer : List Frame)
  /-- The first key of an object, or its end. -/
  | expectFirstKey (outer : List Frame)
  /-- A key, after a comma. -/
  | expectKey (members : List (Option String × Json)) (outer : List Frame)
  /-- The colon after a key. -/
  | expectColon (members : List (Option String × Json)) (key : Option String)
      (outer : List Frame)
  /-- What may follow a complete value. -/
  | complete (value : Json) (outer : List Frame)

/-- The state once a token has started or made a value inside the open containers. -/
def State.ofValueToken? (outer : List Frame) : Token → Option State
  | .openArray => some (.expectItem outer)
  | .openObject => some (.expectFirstKey outer)
  | .null => some (.complete .null outer)
  | .bool value => some (.complete (.bool value) outer)
  | .number literal => some (.complete (.number literal) outer)
  | .string text => some (.complete (.string text) outer)
  | .closeArray | .closeObject | .comma | .colon => none

/-- The state once a token has followed a complete value. -/
def State.afterValue? (value : Json) : List Frame → Token → Option State
  | .array items :: outer, .comma => some (.expectValue (.array (value :: items) :: outer))
  | .array items :: outer, .closeArray => some (.complete (.array (value :: items).reverse) outer)
  | .object members key :: outer, .comma => some (.expectKey ((key, value) :: members) outer)
  | .object members key :: outer, .closeObject =>
    some (.complete (.object ((key, value) :: members).reverse) outer)
  | _, _ => none

/-- The state after one more token, unless the token cannot stand there. -/
def State.step? : State → Token → Option State
  | .expectValue outer, token => State.ofValueToken? outer token
  | .expectItem outer, .closeArray => some (.complete (.array []) outer)
  | .expectItem outer, token => State.ofValueToken? (.array [] :: outer) token
  | .expectFirstKey outer, .closeObject => some (.complete (.object []) outer)
  | .expectFirstKey outer, .string key => some (.expectColon [] key outer)
  | .expectKey members outer, .string key => some (.expectColon members key outer)
  | .expectColon members key outer, .colon => some (.expectValue (.object members key :: outer))
  | .complete value outer, token => State.afterValue? value outer token
  | _, _ => none

/-- The value read, once every container is closed. -/
def State.result? : State → Option Json
  | .complete value [] => some value
  | _ => none

/-! ### Reading a text -/

theorem length_scanString {cs rest : List Char} {parts : List Part}
    (h : scanString cs = some (parts, rest)) : rest.length < cs.length := by
  fun_induction scanString cs generalizing parts rest with
  | case1 => simp at h
  | case2 cs => simp_all
  | case3 a b c d cs ih =>
    simp only [Option.bind_eq_bind, Option.bind_eq_some_iff] at h
    obtain ⟨_, -, ⟨_, _⟩, hs, h⟩ := h
    simp only [Option.some.injEq, Prod.mk.injEq] at h
    have := ih hs
    simp only [List.length_cons, ← h.2]
    omega
  | case4 e cs _ ih =>
    simp only [Option.bind_eq_bind, Option.bind_eq_some_iff] at h
    obtain ⟨_, -, ⟨_, _⟩, hs, h⟩ := h
    simp only [Option.some.injEq, Prod.mk.injEq] at h
    have := ih hs
    simp only [List.length_cons, ← h.2]
    omega
  | case5 => simp at h
  | case6 c cs _ _ _ _ ih =>
    simp only [Option.bind_eq_bind, Option.bind_eq_some_iff] at h
    obtain ⟨⟨_, _⟩, hs, h⟩ := h
    simp only [Option.some.injEq, Prod.mk.injEq] at h
    have := ih hs
    simp only [List.length_cons, ← h.2]
    omega

theorem length_scanToken {cs rest : List Char} {token : Token}
    (h : scanToken cs = some (token, rest)) : rest.length < cs.length := by
  unfold scanToken at h
  split at h
  case h_10 cs =>
    simp only [Option.map_eq_some_iff, Prod.exists, Prod.mk.injEq] at h
    obtain ⟨parts, _, hs, -, rfl⟩ := h
    have := length_scanString hs
    simp only [List.length_cons]
    omega
  case h_11 =>
    dsimp only at h
    split at h
    case isTrue hn =>
      simp only [Option.some.injEq, Prod.mk.injEq] at h
      have hlen := congrArg List.length
        (List.takeWhile_append_dropWhile (p := isNumberChar) (l := cs))
      have hne : cs.takeWhile isNumberChar ≠ [] := by
        intro hnil
        rw [hnil] at hn
        exact absurd hn (by decide)
      have := List.length_pos_iff.mpr hne
      rw [List.length_append] at hlen
      rw [← h.2]
      omega
    case isFalse => simp at h
  all_goals
    simp only [Option.some.injEq, Prod.mk.injEq] at h
    simp only [List.length_cons, ← h.2]
    omega

/-- The machine run over all tokens of the characters. -/
def run? (state : State) (cs : List Char) : Option Json :=
  match _scan : scanToken (cs.dropWhile isSpace) with
  | some (token, rest) =>
    match state.step? token with
    | some next => run? next rest
    | none => none
  | none => if (cs.dropWhile isSpace).isEmpty then state.result? else none
termination_by cs.length
decreasing_by
  have := length_scanToken _scan
  have := Text.length_dropWhile_le isSpace cs
  omega

/-- The value that a text writes, unless the text is no JSON. -/
def parse? (s : String) : Option Json :=
  run? (.expectValue []) s.toList

end ZoneKeeper.Json
