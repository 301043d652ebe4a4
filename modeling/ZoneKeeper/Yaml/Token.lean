/-
Tokens of YAML text.

A token is a mark, a property of a node, a reference or a scalar.  What a character means
can depend on two things around it: whether it stands inside brackets or braces, and how far
the text must be indented to belong to the block collection around it.

Between tokens there are blanks, line ends and comments.  Tabs are blanks inside brackets
and after something else on a line, but they do not indent.
-/
import ZoneKeeper.Yaml
import ZoneKeeper.Yaml.Block
import ZoneKeeper.Yaml.Property

namespace ZoneKeeper.Yaml

/-- A token of YAML text. -/
inductive Token
  /-- The mark of an item of a block sequence. -/
  | dash
  /-- The mark of a key that may be any node. -/
  | questionMark
  /-- The mark between a key and its value. -/
  | colon
  | comma
  | openSequence
  | closeSequence
  | openMapping
  | closeMapping
  | anchor (name : String)
  | tag (mark : TagMark)
  /-- A node that has been written before, by the name of its anchor. -/
  | reference (name : String)
  | scalar (style : Style) (text : String)
deriving DecidableEq, Repr

/-- The cursor after a token that ends a line no more than it has begun one. -/
def Cursor.inLine (place : Position) (rest : List Char) : Cursor :=
  ⟨place, false, rest⟩

/-- A scalar that begins with the character `c` in front of `cs`. -/
def scanScalar (ctx : Context) (place : Position) (c : Char) (cs : List Char) :
    Option (Token × Cursor) :=
  if c = '\'' then
    (scanSingle (place.right 1) cs).map fun (parts, place, rest) =>
      (.scalar .quoted (String.ofList (fold parts)), .inLine place rest)
  else if c = '"' then
    (scanDouble (place.right 1) cs).map fun (parts, place, rest) =>
      (.scalar .quoted (String.ofList (fold parts)), .inLine place rest)
  else if startsPlain ctx.inFlow c cs then
    (scanPlain ctx .word place (c :: cs)).map fun (parts, place, rest) =>
      (.scalar .plain (String.ofList (plainText parts)), ⟨place, endsInNewLine parts, rest⟩)
  else if ctx.inFlow then none
  else if c = '|' then
    (scanBlock ctx false place cs).map fun (text, next) =>
      (.scalar .literal (String.ofList text), next)
  else if c = '>' then
    (scanBlock ctx true place cs).map fun (text, next) =>
      (.scalar .folded (String.ofList text), next)
  else none

/-- The token that the character `c` in front of `cs` is by itself.  What follows the mark of
an item, a key or a value begins the line as much as the mark does. -/
def markOf? (ctx : Context) (c : Char) (cs : List Char) : Option (Token × Bool) :=
  match c with
  | '[' => some (.openSequence, false)
  | ']' => some (.closeSequence, false)
  | '{' => some (.openMapping, false)
  | '}' => some (.closeMapping, false)
  | ',' => some (.comma, false)
  | '-' => if atWordEnd cs then some (.dash, true) else none
  | '?' => if ctx.inFlow || atWordEnd cs then some (.questionMark, true) else none
  | ':' => if ctx.inFlow || atWordEnd cs then some (.colon, true) else none
  | _ => none

/-- The cursor at the next place in its line, with fewer characters to read. -/
def Cursor.upTo (here : Cursor) (cs rest : List Char) : Cursor :=
  .inLine (here.place.right (1 + (cs.length - rest.length))) rest

/-- The token at the cursor, and the cursor after it. -/
def scanToken (ctx : Context) (here : Cursor) : Option (Token × Cursor) :=
  match here.rest with
  | [] => none
  | c :: cs =>
    match markOf? ctx c cs with
    | some (mark, begins) =>
      some (mark, ⟨here.place.right 1, begins && here.startsLine, cs⟩)
    | none =>
      if c = '&' then
        (scanName cs).map fun (name, rest) => (.anchor name, here.upTo cs rest)
      else if c = '*' then
        (scanName cs).map fun (name, rest) => (.reference name, here.upTo cs rest)
      else if c = '!' then
        (scanTag ctx.inFlow cs).map fun (mark, rest) => (.tag mark, here.upTo cs rest)
      else scanScalar ctx here.place c cs

/-- The characters from the next token on, after blanks, line ends and comments.  A byte
order mark may begin a line.  Outside brackets a token may begin a block collection once a
line has ended. -/
def skipFrom (inFlow inComment : Bool) (place : Position) (startsLine : Bool) :
    List Char → Cursor
  | [] => ⟨place, startsLine, []⟩
  | c :: cs =>
    if isBreak c then skipFrom inFlow false (place.after c) (startsLine || !inFlow) cs
    else if inComment || c = '#' then skipFrom inFlow true (place.after c) startsLine cs
    else if c = ' ' || (c = '\t' && (inFlow || !startsLine)) ||
        (c = '\ufeff' && place.column = 0) then
      skipFrom inFlow false (place.after c) startsLine cs
    else ⟨place, startsLine, c :: cs⟩

/-- The cursor at the next token. -/
def Cursor.skip (inFlow : Bool) (here : Cursor) : Cursor :=
  skipFrom inFlow false here.place here.startsLine here.rest

/-! ### Every token is longer than nothing -/

theorem length_scanScalar {ctx : Context} {place : Position} {c : Char} {cs : List Char}
    {token : Token} {next : Cursor} (h : scanScalar ctx place c cs = some (token, next)) :
    next.rest.length < (c :: cs).length := by
  unfold scanScalar at h
  repeat' split at h
  all_goals
    simp only [reduceCtorEq, Option.map_eq_some_iff, Prod.exists, Prod.mk.injEq] at h
  · obtain ⟨_, _, _, hscan, -, rfl⟩ := h
    exact Nat.lt_succ_of_lt (length_scanSingle hscan)
  · obtain ⟨_, _, _, hscan, -, rfl⟩ := h
    exact Nat.lt_succ_of_lt (length_scanDouble hscan)
  · rename_i hstart
    obtain ⟨_, _, _, hscan, -, rfl⟩ := h
    exact length_scanPlain hstart hscan
  · obtain ⟨_, _, hscan, -, rfl⟩ := h
    exact Nat.lt_succ_of_le (length_scanBlock hscan)
  · obtain ⟨_, _, hscan, -, rfl⟩ := h
    exact Nat.lt_succ_of_le (length_scanBlock hscan)

theorem length_scanToken {ctx : Context} {here next : Cursor} {token : Token}
    (h : scanToken ctx here = some (token, next)) : next.rest.length < here.rest.length := by
  unfold scanToken at h
  cases hrest : here.rest with
  | nil => simp [hrest] at h
  | cons c cs =>
    simp only [hrest] at h
    repeat' split at h
    · simp only [Option.some.injEq, Prod.mk.injEq] at h
      simp [← h.2]
    · simp only [Option.map_eq_some_iff, Prod.exists, Prod.mk.injEq] at h
      obtain ⟨_, _, hscan, -, rfl⟩ := h
      exact Nat.lt_succ_of_le (length_scanName hscan)
    · simp only [Option.map_eq_some_iff, Prod.exists, Prod.mk.injEq] at h
      obtain ⟨_, _, hscan, -, rfl⟩ := h
      exact Nat.lt_succ_of_le (length_scanName hscan)
    · simp only [Option.map_eq_some_iff, Prod.exists, Prod.mk.injEq] at h
      obtain ⟨_, _, hscan, -, rfl⟩ := h
      exact Nat.lt_succ_of_le (length_scanTag hscan)
    · exact length_scanScalar h

theorem length_skip_le (inFlow : Bool) (here : Cursor) :
    (here.skip inFlow).rest.length ≤ here.rest.length := by
  have (inComment : Bool) (place : Position) (startsLine : Bool) (cs : List Char) :
      (skipFrom inFlow inComment place startsLine cs).rest.length ≤ cs.length := by
    fun_induction skipFrom inFlow inComment place startsLine cs <;> simp_all <;> omega
  exact this false here.place here.startsLine here.rest

end ZoneKeeper.Yaml
