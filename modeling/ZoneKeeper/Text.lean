/-
Characters and texts as zone data spells them.

Two classes of characters matter throughout.  Blanks are the characters of Unicode's
White_Space property: operators leave them around names, types and values, and they
are trimmed.  Letters change case only inside ASCII, since host names, type mnemonics
and status words are ASCII by definition.

A text is cut at single characters, and `joinWith` is the inverse of `cutAt`: putting
the pieces back gives the text that was cut.
-/
namespace ZoneKeeper.Text

/-! ### Blanks -/

/-- The characters of Unicode's White_Space property. -/
def isBlank (c : Char) : Bool :=
  let n := c.toNat
  (0x09 ≤ n && n ≤ 0x0D) || n == 0x20 || n == 0x85 || n == 0xA0 || n == 0x1680 ||
    (0x2000 ≤ n && n ≤ 0x200A) || n == 0x2028 || n == 0x2029 || n == 0x202F ||
    n == 0x205F || n == 0x3000

/-- The list without its longest ending of elements that satisfy `p`. -/
def dropEndWhile {α : Type} (p : α → Bool) (xs : List α) : List α :=
  (xs.reverse.dropWhile p).reverse

theorem length_dropWhile_le {α : Type} (p : α → Bool) (xs : List α) :
    (xs.dropWhile p).length ≤ xs.length :=
  (List.dropWhile_sublist p).length_le

/-- The characters without the blanks at both ends. -/
def trimChars (cs : List Char) : List Char :=
  dropEndWhile isBlank (cs.dropWhile isBlank)

/-- The text without the blanks at both ends. -/
def trim (s : String) : String :=
  String.ofList (trimChars s.toList)

/-- A text of nothing but blanks; the empty text is one. -/
def isBlankText (s : String) : Bool :=
  s.toList.all isBlank

/-! ### Case -/

/-- ASCII letters in upper case; every other character stays. -/
def upper (s : String) : String :=
  String.ofList (s.toList.map Char.toUpper)

/-- ASCII letters in lower case; every other character stays. -/
def lower (s : String) : String :=
  String.ofList (s.toList.map Char.toLower)

/-- Two texts that differ at most in the case of ASCII letters. -/
def sameLetters (s t : String) : Bool :=
  lower s == lower t

/-! ### Cutting and joining -/

/-- The pieces with one more character at the front. -/
def consPiece (c : Char) : List (List Char) → List (List Char)
  | [] => [[c]]
  | piece :: pieces => (c :: piece) :: pieces

/-- The pieces between the occurrences of `sep`.  There is always at least one. -/
def cutAt (sep : Char) (cs : List Char) : List (List Char) :=
  cs.foldr (fun c pieces => if c = sep then [] :: pieces else consPiece c pieces) [[]]

/-- The pieces in order, with `sep` between neighbours. -/
def joinWith (sep : Char) (pieces : List (List Char)) : List Char :=
  [sep].intercalate pieces

theorem cutAt_nil (sep : Char) : cutAt sep [] = [[]] := rfl

theorem cutAt_cons (sep c : Char) (cs : List Char) :
    cutAt sep (c :: cs) = if c = sep then [] :: cutAt sep cs else consPiece c (cutAt sep cs) := rfl

theorem cutAt_ne_nil (sep : Char) (cs : List Char) : cutAt sep cs ≠ [] := by
  cases cs with
  | nil => simp [cutAt_nil]
  | cons c cs =>
    rw [cutAt_cons]
    split
    · simp
    · cases cutAt sep cs <;> simp [consPiece]

/-- Joining the pieces of a cut gives back what was cut. -/
theorem joinWith_cutAt (sep : Char) (cs : List Char) : joinWith sep (cutAt sep cs) = cs := by
  induction cs with
  | nil => rfl
  | cons c cs ih =>
    rw [cutAt_cons]
    cases hp : cutAt sep cs with
    | nil => exact absurd hp (cutAt_ne_nil sep cs)
    | cons piece pieces =>
      rw [hp] at ih
      split
      case isTrue h => cases pieces <;> simp_all [joinWith, List.intercalate]
      case isFalse => cases pieces <;> simp_all [joinWith, List.intercalate, consPiece]

/-- What comes before and after the first occurrence of `mark`, if there is one. -/
def breakOn? {α : Type} [BEq α] (mark : List α) : List α → Option (List α × List α)
  | [] => if mark.isEmpty then some ([], []) else none
  | c :: cs =>
    if mark.isPrefixOf (c :: cs) then some ([], (c :: cs).drop mark.length)
    else (breakOn? mark cs).map fun (before, after) => (c :: before, after)

/-- `s` with `fill` appended until it has at least `width` characters. -/
def padEnd (width : Nat) (fill : Char) (s : String) : String :=
  s ++ String.ofList (List.replicate (width - s.length) fill)

/-- `s` with `fill` put in front until it has at least `width` characters. -/
def padStart (width : Nat) (fill : Char) (s : String) : String :=
  String.ofList (List.replicate (width - s.length) fill) ++ s

end ZoneKeeper.Text
