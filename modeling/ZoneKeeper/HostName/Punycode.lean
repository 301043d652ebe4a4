/-
Punycode: labels of any characters, written in ASCII.

The ASCII characters of a label come first, with a hyphen after them.  Numbers follow, one
for each other character in order of code points.  A number says how many steps to take
from the insertion before: a step goes to the next place in the label, and from its end to
its beginning with the next code point.

The digits of a number are letters and decimal digits, the least significant first.  Each
digit has a threshold, and a digit below it ends the number.  Thresholds follow the size of
the numbers before, so that there is no need to say how long a number is.
-/
import ZoneKeeper.Text

namespace ZoneKeeper.HostName

/-- The value of a digit. -/
def punycodeDigit? (c : Char) : Option Nat :=
  if c.isDigit then some (c.toNat - '0'.toNat + 26)
  else if c.isLower then some (c.toNat - 'a'.toNat)
  else if c.isUpper then some (c.toNat - 'A'.toNat)
  else none

/-- How far decoding has come. -/
structure PunycodeState where
  /-- The label so far. -/
  label : List Char
  /-- The code point of the next insertion, if its number does not go beyond the end. -/
  codePoint : Nat
  /-- The place after the last insertion. -/
  place : Nat
  bias : Nat
  /-- What the digits of the current number add up to. -/
  steps : Nat
  /-- What the next digit counts, or one where a number begins. -/
  weight : Nat
  /-- The number of digits before the next one. -/
  digits : Nat

/-- The size of numbers in digits, and what is left of them. -/
def digitsOver (steps digits : Nat) : Nat × Nat :=
  if 455 < steps then digitsOver (steps / 35) (digits + 1) else (digits, steps)
termination_by steps
decreasing_by omega

/-- The bias after a number of so many steps, in a label that has got so many characters. -/
def nextBias (steps characters : Nat) (isFirst : Bool) : Nat :=
  let damped := if isFirst then steps / 700 else steps / 2
  let (digits, rest) := digitsOver (damped + damped / characters) 0
  36 * digits + 36 * rest / (rest + 38)

/-- The threshold of a digit. -/
def PunycodeState.threshold (state : PunycodeState) : Nat :=
  min 26 (max 1 (36 * (state.digits + 1) - state.bias))

/-- The label with the character that a complete number inserts. -/
def PunycodeState.insert? (state : PunycodeState) : Option PunycodeState :=
  let characters := state.label.length + 1
  let reached := state.place + state.steps
  let codePoint := state.codePoint + reached / characters
  let place := reached % characters
  if codePoint.isValidChar then
    some {
      label := state.label.take place ++ Char.ofNat codePoint :: state.label.drop place
      codePoint
      place := place + 1
      bias := nextBias state.steps characters (state.place == 0)
      steps := 0
      weight := 1
      digits := 0 }
  else none

/-- The state after one more digit. -/
def PunycodeState.push? (state : PunycodeState) (c : Char) : Option PunycodeState := do
  let digit ← punycodeDigit? c
  let threshold := state.threshold
  let state := { state with steps := state.steps + digit * state.weight }
  if digit < threshold then state.insert?
  else
    return { state with
      weight := state.weight * (36 - threshold), digits := state.digits + 1 }

/-- The label that ASCII characters write. -/
def decodePunycode? (cs : List Char) : Option (List Char) := do
  let numbers := (cs.reverse.takeWhile (· != '-')).reverse
  let basic := cs.take (cs.length - numbers.length - 1)
  if basic.isEmpty && numbers.length < cs.length then none
  else
    let state ← numbers.foldlM PunycodeState.push? ⟨basic, 128, 0, 72, 0, 1, 0⟩
    if state.digits = 0 then some state.label else none

end ZoneKeeper.HostName
