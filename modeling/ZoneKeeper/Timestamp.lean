/-
Points in time, to the nanosecond, in coordinated universal time.

A timestamp is a date of the Gregorian calendar and a time of day, and both are valid by
construction.  The sixtieth second is there for leap seconds.  Years run from -262143 to
262142, which are the years that a timestamp's text can carry.

`Timestamp.ofString?` reads a date and time with an offset and moves it to universal time,
`Timestamp.text` writes one; the two agree on what the latter writes.
-/
import ZoneKeeper.Text
import ZoneKeeper.Numeral
import ZoneKeeper.Json.Fields

namespace ZoneKeeper

open Text Numeral

/-! ### Dates -/

/-- February of the year has twenty-nine days. -/
def isLeapYear (year : Int) : Bool :=
  year % 4 = 0 && (year % 100 ≠ 0 || year % 400 = 0)

/-- The number of days of a month, one being January. -/
def daysInMonth (year : Int) : Nat → Nat
  | 2 => if isLeapYear year then 29 else 28
  | 4 | 6 | 9 | 11 => 30
  | _ => 31

/-- The first year that a timestamp may have. -/
def firstYear : Int := -262143

/-- The last year that a timestamp may have. -/
def lastYear : Int := 262142

/-- A date of the Gregorian calendar. -/
structure Date where
  year : Int
  month : Nat
  day : Nat
  year_mem : firstYear ≤ year ∧ year ≤ lastYear
  month_mem : 1 ≤ month ∧ month ≤ 12
  day_mem : 1 ≤ day ∧ day ≤ daysInMonth year month
deriving DecidableEq, Repr

namespace Date

/-- The date with this year, month and day, if the calendar has it. -/
def of? (year : Int) (month day : Nat) : Option Date :=
  if h : (firstYear ≤ year ∧ year ≤ lastYear) ∧ (1 ≤ month ∧ month ≤ 12) ∧
      (1 ≤ day ∧ day ≤ daysInMonth year month) then
    some ⟨year, month, day, h.1, h.2.1, h.2.2⟩
  else none

/-- The day after, unless time ends. -/
def next? (date : Date) : Option Date :=
  if date.day < daysInMonth date.year date.month then of? date.year date.month (date.day + 1)
  else if date.month < 12 then of? date.year (date.month + 1) 1
  else of? (date.year + 1) 1 1

/-- The day before, unless time has not begun. -/
def previous? (date : Date) : Option Date :=
  if 1 < date.day then of? date.year date.month (date.day - 1)
  else if 1 < date.month then
    of? date.year (date.month - 1) (daysInMonth date.year (date.month - 1))
  else of? (date.year - 1) 12 31

/-- The first day of 1970, from which clocks count. -/
def epoch : Date := ⟨1970, 1, 1, by decide, by decide, by decide⟩

/-- The date so many days later, unless time ends before. -/
def after? (date : Date) : Nat → Option Date
  | 0 => some date
  | days + 1 => date.next?.bind fun next => next.after? days

end Date

/-! ### Times of day -/

/-- A time of day.  Second sixty is a leap second. -/
structure TimeOfDay where
  hour : Nat
  minute : Nat
  second : Nat
  nano : Nat
  hour_lt : hour < 24
  minute_lt : minute < 60
  second_le : second ≤ 60
  nano_lt : nano < 1000000000
deriving DecidableEq, Repr

namespace TimeOfDay

/-- The time with these parts, if there is one. -/
def of? (hour minute second nano : Nat) : Option TimeOfDay :=
  if h : hour < 24 ∧ minute < 60 ∧ second ≤ 60 ∧ nano < 1000000000 then
    some ⟨hour, minute, second, nano, h.1, h.2.1, h.2.2.1, h.2.2.2⟩
  else none

end TimeOfDay

/-! ### Timestamps -/

/-- A point in time, in coordinated universal time. -/
structure Timestamp where
  date : Date
  time : TimeOfDay
deriving DecidableEq, Repr

namespace Timestamp

/-- The point in time at which clocks that are `offset` minutes ahead of universal time
show this date and time. -/
def ofLocal? (date : Date) (time : TimeOfDay) (offset : Int) : Option Timestamp := do
  let minutes := (time.hour * 60 + time.minute : Nat) - offset
  let date ←
    if minutes < 0 then date.previous?
    else if minutes < 1440 then some date
    else date.next?
  let minuteOfDay := (minutes % 1440).toNat
  let time ← TimeOfDay.of? (minuteOfDay / 60) (minuteOfDay % 60) time.second time.nano
  some ⟨date, time⟩

/-- The beginning of 1970, from which clocks count. -/
def epoch : Timestamp := ⟨.epoch, ⟨0, 0, 0, 0, by decide, by decide, by decide, by decide⟩⟩

/-- The point in time at which a clock shows so many nanoseconds. -/
def ofClock? (nanoseconds : Nat) : Option Timestamp := do
  let seconds := nanoseconds / 1000000000
  let date ← Date.epoch.after? (seconds / 86400)
  let time ← TimeOfDay.of? (seconds / 3600 % 24) (seconds / 60 % 60) (seconds % 60)
    (nanoseconds % 1000000000)
  some ⟨date, time⟩

/-! ### Writing -/

/-- A number with zeros in front up to `width` digits. -/
def padded (width n : Nat) : String :=
  padStart width '0' (toString n)

/-- A year: four digits, with a sign and more digits outside of 0 to 9999. -/
def yearText (year : Int) : String :=
  if 0 ≤ year ∧ year ≤ 9999 then padded 4 year.toNat
  else (if year < 0 then "-" else "+") ++ padded 4 year.natAbs

/-- The fraction of a second with the fewest of 0, 3, 6 or 9 digits that are exact. -/
def fractionText (nano : Nat) : String :=
  if nano = 0 then ""
  else if nano % 1000000 = 0 then "." ++ padded 3 (nano / 1000000)
  else if nano % 1000 = 0 then "." ++ padded 6 (nano / 1000)
  else "." ++ padded 9 nano

/-- The timestamp without its offset. -/
def localText (t : Timestamp) : String :=
  s!"{yearText t.date.year}-{padded 2 t.date.month}-{padded 2 t.date.day}" ++
    s!"T{padded 2 t.time.hour}:{padded 2 t.time.minute}:{padded 2 t.time.second}" ++
    fractionText t.time.nano

/-- The text that is stored, whose offset is the letter for universal time. -/
def text (t : Timestamp) : String :=
  t.localText ++ "Z"

/-- The text that is shown, whose offset is written in digits. -/
def display (t : Timestamp) : String :=
  t.localText ++ "+00:00"

/-! ### Reading

Blanks may precede every number and the separators inside the date and inside the time,
but not the separator between the two. -/

/-- A reader takes what it reads off the front of the characters. -/
abbrev Scan (α : Type) : Type := StateT (List Char) Option α

/-- The blanks at the front. -/
def skipBlanks : Scan Unit :=
  modify (·.dropWhile isBlank)

/-- One character for which `p` holds. -/
def oneOf (p : Char → Bool) : Scan Char := fun
  | c :: cs => if p c then some (c, cs) else none
  | [] => none

/-- The digits at the front, at most `most` of them and at least one. -/
def digits (most : Nat) : Scan (List Char) := fun cs =>
  let taken := (cs.take most).takeWhile Char.isDigit
  if taken.isEmpty then none else some (taken, cs.drop taken.length)

/-- Blanks and a number of at most `most` digits. -/
def number (most : Nat) : Scan Nat := do
  skipBlanks
  let taken ← digits most
  (decimal? taken : Option Nat)

/-- Blanks and a year: up to four digits, or a sign and any number of digits. -/
def yearNumber : Scan Int := do
  skipBlanks
  let cs ← get
  match cs with
  | '-' :: rest =>
    set rest
    let taken ← digits rest.length
    return -((← (decimal? taken : Option Nat)) : Int)
  | '+' :: rest =>
    set rest
    let taken ← digits rest.length
    return (← (decimal? taken : Option Nat))
  | _ => return (← number 4)

/-- Blanks and a separator. -/
def separator (c : Char) : Scan Unit := do
  skipBlanks
  let _ ← oneOf (· == c)

/-- A fraction of a second in nanoseconds, none counting as zero.  Digits beyond the ninth
are dropped. -/
def fraction : Scan Nat := do
  match ← get with
  | '.' :: rest =>
    set rest
    let taken ← digits 9
    modify (·.dropWhile Char.isDigit)
    (decimal? (taken.rightpad 9 '0') : Option Nat)
  | _ => return 0

/-- Exactly two digits. -/
def twoDigits : Scan Nat := do
  let tens ← oneOf Char.isDigit
  let ones ← oneOf Char.isDigit
  (decimal? [tens, ones] : Option Nat)

/-- An offset from universal time in minutes: a letter Z, the word UTC, or a sign with
hours and minutes, which colons and blanks may separate. -/
def offset : Scan Int := do
  skipBlanks
  match ← get with
  | u :: t :: c :: rest =>
    if upper (String.ofList [u, t, c]) = "UTC" then
      set rest
      return 0
  | _ => pure ()
  let sign ← oneOf fun c => c == 'Z' || c == 'z' || c == '+' || c == '-' || c == '\u2212'
  if sign = 'Z' ∨ sign = 'z' then return 0
  let hours ← twoDigits
  modify (·.dropWhile fun c => c == ':' || isBlank c)
  let minutes ← twoDigits
  if minutes < 60 ∧ hours < 24 then
    return (if sign = '+' then 1 else -1) * (hours * 60 + minutes : Nat)
  else failure

/-- A date, a time and an offset. -/
def stamp : Scan Timestamp := do
  let year ← yearNumber
  separator '-'
  let month ← number 2
  separator '-'
  let day ← number 2
  let _ ← oneOf fun c => c == 'T' || c == 't' || c == ' '
  let hour ← number 2
  separator ':'
  let minute ← number 2
  separator ':'
  let second ← number 2
  let nano ← fraction
  let offset ← offset
  let date ← (Date.of? year month day : Option Date)
  let time ← (TimeOfDay.of? hour minute second nano : Option TimeOfDay)
  (ofLocal? date time offset : Option Timestamp)

/-- The timestamp that a text denotes.  Blanks may follow it. -/
def ofString? (s : String) : Option Timestamp := do
  let (t, rest) ← stamp.run s.toList
  if rest.all isBlank then some t else none

instance : ToJson Timestamp := ⟨fun t => toJson t.text⟩
instance : OfJson Timestamp := ⟨fun j => j.text?.bind ofString?⟩

end Timestamp
end ZoneKeeper
