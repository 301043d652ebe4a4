/-
Numbers as digits.

A decimal numeral is a non-empty run of ASCII digits and nothing else: no sign, no
separator, no blank.  Callers that take a leading plus, or that bound the value, say so
by the reader they choose.
-/
namespace ZoneKeeper.Numeral

/-- The value of an ASCII decimal digit. -/
def digit? (c : Char) : Option Nat :=
  if c.isDigit then some (c.toNat - '0'.toNat) else none

/-- The value of an ASCII hexadecimal digit of either case. -/
def hexDigit? (c : Char) : Option Nat :=
  if c.isDigit then some (c.toNat - '0'.toNat)
  else if 'a' ≤ c ∧ c ≤ 'f' then some (c.toNat - 'a'.toNat + 10)
  else if 'A' ≤ c ∧ c ≤ 'F' then some (c.toNat - 'A'.toNat + 10)
  else none

/-- The value of a digit sequence in a base, most significant digit first. -/
def ofDigits (base : Nat) (digits : List Nat) : Nat :=
  digits.foldl (fun value d => value * base + d) 0

/-- A non-empty run of decimal digits. -/
def decimal? (cs : List Char) : Option Nat :=
  if cs.isEmpty then none else (cs.mapM digit?).map (ofDigits 10)

/-- A non-empty run of digits in a base of at most sixteen. -/
def inBase? (base : Nat) (cs : List Char) : Option Nat :=
  if cs.isEmpty then none
  else (cs.mapM fun c => (hexDigit? c).filter (· < base)).map (ofDigits base)

/-- A non-empty run of hexadecimal digits. -/
def hex? (cs : List Char) : Option Nat :=
  inBase? 16 cs

/-- A decimal numeral of at most `bound`, with one leading plus allowed. -/
def unsigned? (bound : Nat) (cs : List Char) : Option Nat :=
  (decimal? (if cs.head? = some '+' then cs.tail else cs)).filter (· ≤ bound)

/-- The lower-case hexadecimal digit of a value below sixteen. -/
def hexDigit (n : Nat) : Char :=
  Nat.digitChar n

end ZoneKeeper.Numeral
