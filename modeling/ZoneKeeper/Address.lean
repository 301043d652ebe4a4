/-
Internet addresses and their texts.

An IPv4 address is four octets, written in decimal without leading zeros and with dots
between them.  An IPv6 address is eight groups of sixteen bits, written in one to four
hexadecimal digits each with colons between them; a double colon stands for one or more
zero groups, and the last two groups may be written as an IPv4 address.
-/
import ZoneKeeper.Text
import ZoneKeeper.Numeral

namespace ZoneKeeper

open Text Numeral

/-- An IPv4 address, most significant octet first. -/
structure IPv4 where
  octets : Vector UInt8 4
deriving DecidableEq, Repr

/-- An IPv6 address, most significant group first. -/
structure IPv6 where
  groups : Vector UInt16 8
deriving DecidableEq, Repr

/-- An address of either family. -/
inductive Address
  | v4 (address : IPv4)
  | v6 (address : IPv6)
deriving DecidableEq, Repr

namespace IPv4

/-- One to three digits without a leading zero, of value at most 255. -/
def octet? (cs : List Char) : Option UInt8 :=
  if cs.head? = some '0' ∧ cs ≠ ['0'] then none
  else ((decimal? cs).filter (· ≤ 255)).map UInt8.ofNat

/-- The address that a dotted quad denotes. -/
def ofChars? (cs : List Char) : Option IPv4 := do
  match ← (cutAt '.' cs).mapM octet? with
  | [a, b, c, d] => some ⟨#v[a, b, c, d]⟩
  | _ => none

/-- The address that a text denotes. -/
def ofString? (s : String) : Option IPv4 :=
  ofChars? s.toList

/-- The address as the two low groups of an IPv6 address. -/
def toGroups (address : IPv4) : List UInt16 :=
  let pair (high low : UInt8) := UInt16.ofNat (high.toNat * 256 + low.toNat)
  [pair address.octets[0] address.octets[1], pair address.octets[2] address.octets[3]]

end IPv4

namespace IPv6

/-- One to four hexadecimal digits. -/
def group? (cs : List Char) : Option UInt16 :=
  if cs.length ≤ 4 then (hex? cs).map UInt16.ofNat else none

/-- Groups between single colons.  Only the last piece may be an IPv4 address. -/
def groupsOfPieces? : List (List Char) → Option (List UInt16)
  | [] => some []
  | [last] =>
    match IPv4.ofChars? last with
    | some address => some address.toGroups
    | none => (group? last).map ([·])
  | piece :: pieces => do
    let first ← group? piece
    let rest ← groupsOfPieces? pieces
    some (first :: rest)

/-- The groups of one side of a double colon, where an empty side has none. -/
def side? (cs : List Char) : Option (List UInt16) :=
  if cs.isEmpty then some [] else groupsOfPieces? (cutAt ':' cs)

/-- The address that a text denotes. -/
def ofChars? (cs : List Char) : Option IPv6 := do
  let groups ←
    match breakOn? [':', ':'] cs with
    | none => groupsOfPieces? (cutAt ':' cs)
    | some (before, after) => do
      let high ← if before.isEmpty then some [] else (cutAt ':' before).mapM group?
      let low ← side? after
      if high.length + low.length ≤ 7 then
        some (high ++ List.replicate (8 - high.length - low.length) 0 ++ low)
      else none
  if h : groups.toArray.size = 8 then some ⟨⟨groups.toArray, h⟩⟩ else none

/-- The address that a text denotes. -/
def ofString? (s : String) : Option IPv6 :=
  ofChars? s.toList

/-- The four hexadecimal digits of a group, most significant first. -/
def nibblesOfGroup (group : UInt16) : List Nat :=
  let n := group.toNat
  [n / 4096 % 16, n / 256 % 16, n / 16 % 16, n % 16]

/-- The thirty-two hexadecimal digits of the address, most significant first. -/
def nibbles (address : IPv6) : List Nat :=
  address.groups.toList.flatMap nibblesOfGroup

end IPv6

namespace Address

/-- The address of either family that a text denotes. -/
def ofString? (s : String) : Option Address :=
  match IPv4.ofString? s with
  | some address => some (.v4 address)
  | none => (IPv6.ofString? s).map .v6

end Address

end ZoneKeeper
