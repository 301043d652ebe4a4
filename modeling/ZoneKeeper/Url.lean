/-
Web addresses.

An address is read the way browsers read one: white space around it does not count, any
number of slashes may follow the scheme, and what cannot stand in a path is written with
percent signs.  An address must name a host, and a number that it gives for `tcpPort` must
fit sixteen bits.  Bytes of the host may be written with percent signs.  A host whose last
label is a number is an IPv4 address or nothing.
-/
import ZoneKeeper.Address
import ZoneKeeper.HostName

namespace ZoneKeeper

open Text Numeral

/-- A web address. -/
structure Url where
  /-- The connection is encrypted. -/
  isSecure : Bool
  /-- The host, an IPv6 address without its brackets. -/
  host : String
  /-- Where the host listens. -/
  tcpPort : UInt16
  /-- The path and the query, as they go into a request. -/
  target : String
deriving DecidableEq, Repr

namespace Url

/-! ### Who is addressed -/

/-- The number that a part of an IPv4 address writes: hexadecimal after a mark, octal after
a zero, decimal otherwise. -/
def ipv4Part? : List Char → Option Nat
  | '0' :: 'x' :: cs | '0' :: 'X' :: cs => if cs.isEmpty then some 0 else hex? cs
  | '0' :: c :: cs => inBase? 8 (c :: cs)
  | cs => decimal? cs

/-- A number as so many octets, the highest first, if it fits in them. -/
def octets? : Nat → Nat → Option (List Nat)
  | 0, n => if n = 0 then some [] else none
  | count + 1, n => (octets? count (n / 256)).map (· ++ [n % 256])

/-- The dotted quad of an address in one to four parts, of which the last fills all the
octets that are left. -/
def ipv4? (labels : List (List Char)) : Option String := do
  let parts ← labels.mapM ipv4Part?
  let last ← parts.getLast?
  let front := parts.dropLast
  guard (front.length ≤ 3 ∧ front.all (· ≤ 255))
  let rest ← octets? (4 - front.length) last
  return ".".intercalate ((front ++ rest).map toString)

/-- The label is a number. -/
def isNumeric : List Char → Bool
  | '0' :: 'x' :: cs | '0' :: 'X' :: cs => cs.all fun c => (hexDigit? c).isSome
  | cs => !cs.isEmpty && cs.all Char.isDigit

/-- The bytes of a text in which percent signs with two digits stand for bytes. -/
def unescape : List Char → List UInt8
  | [] => []
  | '%' :: a :: b :: cs =>
    match hex? [a, b] with
    | some byte => UInt8.ofNat byte :: unescape cs
    | none => 0x25 :: unescape (a :: b :: cs)
  | c :: cs => c.toString.toUTF8.toList ++ unescape cs
termination_by cs => cs.length

/-- The host that a text names: an IPv6 address in brackets, an IPv4 address or a name.  Of a
name, only ASCII letters change their case. -/
def host? (cs : List Char) : Option String :=
  if cs.head? = some '[' then
    let inner := cs.tail.dropLast
    if cs.getLast? = some ']' ∧ (IPv6.ofChars? inner).isSome then some (String.ofList inner)
    else none
  else do
    let name ← String.fromUTF8? (ByteArray.mk (unescape cs).toArray)
    let labels ← HostName.labels? name.toList
    let numbers :=
      if labels.getLast? = some [] ∧ labels.length > 1 then labels.dropLast else labels
    if labels = [[]] then none
    else if numbers.getLast?.any isNumeric then ipv4? numbers
    else some (String.ofList (joinWith '.' labels))

/-- The number of at most 65535 after a colon, or `otherwise` where none is written. -/
def tcpPort? (otherwise : UInt16) : List Char → Option UInt16
  | [] | [':'] => some otherwise
  | ':' :: cs => ((decimal? cs).filter (· ≤ 65535)).map UInt16.ofNat
  | _ => none

/-- A host in brackets or up to a colon, and what follows it. -/
def cutHost (cs : List Char) : List Char × List Char :=
  if cs.head? = some '[' then
    let inside := cs.takeWhile (· != ']')
    (cs.take (inside.length + 1), cs.drop (inside.length + 1))
  else (cs.takeWhile (· != ':'), cs.dropWhile (· != ':'))

/-- What follows the last at-sign: names and passwords of users are not used. -/
def withoutUser (cs : List Char) : List Char :=
  (cs.reverse.takeWhile (· != '@')).reverse

/-! ### Path and query -/

/-- The characters that stand in a path only as percent signs with digits. -/
def isPathEscaped (c : Char) : Bool :=
  c.toNat ≤ 0x20 || c.toNat ≥ 0x7F || ['"', '#', '<', '>', '?', '^', '\x60', '{', '}'].contains c

/-- The characters that stand in a query only as percent signs with digits. -/
def isQueryEscaped (c : Char) : Bool :=
  c.toNat ≤ 0x20 || c.toNat ≥ 0x7F || ['"', '#', '<', '>', '\''].contains c

/-- A byte as a percent sign with two digits. -/
def percent (byte : UInt8) : List Char :=
  let digit (n : Nat) : Char := (hexDigit n).toUpper
  ['%', digit (byte.toNat / 16), digit (byte.toNat % 16)]

/-- The characters, with those that are to be escaped written by their bytes. -/
def escape (isEscaped : Char → Bool) (cs : List Char) : List Char :=
  cs.flatMap fun c =>
    if isEscaped c then c.toString.toUTF8.toList.flatMap percent else [c]

/-- The segment means the directory itself. -/
def isHere (segment : List Char) : Bool :=
  [".", "%2e"].contains (lower (String.ofList segment))

/-- The segment means the directory above. -/
def isAbove (segment : List Char) : Bool :=
  ["..", ".%2e", "%2e.", "%2e%2e"].contains (lower (String.ofList segment))

/-- The segments of a path, last first, after one more segment; it ends the path if
`isLast` says so. -/
def pushSegment (path : List (List Char)) (segment : List Char) (isLast : Bool) :
    List (List Char) :=
  if isAbove segment then (if isLast then [] :: path.tail else path.tail)
  else if isHere segment then (if isLast then [] :: path else path)
  else segment :: path

/-- The path that segments lead along, last segment first. -/
def walk (path : List (List Char)) : List (List Char) → List (List Char)
  | [] => path
  | [segment] => pushSegment path segment true
  | segment :: segments => walk (pushSegment path segment false) segments

/-- The path of a request.  Segments that mean a directory are resolved. -/
def pathText (cs : List Char) : List Char :=
  let slashed := cs.map fun c => if c = '\\' then '/' else c
  let segments := cutAt '/' (if slashed.head? = some '/' then slashed.tail else slashed)
  '/' :: joinWith '/' ((walk [] segments).reverse.map (escape isPathEscaped))

/-! ### Addresses -/

/-- The characters without those at both ends and inside that reading leaves out. -/
def clean (cs : List Char) : List Char :=
  let isOuter (c : Char) : Bool := c.toNat ≤ 0x20
  (dropEndWhile isOuter (cs.dropWhile isOuter)).filter (· ∉ ['\t', '\n', '\r'])

/-- The address that a text with one of the two web schemes writes. -/
def ofString? (s : String) : Option Url := do
  let (scheme, rest) ← breakOn? [':'] (clean s.toList)
  let isSecure ←
    match lower (String.ofList scheme) with
    | "http" => some false
    | "https" => some true
    | _ => none
  let isSlash (c : Char) : Bool := c == '/' || c == '\\'
  let rest := rest.dropWhile isSlash
  let isMark (c : Char) : Bool := isSlash c || c == '?' || c == '#'
  let (host, listener) := cutHost (withoutUser (rest.takeWhile (!isMark ·)))
  let rest := (rest.dropWhile (!isMark ·)).takeWhile (· != '#')
  let path := rest.takeWhile (· != '?')
  let query := rest.dropWhile (· != '?')
  return {
    isSecure
    host := ← host? host
    tcpPort := ← tcpPort? (if isSecure then 443 else 80) listener
    target := String.ofList (pathText path ++ query.take 1 ++ escape isQueryEscaped query.tail) }

end Url
end ZoneKeeper
