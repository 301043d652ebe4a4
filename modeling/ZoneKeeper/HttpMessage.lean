/-
Requests and replies as bytes.

A connection carries one request and one reply and is closed after it, so the reply is all
that the peer sends.  Its body is as long as its head says, comes in chunks if the head
says so, and is all that is left otherwise.  A body that ends before it should is no body.
-/
import ZoneKeeper.ControlClient
import ZoneKeeper.Json.Printer

namespace ZoneKeeper

open Text Numeral

/-! ### Requests -/

/-- The host as the head of a request names it. -/
def Url.authority (url : Url) : String :=
  let host := if url.host.toList.contains ':' then s!"[{url.host}]" else url.host
  if url.tcpPort = (if url.isSecure then 443 else 80) then host else s!"{host}:{url.tcpPort.toNat}"

/-- The bytes of a request to an address. -/
def HttpRequest.bytes (request : HttpRequest) (url : Url) : ByteArray :=
  let body := (request.body.map Json.compact).map String.toUTF8
  let bodyFields :=
    match body with
    | some bytes => ["Content-Type: application/json", s!"Content-Length: {bytes.size}"]
    | none => []
  let head := [s!"{request.method.label} {url.target} HTTP/1.1", s!"Host: {url.authority}",
    s!"X-API-Key: {request.key}", "Accept: */*", "Connection: close"] ++ bodyFields
  ("\r\n".intercalate (head ++ ["", ""])).toUTF8 ++ body.getD .empty

/-! ### Replies -/

namespace HttpReply

/-- The end of a line. -/
def lineEnd : List UInt8 := [13, 10]

/-- Bytes as characters of the same numbers. -/
def latin (bytes : List UInt8) : List Char :=
  bytes.map fun byte => Char.ofNat byte.toNat

/-- The status in the first line of a reply. -/
def status? (line : List Char) : Option UInt16 :=
  match cutAt ' ' line with
  | version :: code :: _ =>
    if "HTTP/1.".toList.isPrefixOf version ∧ code.length = 3 then
      (decimal? code).map UInt16.ofNat
    else none
  | _ => none

/-- The name of a field, in lower case, and its value. -/
def field? (line : List Char) : Option (String × String) :=
  (breakOn? [':'] line).map fun (name, value) =>
    (lower (String.ofList name), trim (String.ofList value))

/-- The lines of a head, and the bytes after it. -/
def cutHead? (bytes : List UInt8) : Option (List (List Char) × List UInt8) := do
  let (head, rest) ← breakOn? (lineEnd ++ lineEnd) bytes
  let lines := cutAt '\n' (latin head)
  return (lines.map (dropEndWhile (· == '\r')), rest)

/-- The bytes of a body that comes in at most `most` chunks. -/
def unchunk? : (most : Nat) → List UInt8 → Option (List UInt8)
  | 0, _ => none
  | most + 1, bytes => do
    let (line, rest) ← breakOn? lineEnd bytes
    let size ← hex? ((latin line).takeWhile fun c => (hexDigit? c).isSome)
    if size = 0 then return []
    if rest.length < size + 2 then failure
    let more ← unchunk? most (rest.drop (size + 2))
    return rest.take size ++ more

/-- The bytes of a body, as the fields of the head say, from those that came. -/
def body? (fields : List (String × String)) (bytes : List UInt8) : Option (List UInt8) :=
  if ((fields.lookup "transfer-encoding").map lower) = some "chunked" then
    unchunk? bytes.length bytes
  else
    match (fields.lookup "content-length").bind fun value => decimal? value.toList with
    | some size => if bytes.length < size then none else some (bytes.take size)
    | none => some bytes

/-- What the bytes that a peer sent before it closed the connection say. -/
def ofBytes (bytes : ByteArray) : HttpReply :=
  let head := do
    let (lines, rest) ← cutHead? bytes.toList
    let status ← status? (← lines.head?)
    return (status, lines.tail.filterMap field?, rest)
  match head with
  | none => .unreachable "the peer sent no reply"
  | some (status, fields, rest) =>
    match (body? fields rest).bind fun body => String.fromUTF8? ⟨body.toArray⟩ with
    | some body => .answer status body
    | none => .unreadable "the body is incomplete or no text"

end HttpReply
end ZoneKeeper
