/-
The client of a nameserver's control interface.

The interface is spoken over HTTP: a zone has an address of its own, under which it is
fetched and patched, and zones are created under the address of them all.  Every request
carries the key that the nameserver knows.

Of a reply three things are asked in turn: was there one, could it be read, and does it
tell of a failure, by its status or, in spite of its status, by its body.  A failed request
is counted once, unless it failed because what was asked for is not there: that is how
zones are looked for.
-/
import ZoneKeeper.Services
import ZoneKeeper.DomainName
import ZoneKeeper.Url
import ZoneKeeper.Json.Parser

namespace ZoneKeeper

/-! ### Requests and replies -/

/-- What a request asks for. -/
inductive HttpMethod
  | get
  | patch
  | post
deriving DecidableEq, Repr

/-- The word for a method. -/
def HttpMethod.label : HttpMethod → String
  | get => "GET"
  | patch => "PATCH"
  | post => "POST"

/-- A request to the control interface. -/
structure HttpRequest where
  method : HttpMethod
  /-- The address, as it is quoted in failures. -/
  url : String
  /-- The key that the nameserver knows. -/
  key : String
  body : Option Json
deriving Repr

/-- What comes of a request. -/
inductive HttpReply
  /-- No reply at all. -/
  | unreachable (reason : String)
  /-- A reply whose body breaks off. -/
  | unreadable (reason : String)
  | answer (status : UInt16) (body : String)
deriving DecidableEq, Repr, Inhabited

/-- The status says that the request was served. -/
def isSuccess (status : UInt16) : Bool :=
  200 ≤ status && status < 300

/-! ### What a reply means -/

/-- The error that a body tells of: a record with that one field. -/
def errorInBody? (body : String) : Option String := do
  let fields ← (← Json.parse? body).fields? ["error"]
  fields.required? "error"

/-- The body of a reply that tells of no failure. -/
def HttpReply.result (url : String) : HttpReply → Except ApiError String
  | unreachable reason => .error (.connection url reason)
  | unreadable reason => .error (.decode url s!"reading body: {reason}")
  | answer status body =>
    if isSuccess status then
      match errorInBody? body with
      | some message => .error (.embedded url message)
      | none => .ok body
    else .error (.httpStatus url status ((errorInBody? body).getD body))

/-- The zone that a body describes. -/
def snapshotOfBody (url body : String) : Except ApiError Snapshot :=
  match (Json.parse? body).bind ofJson? with
  | some snapshot => .ok snapshot
  | none => .error (.decode url "the body is no zone")

/-! ### The client -/

/-- A client of one server behind a control interface. -/
structure ControlClient where
  /-- The address of the interface, without a slash at its end. -/
  baseUrl : String
  /-- The name of the server. -/
  serverId : String
  /-- The key that the nameserver knows. -/
  key : String
deriving DecidableEq, Repr

namespace ControlClient

/-- The address of the interface on a server that is written with or without a scheme. -/
def baseUrlOf (server : String) : String :=
  let trimmed := String.ofList (Text.dropEndWhile (· == '/') server.toList)
  if "http://".toList.isPrefixOf server.toList || "https://".toList.isPrefixOf server.toList then
    trimmed
  else "http://" ++ trimmed

/-- The client for a server, unless its address is no web address. -/
def create (server serverId key : String) : Except ApiError ControlClient :=
  let baseUrl := baseUrlOf server
  match Url.ofString? baseUrl with
  | some _ => .ok ⟨baseUrl, serverId, key⟩
  | none => .error (.connection baseUrl "invalid API URL")

/-- The address of all zones. -/
def zonesUrl (client : ControlClient) : String :=
  s!"{client.baseUrl}/api/v1/servers/{client.serverId}/zones"

/-- The address of a zone. -/
def zoneUrl (client : ControlClient) (zone : String) : String :=
  s!"{client.zonesUrl}/{DomainName.absolute zone}"

/-- The request for a zone. -/
def zoneRequest (client : ControlClient) (zone : String) : HttpRequest :=
  ⟨.get, client.zoneUrl zone, client.key, none⟩

/-- The request to make changes to a zone. -/
def patchRequest (client : ControlClient) (zone : String) (changes : List Change) : HttpRequest :=
  ⟨.patch, client.zoneUrl zone, client.key, some (Change.patchBody changes)⟩

/-- The request for a new zone without nameservers. -/
def createRequest (client : ControlClient) (name kind : String) (masters : List String) :
    HttpRequest :=
  ⟨.post, client.zonesUrl, client.key, some <| .ofFields [
    ("name", toJson (DomainName.absolute name)), ("kind", toJson kind),
    ("masters", toJson masters), ("nameservers", .array [])]⟩

/-- The key can go into the head of a request. -/
def isSendable (key : String) : Bool :=
  key.toList.all fun c => c == '\t' || (0x20 ≤ c.toNat && c.toNat != 0x7F)

variable {m : Type → Type} [Monad m]

/-- A result that is counted if it is a failure.  Not to find something is none. -/
def counted {α : Type} (count : Series → Nat → m Unit) (result : Except ApiError α) :
    m (Except ApiError α) := do
  if let .error e := result then
    unless e.isNotFound do count (.apiErrors e.category e.reason) 1
  return result

/-- Sends a request that can be sent, and takes the body of the reply. -/
def send (transport : HttpRequest → m HttpReply) (count : Series → Nat → m Unit)
    (request : HttpRequest) : m (Except ApiError String) := do
  let reply ←
    if isSendable request.key then transport request
    else pure (.unreachable "the key cannot be sent")
  counted count (reply.result request.url)

/-- The control interface that the client speaks with over a transport. -/
def api (client : ControlClient) (transport : HttpRequest → m HttpReply)
    (count : Series → Nat → m Unit) : ControlApi m where
  fetchZone zone := do
    match ← send transport count (client.zoneRequest zone) with
    | .ok body => counted count (snapshotOfBody (client.zoneUrl zone) body)
    | .error e => return .error e
  patchRRsets zone changes := do
    let result ← send transport count (client.patchRequest zone changes)
    return result.map fun _ => ()
  zoneExists name := do
    match ← send transport count (client.zoneRequest name) with
    | .ok _ => return .ok true
    | .error e => return if e.isNotFound then .ok false else .error e
  createZone name kind masters := do
    let result ← send transport count (client.createRequest name kind masters)
    return result.map fun _ => ()

end ControlClient
end ZoneKeeper
