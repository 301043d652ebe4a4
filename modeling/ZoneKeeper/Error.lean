/-
What can go wrong.

`ApiError` is a failure of the nameserver's control interface: it was not reached, it
answered with a failure status, it answered with success and an error inside, or its
answer could not be read.  `SyncError` is a failure of the work on a zone.  Both are
ordinary results; the wording for operators is in `message`, and the short words that
count failures are in `category`, `reason` and `kind`.
-/
namespace ZoneKeeper

/-! ### Status codes -/

/-- What a failure status means to an operator. -/
inductive StatusReason
  | badRequest
  | authFailed
  | zoneNotFound
  | unprocessable
  | internalError
  | gatewayError
  | unexpected
deriving DecidableEq, Repr

namespace StatusReason

/-- The short word for a reason. -/
def label : StatusReason → String
  | badRequest => "ApiBadRequest"
  | authFailed => "ApiAuthFailed"
  | zoneNotFound => "ZoneNotFound"
  | unprocessable => "ApiUnprocessable"
  | internalError => "ApiInternalError"
  | gatewayError => "GatewayError"
  | unexpected => "ApiUnexpectedStatus"

/-- The reason that a status code stands for. -/
def ofStatus (status : UInt16) : StatusReason :=
  match status.toNat with
  | 400 => badRequest
  | 401 | 403 => authFailed
  | 404 => zoneNotFound
  | 422 => unprocessable
  | 500 => internalError
  | 502 | 503 | 504 => gatewayError
  | _ => unexpected

end StatusReason

/-- What a status code means, in a sentence for operators that ends in the code. -/
def describeStatus (status : UInt16) : String :=
  let meaning :=
    match status.toNat with
    | 400 => "Invalid request to control API"
    | 401 => "Control API authentication required"
    | 403 => "Control API authorization failed"
    | 404 => "Zone not found on nameserver"
    | 422 => "Nameserver rejected the change"
    | 500 => "Control API internal error"
    | 502 => "Bad gateway reaching control API"
    | 503 => "Control API unavailable"
    | 504 => "Gateway timeout reaching control API"
    | _ => "Unexpected HTTP error from control API"
  s!"{meaning} ({status.toNat})"

/-! ### Failures of the control interface -/

/-- A failure of the nameserver's control interface at an endpoint. -/
inductive ApiError
  /-- The endpoint was not reached. -/
  | connection (endpoint reason : String)
  /-- The answer has a failure status. -/
  | httpStatus (endpoint : String) (status : UInt16) (reason : String)
  /-- The answer has a success status and carries an error all the same. -/
  | embedded (endpoint message : String)
  /-- The answer cannot be read. -/
  | decode (endpoint reason : String)
deriving DecidableEq, Repr

namespace ApiError

/-- The failure in words. -/
def message : ApiError → String
  | connection endpoint reason => s!"HTTP connection to {endpoint} failed: {reason}"
  | httpStatus endpoint status reason =>
    s!"Unexpected HTTP response from {endpoint}: {status.toNat} {reason}"
  | embedded endpoint message => s!"Control API at {endpoint} reported an error: {message}"
  | decode endpoint reason => s!"Failed to decode response from {endpoint}: {reason}"

/-- The status code, when the failure has one. -/
def status? : ApiError → Option UInt16
  | httpStatus _ status _ => some status
  | _ => none

/-- The short word for the kind of failure. -/
def category : ApiError → String
  | connection .. => "connection"
  | httpStatus .. => "http_status"
  | embedded .. => "embedded"
  | decode .. => "decode"

/-- The reason behind the status code, or the category when there is no code. -/
def reason (e : ApiError) : String :=
  match e.status? with
  | some status => (StatusReason.ofStatus status).label
  | none => e.category

/-- The failure says that what was asked for is not there. -/
def isNotFound (e : ApiError) : Bool :=
  e.status? == some 404

end ApiError

/-! ### Failures of the work on a zone -/

/-- A failure of the work on a zone. -/
inductive SyncError
  /-- The nameserver refused, and nothing of this step was applied. -/
  | remoteApi (zone message : String)
  /-- The zone has another serial than the one the caller saw. -/
  | conflict (zone : String) (submitted current : UInt32)
  /-- One batch was applied and the next was not. -/
  | partialFailure (zone applied failed message : String)
  /-- Reverse names could not be brought up to date after the zone itself was. -/
  | autoPtr (zone message : String)
  /-- A desired record cannot be used; nothing was sent. -/
  | invalidRecord (name reason : String)
  /-- The audit history could not be written or read. -/
  | history (reason : String)
deriving DecidableEq, Repr

namespace SyncError

/-- The failure in words. -/
def message : SyncError → String
  | remoteApi zone message => s!"Control API error for zone '{zone}': {message}"
  | conflict zone submitted current =>
    s!"Zone '{zone}' changed since it was loaded (serial {submitted.toNat} != {current.toNat}); " ++
      "refresh and retry"
  | partialFailure zone applied failed message =>
    s!"Zone '{zone}' partially updated: {applied} applied, {failed} failed: {message}"
  | autoPtr zone message => s!"Auto-PTR update failed for zone '{zone}': {message}"
  | invalidRecord name reason => s!"Invalid record data for '{name}': {reason}"
  | history reason => s!"History store failure: {reason}"

/-- The short word for the kind of failure. -/
def kind : SyncError → String
  | remoteApi .. => "remote_api"
  | conflict .. => "conflict"
  | partialFailure .. => "partial_failure"
  | autoPtr .. => "auto_ptr"
  | invalidRecord .. => "invalid_record"
  | history .. => "history"

/-- The caller should load the zone again and retry. -/
def isConflict : SyncError → Bool
  | conflict .. => true
  | _ => false

/-- A failure of the control interface while working on a zone.  A status code is
explained before the failure itself is quoted. -/
def ofApi (zone : String) (e : ApiError) : SyncError :=
  .remoteApi zone <|
    match e.status? with
    | some status => s!"{describeStatus status} ({e.message})"
    | none => e.message

end SyncError
end ZoneKeeper
