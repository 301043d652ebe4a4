/-
What the client of the control interface makes of a reply, and how often it counts.

A request is counted where it is sent, and a zone that is fetched is read after that: a failure of
the one must not be counted again by the other, and a failure of the other is none of the one.
Looking for a zone turns one failure into an answer, which is the failure that is not counted.
So an operation comes down to a result that is a function of the reply, and to metrics that are a
function of the result (`perform_run`), whichever of the ways through the client it took.
-/
import ZoneKeeper.ControlClient
import ZoneKeeper.Proofs.Metrics

namespace ZoneKeeper

/-! ### Series that are counted -/

theorem ApiError.isNotFound_iff (e : ApiError) : e.isNotFound = true ↔ e.status? = some 404 :=
  beq_iff_eq

namespace Metrics

/-- The metrics after a result that is counted if it is a failure. -/
def counting {α : Type} (metrics : Metrics) : Except ApiError α → Metrics
  | .ok _ => metrics
  | .error e => if e.isNotFound then metrics else metrics.count (.apiErrors e.category e.reason) 1

/-- A result was counted as it should be: a failure once, under its category and its reason and
under nothing else, and anything else not at all.  A counter that showed its total goes on showing
it, as long as that has 53 bits. -/
inductive Counted {α : Type} (before after : Metrics) : Except ApiError α → Prop
  | ok (value : α) (same : after = before) : Counted before after (.ok value)
  | notFound (e : ApiError) (status : e.status? = some 404) (same : after = before) :
    Counted before after (.error e)
  | failed (e : ApiError) (status : e.status? ≠ some 404)
    (own : after.value (.apiErrors e.category e.reason) =
      before.value (.apiErrors e.category e.reason) + 1)
    (others : ∀ series, series ≠ .apiErrors e.category e.reason →
      after.value series = before.value series)
    (durations : after.durations = before.durations)
    (shown : before.ShowsTotals → after.ShowsTotals) :
    Counted before after (.error e)

theorem counted_counting {α : Type} (metrics : Metrics) (result : Except ApiError α) :
    Counted metrics (metrics.counting result) result := by
  cases result with
  | ok value => exact .ok value rfl
  | error e =>
    by_cases hstatus : e.status? = some 404
    · rw [counting, if_pos (e.isNotFound_iff.mpr hstatus)]
      exact .notFound e hstatus rfl
    · rw [counting, if_neg (hstatus ∘ e.isNotFound_iff.mp)]
      refine .failed e hstatus ?_ (fun series hother => ?_) rfl fun h => showsTotals_count h _ 1
      · rw [value_count, if_pos rfl]
      · rw [value_count, if_neg hother]

end Metrics

/-! ### What a reply means -/

namespace HttpReply

variable {reply : HttpReply} {url body : String}

/-- The reply has this body, its status says that the request was served, and its body does not
say otherwise. -/
def Serves (reply : HttpReply) (body : String) : Prop :=
  ∃ status, reply = .answer status body ∧ isSuccess status = true ∧ errorInBody? body = none

/-- The reply can be read and says that what was asked for is not there. -/
def Denies (reply : HttpReply) : Prop :=
  ∃ body, reply = .answer 404 body

theorem result_eq_ok : reply.result url = .ok body ↔ reply.Serves body := by
  constructor
  · intro h
    unfold result at h
    split at h
    · cases h
    · cases h
    · next status text =>
      split at h
      · next hstatus =>
        split at h
        · cases h
        · next herror =>
          obtain rfl := Except.ok.inj h
          exact ⟨status, rfl, hstatus, herror⟩
      · cases h
  · rintro ⟨status, rfl, hstatus, herror⟩
    simp only [result, hstatus, herror, if_true]

/-- A failure that says that something is not there comes of one status only. -/
theorem denies_of_result {e : ApiError} (h : reply.result url = .error e)
    (hmissing : e.status? = some 404) : reply.Denies := by
  unfold result at h
  split at h
  · cases h
    cases hmissing
  · cases h
    cases hmissing
  · next status text =>
    split at h
    · split at h
      · cases h
        cases hmissing
      · cases h
    · obtain rfl := Except.error.inj h
      obtain rfl : status = 404 := Option.some.inj hmissing
      exact ⟨text, rfl⟩

theorem result_of_denies (url : String) (h : reply.Denies) :
    ∃ e, reply.result url = .error e ∧ e.status? = some 404 := by
  obtain ⟨body, rfl⟩ := h
  refine ⟨.httpStatus url 404 ((errorInBody? body).getD body), ?_, rfl⟩
  rw [result, if_neg (by decide)]

end HttpReply

/-! ### The operations of the control interface -/

/-- One operation, with what it gives. -/
inductive ControlApi.Operation : Type → Type
  | fetchZone (zone : String) : Operation Snapshot
  | patchRRsets (zone : String) (changes : List Change) : Operation Unit
  | zoneExists (name : String) : Operation Bool
  | createZone (name kind : String) (masters : List String) : Operation Unit

/-- The operation as an interface performs it. -/
def ControlApi.perform {m : Type → Type} (api : ControlApi m) {α : Type} :
    Operation α → m (Except ApiError α)
  | .fetchZone zone => api.fetchZone zone
  | .patchRRsets zone changes => api.patchRRsets zone changes
  | .zoneExists name => api.zoneExists name
  | .createZone name kind masters => api.createZone name kind masters

namespace ControlClient

open ControlApi (Operation)

variable {α : Type} {client : ControlClient} {reply : HttpRequest → HttpReply}

/-- Counts in the metrics that are the state. -/
def meter (series : Series) (n : Nat) : StateM Metrics Unit :=
  modify fun metrics => metrics.count series n

/-- The interface over a transport on which every request gets its reply, with the failures
counted in metrics. -/
def metered (client : ControlClient) (reply : HttpRequest → HttpReply) :
    ControlApi (StateM Metrics) :=
  client.api (fun request => pure (reply request)) meter

/-- The request that an operation makes. -/
def request (client : ControlClient) : Operation α → HttpRequest
  | .fetchZone zone => client.zoneRequest zone
  | .patchRRsets zone changes => client.patchRequest zone changes
  | .zoneExists name => client.zoneRequest name
  | .createZone name kind masters => client.createRequest name kind masters

/-- What the client gets in reply to a request, which is nothing if the request cannot be sent. -/
def received (reply : HttpRequest → HttpReply) (request : HttpRequest) : HttpReply :=
  if isSendable request.key then reply request else .unreachable "the key cannot be sent"

/-- What an operation makes of the body of a reply that serves it. -/
def read (client : ControlClient) (body : String) : Operation α → Except ApiError α
  | .fetchZone zone => snapshotOfBody (client.zoneUrl zone) body
  | .patchRRsets .. => .ok ()
  | .zoneExists _ => .ok true
  | .createZone .. => .ok ()

/-- What an operation makes of a request that failed. -/
def give (e : ApiError) : Operation α → Except ApiError α
  | .zoneExists _ => if e.isNotFound then .ok false else .error e
  | .fetchZone _ => .error e
  | .patchRRsets .. => .error e
  | .createZone .. => .error e

/-- What comes of an operation. -/
def outcome (client : ControlClient) (reply : HttpRequest → HttpReply) (op : Operation α) :
    Except ApiError α :=
  match (received reply (client.request op)).result (client.request op).url with
  | .ok body => client.read body op
  | .error e => give e op

theorem counted_run (result : Except ApiError α) (metrics : Metrics) :
    (counted meter result).run metrics = (result, metrics.counting result) := by
  cases result with
  | ok value => rfl
  | error e =>
    unfold counted Metrics.counting
    by_cases h : e.isNotFound = true <;> simp only [h] <;> rfl

theorem send_run (request : HttpRequest) (metrics : Metrics) :
    (send (fun request => pure (reply request)) meter request).run metrics =
      ((received reply request).result request.url,
        metrics.counting ((received reply request).result request.url)) := by
  rw [← counted_run]
  unfold send received
  split <;> rfl

theorem send_bind_run (request : HttpRequest) (metrics : Metrics)
    (next : Except ApiError String → StateM Metrics (Except ApiError α)) :
    (send (fun request => pure (reply request)) meter request >>= next).run metrics =
      let result := (received reply request).result request.url
      (next result).run (metrics.counting result) := by
  rw [StateT.run_bind, send_run]
  rfl

/-- What comes of an operation is counted, and nothing besides. -/
theorem perform_run (op : Operation α) (metrics : Metrics) :
    ((client.metered reply).perform op).run metrics =
      (client.outcome reply op, metrics.counting (client.outcome reply op)) := by
  cases op with
  | fetchZone zone =>
    refine (send_bind_run _ _ _).trans ?_
    simp only [outcome, request]
    cases (received reply (client.zoneRequest zone)).result (client.zoneRequest zone).url with
    | ok body => exact counted_run (snapshotOfBody (client.zoneUrl zone) body) metrics
    | error e => rfl
  | patchRRsets zone changes =>
    refine (send_bind_run _ _ _).trans ?_
    simp only [outcome, request]
    cases (received reply (client.patchRequest zone changes)).result
      (client.patchRequest zone changes).url <;> rfl
  | zoneExists name =>
    refine (send_bind_run _ _ _).trans ?_
    simp only [outcome, request]
    cases (received reply (client.zoneRequest name)).result (client.zoneRequest name).url with
    | ok body => rfl
    | error e =>
      simp only [give, Metrics.counting]
      cases hmissing : e.isNotFound <;> simp [hmissing] <;> rfl
  | createZone name kind masters =>
    refine (send_bind_run _ _ _).trans ?_
    simp only [outcome, request]
    cases (received reply (client.createRequest name kind masters)).result
      (client.createRequest name kind masters).url <;> rfl

/-! ### What an operation tells -/

section Tells

variable {name zone body : String}

theorem outcome_zoneExists_true :
    client.outcome reply (.zoneExists name) = .ok true ↔
      ∃ body, (received reply (client.zoneRequest name)).Serves body := by
  unfold outcome
  constructor
  · intro h
    split at h
    · next body hresult => exact ⟨body, HttpReply.result_eq_ok.mp hresult⟩
    · simp only [give] at h
      split at h <;> cases h
  · rintro ⟨body, hserves⟩
    rw [request, HttpReply.result_eq_ok.mpr hserves]
    rfl

theorem outcome_zoneExists_false :
    client.outcome reply (.zoneExists name) = .ok false ↔
      (received reply (client.zoneRequest name)).Denies := by
  unfold outcome
  constructor
  · intro h
    split at h
    · cases h
    · next e hresult =>
      simp only [give] at h
      split at h
      · next hmissing => exact HttpReply.denies_of_result hresult (e.isNotFound_iff.mp hmissing)
      · cases h
  · intro hdenies
    obtain ⟨e, hresult, hstatus⟩ := HttpReply.result_of_denies (client.zoneRequest name).url hdenies
    rw [request, hresult]
    exact if_pos (e.isNotFound_iff.mpr hstatus)

/-- The zone that a body describes, if it describes one. -/
def zoneInBody? (body : String) : Option Snapshot :=
  (Json.parse? body).bind ofJson?

theorem snapshotOfBody_eq_ok {url : String} {snapshot : Snapshot}
    (h : zoneInBody? body = some snapshot) : snapshotOfBody url body = .ok snapshot := by
  unfold snapshotOfBody
  rw [show (Json.parse? body).bind ofJson? = some snapshot from h]

theorem snapshotOfBody_eq_error (url : String) (h : zoneInBody? body = none) :
    ∃ reason, snapshotOfBody url body = .error (.decode url reason) := by
  unfold snapshotOfBody
  rw [show (Json.parse? body).bind ofJson? = none from h]
  exact ⟨_, rfl⟩

/-- A body that is no zone fails the operation, and not the request. -/
theorem fetchZone_run_undecodable (metrics : Metrics) :
    (received reply (client.zoneRequest zone)).Serves body ∧ zoneInBody? body = none ↔
      (send (fun request => pure (reply request)) meter (client.zoneRequest zone)).run metrics =
        (.ok body, metrics) ∧
      ∃ reason, ((client.metered reply).fetchZone zone).run metrics =
        (.error (.decode (client.zoneUrl zone) reason),
          metrics.count (.apiErrors "decode" "decode") 1) := by
  have hfetch : ((client.metered reply).fetchZone zone).run metrics = _ :=
    perform_run (.fetchZone zone) metrics
  have hsend : (send (fun request => pure (reply request)) meter (client.zoneRequest zone)).run
      metrics = _ := send_run (client.zoneRequest zone) metrics
  constructor
  · rintro ⟨hserves, hnone⟩
    rw [HttpReply.result_eq_ok.mpr hserves] at hsend
    obtain ⟨reason, hreason⟩ := snapshotOfBody_eq_error (client.zoneUrl zone) hnone
    have houtcome : client.outcome reply (.fetchZone zone) =
        .error (.decode (client.zoneUrl zone) reason) := by
      rw [outcome, request, HttpReply.result_eq_ok.mpr hserves]
      exact hreason
    rw [houtcome] at hfetch
    exact ⟨hsend, reason, hfetch⟩
  · rintro ⟨hsent, reason, hfetched⟩
    have hresult := (Prod.mk.inj (hsend.symm.trans hsent)).1
    refine ⟨HttpReply.result_eq_ok.mp hresult, ?_⟩
    cases hzone : zoneInBody? body with
    | none => rfl
    | some snapshot =>
      have houtcome : client.outcome reply (.fetchZone zone) = .ok snapshot := by
        rw [outcome, request, hresult]
        exact snapshotOfBody_eq_ok hzone
      rw [houtcome] at hfetch
      cases congrArg Prod.fst (hfetch.symm.trans hfetched)

/-- **Every failure of an operation is counted once.**  Whatever the replies are, an operation
that fails raises the series of its failure by one and no other, unless what it asked for is not
there, and one that succeeds raises none.  A zone is found to exist if it is served and found not
to exist if it is denied, and any other reply is a failure.  A zone that is served and cannot be
read is counted as well, though its request did not fail. -/
theorem operations_counted (client : ControlClient) (reply : HttpRequest → HttpReply)
    (metrics : Metrics) :
    (∀ (α : Type) (op : Operation α), ∃ result after,
      ((client.metered reply).perform op).run metrics = (result, after) ∧
      metrics.Counted after result) ∧
    (∀ name, ∃ result after,
      ((client.metered reply).zoneExists name).run metrics = (result, after) ∧
      (result = .ok false ↔ (received reply (client.zoneRequest name)).Denies) ∧
      (result = .ok true ↔ ∃ body, (received reply (client.zoneRequest name)).Serves body) ∧
      ((∃ e, result = .error e) ↔ ¬(received reply (client.zoneRequest name)).Denies ∧
        ¬∃ body, (received reply (client.zoneRequest name)).Serves body)) ∧
    ∀ zone body,
      (received reply (client.zoneRequest zone)).Serves body ∧ zoneInBody? body = none ↔
        (send (fun request => pure (reply request)) meter (client.zoneRequest zone)).run metrics =
          (.ok body, metrics) ∧
        ∃ reason, ((client.metered reply).fetchZone zone).run metrics =
          (.error (.decode (client.zoneUrl zone) reason),
            metrics.count (.apiErrors "decode" "decode") 1) := by
  refine ⟨fun α op => ⟨_, _, perform_run op metrics, metrics.counted_counting _⟩,
    fun name => ⟨_, _, perform_run (.zoneExists name) metrics, outcome_zoneExists_false,
      outcome_zoneExists_true, ?_⟩,
    fun zone body => fetchZone_run_undecodable metrics⟩
  rw [← outcome_zoneExists_false, ← outcome_zoneExists_true]
  cases client.outcome reply (.zoneExists name) with
  | error e => simp
  | ok found => cases found <;> simp

end Tells

end ControlClient

end ZoneKeeper
