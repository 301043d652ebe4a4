/-
Errors that a nameserver puts into the body of a reply that says it served the request.

The client looks for such an error as for any record, one with a single field that is a text.  A
record is read strictly, and what cannot be read as a record tells of no error.  So the error that
is there goes unnoticed in three ways, which `Unnoticed` lists, and in no other.  The request then
counts as served, and the operation makes of the body what it makes of any other.
-/
import ZoneKeeper.Proofs.ControlClient
import ZoneKeeper.Proofs.Stored

namespace ZoneKeeper

open Json

/-- The members hide the error that is one of them: the key of a member has no text, the error is
repeated, or what it holds is no text. -/
inductive Unnoticed (members : List (Option String × Json)) : Prop
  | nameless (value : Json) (mem : (none, value) ∈ members)
  | repeated (twice : 2 ≤ (members.map Prod.fst).count (some "error"))
  | wordless (value : Json) (mem : (some "error", value) ∈ members) (text : value.text? = none)

/-! ### What a body tells -/

section Body

variable {body message : String} {members : List (Option String × Json)} {fields : Fields}

/-- The fields that are the error. -/
def errorFields (fields : Fields) : Fields :=
  fields.filter fun field => ["error"].contains field.1

theorem Json.text?_eq_some_iff {value : Json} :
    value.text? = some message ↔ value = .string (some message) := by
  cases value <;> simp [text?]

theorem mem_errorFields {field : String × Json} :
    field ∈ errorFields fields ↔ field.1 = "error" ∧ field ∈ fields := by
  rw [errorFields, List.mem_filter]
  simp [and_comm]

theorem length_errorFields (hfields : ofFields fields = .object members) :
    (errorFields fields).length = (members.map Prod.fst).count (some "error") := by
  obtain rfl := object.inj hfields
  rw [errorFields, ← List.countP_eq_length_filter, List.count_eq_countP, List.countP_map,
    List.countP_map]
  refine List.countP_congr fun field _ => ?_
  simp

/-- The fields that are the error all have one name, so none is repeated if it is the only one. -/
theorem errorFields_eq_singleton_iff {value : Json} : errorFields fields = [("error", value)] ↔
    (errorFields fields).length ≤ 1 ∧ ("error", value) ∈ fields := by
  constructor
  · intro h
    have hmem : ("error", value) ∈ errorFields fields := by simp [h]
    exact ⟨by simp [h], (mem_errorFields.mp hmem).2⟩
  · intro ⟨hlength, hmem⟩
    have hknown := mem_errorFields.mpr ⟨rfl, hmem⟩
    generalize errorFields fields = known at hlength hknown
    match known, hlength, hknown with
    | [field], _, hknown => rw [List.mem_singleton.mp hknown]

theorem nodup_errorFields_iff :
    ((errorFields fields).map Prod.fst).Nodup ↔ (errorFields fields).length ≤ 1 := by
  have hnames : (errorFields fields).map Prod.fst =
      List.replicate (errorFields fields).length "error" := by
    refine List.eq_replicate_iff.mpr ⟨List.length_map _, fun name hname => ?_⟩
    obtain ⟨field, hfield, rfl⟩ := List.mem_map.mp hname
    exact (mem_errorFields.mp hfield).1
  rw [hnames, List.nodup_replicate]

/-- A body tells of an error if all members have a name and the error is there once, as a text. -/
theorem errorInBody?_eq_some_iff (hbody : parse? body = some (.object members)) :
    errorInBody? body = some message ↔ ∃ fields, ofFields fields = .object members ∧
      errorFields fields = [("error", .string (some message))] := by
  have hread : errorInBody? body = ((object members).fields? ["error"]).bind
      (·.required? "error") := by
    rw [errorInBody?, hbody]
    rfl
  rw [hread, Option.bind_eq_some_iff]
  constructor
  · intro ⟨known, hknown, hmessage⟩
    obtain ⟨fields, hfields, hfilter, hnodup⟩ := fields?_object_eq_some_iff.mp hknown
    obtain rfl : errorFields fields = known := hfilter
    obtain ⟨value, hlookup, htext⟩ := Option.bind_eq_some_iff.mp hmessage
    obtain rfl := text?_eq_some_iff.mp htext
    obtain ⟨before, after, hsplit, -⟩ := List.lookup_eq_some_iff.mp hlookup
    have hmem : ("error", .string (some message)) ∈ errorFields fields := by simp [hsplit]
    exact ⟨fields, hfields, errorFields_eq_singleton_iff.mpr
      ⟨nodup_errorFields_iff.mp hnodup, (mem_errorFields.mp hmem).2⟩⟩
  · intro ⟨fields, hfields, hknown⟩
    exact ⟨_, fields?_object_eq_some_iff.mpr ⟨fields, hfields, hknown, by simp⟩, rfl⟩

/-- Members that all have a name are fields. -/
theorem Json.exists_ofFields (h : ∀ value, (none, value) ∉ members) :
    ∃ fields, ofFields fields = .object members := by
  induction members with
  | nil => exact ⟨[], rfl⟩
  | cons member members ih =>
    obtain ⟨key, value⟩ := member
    obtain ⟨fields, hfields⟩ := ih fun value hvalue => h value (List.mem_cons_of_mem _ hvalue)
    cases key with
    | none => exact absurd List.mem_cons_self (h value)
    | some name =>
      refine ⟨(name, value) :: fields, ?_⟩
      rw [← object.inj hfields]
      rfl

theorem errorInBody?_eq_none (hbody : parse? body = some (.object members))
    (h : Unnoticed members) : errorInBody? body = none := by
  refine Option.eq_none_iff_forall_ne_some.mpr fun message hmessage => ?_
  obtain ⟨fields, hfields, herror⟩ := (errorInBody?_eq_some_iff hbody).mp hmessage
  have hcount := length_errorFields hfields
  obtain rfl := object.inj hfields
  cases h with
  | nameless value mem => simp at mem
  | repeated twice =>
    rw [← hcount, herror] at twice
    exact absurd twice (by simp)
  | wordless value mem text =>
    have hvalue : ("error", value) ∈ errorFields fields :=
      mem_errorFields.mpr ⟨rfl, by simpa using mem⟩
    rw [herror, List.mem_singleton] at hvalue
    cases hvalue
    cases text

theorem exists_errorInBody? (hbody : parse? body = some (.object members))
    (herror : ∃ value, (some "error", value) ∈ members) (h : ¬Unnoticed members) :
    ∃ message, (some "error", .string (some message)) ∈ members ∧
      errorInBody? body = some message := by
  obtain ⟨value, hvalue⟩ := herror
  obtain ⟨message, hmessage⟩ := Option.ne_none_iff_exists'.mp fun htext =>
    h (.wordless value hvalue htext)
  obtain rfl := text?_eq_some_iff.mp hmessage
  obtain ⟨fields, hfields⟩ := exists_ofFields fun value hvalue => h (.nameless value hvalue)
  have honce : (errorFields fields).length ≤ 1 := by
    rw [length_errorFields hfields]
    exact Nat.le_of_not_lt fun htwice => h (.repeated htwice)
  have hmem : ("error", .string (some message)) ∈ fields := by
    obtain rfl := object.inj hfields
    simpa using hvalue
  exact ⟨message, hvalue, (errorInBody?_eq_some_iff hbody).mpr
    ⟨fields, hfields, errorFields_eq_singleton_iff.mpr ⟨honce, hmem⟩⟩⟩

end Body

/-! ### What an operation makes of it -/

namespace ControlClient

open ControlApi (Operation)

variable {α : Type} {client : ControlClient} {reply : HttpRequest → HttpReply} {op : Operation α}
  {status : UInt16} {body message : String}

/-- A key that can be sent goes with every request. -/
theorem received_of_isSendable (h : isSendable client.key = true) (op : Operation α) :
    received reply (client.request op) = reply (client.request op) := by
  have hkey : (client.request op).key = client.key := by cases op <;> rfl
  rw [received, hkey, if_pos h]

theorem outcome_served (hreply : received reply (client.request op) = .answer status body)
    (hstatus : isSuccess status = true) (h : errorInBody? body = none) :
    client.outcome reply op = client.read body op := by
  rw [outcome, hreply, HttpReply.result_eq_ok.mpr ⟨status, rfl, hstatus, h⟩]

theorem outcome_embedded (hreply : received reply (client.request op) = .answer status body)
    (hstatus : isSuccess status = true) (h : errorInBody? body = some message) :
    client.outcome reply op = .error (.embedded (client.request op).url message) := by
  rw [outcome, hreply, HttpReply.result, if_pos hstatus, h]
  cases op <;> rfl

/-- **An error in a served body fails the operation unless it goes unnoticed.**  The reply says that
the request was served, and its body is an object with an error among its members, repeated or not
and whatever it holds.  If the members do not hide the error, every operation fails with the text
that the error holds.  If they do, the operation makes of the body what it makes of one without an
error: a zone is patched, created or found to exist, and a fetched zone is read from the other
members. -/
theorem perform_of_error_member (client : ControlClient) (reply : HttpRequest → HttpReply)
    (metrics : Metrics) (op : Operation α) {members : List (Option String × Json)}
    (hreply : received reply (client.request op) = .answer status body)
    (hstatus : isSuccess status = true) (hbody : parse? body = some (.object members))
    (herror : ∃ value, (some "error", value) ∈ members) :
    ∃ result,
      ((client.metered reply).perform op).run metrics = (result, metrics.counting result) ∧
      (¬Unnoticed members → ∃ message, (some "error", .string (some message)) ∈ members ∧
        result = .error (.embedded (client.request op).url message)) ∧
      (Unnoticed members → result = client.read body op) := by
  refine ⟨client.outcome reply op, perform_run op metrics, ?_, ?_⟩
  · intro hnoticed
    obtain ⟨message, hmem, hmessage⟩ := exists_errorInBody? hbody herror hnoticed
    exact ⟨message, hmem, outcome_embedded hreply hstatus hmessage⟩
  · intro hunnoticed
    exact outcome_served hreply hstatus (errorInBody?_eq_none hbody hunnoticed)

/-- The client of a nameserver on this host. -/
def localClient : ControlClient :=
  ⟨"http://127.0.0.1:8081", "localhost", "key"⟩

/-- A patch that is denied in the body of the reply fails, though a code stands beside the error. -/
theorem perform_of_error_member_denied :
    let members := [(some "code", .number "5"), (some "error", .string (some "denied"))]
    parse? (Json.object members).compact = some (.object members) ∧
      ((localClient.metered fun _ => .answer 200 (Json.object members).compact).patchRRsets
        "example.com" []).run .empty =
          (.error (.embedded (localClient.zoneUrl "example.com") "denied"),
            Metrics.empty.count (.apiErrors "embedded" "embedded") 1) := by
  intro members
  have hbody : parse? (Json.object members).compact = some (.object members) :=
    parse?_compact ⟨rfl, trivial, trivial⟩
  obtain ⟨result, hrun, hnoticed, -⟩ := perform_of_error_member localClient
    (fun _ => .answer 200 (Json.object members).compact) .empty (.patchRRsets "example.com" [])
    rfl rfl hbody ⟨_, List.mem_cons_of_mem _ List.mem_cons_self⟩
  obtain ⟨message, hmem, rfl⟩ := hnoticed (by
    intro h
    cases h <;> simp_all [members, text?])
  obtain rfl : message = "denied" := by simpa [members] using hmem
  exact ⟨hbody, hrun⟩

/-- An error that holds a code in place of a text. -/
def errorCode : Json :=
  ofFields [("error", .number "5")]

/-- Every operation takes such an error for success, and a fetched zone is empty. -/
theorem error_code_unnoticed :
    let api := localClient.metered fun _ => .answer 200 errorCode.compact
    parse? errorCode.compact = some (.object [(some "error", .number "5")]) ∧
      (api.fetchZone "example.com").run .empty = (.ok ⟨"", 0, []⟩, .empty) ∧
      (api.patchRRsets "example.com" []).run .empty = (.ok (), .empty) ∧
      (api.zoneExists "example.com").run .empty = (.ok true, .empty) ∧
      (api.createZone "example.com" "Native" []).run .empty = (.ok (), .empty) := by
  intro api
  have hbody : parse? errorCode.compact = some (.object [(some "error", .number "5")]) :=
    parse?_compact ⟨rfl, trivial⟩
  have hnone : errorInBody? errorCode.compact = none :=
    errorInBody?_eq_none hbody (.wordless _ List.mem_cons_self rfl)
  have hrun (α : Type) (op : Operation α) : (api.perform op).run .empty =
      (localClient.read errorCode.compact op,
        Metrics.empty.counting (localClient.read errorCode.compact op)) := by
    rw [perform_run, outcome_served (received_of_isSendable (by decide) op) rfl hnone]
  have hzone : zoneInBody? errorCode.compact = some ⟨"", 0, []⟩ := by
    rw [zoneInBody?, hbody]
    rfl
  refine ⟨hbody, ?_, hrun _ (.patchRRsets "example.com" []), hrun _ (.zoneExists "example.com"),
    hrun _ (.createZone "example.com" "Native" [])⟩
  refine (hrun _ (.fetchZone "example.com")).trans ?_
  rw [read, snapshotOfBody_eq_ok hzone]
  rfl

end ControlClient

end ZoneKeeper
