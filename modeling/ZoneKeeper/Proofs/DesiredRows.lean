/-
What becomes of a row that is desired.

A row is written under the name that it resolves to, but grouping has the last word on names, and
the two can be at odds where owner names may be written as addresses.  A label that is no address
can become one when the zone's name is put behind it, and then the row is looked for under a name
that nothing is written under.  A record set whose name is an address can be in the zone already,
and deleting it takes away the record set with the reverse name.  `Undisputed` excludes both.

A row whose name is undisputed is in the zone after every run that succeeds: it was written, or
it was there and nothing touched it.  All other names are undisputed by themselves.
-/
import ZoneKeeper.Proofs.EditPolicy
import ZoneKeeper.Proofs.Convergence

namespace ZoneKeeper

/-- Grouping leaves the key as it is, and makes no other key that may be deleted into it. -/
structure RRsetKey.Undisputed (policy : Policy) (current : List RRset) (key : RRsetKey) :
    Prop where
  own : key.owned policy = key
  others : ∀ r ∈ current, policy.mayDelete r.type = true → r.key.owned policy = key → r.key = key

theorem RRsetKey.undisputed_of_plain {policy : Policy} {current : List RRset} {key : RRsetKey}
    (h : ¬(policy.prettyIPv6Ptr = true ∧ key.type = .named .ptr)) :
    key.Undisputed policy current where
  own := owned_of_plain h
  others r _ _ hkey := by
    have htype : (r.key.owned policy).type = key.type := congrArg RRsetKey.type hkey
    rw [type_owned] at htype
    rwa [owned_of_plain (by rwa [htype])] at hkey

theorem RRset.mem_records_of_sameContent {r s : RRset} (h : r.sameContent s = true)
    {value : RecordValue} (hvalue : value ∈ s.records) : value ∈ r.records := by
  obtain ⟨-, hvalues, -⟩ := sameContent_iff.mp h
  exact hvalues.mem_iff.mpr hvalue

namespace Reconciliation

variable {policy : Policy} {desired : List FlatRow} {current : List RRset} {row : FlatRow}
  {w : RRset}

/-- A row is added if its record set has to be written under the row's own name. -/
theorem mem_added_of_needsWrite (hrow : row ∈ desired) (hw : w ∈ wanted policy desired)
    (hkey : w.key = row.key) (hneeds : needsWrite current w = true) :
    row ∈ (between policy desired current).added :=
  mem_added.mpr ⟨hrow, w, mem_changed.mpr ⟨hw, hneeds⟩, hkey⟩

/-- A desired record set is not deleted while its key is undisputed. -/
theorem not_mem_deletes_of_undisputed (hdesired : ∀ row ∈ desired, row.changeType = .replace)
    (hw : w ∈ wanted policy desired) (hundisputed : w.key.Undisputed policy current) :
    w.key ∉ ((between policy desired current).batches policy).deletes := by
  intro hdeleted
  obtain ⟨r, hr, hkey⟩ := exists_removed_of_mem_deletes hdesired hdeleted
  obtain ⟨hmem, hunwanted, hmay⟩ := mem_removed.mp hr
  exact hunwanted w hw (hundisputed.others r hmem hmay hkey).symm

/-- **A desired row is in the outcome** with its content, if its key is undisputed. -/
theorem exists_held_of_desired (hdesired : ∀ row ∈ desired, row.changeType = .replace)
    (hrow : row ∈ desired) (hundisputed : row.key.Undisputed policy current) :
    ∃ held ∈ outcome policy desired current, held.key = row.key ∧
      ∃ value ∈ held.records, value.content = row.value.content := by
  obtain ⟨w, hw, hkey, value, hvalue, hcontent⟩ :=
    Batches.exists_replace_of_row policy hrow (hdesired row hrow)
  rw [hundisputed.own] at hkey
  cases hneeds : needsWrite current w with
  | true =>
    have hadded := mem_added_of_needsWrite hrow hw hkey hneeds
    obtain ⟨written, hwritten, hwrittenKey, hvalue⟩ :=
      Batches.exists_replace_of_row policy
        (List.mem_append_right (between policy desired current).deleted hadded)
        (hdesired row hrow)
    rw [hundisputed.own] at hwrittenKey
    exact ⟨written, Batches.mem_leave.mpr (Or.inl hwritten), hwrittenKey, hvalue⟩
  | false =>
    obtain ⟨existing, hmem, hsameKey, hsame⟩ := exists_of_needsWrite_eq_false hneeds
    have hdeleted := not_mem_deletes_of_undisputed hdesired hw (hkey ▸ hundisputed)
    have hwritten := not_mem_replaces_of_unchanged hw hneeds
    refine ⟨existing, Batches.mem_leave.mpr (Or.inr ⟨hmem, ?_, ?_⟩), hsameKey.trans hkey, value,
      RRset.mem_records_of_sameContent hsame hvalue, hcontent⟩
    · rwa [hsameKey]
    · rwa [hsameKey]

end Reconciliation

namespace Sandbox.Setup

variable {setup : Setup} {request : ApplyRequest} {box : Sandbox} {before : Snapshot}
  {summary : ApplySummary}

/-- **No desired row is dropped** by a run that succeeds: its value is in the zone, under the name
that grouping gives it.  Where names may be addresses, this is so for undisputed names. -/
theorem run_holds_row (setup : Setup) (hstore : setup.Recording) (request : ApplyRequest)
    (hquiet : setup.Undisturbed request.zone) (box : Sandbox) (before : Snapshot)
    (hzone : box.server.zone? request.zone = some before) (summary : ApplySummary)
    (hok : (setup.run request box).1 = .ok summary) (row : Row) (hrow : row ∈ request.rows)
    (htype : row.type ≠ .named .soa)
    (hundisputed : (setup.policyFor request.zone).prettyIPv6Ptr = true → row.type = .named .ptr →
      (row.flatten request.zone (setup.policyFor request.zone)).key.Undisputed
        (setup.policyFor request.zone) before.rrsets) :
    ∃ after, (setup.run request box).2.server.zone? request.zone = some after ∧
      ∃ held ∈ after.rrsets,
        held.name = (row.flatten request.zone (setup.policyFor request.zone)).ownerName
          (setup.policyFor request.zone) ∧
        held.type = row.type ∧
        ∃ value ∈ held.records,
          value.content = row.type.canonicalContent (row.content request.zone) := by
  obtain ⟨-, desired, after, hdesired, hafter, hrrsets⟩ := outcome_of_ok hstore hquiet hzone hok
  generalize setup.policyFor request.zone = policy at hundisputed hdesired hrrsets ⊢
  have hmem : row.flatten request.zone policy ∈ desired := by
    rw [eq_of_desiredRows hdesired]
    exact List.mem_map_of_mem (List.mem_filter.mpr ⟨hrow, by simpa using htype⟩)
  have hundisputed :
      (row.flatten request.zone policy).key.Undisputed policy before.rrsets := by
    by_cases hallowed : policy.prettyIPv6Ptr = true ∧ row.type = .named .ptr
    · exact hundisputed hallowed.1 hallowed.2
    · exact RRsetKey.undisputed_of_plain hallowed
  obtain ⟨held, hheld, hkey, hvalue⟩ := Reconciliation.exists_held_of_desired
    (Reconciliation.changeType_of_desired hdesired) hmem hundisputed
  rw [← hundisputed.own] at hkey
  obtain ⟨hname, hheldType⟩ := RRsetKey.mk.inj hkey
  exact ⟨after, hafter, held, hrrsets ▸ hheld, hname, hheldType, hvalue⟩

/-- A pointer whose owner is written as an address. -/
def onePointer (zone label : String) : ApplyRequest :=
  ⟨zone, [.plain label (.named .ptr) "host.example.com."], "operator", none⟩

/-- The reverse name of 2001:db8::1. -/
def pointerName : String :=
  "1.0.0.0.0.0.0.0.0.0.0.0.0.0.0.0.0.0.0.0.0.0.0.0.8.b.d.0.1.0.0.2.ip6.arpa."

theorem run_holds_row_onePointer :
    let policy : Policy := ⟨true, false, [.named .ptr]⟩
    let row : Row := .plain "2001:db8::1" (.named .ptr) "host.example.com."
    let request := onePointer "ip6.arpa" "2001:db8::1"
    let box := Sandbox.serving "ip6.arpa" []
    ((plain policy).run request box).1 = .ok ⟨"ip6.arpa", 0, 1, none⟩ ∧
      (row.flatten "ip6.arpa" policy).key.Undisputed policy [] ∧
      ∃ after, ((plain policy).run request box).2.server.zone? "ip6.arpa" = some after ∧
        ∃ held ∈ after.rrsets, held.name = pointerName ∧ held.type = .named .ptr ∧
          ∃ value ∈ held.records, value.content = "host.example.com." := by
  intro policy row request box
  have hok : ((plain policy).run request box).1 = .ok ⟨"ip6.arpa", 0, 1, none⟩ := by
    decide +kernel
  have hundisputed : (row.flatten "ip6.arpa" policy).key.Undisputed policy [] :=
    ⟨by decide +kernel, by simp⟩
  have hname : (row.flatten "ip6.arpa" policy).ownerName policy = pointerName := by
    decide +kernel
  have hcontent : row.type.canonicalContent (row.content "ip6.arpa") = "host.example.com." := by
    decide +kernel
  refine ⟨hok, hundisputed, ?_⟩
  have hheld := run_holds_row (plain policy) (recording_plain policy) request (Or.inl rfl) box
    ⟨"ip6.arpa.", 1, []⟩ (by decide) ⟨"ip6.arpa", 0, 1, none⟩ hok row List.mem_cons_self (by decide)
    fun _ _ => hundisputed
  rw [← hname, ← hcontent]
  exact hheld

/-- A label that becomes an address together with the zone's name is dropped without a word. -/
theorem run_drops_row :
    let policy : Policy := ⟨true, false, [.named .ptr]⟩
    let after := (plain policy).run (onePointer "4" "::ffff:1.2.3") (Sandbox.serving "4" [])
    after.1 = .ok ⟨"4", 0, 0, none⟩ ∧ after.2.server.zone? "4" = some ⟨"4.", 1, []⟩ := by
  decide +kernel

/-- A record set whose name is an address takes the desired one with it. -/
example :
    let literal : RRset := ⟨"2001:db8::1.", .named .ptr, 3600, [⟨"old.example.com.", false⟩], []⟩
    let name := "1.0.0.0.0.0.0.0.0.0.0.0.0.0.0.0.0.0.0.0.0.0.0.0.8.b.d.0.1.0.0.2.ip6.arpa."
    let desired : RRset := ⟨name, .named .ptr, 3600, [⟨"host.example.com.", false⟩], []⟩
    let row : Row := .plain "2001:db8::1" (.named .ptr) "host.example.com."
    let after := (plain ⟨true, false, [.named .ptr]⟩).run ⟨"ip6.arpa", [row], "operator", none⟩
      (Sandbox.serving "ip6.arpa" [literal, desired])
    after.1 = .ok ⟨"ip6.arpa", 1, 0, none⟩ ∧
      after.2.server.zone? "ip6.arpa" = some ⟨"ip6.arpa.", 2, [literal]⟩ := by
  decide +kernel

end Sandbox.Setup

end ZoneKeeper
