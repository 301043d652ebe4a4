/-
What no run changes.

The start of authority of a zone is kept from runs in three places: rows for it are passed over,
no policy lets it be deleted, and a pass over reverse names is about pointers only.  So no request
of a run names it, and the record sets that hold it are the same after any number of runs, whatever
is submitted and whatever fails.  Record sets are taken out before others are put in under their
key, so keys that are distinct stay so, and no request takes a zone away.
-/
import ZoneKeeper.Proofs.EditPolicy
import ZoneKeeper.Proofs.Frame
import ZoneKeeper.Proofs.SerialGuard

namespace ZoneKeeper

open ReverseName

namespace Nameserver

/-- The request names no start of authority. -/
def Request.SparesAuthority (request : Request) : Prop :=
  ∀ change ∈ request.changes, change.key.type ≠ .named .soa

/-- The record sets that hold the start of authority of a zone. -/
def authorityOf (server : Nameserver) (zone : String) : List RRset :=
  (server.rrsetsOf zone).filter (·.type = .named .soa)

/-- What runs preserve of a nameserver. -/
structure Preserved (start after : Nameserver) : Prop where
  /-- No zone is taken away. -/
  known : ∀ zone, start.hasZone zone = true → after.hasZone zone = true
  /-- The start of authority of a zone is as it was. -/
  authority : ∀ zone, start.hasZone zone = true → after.authorityOf zone = start.authorityOf zone
  /-- A zone that was created has none. -/
  created : ∀ zone, start.hasZone zone = false → after.authorityOf zone = []
  /-- Keys that are distinct stay so. -/
  distinct : ∀ zone, ((start.rrsetsOf zone).map RRset.key).Nodup →
    ((after.rrsetsOf zone).map RRset.key).Nodup

variable {start middle after : Nameserver} {zone : String}

theorem authorityOf_of_new (h : start.hasZone zone = false) : start.authorityOf zone = [] := by
  have hnone : start.zone? zone = none := by simpa [hasZone] using h
  rw [authorityOf, rrsetsOf, hnone]
  rfl

theorem Preserved.authority_eq (h : Preserved start after) (zone : String) :
    after.authorityOf zone = start.authorityOf zone := by
  cases hzone : start.hasZone zone with
  | true => exact h.authority zone hzone
  | false => rw [h.created zone hzone, authorityOf_of_new hzone]

theorem preserved_of_authority_eq
    (hknown : ∀ zone, start.hasZone zone = true → after.hasZone zone = true)
    (hauthority : ∀ zone, after.authorityOf zone = start.authorityOf zone)
    (hdistinct : ∀ zone, ((start.rrsetsOf zone).map RRset.key).Nodup →
      ((after.rrsetsOf zone).map RRset.key).Nodup) : Preserved start after :=
  ⟨hknown, fun zone _ => hauthority zone,
    fun zone hnew => (hauthority zone).trans (authorityOf_of_new hnew), hdistinct⟩

theorem Preserved.of_zones_eq (h : after.zones = start.zones) : Preserved start after := by
  have hzone : ∀ zone, after.zone? zone = start.zone? zone := fun zone => by
    rw [Nameserver.zone?, Nameserver.zone?, h]
  have hrrsets : ∀ zone, after.rrsetsOf zone = start.rrsetsOf zone := fun zone => by
    rw [rrsetsOf, rrsetsOf, hzone]
  refine preserved_of_authority_eq (fun zone => ?_) (fun zone => ?_) fun zone => ?_
  · rw [hasZone, hasZone, hzone]
    exact id
  · rw [authorityOf, authorityOf, hrrsets]
  · rw [hrrsets]
    exact id

theorem Preserved.trans (h₁ : Preserved start middle) (h₂ : Preserved middle after) :
    Preserved start after :=
  preserved_of_authority_eq (fun zone hzone => h₂.known zone (h₁.known zone hzone))
    (fun zone => (h₂.authority_eq zone).trans (h₁.authority_eq zone))
    fun zone hnodup => h₂.distinct zone (h₁.distinct zone hnodup)

/-- **Requests that name no start of authority preserve it,** and any requests preserve zones and
the distinctness of keys. -/
theorem Preserved.of_served (h : start.Served Request.SparesAuthority after) :
    Preserved start after :=
  preserved_of_authority_eq (fun _ hzone => h.hasZone hzone)
    (fun _ => h.filter_rrsetsOf (p := fun key => key.type = .named .soa)
      fun _ hrequest _ change hchange => decide_eq_false (hrequest change hchange))
    fun _ hnodup => h.nodup_rrsetsOf hnodup

end Nameserver

/-! ### One run -/

/-- A pass is about pointers. -/
theorem PtrChanges.Requests.sparesAuthority {zones : String → Prop} {changes : PtrChanges}
    {request : Nameserver.Request} (h : changes.Requests zones request) :
    request.SparesAuthority := by
  intro change hchange
  cases h with
  | create => cases hchange
  | patch _ _ hallowed _ =>
    rw [(hallowed change hchange).type]
    decide

namespace Sandbox

/-- Batches keep to what the policy lets go and to the rows that are not passed over. -/
theorem Setup.OwnRequest.sparesAuthority {setup : Setup} {request : ApplyRequest} {box : Sandbox}
    {asked : Nameserver.Request} (h : setup.OwnRequest request box asked) :
    asked.SparesAuthority := by
  intro change hchange
  cases h with
  | deletions hprepares =>
    obtain ⟨desired, hdesired, rfl⟩ := hprepares.eq_between
    obtain ⟨key, hkey, rfl⟩ := List.mem_map.mp hchange
    exact ((Reconciliation.permitted_between hdesired).deletes key hkey).2
  | replacements hprepares =>
    obtain ⟨desired, hdesired, rfl⟩ := hprepares.eq_between
    obtain ⟨w, hw, rfl⟩ := List.mem_map.mp hchange
    exact ((Reconciliation.permitted_between hdesired).replaces w hw).1

/-- No request of a run names a start of authority. -/
theorem Client.run_sparesAuthority (client : Client) (request : ApplyRequest) (box : Sandbox) :
    box.server.Served Nameserver.Request.SparesAuthority (client.run request box).2.server := by
  cases client.run_asked request box with
  | stopped _ hown => exact hown.mono fun _ h => h.sparesAuthority
  | reversed _ _ hown hpass =>
    exact (hown.mono fun _ h => h.sparesAuthority).trans (hpass.mono fun _ h => h.sparesAuthority)

/-! ### Runs one after another -/

/-- A run of a client, and the numbers of patches that are to fail from then on. -/
structure Visit where
  client : Client
  request : ApplyRequest
  failing : List Nat

namespace Visit

/-- The sandbox after a visit. -/
def leave (visit : Visit) (box : Sandbox) : Sandbox :=
  (visit.client.run visit.request
    { box with server := visit.failing.foldl Nameserver.failPatch box.server }).2

/-- The sandbox after visits, one after another. -/
def leaveAll (visits : List Visit) (box : Sandbox) : Sandbox :=
  visits.foldl (fun box visit => visit.leave box) box

theorem zones_foldl_failPatch (numbers : List Nat) (server : Nameserver) :
    (numbers.foldl Nameserver.failPatch server).zones = server.zones := by
  induction numbers generalizing server with
  | nil => rfl
  | cons number numbers ih => exact ih (server.failPatch number)

theorem preserved_leave (visit : Visit) (box : Sandbox) :
    box.server.Preserved (visit.leave box).server := by
  have hwarned := Nameserver.Preserved.of_zones_eq (zones_foldl_failPatch visit.failing box.server)
  have hserved := visit.client.run_sparesAuthority visit.request
    { box with server := visit.failing.foldl Nameserver.failPatch box.server }
  exact hwarned.trans (.of_served hserved)

/-- **Runs never change the start of authority of a zone, and they keep keys distinct.** -/
theorem preserved_leaveAll (visits : List Visit) (box : Sandbox) :
    box.server.Preserved (leaveAll visits box).server := by
  induction visits generalizing box with
  | nil => exact .of_zones_eq rfl
  | cons visit visits ih => exact (visit.preserved_leave box).trans (ih (visit.leave box))

end Visit

end Sandbox

end ZoneKeeper
