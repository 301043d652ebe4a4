/-
A pass over reverse names provokes no refusal.

Where no failures are laid out, a nameserver refuses three things: a patch that names a record set
twice, a patch to a zone that does not exist, and the creation of one that does.  A pass asks for
none of them.  It creates a zone only where it found none, it patches zones that it found or
created, and it has at most one operation for each name of a zone.  What it remembers of earlier
answers stays true, since zones are only ever added, and the one that is added is remembered.

So a pass can fail over one thing only: a target whose address is none.
-/
import ZoneKeeper.Proofs.ReverseLabels
import ZoneKeeper.Proofs.ReverseProgress
import ZoneKeeper.Proofs.Strict

namespace ZoneKeeper

open ReverseName DomainName

/-! ### Sandboxes without failures -/

namespace Sandbox

/-- No failures are laid out, and the history takes every record. -/
structure Setup.Faultless (setup : Setup) : Prop where
  requests : setup.faults.requests = []
  store : ∀ record box, StateT.run (setup.store record) box =
    (.ok (), { box with history := box.history ++ [record] })

/-- The zone exists. -/
def Serves (box : Sandbox) (zone : String) : Prop :=
  box.server.hasZone zone = true

namespace Setup

variable {setup : Setup} {zone : String} {box : Sandbox}

theorem faultless_plain (policy : Policy) : (plain policy).Faultless :=
  ⟨rfl, fun _ _ => rfl⟩

theorem Faultless.fetchZone_run (h : setup.Faultless) (zone : String) (box : Sandbox) :
    StateT.run (setup.services.fetchZone zone) box = (box.server.fetch zone, box) := by
  change StateT.run (query setup.faults .fetch zone fun server => server.fetch zone) box = _
  unfold query
  rw [h.requests]
  rfl

theorem Faultless.zoneExists_run (h : setup.Faultless) (zone : String) (box : Sandbox) :
    StateT.run (setup.services.zoneExists zone) box = (.ok (box.server.hasZone zone), box) := by
  change StateT.run (query setup.faults .probe zone fun server => .ok (server.hasZone zone)) box = _
  unfold query
  rw [h.requests]
  rfl

theorem Faultless.patchRRsets_run (h : setup.Faultless) {changes : List Change}
    {result : Except ApiError Unit} {server : Nameserver}
    (hpatch : box.server.patch zone changes = (result, server)) :
    StateT.run (setup.services.patchRRsets zone changes) box =
      (result, { box with server }) := by
  change StateT.run (command setup.faults .patch zone fun server =>
    server.patch zone changes) box = _
  unfold command
  rw [h.requests]
  change ((box.server.patch zone changes).1,
    { box with server := (box.server.patch zone changes).2 }) = _
  rw [hpatch]

theorem Faultless.createZone_run (h : setup.Faultless) {type : String} {masters : List String}
    {result : Except ApiError Unit} {server : Nameserver}
    (hcreate : box.server.create zone type = (result, server)) :
    StateT.run (setup.services.createZone zone type masters) box =
      (result, { box with server }) := by
  change StateT.run (command setup.faults .create zone fun server =>
    server.create zone type) box = _
  unfold command
  rw [h.requests]
  change ((box.server.create zone type).1,
    { box with server := (box.server.create zone type).2 }) = _
  rw [hcreate]

end Setup

end Sandbox

namespace ReverseSync

/-! ### What is remembered -/

/-- No patch is told to fail, and what is remembered of reverse zones is so. -/
structure Ready (known : Locations) (box : Sandbox) : Prop where
  failing : box.server.failing = []
  keys : ∀ entry ∈ known, relative entry.1 = entry.1
  found : ∀ narrowest zone, known.lookup narrowest = some (some zone) → box.Serves zone
  missing : ∀ narrowest, known.lookup narrowest = some none → ¬box.Serves narrowest

variable {setup : Sandbox.Setup} {known : Locations} {box : Sandbox} {name zone narrowest : String}
  {found : Option String} {content : String}

theorem ready_nil (hfailing : box.server.failing = []) : Ready [] box :=
  ⟨hfailing, by simp, by simp, by simp⟩

theorem Ready.of_server_eq {after : Sandbox} (h : Ready known box)
    (hserver : after.server = box.server) : Ready known after := by
  refine ⟨by rw [hserver]; exact h.failing, h.keys, fun narrowest zone hlookup => ?_,
    fun narrowest hlookup => ?_⟩
  · rw [Sandbox.Serves, hserver]
    exact h.found narrowest zone hlookup
  · rw [Sandbox.Serves, hserver]
    exact h.missing narrowest hlookup

/-- What a search for the reverse zone of a name has found. -/
def Locates (box : Sandbox) (name : String) : Option String → Prop
  | some zone => box.Serves zone
  | none => ∀ narrowest ∈ (zoneCandidates name).head?, ¬box.Serves narrowest

theorem Ready.remember (h : Ready known box) (hkey : relative narrowest = narrowest)
    (hfound : ∀ zone ∈ found, box.Serves zone) (hmissing : found = none → ¬box.Serves narrowest) :
    Ready ((narrowest, found) :: known) box := by
  refine ⟨h.failing, List.forall_mem_cons.mpr ⟨hkey, h.keys⟩, fun other zone hlookup => ?_,
    fun other hlookup => ?_⟩
  all_goals
    rw [List.lookup_cons] at hlookup
    split at hlookup
  · exact hfound zone (Option.some.inj hlookup)
  · exact h.found other zone hlookup
  · next hsame =>
    rw [eq_of_beq hsame]
    exact hmissing (Option.some.inj hlookup)
  · exact h.missing other hlookup

/-- Every zone of the one sandbox is there in the other. -/
def Grown (box after : Sandbox) : Prop :=
  ∀ zone, box.Serves zone → after.Serves zone

theorem Grown.of_create {after : Sandbox} (hown : after.Serves narrowest)
    (hothers : ∀ other, ¬Nameserver.SameZone other narrowest →
      after.server.zone? other = box.server.zone? other) : Grown box after := by
  intro zone hzone
  by_cases hsame : Nameserver.SameZone zone narrowest
  · rw [Sandbox.Serves, Nameserver.hasZone, Nameserver.zone?_congr hsame]
    exact hown
  · rw [Sandbox.Serves, Nameserver.hasZone, hothers zone hsame]
    exact hzone

/-- A zone that was just created is remembered, and nothing else was missing under its name. -/
theorem Ready.create {after : Sandbox} (h : Ready known box) (hkey : relative narrowest = narrowest)
    (hfailing : after.server.failing = box.server.failing) (hown : after.Serves narrowest)
    (hothers : ∀ other, ¬Nameserver.SameZone other narrowest →
      after.server.zone? other = box.server.zone? other) :
    Ready ((narrowest, some narrowest) :: known) after := by
  refine ⟨hfailing.trans h.failing, List.forall_mem_cons.mpr ⟨hkey, h.keys⟩,
    fun other zone hlookup => ?_, fun other hlookup => ?_⟩
  all_goals
    rw [List.lookup_cons] at hlookup
    split at hlookup
  · obtain rfl : narrowest = zone := by simpa using hlookup
    exact hown
  · exact Grown.of_create hown hothers zone (h.found other zone hlookup)
  · simp at hlookup
  · next hne =>
    obtain ⟨front, rest, rfl, -⟩ := List.lookup_eq_some_iff.mp hlookup
    have hother : relative other = other := h.keys (other, none) (by simp)
    have hapart : ¬Nameserver.SameZone other narrowest := by
      intro hsame
      rw [Nameserver.SameZone, hother, hkey] at hsame
      simp [hsame] at hne
    rw [Sandbox.Serves, Nameserver.hasZone, hothers other hapart]
    exact h.missing other hlookup

/-! ### The steps of a strict pass

Those that do not fail end as they are said to whatever a failure would have to satisfy. -/

variable {E : String → Locations → Sandbox → Prop}

theorem strict_firstExisting (h : setup.Faultless) {E : ApiError → Locations → Sandbox → Prop}
    (zones : List String) (known : Locations) (box : Sandbox) :
    Ends known box (firstExisting setup.strictServices.toControlApi zones)
      (fun found known' box' => known' = known ∧ box' = box ∧
        found = zones.find? box.server.hasZone) E := by
  induction zones with
  | nil => exact ends_pure ⟨rfl, rfl, rfl⟩
  | cons zone zones ih =>
    refine ends_bind (ends_call (Sandbox.answers_permit fun answer after hrun => ?_))
    cases (h.zoneExists_run zone box).symm.trans hrun
    simp only [List.find?_cons]
    cases box.server.hasZone zone with
    | true => exact ends_pure ⟨rfl, rfl, rfl⟩
    | false => exact ih

/-- A search finds what is there, and a zone that it reports missing is. -/
theorem strict_locate (h : setup.Faultless) (hready : Ready known box)
    (hname : ofContent? content = some name) :
    Ends known box (locate setup.strictServices.toControlApi name)
      (fun found known' box' => box' = box ∧ Ready known' box ∧ Locates box name found) E := by
  obtain ⟨address, -, rfl⟩ := Option.map_eq_some_iff.mp hname
  refine ends_adapt ?_
  unfold findReverseZone Locates
  cases hcandidates : zoneCandidates (ofAddress address) with
  | nil => exact absurd hcandidates (zoneCandidates_ne_nil address)
  | cons narrowest wider =>
    have hkey : relative narrowest = narrowest :=
      relative_of_mem_zoneCandidates (hcandidates ▸ List.mem_cons_self)
    refine ends_bind (ends_get ?_)
    cases hlookup : known.lookup narrowest with
    | some found =>
      refine ends_pure ⟨rfl, hready, ?_⟩
      cases found with
      | some zone => exact hready.found narrowest zone hlookup
      | none =>
        rintro other ⟨⟩
        exact hready.missing narrowest hlookup
    | none =>
      refine (strict_firstExisting h (narrowest :: wider) known box).bind ?_
      rintro _ known box ⟨rfl, rfl, rfl⟩
      have hfound : ∀ zone ∈ (narrowest :: wider).find? box.server.hasZone, box.Serves zone :=
        fun zone hzone => List.find?_some hzone
      have hmissing : (narrowest :: wider).find? box.server.hasZone = none →
          ¬box.Serves narrowest := fun hnone =>
        List.find?_eq_none.mp hnone narrowest List.mem_cons_self
      refine ends_bind (ends_remember (ends_pure ⟨rfl, hready.remember hkey hfound hmissing, ?_⟩))
      cases hfind : (narrowest :: wider).find? box.server.hasZone with
      | some zone => exact hfound zone hfind
      | none =>
        rintro other ⟨⟩
        exact hmissing hfind

/-- A zone that is missing is created. -/
theorem strict_createNarrowest (h : setup.Faultless) (hready : Ready known box)
    (hname : ofContent? content = some name) (hmissing : Locates box name none) :
    Ends known box (createNarrowest setup.strictServices setup.reverseZones name)
      (fun zone known' box' => Grown box box' ∧ Ready known' box' ∧ box'.Serves zone) E := by
  obtain ⟨address, -, rfl⟩ := Option.map_eq_some_iff.mp hname
  unfold createNarrowest
  cases hcandidates : zoneCandidates (ofAddress address) with
  | nil => exact absurd hcandidates (zoneCandidates_ne_nil address)
  | cons narrowest wider =>
    have hkey : relative narrowest = narrowest :=
      relative_of_mem_zoneCandidates (hcandidates ▸ List.mem_cons_self)
    have hfree : box.server.hasZone narrowest = false :=
      Bool.eq_false_iff.mpr (hmissing narrowest (by rw [hcandidates]; rfl))
    obtain ⟨server, hcreate, hfailing, hown, hothers⟩ :=
      Nameserver.create_of_free hfree setup.reverseZones.kind
    have hrun : StateT.run (setup.services.createZone narrowest setup.reverseZones.kind
        setup.reverseZones.masters) box = (.ok (), { box with server }) :=
      h.createZone_run hcreate
    have hcreated : Ready ((narrowest, some narrowest) :: known) { box with server } :=
      hready.create hkey hfailing hown hothers
    refine ends_bind (ends_adapt (ends_call (Sandbox.answers_insist hrun ?_)))
    refine ends_bind (ends_liftM (Sandbox.answers_permit fun _ counted hcount => ?_))
    cases hcount
    exact ends_bind (ends_remember (ends_pure
      ⟨.of_create hown hothers, hcreated.of_server_eq rfl, hown⟩))

/-- A target without an address is what a step fails over. -/
theorem ofContent?_of_reverseName_error {target : PtrTarget} {e : String}
    (h : reverseName target = .error e) : ofContent? target.address = none := by
  unfold reverseName at h
  split at h
  · cases h
  · next hnone => exact hnone

theorem strict_add (h : setup.Faultless) (hready : Ready known box) (progress : PtrProgress)
    (target : PtrTarget) :
    Ends known box (add setup.strictServices setup.reverseZones progress target)
      (fun after known' box' => Grown box box' ∧ Ready known' box' ∧
        target.Added box'.Serves progress after)
      fun _ _ _ => ofContent? target.address = none := by
  unfold add
  refine ends_bind (ends_ofResult (fun name hresult => ?_)
    fun _ => ofContent?_of_reverseName_error)
  have hname := reverseName_eq_ok.mp hresult
  cases hwrites : progress.writes name with
  | true => exact ends_pure ⟨fun _ => id, hready, .kept hname hwrites⟩
  | false =>
    refine (strict_locate h hready hname).bind ?_
    rintro found known box ⟨rfl, hready, hlocates⟩
    cases found with
    | some zone => exact ends_pure ⟨fun _ => id, hready, .placed hname hwrites hlocates⟩
    | none =>
      refine (strict_createNarrowest h hready hname hlocates).bind ?_
      rintro zone known' box' ⟨hgrown, hready, hserves⟩
      exact ends_pure ⟨hgrown, hready, .placed hname hwrites hserves⟩

theorem strict_remove (h : setup.Faultless) (hready : Ready known box) (progress : PtrProgress)
    (target : PtrTarget) :
    Ends known box (remove setup.strictServices progress target)
      (fun after known' box' => Grown box box' ∧ Ready known' box' ∧
        target.Removed box'.Serves progress after)
      fun _ _ _ => ofContent? target.address = none := by
  unfold remove
  refine ends_bind (ends_ofResult (fun name hresult => ?_)
    fun _ => ofContent?_of_reverseName_error)
  have hname := reverseName_eq_ok.mp hresult
  cases hwrites : progress.writes name with
  | true => exact ends_pure ⟨fun _ => id, hready, .kept hname⟩
  | false =>
    refine (strict_locate h hready hname).bind ?_
    rintro found known box ⟨rfl, hready, hlocates⟩
    cases found with
    | none => exact ends_pure ⟨fun _ => id, hready, .kept hname⟩
    | some zone =>
      cases htouches : progress.touches zone name with
      | true =>
        simp only [htouches, if_true]
        exact ends_pure ⟨fun _ => id, hready, .kept hname⟩
      | false =>
        simp only [htouches, Bool.false_eq_true, if_false]
        exact ends_pure ⟨fun _ => id, hready, .dropped hname hwrites htouches hlocates⟩

/-- A batch can be sent: its zone exists, and it names no record set twice. -/
def Sendable (box : Sandbox) (batch : String × List Change) : Prop :=
  box.Serves batch.1 ∧ (batch.2.map Change.key).Nodup

theorem strict_send (h : setup.Faultless) (hfailing : box.server.failing = [])
    {batches : List (String × List Change)} (hbatches : ∀ batch ∈ batches, Sendable box batch)
    (known : Locations) :
    Ends known box (send setup.strictServices batches) (fun _ _ _ => True) E := by
  induction batches generalizing known box with
  | nil => exact ends_pure trivial
  | cons batch rest ih =>
    obtain ⟨zone, changes⟩ := batch
    obtain ⟨hserves, hnodup⟩ := hbatches (zone, changes) List.mem_cons_self
    obtain ⟨snapshot, hzone⟩ := Option.isSome_iff_exists.mp hserves
    have hpatch := Nameserver.patch_of_nodup hfailing hzone hnodup
    refine ends_bind (ends_adapt (ends_call (Sandbox.answers_insist (h.patchRRsets_run hpatch) ?_)))
    refine ih ?_ (fun other hother => ?_) known
    · exact hfailing
    obtain ⟨hother, hdistinct⟩ := hbatches other (List.mem_cons_of_mem _ hother)
    obtain ⟨held, hheld⟩ := Option.isSome_iff_exists.mp hother
    refine ⟨?_, hdistinct⟩
    rcases Nameserver.zone?_of_patch hpatch hheld with hkept | hpatched
    · exact Option.isSome_iff_exists.mpr ⟨_, hkept⟩
    · exact Option.isSome_iff_exists.mpr ⟨_, hpatched⟩

section Pass

variable {changes : PtrChanges}

/-- Some target has no address. -/
def Unreadable (changes : PtrChanges) : Prop :=
  ∃ target ∈ changes.additions ++ changes.removals, ofContent? target.address = none

theorem strict_additions (h : setup.Faultless) (hready : Ready known box) :
    Ends known box
      (changes.additions.foldlM (add setup.strictServices setup.reverseZones) ⟨[], []⟩)
      (fun progress known' box' => Ready known' box' ∧
        progress.Adding box'.Serves changes.additions)
      fun _ _ _ => Unreadable changes := by
  refine ends_foldlM (Q := fun done progress known box => Ready known box ∧
    PtrProgress.Adding box.Serves done progress) ?_ [] ⟨[], []⟩ known box
    ⟨hready, PtrProgress.adding_nil⟩
  rintro target htarget done progress known box ⟨hready, hadding⟩
  refine (strict_add h hready progress target).mono ?_
    fun _ _ _ hnone => ⟨target, List.mem_append_left _ htarget, hnone⟩
  rintro after known' box' ⟨hgrown, hready, hadded⟩
  exact ⟨hready, (hadding.mono hgrown).step hadded⟩

theorem strict_removals (h : setup.Faultless) (hready : Ready known box) {progress : PtrProgress}
    (hadding : progress.Adding box.Serves changes.additions) :
    Ends known box (changes.removals.foldlM (remove setup.strictServices) progress)
      (fun progress known' box' => Ready known' box' ∧ progress.Removing box'.Serves changes)
      fun _ _ _ => Unreadable changes := by
  refine ends_foldlM (Q := fun done progress known box => Ready known box ∧
    PtrProgress.Removing box.Serves ⟨changes.additions, done⟩ progress) ?_ [] progress known box
    ⟨hready, hadding.removing⟩
  rintro target htarget done progress known box ⟨hready, hremoving⟩
  refine (strict_remove h hready progress target).mono ?_
    fun _ _ _ hnone => ⟨target, List.mem_append_right _ htarget, hnone⟩
  rintro after known' box' ⟨hgrown, hready, hremoved⟩
  exact ⟨hready, (hremoving.mono hgrown).step hremoved⟩

/-- **No change of a pass is refused,** and it fails only over a target that has no address. -/
theorem strict_pass (h : setup.Faultless) (hfailing : box.server.failing = [])
    (changes : PtrChanges) :
    Ends [] box (pass setup.strictServices setup.reverseZones changes)
      (fun _ _ _ => ∀ target ∈ changes.additions ++ changes.removals,
        ∃ name, ofContent? target.address = some name)
      fun _ _ _ => Unreadable changes := by
  refine (strict_additions h (ready_nil hfailing)).bind ?_
  rintro progress known box ⟨hready, hadding⟩
  refine (strict_removals h hready hadding).bind ?_
  rintro progress known box ⟨hready, hremoving⟩
  have hsendable : ∀ batch ∈ progress.batches, Sendable box batch := by
    intro batch hbatch
    obtain ⟨op, hop, hzone⟩ := PtrProgress.exists_zone_of_mem_batches hbatch
    exact ⟨hzone ▸ hremoving.hosted op hop,
      PtrProgress.nodup_keys_of_mem_batches hremoving.sites hbatch⟩
  refine (strict_send h hready.failing hsendable known).bind fun _ known box _ => ?_
  refine ends_bind (ends_liftM (Sandbox.answers_permit fun _ box _ => ?_))
  refine ends_bind (ends_liftM (Sandbox.answers_permit fun _ box _ => ?_))
  refine ends_pure (List.forall_mem_append.mpr ⟨fun target htarget => ?_, hremoving.readable⟩)
  obtain ⟨name, hname, -⟩ := hremoving.written target htarget
  exact ⟨name, hname⟩

/-- Without failures a pass over targets with addresses succeeds, and any other fails. -/
theorem runPass_of_faultless (h : setup.Faultless) (hfailing : box.server.failing = [])
    (changes : PtrChanges) :
    ∃ result known after,
      runPass (pass setup.services setup.reverseZones changes) [] box = (result, known, after) ∧
      match result with
      | .ok _ => ∀ target ∈ changes.additions ++ changes.removals,
          ∃ name, ofContent? target.address = some name
      | .error _ => Unreadable changes := by
  obtain ⟨result, known, after, hrun, hend⟩ :=
    (strict_pass h hfailing changes).runPass_of_strict (setup.heeds.pass setup.reverseZones changes)
  refine ⟨result, known, after, hrun, ?_⟩
  cases result <;> exact hend

end Pass

end ReverseSync

end ZoneKeeper
