/-
What raises the serial of a zone.

An accepted patch raises the serial of its zone by one.  A refused patch, a created zone and a
patch that is told to fail leave every serial as it was, and no zone is ever taken away.  So the
serials that the accepted patches of a zone found, one after another, are the ones from the first
up to the one that the zone has in the end.

A zone that is created gets the serial 1.  `Nameserver.serial` has this serial for a zone that is
not there yet, and then creating it changes no serial.
-/
import ZoneKeeper.Proofs.Nameserver

namespace ZoneKeeper

namespace Nameserver

instance (zone other : String) : Decidable (SameZone zone other) :=
  inferInstanceAs (Decidable (_ = _))

/-- The serial of a zone, or the one that it gets when it is created. -/
def serial (server : Nameserver) (zone : String) : UInt32 :=
  match server.zone? zone with
  | some snapshot => snapshot.serial
  | none => 1

variable {server after : Nameserver} {zone other type : String} {snapshot : Snapshot}
  {changes : List Change} {result : Except ApiError Unit}

theorem serial_of_some (h : server.zone? zone = some snapshot) :
    server.serial zone = snapshot.serial := by
  rw [serial, h]

theorem serial_congr (h : after.zone? other = server.zone? zone) :
    after.serial other = server.serial zone := by
  rw [serial, serial, h]

theorem hasZone_congr (h : after.zone? other = server.zone? zone) :
    after.hasZone other = server.hasZone zone := by
  rw [hasZone, hasZone, h]

/-- Creating a zone changes no serial. -/
theorem serial_of_create (h : server.create zone type = (result, after)) (other : String) :
    after.serial other = server.serial other := by
  unfold create at h
  split at h
  · cases h
    rfl
  · next hfree =>
    cases h
    by_cases hsame : SameZone other zone
    · have hnone : server.zone? other = none := by
        rw [zone?_congr hsame]
        simpa [hasZone] using hfree
      have hnew : (server.insertZone zone 1 []).zone? other =
          some ⟨DomainName.absolute zone, 1, []⟩ := by
        rw [zone?_congr hsame]
        exact Table.lookup_put_self _ _ _
      exact (serial_of_some hnew).trans (by rw [serial, hnone])
    · exact serial_congr (Table.lookup_put_of_ne hsame _ _)

end Nameserver

/-! ### Serials that climb -/

/-- A patch that was accepted. -/
structure AcceptedPatch where
  zone : String
  /-- The serial that the patch found. -/
  serial : UInt32
deriving DecidableEq, Repr

namespace AcceptedPatch

/-- The serials that the patches of one zone found. -/
def serialsOn (zone : String) (accepted : List AcceptedPatch) : List UInt32 :=
  (accepted.filter fun patch => Nameserver.SameZone patch.zone zone).map AcceptedPatch.serial

variable {zone other : String} {serial : UInt32} {accepted more : List AcceptedPatch}

theorem serialsOn_congr (h : Nameserver.SameZone zone other) :
    serialsOn zone accepted = serialsOn other accepted := by
  have hfilter : (accepted.filter fun patch => Nameserver.SameZone patch.zone zone) =
      accepted.filter fun patch => Nameserver.SameZone patch.zone other :=
    List.filter_congr fun _ _ => decide_eq_decide.mpr
      ⟨fun hpatch => hpatch.trans h, fun hpatch => hpatch.trans h.symm⟩
  rw [serialsOn, serialsOn, hfilter]

theorem serialsOn_append : serialsOn zone (accepted ++ more) =
    serialsOn zone accepted ++ serialsOn zone more := by
  rw [serialsOn, List.filter_append, List.map_append]
  rfl

theorem serialsOn_singleton_same (h : Nameserver.SameZone other zone) :
    serialsOn zone [⟨other, serial⟩] = [serial] := by
  simp [serialsOn, h]

theorem serialsOn_singleton_other (h : ¬Nameserver.SameZone other zone) :
    serialsOn zone [⟨other, serial⟩] = [] := by
  simp [serialsOn, h]

theorem mem_of_mem_serialsOn (h : serial ∈ serialsOn zone accepted) :
    ∃ patch ∈ accepted, patch.serial = serial := by
  obtain ⟨patch, hpatch, rfl⟩ := List.mem_map.mp h
  exact ⟨patch, (List.mem_filter.mp hpatch).1, rfl⟩

end AcceptedPatch

/-- From one serial to another by steps of one, of which each finds the serial that the one before
left. -/
inductive Climbs : (start : UInt32) → (found : List UInt32) → (finish : UInt32) → Prop
  | refl (serial : UInt32) : Climbs serial [] serial
  | step {serial finish : UInt32} {found : List UInt32} (rest : Climbs (serial + 1) found finish) :
      Climbs serial (serial :: found) finish

namespace Climbs

theorem append {start middle finish : UInt32} {found more : List UInt32}
    (h₁ : Climbs start found middle) (h₂ : Climbs middle more finish) :
    Climbs start (found ++ more) finish := by
  induction h₁ with
  | refl => exact h₂
  | step _ ih => exact .step (ih h₂)

/-- As long as no serial is the last one that there is, they are consecutive numbers. -/
theorem consecutive {start finish : UInt32} {found : List UInt32} (h : Climbs start found finish)
    (hroom : ∀ serial ∈ found, serial.toNat + 1 < 2 ^ 32) :
    found.map UInt32.toNat = List.range' start.toNat found.length ∧
      finish.toNat = start.toNat + found.length := by
  induction h with
  | refl serial => exact ⟨rfl, rfl⟩
  | @step serial finish found _ ih =>
    have hstep : (serial + 1).toNat = serial.toNat + 1 := by
      rw [UInt32.toNat_add]
      exact Nat.mod_eq_of_lt (hroom serial List.mem_cons_self)
    obtain ⟨hfound, hfinish⟩ :=
      ih fun other hother => hroom other (List.mem_cons_of_mem serial hother)
    rw [hstep] at hfound hfinish
    refine ⟨by rw [List.map_cons, hfound, List.length_cons, List.range'_succ], ?_⟩
    rw [hfinish, List.length_cons]
    omega

end Climbs

namespace Nameserver

/-- From one nameserver to another these patches were accepted and raised the serials of their
zones, nothing else changed a serial, and no zone was taken away. -/
structure Climbed (server after : Nameserver) (accepted : List AcceptedPatch) : Prop where
  known : ∀ zone, server.hasZone zone = true → after.hasZone zone = true
  serials : ∀ zone,
    Climbs (server.serial zone) (AcceptedPatch.serialsOn zone accepted) (after.serial zone)

namespace Climbed

variable {server middle after : Nameserver} {zone type : String} {changes : List Change}
  {accepted more : List AcceptedPatch} {result : Except ApiError Unit}

theorem of_zones_eq (h : after.zones = server.zones) : Climbed server after [] := by
  have hsame : ∀ zone, after.zone? zone = server.zone? zone := fun zone => by rw [zone?, zone?, h]
  refine ⟨fun zone hzone => (hasZone_congr (hsame zone)).trans hzone, fun zone => ?_⟩
  rw [serial_congr (hsame zone)]
  exact .refl _

theorem refl (server : Nameserver) : Climbed server server [] :=
  of_zones_eq rfl

theorem trans (h₁ : Climbed server middle accepted) (h₂ : Climbed middle after more) :
    Climbed server after (accepted ++ more) where
  known zone hzone := h₂.known zone (h₁.known zone hzone)
  serials zone := by
    rw [AcceptedPatch.serialsOn_append]
    exact (h₁.serials zone).append (h₂.serials zone)

/-- A refused patch changes no serial. -/
theorem of_patch_error {e : ApiError} (h : server.patch zone changes = (.error e, after)) :
    Climbed server after [] :=
  of_zones_eq (untouched_of_patch_error h).zones

/-- **An accepted patch raises the serial of its zone by one.** -/
theorem of_patch_ok (h : server.patch zone changes = (.ok (), after)) :
    Climbed server after [⟨zone, server.serial zone⟩] where
  known other hother := by
    obtain ⟨snapshot, hsnapshot⟩ := Option.isSome_iff_exists.mp hother
    rcases zone?_of_patch h hsnapshot with hafter | hafter
    all_goals
      rw [hasZone, hafter]
      rfl
  serials other := by
    obtain ⟨before, hbefore, -⟩ := eq_of_patch_ok h
    have hmoved := moved_of_patch_ok hbefore h
    by_cases hsame : SameZone other zone
    · rw [AcceptedPatch.serialsOn_singleton_same hsame.symm, serial_congr (zone?_congr hsame),
        serial_congr (zone?_congr hsame), serial_of_some hbefore, serial_of_some hmoved.own]
      exact .step (.refl _)
    · rw [AcceptedPatch.serialsOn_singleton_other fun h => hsame h.symm,
        serial_congr (hmoved.others other hsame)]
      exact .refl _

/-- Creating a zone changes no serial. -/
theorem of_create (h : server.create zone type = (result, after)) : Climbed server after [] where
  known other hother := by
    obtain ⟨snapshot, hsnapshot⟩ := Option.isSome_iff_exists.mp hother
    rw [hasZone, zone?_of_create h hsnapshot]
    rfl
  serials other := by
    rw [serial_of_create h other]
    exact .refl _

end Climbed

end Nameserver

end ZoneKeeper
