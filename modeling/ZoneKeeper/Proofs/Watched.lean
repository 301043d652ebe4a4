/-
Runs whose accepted patches are noted.

A nameserver remembers which patches it was asked for and not what it answered.  The watched
services of a sandbox answer like the plain ones and leave the same sandbox, and note every patch
that is accepted, with the serial that it found.

`Mirrors` says that of one action, and that the patches it notes are what raises the serials.  It
goes from single actions to sequences, so what holds of the services holds of a whole run.
-/
import ZoneKeeper.Proofs.Lockstep
import ZoneKeeper.Proofs.Sandbox
import ZoneKeeper.Proofs.Serials

namespace ZoneKeeper

/-- A sandbox, and the patches that were accepted since it is watched. -/
structure Watched where
  box : Sandbox
  accepted : List AcceptedPatch

/-! ### Actions that mirror others -/

section Mirrors

variable {α β : Type}

/-- The watched action answers like the plain one and leaves the same sandbox, and the patches that
it notes raise the serials. -/
def Mirrors (x : StateM Watched α) (y : StateM Sandbox α) : Prop :=
  ∀ w : Watched, ∃ a after more, StateT.run y w.box = (a, after) ∧
    StateT.run x w = (a, ⟨after, w.accepted ++ more⟩) ∧ w.box.server.Climbed after.server more

/-- What the plain action does, the watched one does. -/
theorem Mirrors.run {x : StateM Watched α} {y : StateM Sandbox α} (h : Mirrors x y) (w : Watched)
    {a : α} {after : Sandbox} (hy : StateT.run y w.box = (a, after)) :
    ∃ more, StateT.run x w = (a, ⟨after, w.accepted ++ more⟩) ∧
      w.box.server.Climbed after.server more := by
  obtain ⟨b, left, more, hplain, hwatched, hclimbed⟩ := h w
  obtain ⟨rfl, rfl⟩ := Prod.mk.inj (hplain.symm.trans hy)
  exact ⟨more, hwatched, hclimbed⟩

/-- Nothing that was noted is forgotten. -/
theorem Mirrors.keeps_accepted {x : StateM Watched α} {y : StateM Sandbox α} (h : Mirrors x y)
    {w w' : Watched} {a : α} (hx : StateT.run x w = (a, w')) : w.accepted <+: w'.accepted := by
  obtain ⟨b, left, more, -, hwatched, -⟩ := h w
  obtain ⟨-, rfl⟩ := Prod.mk.inj (hx.symm.trans hwatched)
  exact List.prefix_append _ _

theorem mirrors_pure (a : α) : Mirrors (pure a) (pure a) := fun w =>
  ⟨a, w.box, [], rfl, by rw [List.append_nil]; rfl, .refl _⟩

theorem mirrors_bind {x : StateM Watched α} {y : StateM Sandbox α} {f : α → StateM Watched β}
    {g : α → StateM Sandbox β} (hx : Mirrors x y) (hf : ∀ a, Mirrors (f a) (g a)) :
    Mirrors (x >>= f) (y >>= g) := by
  intro w
  obtain ⟨a, middle, first, hplain, hwatched, hfirst⟩ := hx w
  obtain ⟨b, after, second, hplain', hwatched', hsecond⟩ := hf a ⟨middle, w.accepted ++ first⟩
  refine ⟨b, after, first ++ second, ?_, ?_, hfirst.trans hsecond⟩
  · rw [stateM_run_bind, hplain]
    exact hplain'
  · rw [stateM_run_bind, hwatched, ← List.append_assoc]
    exact hwatched'

/-- What mirrors action by action mirrors as a whole. -/
def mirroring : Lockstep (StateM Watched) (StateM Sandbox) where
  Rel := Mirrors
  rel_pure := mirrors_pure
  rel_bind := mirrors_bind

end Mirrors

/-! ### Watched services of a sandbox -/

section Notes

variable {α : Type} {y : StateM Sandbox α}

/-- The action, with nothing noted. -/
def unnoted (y : StateM Sandbox α) : StateM Watched α := fun w =>
  ((StateT.run y w.box).1, ⟨(StateT.run y w.box).2, w.accepted⟩)

/-- A request for a patch of the zone, which is noted if it is accepted. -/
def noted (zone : String) (y : StateM Sandbox (Except ApiError Unit)) :
    StateM Watched (Except ApiError Unit) := fun w =>
  match StateT.run y w.box with
  | (.ok _, after) => (.ok (), ⟨after, w.accepted ++ [⟨zone, w.box.server.serial zone⟩]⟩)
  | (.error e, after) => (.error e, ⟨after, w.accepted⟩)

theorem noted_run (zone : String) (y : StateM Sandbox (Except ApiError Unit)) (w : Watched) :
    StateT.run (noted zone y) w = match StateT.run y w.box with
      | (.ok _, after) => (.ok (), ⟨after, w.accepted ++ [⟨zone, w.box.server.serial zone⟩]⟩)
      | (.error e, after) => (.error e, ⟨after, w.accepted⟩) :=
  rfl

/-- A patch that is accepted is noted. -/
theorem accepted_of_noted {zone : String} {y : StateM Sandbox (Except ApiError Unit)}
    {w w' : Watched} (h : StateT.run (noted zone y) w = (.ok (), w')) :
    w'.accepted = w.accepted ++ [⟨zone, w.box.server.serial zone⟩] := by
  rw [noted_run] at h
  rcases hy : StateT.run y w.box with ⟨result, after⟩
  rw [hy] at h
  cases result with
  | ok _ =>
    cases h
    rfl
  | error e => cases h

theorem mirrors_unnoted (h : ∀ (box : Sandbox) a after, StateT.run y box = (a, after) →
    box.server.Climbed after.server []) : Mirrors (unnoted y) y := fun w =>
  ⟨_, _, [], rfl, by rw [List.append_nil]; rfl, h w.box _ _ rfl⟩

end Notes

namespace Sandbox

/-- The setup of a client, whose history is kept apart from the nameserver. -/
structure Client extends Setup where
  apart : ∀ record box, (StateT.run (store record) box).2.server = box.server

namespace Client

/-- The services of the client, with accepted patches noted. -/
def watchedServices (client : Client) : Services (StateM Watched) where
  fetchZone zone := unnoted (client.services.fetchZone zone)
  patchRRsets zone changes := noted zone (client.services.patchRRsets zone changes)
  zoneExists name := unnoted (client.services.zoneExists name)
  createZone name kind masters := unnoted (client.services.createZone name kind masters)
  persist record := unnoted (client.services.persist record)
  now := unnoted client.services.now
  clock := unnoted client.services.clock
  count series n := unnoted (client.services.count series n)
  observe outcome duration := unnoted (client.services.observe outcome duration)

/-- What applies desired records for the client, with accepted patches noted. -/
def watchedApplier (client : Client) : Applier (StateM Watched) :=
  ⟨client.watchedServices, client.policyFor, client.reverseZones⟩

variable {client : Client}

theorem mirrors_patchRRsets (zone : String) (changes : List Change) :
    Mirrors (client.watchedServices.patchRRsets zone changes)
      (client.services.patchRRsets zone changes) := by
  intro w
  have hnoted : StateT.run (client.watchedServices.patchRRsets zone changes) w = _ :=
    noted_run zone (client.services.patchRRsets zone changes) w
  rcases hpatch : StateT.run (client.services.patchRRsets zone changes) w.box with ⟨result, after⟩
  rw [hpatch] at hnoted
  cases result with
  | ok _ =>
    refine ⟨_, after, _, rfl, hnoted, ?_⟩
    rcases Setup.patchRRsets_run hpatch with ⟨-, e, hrefused⟩ | ⟨server, hserver, rfl⟩
    · cases hrefused
    · exact .of_patch_ok hserver
  | error e =>
    refine ⟨_, after, [], rfl, by rw [hnoted, List.append_nil], ?_⟩
    rcases Setup.patchRRsets_run hpatch with ⟨rfl, -⟩ | ⟨server, hserver, rfl⟩
    · exact .refl _
    · exact .of_patch_error hserver

theorem mirrors_createZone (name kind : String) (masters : List String) :
    Mirrors (client.watchedServices.createZone name kind masters)
      (client.services.createZone name kind masters) := by
  refine mirrors_unnoted fun box result after hrun => ?_
  rcases Setup.createZone_run hrun with ⟨rfl, -⟩ | ⟨server, hserver, rfl⟩
  · exact .refl _
  · exact .of_create hserver

/-- The watched services do what the plain ones do. -/
theorem mirrored (client : Client) :
    client.watchedServices.InStep mirroring client.services where
  fetchZone zone := mirrors_unnoted fun box result after hrun => by
    rw [(Setup.fetchZone_run hrun).1]
    exact .refl _
  patchRRsets := mirrors_patchRRsets
  zoneExists name := mirrors_unnoted fun box result after hrun => by
    rw [(Setup.zoneExists_run hrun).1]
    exact .refl _
  createZone := mirrors_createZone
  persist record := mirrors_unnoted fun box result after hrun => by
    obtain rfl : (StateT.run (client.store record) box).2 = after := congrArg Prod.snd hrun
    exact .of_zones_eq (congrArg Nameserver.zones (client.apart record box))
  now := mirrors_unnoted (by rintro box _ _ ⟨⟩; exact .refl _)
  clock := mirrors_unnoted (by rintro box _ _ ⟨⟩; exact .refl _)
  count _ _ := mirrors_unnoted (by rintro box _ _ ⟨⟩; exact .refl _)
  observe _ _ := mirrors_unnoted (by rintro box _ _ ⟨⟩; exact .refl _)

end Client

end Sandbox

end ZoneKeeper
