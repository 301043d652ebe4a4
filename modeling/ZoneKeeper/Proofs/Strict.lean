/-
Runs that a refusal breaks off.

A request that the nameserver refuses is a failure, and a run goes on from it like from any other
value.  The strict services of a sandbox are the same but for one thing: a patch that is refused,
and a zone that is not created, have no answer at all, and the run that asked for it has no
result.  So where a strict run has the result of the ordinary run, nothing was refused.

Whatever a strict action answers the ordinary one answers too (`Heeds`), and this goes from the
services to whole runs.  So all that is left to show of a run is that the strict one has a result.
-/
import ZoneKeeper.Proofs.Lockstep
import ZoneKeeper.Proofs.ReversePass

namespace ZoneKeeper

namespace Sandbox

/-! ### Strict services -/

section Actions

variable {ε α : Type}

/-- The action as it is. -/
def permit (action : StateM Sandbox α) : StateT Sandbox Option α :=
  fun box => some (StateT.run action box)

/-- The action, with no result if it is refused. -/
def insist (action : StateM Sandbox (Except ε α)) : StateT Sandbox Option (Except ε α) :=
  fun box => match StateT.run action box with
    | (.ok a, after) => some (.ok a, after)
    | (.error _, _) => none

end Actions

namespace Setup

/-- The services of the setup, with no answer to a change that is refused. -/
def strictServices (setup : Setup) : Services (StateT Sandbox Option) where
  fetchZone zone := permit (setup.services.fetchZone zone)
  patchRRsets zone changes := insist (setup.services.patchRRsets zone changes)
  zoneExists zone := permit (setup.services.zoneExists zone)
  createZone zone kind masters := insist (setup.services.createZone zone kind masters)
  persist record := permit (setup.services.persist record)
  now := permit setup.services.now
  clock := permit setup.services.clock
  count series n := permit (setup.services.count series n)
  observe outcome duration := permit (setup.services.observe outcome duration)

/-- What applies desired records and puts up with no refusal. -/
def strictApplier (setup : Setup) : Applier (StateT Sandbox Option) :=
  ⟨setup.strictServices, setup.policyFor, setup.reverseZones⟩

/-- One run of a request, unless a change is refused. -/
@[irreducible]
def strictRun (setup : Setup) (request : ApplyRequest) (box : Sandbox) :
    Option (Except SyncError ApplySummary × Sandbox) :=
  StateT.run (setup.strictApplier.apply request) box

end Setup

/-! ### Strict actions do what the ordinary ones do -/

section Heeds

variable {ε α β : Type} {box after : Sandbox} {P : α → Sandbox → Prop}

/-- If the strict action has a result, it is that of the ordinary one. -/
def Heeds (y : StateT Sandbox Option α) (x : StateM Sandbox α) : Prop :=
  ∀ box out, StateT.run y box = some out → StateT.run x box = out

theorem heeds_permit (x : StateM Sandbox α) : Heeds (permit x) x := fun _ _ hrun =>
  Option.some.inj hrun

theorem insist_run (x : StateM Sandbox (Except ε α)) (box : Sandbox) :
    StateT.run (insist x) box = match StateT.run x box with
      | (.ok a, after) => some (.ok a, after)
      | (.error _, _) => none :=
  rfl

theorem heeds_insist (x : StateM Sandbox (Except ε α)) : Heeds (insist x) x := by
  intro box out hrun
  rw [insist_run] at hrun
  rcases hplain : StateT.run x box with ⟨_ | a, after⟩
  · rw [hplain] at hrun
    cases hrun
  · rw [hplain] at hrun
    exact Option.some.inj hrun

/-- What is so action by action is so as a whole. -/
def heeding : Lockstep (StateT Sandbox Option) (StateM Sandbox) where
  Rel := Heeds
  rel_pure a := heeds_permit (pure a)
  rel_bind {α β x y f g} hx hf := by
    intro box out hrun
    have hbind : StateT.run (x >>= f) box =
        (StateT.run x box).bind fun out => StateT.run (f out.1) out.2 := rfl
    rw [hbind] at hrun
    obtain ⟨middle, hfirst, hrest⟩ := Option.bind_eq_some_iff.mp hrun
    rw [stateM_run_bind, hx box middle hfirst]
    exact hf middle.1 middle.2 out hrest

/-- A strict action that answers tells what the ordinary one does. -/
theorem Heeds.answers {y : StateT Sandbox Option α} {x : StateM Sandbox α} (h : Heeds y x)
    (hy : Answers y box P) :
    Answers y box fun a after => StateT.run x box = (a, after) ∧ P a after := by
  obtain ⟨a, after, hrun, ha⟩ := hy
  exact ⟨a, after, hrun, h box (a, after) hrun, ha⟩

theorem answers_permit {x : StateM Sandbox α}
    (h : ∀ a after, StateT.run x box = (a, after) → P a after) : Answers (permit x) box P :=
  ⟨_, _, rfl, h _ _ rfl⟩

/-- An action that succeeds is not refused. -/
theorem answers_insist {x : StateM Sandbox (Except ε α)} {a : α}
    {P : Except ε α → Sandbox → Prop} (hrun : StateT.run x box = (.ok a, after))
    (h : P (.ok a) after) : Answers (insist x) box P := by
  refine ⟨.ok a, after, ?_, h⟩
  rw [insist_run, hrun]
  rfl

end Heeds

/-- The strict services do what the ordinary ones do. -/
theorem Setup.heeds (setup : Setup) : setup.strictServices.InStep heeding setup.services where
  fetchZone _ := heeds_permit _
  patchRRsets _ _ := heeds_insist _
  zoneExists _ := heeds_permit _
  createZone _ _ _ := heeds_insist _
  persist _ := heeds_permit _
  now := heeds_permit _
  clock := heeds_permit _
  count _ _ := heeds_permit _
  observe _ _ := heeds_permit _

end Sandbox

/-- A strict pass that ends tells what the ordinary one does. -/
theorem ReverseSync.Ends.runPass_of_strict {ε α : Type} {known : Locations} {box : Sandbox}
    {y : Locating (StateT Sandbox Option) ε α} {x : Locating (StateM Sandbox) ε α}
    {P : α → Locations → Sandbox → Prop} {E : ε → Locations → Sandbox → Prop}
    (hy : Ends known box y P E) (h : Sandbox.heeding.PassRel y x) :
    ∃ result known' after, runPass x known box = (result, known', after) ∧ match result with
      | .ok a => P a known' after
      | .error e => E e known' after := by
  obtain ⟨⟨result, known'⟩, after, hrun, hpost⟩ := hy
  have hplain : StateT.run (StateT.run (ExceptT.run x) known) box = ((result, known'), after) :=
    h known box _ hrun
  refine ⟨result, known', after, ?_, hpost⟩
  exact congrArg (fun out : (Except ε α × Locations) × Sandbox => (out.1.1, out.1.2, out.2)) hplain

end ZoneKeeper
