/-
One program run with two kinds of services.

What applies desired records is written for services of any kind, and it only passes on what they
answer.  So what holds between the services of one kind and those of another holds between whole
runs, as long as it goes from single actions to sequences of them.  `Lockstep` is such a relation.
There is one lemma for each way to put actions together, and then one for each part of a run, in
the order in which the run is put together.
-/
import ZoneKeeper.Apply

namespace ZoneKeeper

/-- A relation between actions of two kinds that goes from single actions to sequences. -/
structure Lockstep (m n : Type → Type) [Monad m] [Monad n] where
  /-- The one action is in step with the other. -/
  Rel : {α : Type} → m α → n α → Prop
  rel_pure : ∀ {α : Type} (a : α), Rel (pure a) (pure a)
  rel_bind : ∀ {α β : Type} {x : m α} {y : n α} {f : α → m β} {g : α → n β},
    Rel x y → (∀ a, Rel (f a) (g a)) → Rel (x >>= f) (y >>= g)

namespace Lockstep

variable {m n : Type → Type} [Monad m] [Monad n] (r : Lockstep m n) {ε α β : Type}

/-! ### Actions that may fail -/

section Actions

variable {r}

/-- Of actions that may fail, the second comes only if the first succeeds. -/
theorem run_bind {x : ExceptT ε m α} {y : ExceptT ε n α} {f : α → ExceptT ε m β}
    {g : α → ExceptT ε n β} (hx : r.Rel x.run y.run) (hf : ∀ a, r.Rel (f a).run (g a).run) :
    r.Rel (x >>= f).run (y >>= g).run := by
  have hleft : (x >>= f).run = x.run >>= ExceptT.bindCont f := rfl
  have hright : (y >>= g).run = y.run >>= ExceptT.bindCont g := rfl
  rw [hleft, hright]
  refine r.rel_bind hx fun result => ?_
  cases result with
  | ok a => exact hf a
  | error e => exact r.rel_pure _

variable [LawfulMonad m] [LawfulMonad n]

theorem run_adapt {ε' : Type} {x : ExceptT ε m α} {y : ExceptT ε n α}
    (hx : r.Rel x.run y.run) (h : ε → ε') : r.Rel (x.adapt h).run (y.adapt h).run := by
  have hleft : (x.adapt h).run = Except.mapError h <$> x.run := rfl
  have hright : (y.adapt h).run = Except.mapError h <$> y.run := rfl
  rw [hleft, hright, ← bind_pure_comp, ← bind_pure_comp]
  exact r.rel_bind hx fun result => r.rel_pure (result.mapError h)

theorem run_liftM {x : m α} {y : n α} (hx : r.Rel x y) :
    r.Rel (liftM x : ExceptT ε m α).run (liftM y : ExceptT ε n α).run := by
  have hleft : (liftM x : ExceptT ε m α).run = Except.ok <$> x := rfl
  have hright : (liftM y : ExceptT ε n α).run = Except.ok <$> y := rfl
  rw [hleft, hright, ← bind_pure_comp, ← bind_pure_comp]
  exact r.rel_bind hx fun a => r.rel_pure (Except.ok a)

end Actions

/-! ### Steps of a pass -/

section Steps

open ReverseSync

/-- A step of a pass is in step with another if it is so from all known locations. -/
def PassRel (x : Locating m ε α) (y : Locating n ε α) : Prop :=
  ∀ known, r.Rel (StateT.run (ExceptT.run x) known) (StateT.run (ExceptT.run y) known)

theorem pass_pure (a : α) : r.PassRel (pure a : Locating m ε α) (pure a) := fun known =>
  r.rel_pure ((Except.ok a : Except ε α), known)

theorem pass_throw (e : ε) : r.PassRel (throw e : Locating m ε α) (throw e) := fun known =>
  r.rel_pure ((Except.error e : Except ε α), known)

/-- A step that needs no service. -/
theorem pass_ofResult (result : Except ε α) :
    r.PassRel (ofResult result : Locating m ε α) (ofResult result) := fun known =>
  r.rel_pure (result, known)

theorem pass_get : r.PassRel (get : Locating m ε Locations) get := fun known =>
  r.rel_bind (r.rel_pure (known, known)) fun out =>
    r.rel_pure ((Except.ok out.1 : Except ε Locations), out.2)

theorem pass_remember (narrowest : String) (found : Option String) :
    r.PassRel (remember narrowest found : Locating m ε Unit) (remember narrowest found) :=
  fun known => r.rel_bind (r.rel_pure ((), (narrowest, found) :: known)) fun out =>
    r.rel_pure ((Except.ok out.1 : Except ε Unit), out.2)

variable {r}

theorem pass_bind {x : Locating m ε α} {y : Locating n ε α} {f : α → Locating m ε β}
    {g : α → Locating n ε β} (hx : r.PassRel x y) (hf : ∀ a, r.PassRel (f a) (g a)) :
    r.PassRel (x >>= f) (y >>= g) := by
  intro known
  have hleft : StateT.run (ExceptT.run (x >>= f)) known =
      StateT.run (ExceptT.run x) known >>= fun out =>
        StateT.run (ExceptT.bindCont f out.1) out.2 := rfl
  have hright : StateT.run (ExceptT.run (y >>= g)) known =
      StateT.run (ExceptT.run y) known >>= fun out =>
        StateT.run (ExceptT.bindCont g out.1) out.2 := rfl
  rw [hleft, hright]
  refine r.rel_bind (hx known) fun out => ?_
  obtain ⟨result, known'⟩ := out
  cases result with
  | ok a => exact hf a known'
  | error e => exact r.rel_pure _

theorem pass_adapt {ε' : Type} {x : Locating m ε α} {y : Locating n ε α} (hx : r.PassRel x y)
    (h : ε → ε') : r.PassRel (x.adapt h) (y.adapt h) := fun known =>
  r.rel_bind (hx known) fun out => r.rel_pure (out.1.mapError h, out.2)

theorem pass_call {x : m (Except ε α)} {y : n (Except ε α)} (hx : r.Rel x y) :
    r.PassRel (call x) (call y) := fun known =>
  r.rel_bind hx fun result => r.rel_pure (result, known)

theorem pass_liftM {x : m α} {y : n α} (hx : r.Rel x y) :
    r.PassRel (liftM x : Locating m ε α) (liftM y) := fun known =>
  r.rel_bind (r.rel_bind hx fun a => r.rel_pure (a, known)) fun out =>
    r.rel_pure ((Except.ok out.1 : Except ε α), out.2)

theorem pass_foldlM {f : β → α → Locating m ε β} {g : β → α → Locating n ε β}
    (h : ∀ b a, r.PassRel (f b a) (g b a)) (xs : List α) :
    ∀ b, r.PassRel (xs.foldlM f b) (xs.foldlM g b) := by
  induction xs with
  | nil => exact r.pass_pure
  | cons a xs ih =>
    intro b
    rw [List.foldlM_cons, List.foldlM_cons]
    exact pass_bind (h b a) ih

end Steps

end Lockstep

/-! ### Services in step -/

/-- Every service of the one kind is in step with that of the other. -/
structure Services.InStep {m n : Type → Type} [Monad m] [Monad n] (r : Lockstep m n)
    (left : Services m) (right : Services n) : Prop where
  fetchZone : ∀ zone, r.Rel (left.fetchZone zone) (right.fetchZone zone)
  patchRRsets : ∀ zone changes,
    r.Rel (left.patchRRsets zone changes) (right.patchRRsets zone changes)
  zoneExists : ∀ name, r.Rel (left.zoneExists name) (right.zoneExists name)
  createZone : ∀ name kind masters,
    r.Rel (left.createZone name kind masters) (right.createZone name kind masters)
  persist : ∀ record, r.Rel (left.persist record) (right.persist record)
  now : r.Rel left.now right.now
  clock : r.Rel left.clock right.clock
  count : ∀ series n, r.Rel (left.count series n) (right.count series n)
  observe : ∀ outcome duration,
    r.Rel (left.observe outcome duration) (right.observe outcome duration)

namespace Services.InStep

open Lockstep ReverseSync

variable {m n : Type → Type} [Monad m] [Monad n] {r : Lockstep m n} {left : Services m}
  {right : Services n} (h : left.InStep r right)
include h

/-! ### Passes over reverse names -/

theorem firstExisting (zones : List String) :
    r.PassRel (firstExisting left.toControlApi zones) (firstExisting right.toControlApi zones) := by
  induction zones with
  | nil => exact r.pass_pure none
  | cons zone zones ih =>
    refine pass_bind (pass_call (h.zoneExists zone)) fun found => ?_
    cases found with
    | true => exact r.pass_pure (some zone)
    | false => exact ih

theorem locate (name : String) :
    r.PassRel (locate left.toControlApi name) (locate right.toControlApi name) := by
  refine pass_adapt ?_ _
  unfold findReverseZone
  cases ReverseName.zoneCandidates name with
  | nil => exact r.pass_pure none
  | cons narrowest wider =>
    refine pass_bind r.pass_get fun known => ?_
    cases known.lookup narrowest with
    | some found => exact r.pass_pure found
    | none =>
      refine pass_bind (h.firstExisting _) fun found => ?_
      exact pass_bind (r.pass_remember narrowest found) fun _ => r.pass_pure found

theorem createNarrowest (template : ReverseZoneTemplate) (name : String) :
    r.PassRel (createNarrowest left template name) (createNarrowest right template name) := by
  unfold ReverseSync.createNarrowest
  cases ReverseName.zoneCandidates name with
  | nil => exact r.pass_throw _
  | cons zone wider =>
    refine pass_bind (pass_adapt (pass_call (h.createZone _ _ _)) _) fun _ => ?_
    refine pass_bind (pass_liftM (h.count _ _)) fun _ => ?_
    exact pass_bind (r.pass_remember _ _) fun _ => r.pass_pure zone

theorem add (template : ReverseZoneTemplate) (progress : PtrProgress) (target : PtrTarget) :
    r.PassRel (add left template progress target) (add right template progress target) := by
  refine pass_bind (r.pass_ofResult _) fun name => ?_
  by_cases hwrites : progress.writes name
  · rw [if_pos hwrites, if_pos hwrites]
    exact r.pass_pure progress
  rw [if_neg hwrites, if_neg hwrites]
  refine pass_bind (h.locate name) fun found => ?_
  cases found with
  | some zone => exact r.pass_pure _
  | none => exact pass_bind (h.createNarrowest template name) fun _ => r.pass_pure _

theorem remove (progress : PtrProgress) (target : PtrTarget) :
    r.PassRel (remove left progress target) (remove right progress target) := by
  refine pass_bind (r.pass_ofResult _) fun name => ?_
  by_cases hwrites : progress.writes name
  · rw [if_pos hwrites, if_pos hwrites]
    exact r.pass_pure progress
  rw [if_neg hwrites, if_neg hwrites]
  refine pass_bind (h.locate name) fun found => ?_
  cases found with
  | none => exact r.pass_pure progress
  | some zone =>
    by_cases htouches : progress.touches zone name
    · simp only [htouches, if_true]
      exact r.pass_pure progress
    · simp only [htouches, Bool.false_eq_true, if_false]
      exact r.pass_pure _

theorem send (batches : List (String × List Change)) :
    r.PassRel (send left batches) (send right batches) := by
  induction batches with
  | nil => exact r.pass_pure ()
  | cons batch rest ih =>
    exact pass_bind (pass_adapt (pass_call (h.patchRRsets _ _)) _) fun _ => ih

theorem pass (template : ReverseZoneTemplate) (changes : PtrChanges) :
    r.PassRel (pass left template changes) (pass right template changes) := by
  refine pass_bind (pass_foldlM (h.add template) _ _) fun added => ?_
  refine pass_bind (pass_foldlM h.remove _ _) fun progress => ?_
  refine pass_bind (h.send progress.batches) fun _ => ?_
  refine pass_bind (pass_liftM (h.count _ _)) fun _ => ?_
  exact pass_bind (pass_liftM (h.count _ _)) fun _ => r.pass_pure _

/-! ### Runs -/

variable {policyFor : String → Policy} {reverseZones : ReverseZoneTemplate}

theorem syncReverse (zone : String) (changes : PtrChanges) :
    r.Rel ((Applier.mk left policyFor reverseZones).syncReverse zone changes)
      ((Applier.mk right policyFor reverseZones).syncReverse zone changes) := by
  unfold Applier.syncReverse
  cases changes.isEmpty with
  | true => exact r.rel_pure _
  | false =>
    exact r.rel_bind (pass_adapt (h.pass reverseZones changes) _ [])
      fun out => r.rel_pure (out.1.map some)

variable [LawfulMonad m] [LawfulMonad n]

theorem prepare (request : ApplyRequest) :
    r.Rel ((Applier.mk left policyFor reverseZones).prepare request).run
      ((Applier.mk right policyFor reverseZones).prepare request).run :=
  run_bind (run_adapt (x := ExceptT.mk _) (y := ExceptT.mk _) (h.fetchZone _) _)
    fun _ => r.rel_pure _

theorem sendBatch (zone : String) (type : ChangeType) (changes : List Change) :
    r.Rel ((Applier.mk left policyFor reverseZones).sendBatch zone type changes).run
      ((Applier.mk right policyFor reverseZones).sendBatch zone type changes).run := by
  unfold Applier.sendBatch
  cases changes.isEmpty with
  | true => exact r.rel_pure _
  | false =>
    exact run_bind (run_adapt (x := ExceptT.mk _) (y := ExceptT.mk _) (h.patchRRsets _ _) _)
      fun _ => run_liftM (h.count _ _)

theorem perform (request : ApplyRequest) :
    r.Rel ((Applier.mk left policyFor reverseZones).perform request).run
      ((Applier.mk right policyFor reverseZones).perform request).run := by
  refine run_bind (h.prepare request) fun prepared => ?_
  by_cases hempty : prepared.batches.isEmpty = true
  · simp only [hempty, if_true]
    exact r.rel_pure (Except.ok _ : Except SyncError ApplySummary)
  simp only [hempty, Bool.false_eq_true, if_false]
  refine run_bind (h.sendBatch _ _ _) fun _ => ?_
  refine run_bind (run_adapt (h.sendBatch _ _ _) _) fun _ => ?_
  refine run_bind (run_liftM (h.syncReverse _ _)) fun reversed => ?_
  refine run_bind (run_liftM h.now) fun now => ?_
  refine run_bind (x := ExceptT.mk _) (y := ExceptT.mk _) (h.persist _) fun _ => ?_
  exact run_bind (x := ExceptT.mk _) (y := ExceptT.mk _) (r.rel_pure reversed)
    fun _ => r.rel_pure (Except.ok _ : Except SyncError ApplySummary)

/-- **Whole runs are in step where their services are.** -/
theorem apply (request : ApplyRequest) :
    r.Rel ((Applier.mk left policyFor reverseZones).apply request)
      ((Applier.mk right policyFor reverseZones).apply request) := by
  refine r.rel_bind h.clock fun start => ?_
  refine r.rel_bind (h.perform request) fun result => ?_
  refine r.rel_bind h.clock fun finish => ?_
  refine r.rel_bind (h.count _ _) fun _ => ?_
  refine r.rel_bind (h.observe _ _) fun _ => ?_
  cases result with
  | ok summary => exact r.rel_pure _
  | error e => exact r.rel_bind (h.count _ _) fun _ => r.rel_pure _

end Services.InStep

end ZoneKeeper
