/-
How steps end.

A pass over reverse names is put together from steps that call services, remember where zones are
and may fail.  `Ends` says of one step how it ends, from known locations and a state: what it
yields satisfies one property together with what it leaves behind, and what it fails with another.
Every step that is made of others has one rule, from what is shown of those, and all that is said
of a pass or of a part of it is said with `Ends` and shown by these rules: what it keeps, what it
leaves where it succeeds, and what it leaves where it fails.

The services may be such that an action has no result at all.  Then that it has one is a part of
what `Answers` says of an action and `Ends` of a step.
-/
import ZoneKeeper.ReverseSync

namespace ZoneKeeper

variable {m : Type → Type} [Monad m] {σ ε α β : Type}

/-! ### Actions -/

section Actions

variable {s : σ} {P Q : α → σ → Prop} {R : β → σ → Prop}

/-- From the state the action has a result, and that satisfies `P` in the state that it leaves. -/
def Answers (x : StateT σ m α) (s : σ) (P : α → σ → Prop) : Prop :=
  ∃ a after, StateT.run x s = pure (a, after) ∧ P a after

theorem answers_pure {a : α} (h : P a s) : Answers (pure a : StateT σ m α) s P :=
  ⟨a, s, rfl, h⟩

theorem Answers.mono {x : StateT σ m α} (hx : Answers x s P)
    (h : ∀ a after, P a after → Q a after) : Answers x s Q := by
  obtain ⟨a, after, hrun, ha⟩ := hx
  exact ⟨a, after, hrun, h a after ha⟩

theorem answers_bind [LawfulMonad m] {x : StateT σ m α} {f : α → StateT σ m β}
    (hx : Answers x s fun a after => Answers (f a) after R) : Answers (x >>= f) s R := by
  obtain ⟨a, middle, hrun, b, after, hrest, hb⟩ := hx
  refine ⟨b, after, ?_, hb⟩
  rw [StateT.run_bind, hrun, pure_bind]
  exact hrest

/-- An action that always has a result is the same as what comes of it. -/
theorem answers_of_run {x : StateM σ α} (h : ∀ a after, StateT.run x s = (a, after) → P a after) :
    Answers x s P :=
  ⟨(StateT.run x s).1, (StateT.run x s).2, rfl, h _ _ rfl⟩

/-- Of actions that may fail, the second comes only if the first succeeds. -/
theorem answers_run_bind [LawfulMonad m] {x : ExceptT ε (StateT σ m) α}
    {f : α → ExceptT ε (StateT σ m) β} {R : Except ε β → σ → Prop}
    (hx : Answers x.run s fun result after => match result with
      | .ok a => Answers (f a).run after R
      | .error e => R (.error e) after) : Answers (x >>= f).run s R := by
  have hbind : (x >>= f).run = x.run >>= ExceptT.bindCont f := rfl
  rw [hbind]
  refine answers_bind (hx.mono fun result after h => ?_)
  cases result with
  | ok a => exact h
  | error e => exact answers_pure h

theorem answers_run_adapt [LawfulMonad m] {ε' : Type} {x : ExceptT ε (StateT σ m) α} {f : ε → ε'}
    {R : Except ε' α → σ → Prop} (hx : Answers x.run s fun result => R (result.mapError f)) :
    Answers (x.adapt f).run s R := by
  have hadapt : (x.adapt f).run = Except.mapError f <$> x.run := rfl
  rw [hadapt, ← bind_pure_comp]
  exact answers_bind (hx.mono fun _ _ => answers_pure)

theorem answers_run_liftM [LawfulMonad m] {x : StateT σ m α} {R : Except ε α → σ → Prop}
    (hx : Answers x s fun a => R (.ok a)) :
    Answers (liftM x : ExceptT ε (StateT σ m) α).run s R := by
  have hlift : (liftM x : ExceptT ε (StateT σ m) α).run = Except.ok <$> x := rfl
  rw [hlift, ← bind_pure_comp]
  exact answers_bind (hx.mono fun _ _ => answers_pure)

end Actions

/-! ### Steps of a pass -/

namespace ReverseSync

/-- From known locations and a state the step ends.  What it yields satisfies `P` together with
what it leaves behind, and what it fails with satisfies `E`. -/
def Ends (known : Locations) (s : σ) (x : Locating (StateT σ m) ε α)
    (P : α → Locations → σ → Prop) (E : ε → Locations → σ → Prop) : Prop :=
  Answers (StateT.run (ExceptT.run x) known) s fun out after => match out.1 with
    | .ok a => P a out.2 after
    | .error e => E e out.2 after

variable {known : Locations} {s : σ} {x : Locating (StateT σ m) ε α}
  {P P' : α → Locations → σ → Prop} {Q : β → Locations → σ → Prop}
  {E E' : ε → Locations → σ → Prop}

theorem ends_pure {a : α} (h : P a known s) :
    Ends known s (pure a : Locating (StateT σ m) ε α) P E :=
  answers_pure (a := ((Except.ok a : Except ε α), known)) h

theorem ends_throw {e : ε} (h : E e known s) :
    Ends known s (throw e : Locating (StateT σ m) ε α) P E :=
  answers_pure (a := ((Except.error e : Except ε α), known)) h

theorem Ends.mono (hx : Ends known s x P E) (hP : ∀ a known' after, P a known' after →
    P' a known' after) (hE : ∀ e known' after, E e known' after → E' e known' after) :
    Ends known s x P' E' := by
  refine Answers.mono hx fun out after h => ?_
  obtain ⟨result, known'⟩ := out
  cases result with
  | ok a => exact hP a known' after h
  | error e => exact hE e known' after h

/-- A step that needs no service. -/
theorem ends_ofResult {result : Except ε α} (hP : ∀ a, result = .ok a → P a known s)
    (hE : ∀ e, result = .error e → E e known s) :
    Ends known s (ofResult result : Locating (StateT σ m) ε α) P E := by
  cases result with
  | ok a => exact ends_pure (hP a rfl)
  | error e => exact ends_throw (hE e rfl)

variable [LawfulMonad m]

theorem ends_get {P : Locations → Locations → σ → Prop} (h : P known known s) :
    Ends known s (get : Locating (StateT σ m) ε Locations) P E := by
  have hget : StateT.run (ExceptT.run (get : Locating (StateT σ m) ε Locations)) known =
      (pure (known, known) >>= fun out => pure (Except.ok out.1, out.2) :
        StateT σ m (Except ε Locations × Locations)) := rfl
  unfold Ends
  rw [hget, pure_bind]
  exact answers_pure (a := ((Except.ok known : Except ε Locations), known)) h

theorem ends_remember {narrowest : String} {found : Option String}
    {P : Unit → Locations → σ → Prop} (h : P () ((narrowest, found) :: known) s) :
    Ends known s (remember narrowest found : Locating (StateT σ m) ε Unit) P E := by
  have hremember : StateT.run (ExceptT.run
      (remember narrowest found : Locating (StateT σ m) ε Unit)) known =
      (pure ((), (narrowest, found) :: known) >>= fun out => pure (Except.ok out.1, out.2) :
        StateT σ m (Except ε Unit × Locations)) := rfl
  unfold Ends
  rw [hremember, pure_bind]
  exact answers_pure (a := ((Except.ok () : Except ε Unit), (narrowest, found) :: known)) h

/-- The second step goes on from where the first one leaves off. -/
theorem ends_bind {f : α → Locating (StateT σ m) ε β}
    (hx : Ends known s x (fun a known' after => Ends known' after (f a) Q E) E) :
    Ends known s (x >>= f) Q E := by
  have hbind : StateT.run (ExceptT.run (x >>= f)) known =
      StateT.run (ExceptT.run x) known >>= fun out =>
        StateT.run (ExceptT.bindCont f out.1) out.2 := rfl
  unfold Ends
  rw [hbind]
  refine answers_bind (Answers.mono hx fun out after h => ?_)
  obtain ⟨result, known'⟩ := out
  cases result with
  | ok a => exact h
  | error e => exact answers_pure (a := ((Except.error e : Except ε β), known')) h

/-- The second step goes on from all that is known of what the first one yields. -/
theorem Ends.bind {f : α → Locating (StateT σ m) ε β} (hx : Ends known s x P E)
    (hf : ∀ a known' after, P a known' after → Ends known' after (f a) Q E) :
    Ends known s (x >>= f) Q E :=
  ends_bind (hx.mono hf fun _ _ _ => id)

theorem ends_adapt {ε' : Type} {f : ε → ε'} {E : ε' → Locations → σ → Prop}
    (hx : Ends known s x P fun e => E (f e)) : Ends known s (x.adapt f) P E := by
  have hadapt : StateT.run (ExceptT.run (x.adapt f)) known =
      StateT.run (ExceptT.run x) known >>= fun out => pure (out.1.mapError f, out.2) := rfl
  unfold Ends
  rw [hadapt]
  refine answers_bind (Answers.mono hx fun out after h => ?_)
  obtain ⟨result, known'⟩ := out
  cases result with
  | ok a => exact answers_pure (a := ((Except.ok a : Except ε' α), known')) h
  | error e => exact answers_pure (a := ((Except.error (f e) : Except ε' α), known')) h

/-- A service that is called. -/
theorem ends_call {action : StateT σ m (Except ε α)}
    (h : Answers action s fun result after => match result with
      | .ok a => P a known after
      | .error e => E e known after) : Ends known s (call action) P E := by
  have hcall : StateT.run (ExceptT.run (call action)) known =
      action >>= fun result => pure (result, known) := rfl
  unfold Ends
  rw [hcall]
  refine answers_bind (h.mono fun result after hresult => answers_pure (a := (result, known)) ?_)
  cases result <;> exact hresult

/-- A service that cannot fail. -/
theorem ends_liftM {action : StateT σ m α} (h : Answers action s fun a => P a known) :
    Ends known s (liftM action : Locating (StateT σ m) ε α) P E := by
  have hlift : StateT.run (ExceptT.run (liftM action : Locating (StateT σ m) ε α)) known =
      (action >>= fun a => pure (a, known)) >>= fun out => pure (Except.ok out.1, out.2) := rfl
  unfold Ends
  rw [hlift, bind_assoc]
  simp only [pure_bind]
  exact answers_bind (h.mono fun a after ha =>
    answers_pure (a := ((Except.ok a : Except ε α), known)) ha)

/-- Steps that each carry a property one element further carry it through the list. -/
theorem ends_foldlM {f : β → α → Locating (StateT σ m) ε β}
    {Q : List α → β → Locations → σ → Prop} {xs : List α}
    (h : ∀ a ∈ xs, ∀ done b known s, Q done b known s →
      Ends known s (f b a) (Q (done ++ [a])) E) :
    ∀ done b known s, Q done b known s → Ends known s (xs.foldlM f b) (Q (done ++ xs)) E := by
  induction xs with
  | nil =>
    intro done b known s hb
    rw [List.append_nil]
    exact ends_pure hb
  | cons a xs ih =>
    intro done b known s hb
    rw [List.foldlM_cons, List.append_cons]
    exact (h a List.mem_cons_self done b known s hb).bind
      (ih (fun other hother => h other (List.mem_cons_of_mem a hother)) (done ++ [a]))

end ReverseSync

end ZoneKeeper
