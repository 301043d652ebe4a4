/-
Remembering reverse zones is not seen from outside.

A pass asks for a reverse zone once and answers from memory after that: under the narrowest
candidate, also that there was none, and with the new zone in its place once one is created.  The
same pass could look for every name afresh.  `afresh` is that pass, and on a catalog of zones that
only the pass extends it gives the same orders in the same sequence and ends in the same way.

What is remembered is right at every moment (`Faithful`).  Names with the same narrowest candidate
share them all, so one answer serves them all.  And a zone that is created is the narrowest
candidate of every name that has it at all, so the one answer that it makes wrong is the one that
is overwritten.

Two steps `Coincide`, one that remembers and one that does not, if they end in the same way, and
what both leave behind is said along with it.
-/
import ZoneKeeper.Proofs.ReverseLocation
import ZoneKeeper.Proofs.ReverseProgress

namespace ZoneKeeper

open ReverseName DomainName

/-! ### Passes that look for zones in their own way -/

namespace ReverseSync

section Locators

variable {m : Type → Type} [Monad m]

/-- How a pass finds reverse zones and creates them. -/
structure Locator (m : Type → Type) where
  /-- The reverse zone of a name, if there is one. -/
  locate : (name : String) → Locating m String (Option String)
  /-- A new reverse zone for a name. -/
  create : (name : String) → Locating m String String

/-- What is found is remembered. -/
def remembering (services : Services m) (template : ReverseZoneTemplate) : Locator m where
  locate := locate services.toControlApi
  create := createNarrowest services template

/-- Nothing is remembered. -/
def afresh (services : Services m) (template : ReverseZoneTemplate) : Locator m where
  locate name :=
    (firstExisting services.toControlApi (zoneCandidates name)).adapt fun e =>
      s!"locating reverse zone for {name}: {e.message}"
  create name := do
    match zoneCandidates name with
    | [] => throw s!"no reverse zone boundary for {name}"
    | zone :: _ =>
      callIn s!"creating reverse zone {zone}" <|
        services.createZone zone template.kind template.masters
      liftM (services.count .reverseZonesCreated 1)
      return zone

/-- `add` with zones that are found and created like this. -/
def addWith (locator : Locator m) (progress : PtrProgress) (target : PtrTarget) :
    Locating m String PtrProgress := do
  let name ← ofResult (reverseName target)
  if progress.writes name then return progress
  let operation (zone : String) : PtrOperation := ⟨zone, .replace (ptrRecord name target)⟩
  match ← locator.locate name with
  | some zone => return { progress with operations := progress.operations ++ [operation zone] }
  | none =>
    let zone ← locator.create name
    return {
      operations := progress.operations ++ [operation zone]
      created := progress.created ++ [zone] }

/-- `remove` with zones that are found like this. -/
def removeWith (locator : Locator m) (progress : PtrProgress) (target : PtrTarget) :
    Locating m String PtrProgress := do
  let name ← ofResult (reverseName target)
  if progress.writes name then return progress
  match ← locator.locate name with
  | none => return progress
  | some zone =>
    if progress.touches zone name then return progress
    return { progress with
      operations := progress.operations ++ [⟨zone, .delete ⟨name, .named .ptr⟩⟩] }

/-- `pass` with zones that are found and created like this. -/
def passWith (services : Services m) (locator : Locator m) (changes : PtrChanges) :
    Locating m String PtrReport := do
  let progress ← changes.additions.foldlM (addWith locator) ⟨[], []⟩
  let progress ← changes.removals.foldlM (removeWith locator) progress
  send services progress.batches
  let report : PtrReport :=
    ⟨progress.created, progress.countOf .replace, progress.countOf .delete⟩
  liftM (services.count (.ptrOperations "add") report.added)
  liftM (services.count (.ptrOperations "delete") report.deleted)
  return report

theorem addWith_remembering (services : Services m) (template : ReverseZoneTemplate) :
    addWith (remembering services template) = add services template := by
  funext progress target
  unfold addWith add
  refine congrArg (Bind.bind _) (funext fun name => ?_)
  refine congrArg (ite _ (pure progress)) (congrArg (Bind.bind _) (funext fun found => ?_))
  cases found <;> simp only [remembering]

theorem removeWith_remembering (services : Services m) (template : ReverseZoneTemplate) :
    removeWith (remembering services template) = remove services := by
  funext progress target
  rfl

/-- A pass is one that remembers. -/
theorem passWith_remembering (services : Services m) (template : ReverseZoneTemplate)
    (changes : PtrChanges) :
    passWith services (remembering services template) changes = pass services template changes := by
  unfold passWith pass
  rw [addWith_remembering, removeWith_remembering]

end Locators

end ReverseSync

/-! ### Orders and catalogs -/

/-- A change that a nameserver is asked to make. -/
inductive Order
  | create (zone kind : String) (masters : List String)
  | patch (zone : String) (changes : List Change)
deriving DecidableEq, Repr

namespace Services

variable {σ α : Type}

/-- The action, with nothing noted. -/
def silently (action : StateM σ α) : StateM (σ × List Order) α := fun state =>
  ((StateT.run action state.1).1, (StateT.run action state.1).2, state.2)

/-- The action, with the order noted whatever comes of it. -/
def noting (order : Order) (action : StateM σ α) : StateM (σ × List Order) α := fun state =>
  ((StateT.run action state.1).1, (StateT.run action state.1).2, state.2 ++ [order])

/-- The services with every order noted. -/
def noted (services : Services (StateM σ)) : Services (StateM (σ × List Order)) where
  fetchZone zone := silently (services.fetchZone zone)
  patchRRsets zone changes := noting (.patch zone changes) (services.patchRRsets zone changes)
  zoneExists name := silently (services.zoneExists name)
  createZone zone kind masters :=
    noting (.create zone kind masters) (services.createZone zone kind masters)
  persist record := silently (services.persist record)
  now := silently services.now
  clock := silently services.clock
  count series n := silently (services.count series n)
  observe outcome duration := silently (services.observe outcome duration)

/-- A catalog came to be another by one zone.  Only names without a dot at their end count. -/
def Grown (has has' : String → Bool) (zone : String) : Prop :=
  ∀ other, relative other = other → (has' other = true ↔ has other = true ∨ other = zone)

/-- The services know of zones by a catalog.  To ask about a zone never fails and changes nothing,
a zone that is created is one more, and nothing else that a pass does makes a difference. -/
structure Catalogs (services : Services (StateM σ)) (has : σ → String → Bool) : Prop where
  probe : ∀ zone s, StateT.run (services.zoneExists zone) s = (.ok (has s zone), s)
  create : ∀ zone kind masters s after, relative zone = zone →
    StateT.run (services.createZone zone kind masters) s = (.ok (), after) →
    Grown (has s) (has after) zone
  patch : ∀ zone changes s, has (StateT.run (services.patchRRsets zone changes) s).2 = has s
  count : ∀ series n s, has (StateT.run (services.count series n) s).2 = has s

end Services

namespace ReverseSync

open Services

variable {has has' : String → Bool} {known : Locations} {name other zone narrowest : String}
  {orders : List Order} {progress : PtrProgress}

/-! ### Candidates in a catalog -/

/-- The first candidate of a name that is in a catalog. -/
@[irreducible]
def firstCandidate (has : String → Bool) (name : String) : Option String :=
  (zoneCandidates name).find? has

/-- A zone is the narrowest candidate of every name of an address that has it as a candidate. -/
def Solely (zone : String) : Prop :=
  ∀ name, IsReverse name → zone ∈ zoneCandidates name → (zoneCandidates name).head? = some zone

theorem solely_of_narrowest (hname : IsReverse name)
    (hnarrowest : (zoneCandidates name).head? = some zone) : Solely zone := by
  intro other hother hmem
  rw [zoneCandidates_eq_of_narrowest_mem hname hother hnarrowest hmem]
  exact hnarrowest

theorem firstCandidate_of_narrowest (hnarrowest : (zoneCandidates name).head? = some zone)
    (hzone : has zone = true) : firstCandidate has name = some zone := by
  obtain ⟨wider, hcandidates⟩ := List.head?_eq_some_iff.mp hnarrowest
  unfold firstCandidate
  rw [hcandidates, List.find?_cons, hzone]

/-- Names that share their candidates are found in the same zone. -/
theorem firstCandidate_of_candidates (h : zoneCandidates name = zoneCandidates other) :
    firstCandidate has name = firstCandidate has other := by
  unfold firstCandidate
  rw [h]

/-- A new zone makes no difference to a name that it is no candidate of. -/
theorem firstCandidate_of_grown (hgrown : Grown has has' zone) (hname : IsReverse name)
    (hmem : zone ∉ zoneCandidates name) : firstCandidate has' name = firstCandidate has name := by
  unfold firstCandidate
  refine List.find?_congr fun other hother => ?_
  rw [Bool.eq_iff_iff, hgrown other (hname.relative_candidate hother)]
  exact or_iff_left fun hsame => hmem (hsame ▸ hother)

/-- **Names that were found stay where they are** when the narrowest candidate of a name that was
not found is created. -/
theorem firstCandidate_of_found (hgrown : Grown has has' zone) (hname : IsReverse name)
    (hnone : firstCandidate has name = none)
    (hnarrowest : (zoneCandidates name).head? = some zone) (hother : IsReverse other)
    {found : String} (hfound : firstCandidate has other = some found) :
    firstCandidate has' other = some found := by
  rw [firstCandidate_of_grown hgrown hother, hfound]
  intro hmem
  have hsame := zoneCandidates_eq_of_narrowest_mem hname hother hnarrowest hmem
  rw [firstCandidate_of_candidates hsame, hnone] at hfound
  cases hfound

/-! ### What is remembered -/

/-- What is remembered under a narrowest candidate is where its names are found. -/
def Faithful (known : Locations) (has : String → Bool) : Prop :=
  ∀ name narrowest found, IsReverse name → (zoneCandidates name).head? = some narrowest →
    known.lookup narrowest = some found → found = firstCandidate has name

theorem faithful_nil (has : String → Bool) : Faithful [] has := by
  intro name narrowest found _ _ hlookup
  simp at hlookup

/-- What was found for one name is right for all names with its narrowest candidate. -/
theorem Faithful.remember (h : Faithful known has) (hname : IsReverse name)
    (hnarrowest : (zoneCandidates name).head? = some narrowest) :
    Faithful ((narrowest, firstCandidate has name) :: known) has := by
  intro other first found hother hfirst hlookup
  rw [List.lookup_cons] at hlookup
  split at hlookup
  · next hsame =>
    obtain rfl : first = narrowest := eq_of_beq hsame
    obtain rfl := Option.some.inj hlookup
    exact firstCandidate_of_candidates (zoneCandidates_eq_of_narrowest_mem hother hname hfirst
      (List.mem_of_mem_head? hnarrowest))
  · exact h other first found hother hfirst hlookup

/-- A new zone is remembered in place of what was, and nothing else has become wrong. -/
theorem Faithful.grow (h : Faithful known has) (hgrown : Grown has has' zone)
    (hrelative : relative zone = zone) (hsolely : Solely zone) :
    Faithful ((zone, some zone) :: known) has' := by
  intro other first found hother hfirst hlookup
  rw [List.lookup_cons] at hlookup
  split at hlookup
  · next hsame =>
    obtain rfl : first = zone := eq_of_beq hsame
    obtain rfl := Option.some.inj hlookup
    have hzone : has' first = true := (hgrown first hrelative).mpr (Or.inr rfl)
    exact (firstCandidate_of_narrowest hfirst hzone).symm
  · next hne =>
    rw [h other first found hother hfirst hlookup]
    refine (firstCandidate_of_grown hgrown hother fun hmem => ?_).symm
    rw [hsolely other hother hmem] at hfirst
    simp [Option.some.inj hfirst] at hne

/-! ### What is decided -/

/-- Zones were created, and each is the narrowest candidate of all names that have it. -/
def Founding (orders : List Order) : Prop :=
  ∀ order ∈ orders, ∃ zone kind masters, order = .create zone kind masters ∧ Solely zone

/-- The orders of a pass are right by a catalog. -/
structure Sound (has : String → Bool) (orders : List Order) : Prop where
  created : ∀ zone kind masters, .create zone kind masters ∈ orders → Solely zone
  patched : ∀ zone changes, .patch zone changes ∈ orders → ∀ change ∈ changes,
    firstCandidate has change.key.name = some zone

theorem Founding.sound (h : Founding orders) (has : String → Bool) : Sound has orders where
  created := fun zone kind masters hmem => by
    obtain ⟨_, _, _, hcreate, hsolely⟩ := h _ hmem
    cases hcreate
    exact hsolely
  patched := fun zone changes hmem => by
    obtain ⟨_, _, _, hcreate, -⟩ := h _ hmem
    cases hcreate

theorem Founding.concat (h : Founding orders) (hsolely : Solely zone) (kind : String)
    (masters : List String) : Founding (orders ++ [.create zone kind masters]) :=
  List.forall_mem_append.mpr ⟨h, List.forall_mem_singleton.mpr ⟨zone, kind, masters, rfl, hsolely⟩⟩

theorem Sound.concat (h : Sound has orders) {changes : List Change}
    (hchanges : ∀ change ∈ changes, firstCandidate has change.key.name = some zone) :
    Sound has (orders ++ [.patch zone changes]) where
  created := fun other kind masters hmem => by
    rcases List.mem_append.mp hmem with hold | hnew
    · exact h.created other kind masters hold
    · cases List.mem_singleton.mp hnew
  patched := fun other batch hmem => by
    rcases List.mem_append.mp hmem with hold | hnew
    · exact h.patched other batch hold
    · cases List.mem_singleton.mp hnew
      exact hchanges

/-- Every operation is where its name is found, and so far zones were created and nothing else. -/
structure Decided (has : String → Bool) (progress : PtrProgress) (orders : List Order) : Prop where
  operations : ∀ op ∈ progress.operations,
    IsReverse op.name ∧ firstCandidate has op.name = some op.zone
  orders : Founding orders

theorem decided_empty (has : String → Bool) : Decided has ⟨[], []⟩ [] :=
  ⟨by simp, by simp [Founding]⟩

theorem Decided.concat (h : Decided has progress orders) (op : PtrOperation)
    (hname : IsReverse op.name) (hzone : firstCandidate has op.name = some op.zone)
    (created : List String) : Decided has ⟨progress.operations ++ [op], created⟩ orders :=
  ⟨List.forall_mem_append.mpr ⟨h.operations, List.forall_mem_singleton.mpr ⟨hname, hzone⟩⟩,
    h.orders⟩

theorem Decided.grow (h : Decided has progress orders) (hgrown : Grown has has' zone)
    (hname : IsReverse name) (hnone : firstCandidate has name = none)
    (hnarrowest : (zoneCandidates name).head? = some zone) (kind : String)
    (masters : List String) :
    Decided has' progress (orders ++ [.create zone kind masters]) where
  operations := fun op hop =>
    ⟨(h.operations op hop).1, firstCandidate_of_found hgrown hname hnone hnarrowest
      (h.operations op hop).1 (h.operations op hop).2⟩
  orders := h.orders.concat (solely_of_narrowest hname hnarrowest) kind masters

/-- What is sent goes to where the names are found. -/
theorem Decided.batches (h : Decided has progress orders) :
    ∀ batch ∈ progress.batches, ∀ change ∈ batch.2,
      firstCandidate has change.key.name = some batch.1 := by
  intro batch hbatch change hchange
  obtain ⟨op, hop, hzone, rfl⟩ := PtrProgress.exists_of_mem_batches hbatch hchange
  rw [← hzone]
  exact (h.operations op hop).2

/-! ### Steps that coincide -/

section Coincide

variable {σ ε α β : Type} {has : σ → String → Bool} {s : σ} {x y : Locating (StateM σ) ε α}
  {P : α → σ → Prop} {Q : β → σ → Prop} {E : σ → Prop}

/-- What a step does from known locations and a state. -/
def runLocating (x : Locating (StateM σ) ε α) (known : Locations) (s : σ) :
    Except ε α × Locations × σ :=
  let out : (Except ε α × Locations) × σ := StateT.run (StateT.run (ExceptT.run x) known) s
  (out.1.1, out.1.2, out.2)

theorem runLocating_bind (x : Locating (StateM σ) ε α) (f : α → Locating (StateM σ) ε β)
    (known : Locations) (s : σ) :
    runLocating (x >>= f) known s =
      match runLocating x known s with
      | (.ok a, known', s') => runLocating (f a) known' s'
      | (.error e, known', s') => (.error e, known', s') := by
  show runLocating (ExceptT.mk (ExceptT.bindCont f (runLocating x known s).1) :
    Locating (StateM σ) ε β) (runLocating x known s).2.1 (runLocating x known s).2.2 = _
  obtain ⟨result, known', s'⟩ := runLocating x known s
  cases result <;> rfl

theorem runLocating_adapt {ε' : Type} (x : Locating (StateM σ) ε α) (f : ε → ε')
    (known : Locations) (s : σ) :
    runLocating (x.adapt f) known s =
      ((runLocating x known s).1.mapError f, (runLocating x known s).2) :=
  rfl

theorem runLocating_call (action : StateM σ (Except ε α)) (known : Locations) (s : σ) :
    runLocating (call action) known s =
      ((StateT.run action s).1, known, (StateT.run action s).2) :=
  rfl

theorem runLocating_get (known : Locations) (s : σ) :
    runLocating (get : Locating (StateM σ) ε Locations) known s = (.ok known, known, s) :=
  rfl

theorem runLocating_remember (narrowest : String) (found : Option String) (known : Locations)
    (s : σ) :
    runLocating (remember narrowest found : Locating (StateM σ) ε Unit) known s =
      (.ok (), (narrowest, found) :: known, s) :=
  rfl

theorem runLocating_pure (a : α) (known : Locations) (s : σ) :
    runLocating (pure a : Locating (StateM σ) ε α) known s = (.ok a, known, s) :=
  rfl

/-- Two steps have the same result and leave the same state, whether `x` remembers what is known
or `y` remembers nothing.  What is known is right afterwards, what they yield satisfies `P`, and
where they fail the state satisfies `E`. -/
def Coincide (has : σ → String → Bool) (known : Locations) (s : σ)
    (x y : Locating (StateM σ) ε α) (P : α → σ → Prop) (E : σ → Prop) : Prop :=
  ∃ result known' s', runLocating x known s = (result, known', s') ∧
    runLocating y [] s = (result, [], s') ∧
    match result with
    | .ok a => Faithful known' (has s') ∧ P a s'
    | .error _ => E s'

theorem coincide_pure {a : α} (hknown : Faithful known (has s)) (h : P a s) :
    Coincide has known s (pure a : Locating (StateM σ) ε α) (pure a) P E :=
  ⟨.ok a, known, s, rfl, rfl, hknown, h⟩

theorem coincide_bind {f g : α → Locating (StateM σ) ε β} (hx : Coincide has known s x y P E)
    (hf : ∀ a known' s', Faithful known' (has s') → P a s' →
      Coincide has known' s' (f a) (g a) Q E) :
    Coincide has known s (x >>= f) (y >>= g) Q E := by
  obtain ⟨result, known', s', hrun, hrun', hpost⟩ := hx
  unfold Coincide
  rw [runLocating_bind, runLocating_bind, hrun, hrun']
  cases result with
  | ok a => exact hf a known' s' hpost.1 hpost.2
  | error e => exact ⟨.error e, known', s', rfl, rfl, hpost⟩

/-- A service that is called either way. -/
theorem coincide_callIn {action : StateM σ (Except ApiError α)} {context : String}
    {P : α → σ → Prop} (hok : ∀ a after, StateT.run action s = (.ok a, after) →
      Faithful known (has after) ∧ P a after)
    (herror : ∀ e after, StateT.run action s = (.error e, after) → E after) :
    Coincide has known s (callIn context action) (callIn context action) P E := by
  unfold Coincide callIn
  simp only [runLocating_adapt, runLocating_call]
  rcases hrun : StateT.run action s with ⟨_ | _, after⟩
  · exact ⟨_, _, _, rfl, rfl, herror _ after hrun⟩
  · exact ⟨_, _, _, rfl, rfl, hok _ after hrun⟩

theorem coincide_liftM {action : StateM σ α}
    (hknown : Faithful known (has (StateT.run action s).2))
    (h : P (StateT.run action s).1 (StateT.run action s).2) :
    Coincide has known s (liftM action : Locating (StateM σ) ε α) (liftM action) P E :=
  ⟨.ok (StateT.run action s).1, known, (StateT.run action s).2, rfl, rfl, hknown, h⟩

/-- A step that needs no service. -/
theorem coincide_ofResult {result : Except ε α} (hknown : Faithful known (has s))
    (hok : ∀ a, result = .ok a → P a s) (herror : E s) :
    Coincide has known s (ofResult result : Locating (StateM σ) ε α) (ofResult result) P E := by
  cases result with
  | ok a => exact coincide_pure hknown (hok a rfl)
  | error e => exact ⟨.error e, known, s, rfl, rfl, herror⟩

/-- Steps that each keep a property keep it through a list. -/
theorem coincide_foldlM {f g : β → α → Locating (StateM σ) ε β} {xs : List α}
    (h : ∀ a ∈ xs, ∀ b known s, Faithful known (has s) → Q b s →
      Coincide has known s (f b a) (g b a) Q E) :
    ∀ b known s, Faithful known (has s) → Q b s →
      Coincide has known s (xs.foldlM f b) (xs.foldlM g b) Q E := by
  induction xs with
  | nil => exact fun b known s hknown hb => coincide_pure hknown hb
  | cons a xs ih =>
    intro b known s hknown hb
    rw [List.foldlM_cons, List.foldlM_cons]
    exact coincide_bind (h a List.mem_cons_self b known s hknown hb)
      (ih fun other hother => h other (List.mem_cons_of_mem a hother))

end Coincide

/-! ### A pass that remembers coincides with one that does not -/

section Pass

variable {σ : Type} {services : Services (StateM σ)} {has : σ → String → Bool} {s : σ}
  {template : ReverseZoneTemplate} {target : PtrTarget}

theorem noted_createZone_run (zone kind : String) (masters : List String)
    (state : σ × List Order) :
    StateT.run (services.noted.createZone zone kind masters) state =
      ((StateT.run (services.createZone zone kind masters) state.1).1,
        (StateT.run (services.createZone zone kind masters) state.1).2,
        state.2 ++ [.create zone kind masters]) :=
  rfl

theorem noted_patchRRsets_run (zone : String) (changes : List Change)
    (state : σ × List Order) :
    StateT.run (services.noted.patchRRsets zone changes) state =
      ((StateT.run (services.patchRRsets zone changes) state.1).1,
        (StateT.run (services.patchRRsets zone changes) state.1).2,
        state.2 ++ [.patch zone changes]) :=
  rfl

theorem noted_count_run (series : Series) (n : Nat) (state : σ × List Order) :
    StateT.run (services.noted.count series n) state =
      ((), (StateT.run (services.count series n) state.1).2, state.2) :=
  rfl

/-- Noting orders makes no difference to the catalog. -/
theorem catalogs_noted (h : services.Catalogs has) :
    services.noted.Catalogs fun state => has state.1 where
  probe := fun zone state => by
    show (_, _, state.2) = (_, state)
    rw [h.probe]
  create := fun zone kind masters state after hzone hrun => by
    obtain ⟨hresult, hafter⟩ := Prod.mk.inj
      ((noted_createZone_run zone kind masters state).symm.trans hrun)
    exact h.create zone kind masters state.1 after.1 hzone
      (Prod.ext hresult (congrArg Prod.fst hafter))
  patch := fun zone changes state => h.patch zone changes state.1
  count := fun series n state => h.count series n state.1

theorem runLocating_firstExisting (h : services.Catalogs has) (zones : List String)
    (known : Locations) (s : σ) :
    runLocating (firstExisting services.toControlApi zones) known s =
      (.ok (zones.find? (has s)), known, s) := by
  induction zones with
  | nil => rfl
  | cons zone zones ih =>
    rw [firstExisting, runLocating_bind, runLocating_call, h.probe, List.find?_cons]
    cases hzone : has s zone with
    | true => simp only [if_true]; rfl
    | false => simpa using ih

/-- What is known is not asked for, and what is asked for is known after that. -/
theorem runLocating_findReverseZone (h : services.Catalogs has) {wider : List String}
    (hcandidates : zoneCandidates name = narrowest :: wider) (known : Locations) (s : σ) :
    runLocating (findReverseZone services.toControlApi name) known s =
      match known.lookup narrowest with
      | some found => (.ok found, known, s)
      | none => (.ok (firstCandidate (has s) name),
          (narrowest, firstCandidate (has s) name) :: known, s) := by
  unfold findReverseZone
  rw [hcandidates]
  simp only [runLocating_bind, runLocating_get]
  cases known.lookup narrowest with
  | some found => rfl
  | none =>
    unfold firstCandidate
    simp only [runLocating_bind, runLocating_firstExisting h, runLocating_remember,
      runLocating_pure, hcandidates]

/-- A name is found where it is, from memory or not. -/
theorem coincide_locate (h : services.Catalogs has) (hname : IsReverse name)
    (hknown : Faithful known (has s)) {P : Option String → σ → Prop} {E : σ → Prop}
    (hP : P (firstCandidate (has s) name) s) :
    Coincide has known s ((remembering services template).locate name)
      ((afresh services template).locate name) P E := by
  obtain ⟨narrowest, hnarrowest⟩ := hname.exists_narrowest
  obtain ⟨wider, hcandidates⟩ := List.head?_eq_some_iff.mp hnarrowest
  have hafresh : runLocating ((afresh services template).locate name) [] s =
      (.ok (firstCandidate (has s) name), [], s) := by
    unfold firstCandidate
    simp only [afresh, runLocating_adapt, runLocating_firstExisting h]
    rfl
  have hrun := runLocating_findReverseZone h hcandidates known s
  cases hlookup : known.lookup narrowest with
  | some found =>
    obtain rfl := hknown name narrowest found hname hnarrowest hlookup
    refine ⟨.ok (firstCandidate (has s) name), known, s, ?_, hafresh, hknown, hP⟩
    simp only [remembering, locate, runLocating_adapt, hrun, hlookup]
    rfl
  | none =>
    refine ⟨.ok (firstCandidate (has s) name), (narrowest, firstCandidate (has s) name) :: known, s,
      ?_, hafresh, hknown.remember hname hnarrowest, hP⟩
    simp only [remembering, locate, runLocating_adapt, hrun, hlookup]
    rfl

section Create

variable {wider : List String} {after : σ}
  (hcandidates : zoneCandidates name = narrowest :: wider)
include hcandidates

/-- A zone that is created is known after that, if anything is. -/
theorem runLocating_create_ok
    (hrun : StateT.run (services.createZone narrowest template.kind template.masters) s =
      (.ok (), after)) (known : Locations) :
    runLocating ((remembering services template).create name) known s =
        (.ok narrowest, (narrowest, some narrowest) :: known,
          (StateT.run (services.count .reverseZonesCreated 1) after).2) ∧
      runLocating ((afresh services template).create name) known s =
        (.ok narrowest, known, (StateT.run (services.count .reverseZonesCreated 1) after).2) := by
  dsimp only [remembering, afresh, createNarrowest, callIn]
  rw [hcandidates]
  constructor <;>
  · dsimp only
    rw [runLocating_bind, runLocating_adapt, runLocating_call, hrun]
    rfl

/-- A zone that is not created fails the pass, whatever is known. -/
theorem runLocating_create_error {e : ApiError}
    (hrun : StateT.run (services.createZone narrowest template.kind template.masters) s =
      (.error e, after)) (known : Locations) :
    runLocating ((remembering services template).create name) known s =
        (.error s!"creating reverse zone {narrowest}: {e.message}", known, after) ∧
      runLocating ((afresh services template).create name) known s =
        (.error s!"creating reverse zone {narrowest}: {e.message}", known, after) := by
  dsimp only [remembering, afresh, createNarrowest, callIn]
  rw [hcandidates]
  constructor <;>
  · dsimp only
    rw [runLocating_bind, runLocating_adapt, runLocating_call, hrun]
    rfl

end Create

/-- A name that was not found gets its narrowest candidate, remembered or not. -/
theorem coincide_create (h : services.Catalogs has) (hname : IsReverse name)
    (hknown : Faithful known (has s)) (hnone : firstCandidate (has s) name = none)
    (hdecided : Decided (has s) progress orders) :
    Coincide (fun state => has state.1) known (s, orders)
      ((remembering services.noted template).create name)
      ((afresh services.noted template).create name)
      (fun zone state => firstCandidate (has state.1) name = some zone ∧
        Decided (has state.1) progress state.2)
      (fun state => Sound (has state.1) state.2) := by
  obtain ⟨narrowest, hnarrowest⟩ := hname.exists_narrowest
  obtain ⟨wider, hcandidates⟩ := List.head?_eq_some_iff.mp hnarrowest
  have hsolely := solely_of_narrowest hname hnarrowest
  have hrelative := hname.relative_candidate (List.mem_of_mem_head? hnarrowest)
  have hcreate : StateT.run (services.noted.createZone narrowest template.kind template.masters)
      (s, orders) = _ := noted_createZone_run _ _ _ _
  rcases hrun : StateT.run (services.createZone narrowest template.kind template.masters) s with
    ⟨_ | _, after⟩
  · rw [hrun] at hcreate
    exact ⟨_, _, _, (runLocating_create_error hcandidates hcreate known).1,
      (runLocating_create_error hcandidates hcreate []).2,
      (hdecided.orders.concat hsolely _ _).sound _⟩
  · rw [hrun] at hcreate
    -- what is known is stale until the new zone is remembered
    have hgrown : Grown (has s)
        (has (StateT.run (services.count .reverseZonesCreated 1) after).2) narrowest := by
      rw [h.count]
      exact h.create _ _ _ _ _ hrelative hrun
    refine ⟨_, _, _, (runLocating_create_ok hcandidates hcreate known).1,
      (runLocating_create_ok hcandidates hcreate []).2, hknown.grow hgrown hrelative hsolely, ?_,
      hdecided.grow hgrown hname hnone hnarrowest _ _⟩
    exact firstCandidate_of_narrowest hnarrowest ((hgrown narrowest hrelative).mpr (Or.inr rfl))

theorem isReverse_of_reverseName (h : reverseName target = .ok name) : IsReverse name := by
  unfold reverseName at h
  split at h
  · next found hfound =>
    obtain rfl := Except.ok.inj h
    exact isReverse_of_ofContent? hfound
  · cases h

/-- What comes and what goes is looked at in the same way until its zone is found. -/
theorem coincide_target (h : services.Catalogs has) {state : σ × List Order}
    (hknown : Faithful known (has state.1)) (hdecided : Decided (has state.1) progress state.2)
    {f g : String → Option String → Locating (StateM (σ × List Order)) String PtrProgress}
    (hfound : ∀ name known, IsReverse name → Faithful known (has state.1) →
      Coincide (fun state => has state.1) known state
        (f name (firstCandidate (has state.1) name)) (g name (firstCandidate (has state.1) name))
        (fun progress state => Decided (has state.1) progress state.2)
        (fun state => Sound (has state.1) state.2)) :
    Coincide (fun state => has state.1) known state
      (do
        let name ← ofResult (reverseName target)
        if progress.writes name then return progress
        f name (← (remembering services.noted template).locate name))
      (do
        let name ← ofResult (reverseName target)
        if progress.writes name then return progress
        g name (← (afresh services.noted template).locate name))
      (fun progress state => Decided (has state.1) progress state.2)
      (fun state => Sound (has state.1) state.2) := by
  refine coincide_bind (P := fun name after => reverseName target = .ok name ∧ after = state)
    (coincide_ofResult hknown (fun name hname => ⟨hname, rfl⟩) (hdecided.orders.sound _)) ?_
  rintro name known₁ state₁ hknown₁ ⟨hname, rfl⟩
  have hreverse := isReverse_of_reverseName hname
  split
  · exact coincide_pure hknown₁ hdecided
  refine coincide_bind (coincide_locate (catalogs_noted h) hreverse hknown₁
    (P := fun found after => found = firstCandidate (has state₁.1) name ∧ after = state₁)
    ⟨rfl, rfl⟩) ?_
  rintro _ known₂ _ hknown₂ ⟨rfl, rfl⟩
  exact hfound name known₂ hreverse hknown₂

/-- The decision on what came is the same, remembered or not. -/
theorem coincide_add (h : services.Catalogs has) {state : σ × List Order}
    (hknown : Faithful known (has state.1))
    (hdecided : Decided (has state.1) progress state.2) :
    Coincide (fun state => has state.1) known state
      (addWith (remembering services.noted template) progress target)
      (addWith (afresh services.noted template) progress target)
      (fun progress state => Decided (has state.1) progress state.2)
      (fun state => Sound (has state.1) state.2) := by
  refine coincide_target h hknown hdecided fun name known hreverse hknown => ?_
  cases hfound : firstCandidate (has state.1) name with
  | some zone =>
    exact coincide_pure hknown (hdecided.concat ⟨zone, .replace (ptrRecord name target)⟩ hreverse
      hfound _)
  | none =>
    refine coincide_bind (coincide_create h hreverse hknown hfound hdecided) ?_
    rintro zone known after hknown ⟨hzone, hgrown⟩
    exact coincide_pure hknown (hgrown.concat ⟨zone, .replace (ptrRecord name target)⟩ hreverse
      hzone _)

/-- The decision on what went is the same, remembered or not. -/
theorem coincide_remove (h : services.Catalogs has) {state : σ × List Order}
    (hknown : Faithful known (has state.1))
    (hdecided : Decided (has state.1) progress state.2) :
    Coincide (fun state => has state.1) known state
      (removeWith (remembering services.noted template) progress target)
      (removeWith (afresh services.noted template) progress target)
      (fun progress state => Decided (has state.1) progress state.2)
      (fun state => Sound (has state.1) state.2) := by
  refine coincide_target h hknown hdecided fun name known hreverse hknown => ?_
  cases hfound : firstCandidate (has state.1) name with
  | none => exact coincide_pure hknown hdecided
  | some zone =>
    dsimp only
    split
    · exact coincide_pure hknown hdecided
    · exact coincide_pure hknown (hdecided.concat ⟨zone, .delete ⟨name, .named .ptr⟩⟩ hreverse
        hfound _)

/-- What is sent changes no catalog, and goes to where its names are found. -/
theorem coincide_send (h : services.Catalogs has) {batches : List (String × List Change)} :
    ∀ known (state : σ × List Order), Faithful known (has state.1) →
      Sound (has state.1) state.2 →
      (∀ batch ∈ batches, ∀ change ∈ batch.2,
        firstCandidate (has state.1) change.key.name = some batch.1) →
      Coincide (fun state => has state.1) known state (send services.noted batches)
        (send services.noted batches) (fun _ state => Sound (has state.1) state.2)
        (fun state => Sound (has state.1) state.2) := by
  induction batches with
  | nil => exact fun known state hknown hsound _ => coincide_pure hknown hsound
  | cons batch rest ih =>
    intro known state hknown hsound hbatches
    obtain ⟨zone, changes⟩ := batch
    obtain ⟨hfirst, hrest⟩ := List.forall_mem_cons.mp hbatches
    have hsent : ∀ result after,
        StateT.run (services.noted.patchRRsets zone changes) state = (result, after) →
        has after.1 = has state.1 ∧ Sound (has after.1) after.2 := by
      intro result after hrun
      obtain rfl := congrArg Prod.snd ((noted_patchRRsets_run zone changes state).symm.trans hrun)
      rw [h.patch]
      exact ⟨rfl, hsound.concat hfirst⟩
    refine coincide_bind
      (P := fun _ after => has after.1 = has state.1 ∧ Sound (has after.1) after.2)
      (coincide_callIn (fun _ after hrun => ?_) fun _ after hrun => (hsent _ after hrun).2) ?_
    · rw [(hsent _ after hrun).1]
      exact ⟨hknown, rfl, (hsent _ after hrun).1 ▸ (hsent _ after hrun).2⟩
    · rintro _ known after hknown ⟨hsame, hsound⟩
      exact ih known after hknown hsound (hsame ▸ hrest)

theorem coincide_count (h : services.Catalogs has) {state : σ × List Order} {series : Series}
    {n : Nat} {ε : Type} {E : σ × List Order → Prop} (hknown : Faithful known (has state.1))
    (hsound : Sound (has state.1) state.2) :
    Coincide (fun state => has state.1) known state
      (liftM (services.noted.count series n) : Locating (StateM (σ × List Order)) ε Unit)
      (liftM (services.noted.count series n)) (fun _ state => Sound (has state.1) state.2) E := by
  refine coincide_liftM ?_ ?_
  · rw [noted_count_run, h.count]
    exact hknown
  · rw [noted_count_run, h.count]
    exact hsound

theorem coincide_pass (h : services.Catalogs has) (template : ReverseZoneTemplate)
    (changes : PtrChanges) (hknown : Faithful known (has s)) :
    Coincide (fun state => has state.1) known (s, [])
      (pass services.noted template changes)
      (passWith services.noted (afresh services.noted template) changes)
      (fun _ state => Sound (has state.1) state.2)
      (fun state => Sound (has state.1) state.2) := by
  rw [← passWith_remembering]
  refine coincide_bind (coincide_foldlM (fun target _ progress known state hknown hdecided =>
    coincide_add h hknown hdecided) _ known (s, []) hknown (decided_empty (has s))) ?_
  intro progress known state hknown hdecided
  refine coincide_bind (coincide_foldlM (fun target _ progress known state hknown hdecided =>
    coincide_remove h hknown hdecided) _ known state hknown hdecided) ?_
  intro progress known state hknown hdecided
  refine coincide_bind (coincide_send h known state hknown (hdecided.orders.sound _)
    hdecided.batches) ?_
  intro _ known state hknown hsound
  refine coincide_bind (coincide_count h hknown hsound) ?_
  intro _ known state hknown hsound
  refine coincide_bind (coincide_count h hknown hsound) ?_
  intro _ known state hknown hsound
  exact coincide_pure hknown hsound

/-- **Remembering reverse zones changes no decision.**  On a catalog of zones that only the pass
extends, a pass that remembers gives the same orders as one that looks for every name afresh, with
the same result and the same state after it.  A zone that it creates is a candidate of no name of
an address with another narrowest candidate, and every change that it sends goes to the first
candidate of its name that is in the catalog in the end. -/
theorem pass_located_afresh (h : services.Catalogs has) (template : ReverseZoneTemplate)
    (changes : PtrChanges) (s : σ) :
    ∃ result known after orders,
      runLocating (pass services.noted template changes) [] (s, []) =
        (result, known, after, orders) ∧
      runLocating (passWith services.noted (afresh services.noted template) changes) [] (s, []) =
        (result, [], after, orders) ∧
      (∀ zone kind masters, .create zone kind masters ∈ orders → ∀ name, IsReverse name →
        zone ∈ zoneCandidates name → (zoneCandidates name).head? = some zone) ∧
      ∀ zone batch, .patch zone batch ∈ orders → ∀ change ∈ batch,
        (zoneCandidates change.key.name).find? (has after) = some zone := by
  obtain ⟨result, known, ⟨after, orders⟩, hrun, hafresh, hpost⟩ :=
    coincide_pass h template changes (faithful_nil (has s))
  have hsound : Sound (has after) orders := by
    cases result with
    | ok report => exact hpost.2
    | error e => exact hpost
  refine ⟨result, known, after, orders, hrun, hafresh, hsound.created, ?_⟩
  intro zone batch hmem change hchange
  have hfirst := hsound.patched zone batch hmem change hchange
  unfold firstCandidate at hfirst
  exact hfirst

end Pass

end ReverseSync

/-! ### The catalog of a sandbox -/

namespace Sandbox.Setup

open ReverseSync

/-- The zones of the nameserver in memory are a catalog, as long as asking for them never fails. -/
theorem catalogs {setup : Setup}
    (h : ∀ name, setup.faults.requests.lookup (.probe, name) = none) :
    setup.services.Catalogs fun box => box.server.hasZone where
  probe := fun name box => by
    show StateT.run (query setup.faults .probe name fun server => .ok (server.hasZone name)) box = _
    unfold query
    rw [h]
    rfl
  create := fun zone kind masters box after hzone hrun other hother => by
    rcases createZone_run hrun with ⟨-, e, hrefused⟩ | ⟨server, hcreate, rfl⟩
    · cases hrefused
    · rw [(Nameserver.of_create_ok hcreate).1 other, Nameserver.SameZone, hother, hzone]
  patch := fun zone changes box => by
    rcases hrun : StateT.run (setup.services.patchRRsets zone changes) box with ⟨result, after⟩
    rcases patchRRsets_run hrun with ⟨rfl, -⟩ | ⟨server, hpatch, rfl⟩
    · rfl
    · funext other
      cases result with
      | ok _ => exact (Nameserver.of_patch_ok hpatch).1 other
      | error e =>
        exact congrArg Option.isSome ((Nameserver.untouched_of_patch_error hpatch).zone? other)
  count := fun _ _ _ => rfl

/-- Two addresses with one narrowest candidate, an address that has only a wider zone, and one
that went and has none. -/
theorem pass_located_afresh_threeZones :
    let services := (plain ⟨false, true, [.named .a]⟩).services
    let box := Sandbox.serving "168.192.in-addr.arpa" []
    let changes : PtrChanges :=
      { additions := [⟨"a.example.com.", "192.0.2.1", 300⟩, ⟨"b.example.com.", "192.0.2.2", 300⟩,
          ⟨"c.example.com.", "192.168.7.3", 300⟩]
        removals := [⟨"d.example.com.", "2001:db8::1", 300⟩] }
    services.Catalogs (fun box => box.server.hasZone) ∧
    ∃ result known after orders,
      runLocating (pass services.noted .default changes) [] (box, []) =
        (result, known, after, orders) ∧
      runLocating (passWith services.noted (afresh services.noted .default) changes) []
        (box, []) = (result, [], after, orders) ∧
      (∀ zone kind masters, .create zone kind masters ∈ orders → ∀ name, IsReverse name →
        zone ∈ zoneCandidates name → (zoneCandidates name).head? = some zone) ∧
      ∀ zone batch, .patch zone batch ∈ orders → ∀ change ∈ batch,
        (zoneCandidates change.key.name).find? after.server.hasZone = some zone :=
  ⟨catalogs fun _ => rfl, pass_located_afresh (catalogs fun _ => rfl) .default _ _⟩

end Sandbox.Setup

end ZoneKeeper
