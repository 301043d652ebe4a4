/-
Where the reverse zone of a name is.

A reverse name is located in the first of its candidates that exists.  The narrowest candidate
says what all the others are, and it is a candidate of no name with another narrowest one.  So
remembering a location under the narrowest candidate is right for every name that is looked up
there, and a zone that is created for one name moves no other name that was located already.

How a failure is told says where it came from.  While zones are looked for and founded nothing is
sent, and no failure is told in words that begin like those for a patch.
-/
import Mathlib.Data.List.Find
import ZoneKeeper.Proofs.ReverseLabels
import ZoneKeeper.Proofs.ReversePass

namespace ZoneKeeper

open ReverseName DomainName

/-! ### Narrowest candidates -/

namespace ReverseName

variable {name other narrowest : String}

/-- The reverse name of some address. -/
def IsReverse (name : String) : Prop :=
  ∃ address, ofAddress address = name

theorem isReverse_of_ofContent? {content : String} (h : ofContent? content = some name) :
    IsReverse name := by
  obtain ⟨address, -, rfl⟩ := Option.map_eq_some_iff.mp h
  exact ⟨address, rfl⟩

theorem IsReverse.inTree (h : IsReverse name) {zone : String} (hzone : zone ∈ zoneCandidates name) :
    InTree zone := by
  obtain ⟨address, rfl⟩ := h
  exact inTree_of_mem_zoneCandidates hzone

theorem IsReverse.relative_candidate (h : IsReverse name) {zone : String}
    (hzone : zone ∈ zoneCandidates name) : relative zone = zone := by
  obtain ⟨address, rfl⟩ := h
  exact relative_of_mem_zoneCandidates hzone

/-- Every reverse name has a narrowest candidate. -/
theorem IsReverse.exists_narrowest (h : IsReverse name) :
    ∃ narrowest, (zoneCandidates name).head? = some narrowest := by
  obtain ⟨address, rfl⟩ := h
  cases hcandidates : zoneCandidates (ofAddress address) with
  | nil => exact absurd hcandidates (zoneCandidates_ne_nil address)
  | cons narrowest wider => exact ⟨narrowest, rfl⟩

/-- Which tree a reverse name is in says how many labels it has. -/
theorem sizes_of_treeOf_eq {a b : Address} (h : labels (treeOf a) = labels (treeOf b)) :
    depth a = depth b ∧ (addressLabels a).length = (addressLabels b).length := by
  have hne : labels ipv4Tree ≠ labels ipv6Tree := by decide
  rw [length_addressLabels, length_addressLabels]
  cases a with
  | v4 a =>
    cases b with
    | v4 b => exact ⟨rfl, rfl⟩
    | v6 b => exact absurd h hne
  | v6 a =>
    cases b with
    | v4 b => exact absurd h.symm hne
    | v6 b => exact ⟨rfl, rfl⟩

/-- At least one label is left out of a name, and at least one above the tree is kept. -/
theorem depth_bounds (address : Address) :
    1 ≤ depth address ∧ depth address < (addressLabels address).length := by
  rw [length_addressLabels]
  cases address <;> simp [depth]

/-- Only names in one tree have a candidate in common. -/
theorem labels_treeOf_eq_of_mem {a b : Address} {zone : String}
    (ha : zone ∈ zoneCandidates (ofAddress a)) (hb : zone ∈ zoneCandidates (ofAddress b)) :
    labels (treeOf a) = labels (treeOf b) := by
  have hlength : (labels (treeOf a)).length = (labels (treeOf b)).length := by
    rw [length_labels_of_mem_trees (treeOf_mem a), length_labels_of_mem_trees (treeOf_mem b)]
  exact (List.suffix_of_suffix_length_le (labels_treeOf_suffix_of_mem_zoneCandidates ha)
    (labels_treeOf_suffix_of_mem_zoneCandidates hb) hlength.le).eq_of_length hlength

/-- A candidate has the labels of the name that it leaves. -/
theorem labels_candidate (address : Address) {stripped : Nat} (h : stripped ≤ depth address) :
    labels (ofLabels ((addressLabels address ++ labels (treeOf address)).drop stripped)) =
      (addressLabels address ++ labels (treeOf address)).drop stripped := by
  refine labels_ofLabels ?_ fun label hlabel => ?_
  · have hshort := (depth_bounds address).2
    rw [Ne, List.drop_eq_nil_iff, List.length_append]
    omega
  · rw [← labels_relativeName] at hlabel
    exact not_dot_mem_of_mem_labels (List.mem_of_mem_drop hlabel)

/-- **A narrowest candidate is a candidate of no names but those that share all of theirs.** -/
theorem zoneCandidates_eq_of_narrowest_mem (hname : IsReverse name) (hother : IsReverse other)
    (hnarrowest : (zoneCandidates name).head? = some narrowest)
    (hmem : narrowest ∈ zoneCandidates other) : zoneCandidates other = zoneCandidates name := by
  obtain ⟨a, rfl⟩ := hname
  obtain ⟨b, rfl⟩ := hother
  have htrees : labels (treeOf a) = labels (treeOf b) :=
    labels_treeOf_eq_of_mem (List.mem_of_mem_head? hnarrowest) hmem
  obtain ⟨hdepth, hlength⟩ := sizes_of_treeOf_eq htrees
  obtain ⟨hdeep, hshort⟩ := depth_bounds a
  have hfirst : ofLabels ((addressLabels a ++ labels (treeOf a)).drop 1) = narrowest := by
    rw [zoneCandidates_ofAddress, List.head?_map, List.head?_range'] at hnarrowest
    simpa [show depth a ≠ 0 by omega] using hnarrowest
  rw [zoneCandidates_ofAddress] at hmem
  obtain ⟨stripped, hrange, hzone⟩ := List.mem_map.mp hmem
  rw [List.mem_range'_1] at hrange
  have hlabels : (addressLabels b ++ labels (treeOf b)).drop stripped =
      (addressLabels a ++ labels (treeOf a)).drop 1 := by
    rw [← labels_candidate a hdeep, ← labels_candidate b (by omega), hzone, hfirst]
  have hone : stripped = 1 := by
    have hcount := congrArg List.length hlabels
    simp only [List.length_drop, List.length_append, ← htrees, ← hlength] at hcount
    omega
  subst hone
  rw [zoneCandidates_ofAddress, zoneCandidates_ofAddress, ← hdepth]
  refine List.map_congr_left fun s hs => ?_
  rw [List.mem_range'_1] at hs
  obtain ⟨rest, rfl⟩ := Nat.exists_eq_add_of_le hs.1
  rw [← List.drop_drop, ← List.drop_drop, hlabels]

end ReverseName

/-! ### Locations -/

namespace Nameserver

variable {server middle after : Nameserver} {name other zone : String} {zones : List String}

/-- The narrowest reverse zone of a name that exists, if any does. -/
@[irreducible]
def location (server : Nameserver) (name : String) : Option String :=
  (zoneCandidates name).find? server.hasZone

theorem location_eq_some (h : server.location name = some zone) :
    zone ∈ zoneCandidates name ∧ server.hasZone zone = true := by
  unfold location at h
  exact ⟨List.mem_of_find?_eq_some h, List.find?_some h⟩

theorem location_eq_none :
    server.location name = none ↔ ∀ zone ∈ zoneCandidates name, server.hasZone zone = false := by
  unfold location
  exact List.find?_eq_none.trans (forall₂_congr fun zone _ => Bool.eq_false_iff.symm)

/-- Names that share their candidates are located in the same zone. -/
theorem location_eq_of_candidates (h : zoneCandidates name = zoneCandidates other) :
    server.location name = server.location other := by
  unfold location
  exact congrArg (List.find? server.hasZone) h

theorem location_congr
    (h : ∀ zone ∈ zoneCandidates name, after.hasZone zone = server.hasZone zone) :
    after.location name = server.location name := by
  unfold location
  exact List.find?_congr h

theorem location_of_narrowest (hnarrowest : (zoneCandidates name).head? = some zone)
    (hzone : server.hasZone zone = true) : server.location name = some zone := by
  obtain ⟨wider, hcandidates⟩ := List.head?_eq_some_iff.mp hnarrowest
  unfold location
  rw [hcandidates, List.find?_cons, hzone]

/-! ### Founding zones -/

/-- Zones were founded and nothing else was done.  Each is empty, and is the narrowest candidate
of a reverse name that had no reverse zone. -/
structure Founded (server after : Nameserver) (zones : List String) : Prop where
  hasZone : ∀ other,
    after.hasZone other = true ↔ server.hasZone other = true ∨ relative other ∈ zones
  rrsetsOf : ∀ other, after.rrsetsOf other = server.rrsetsOf other
  narrowest : ∀ zone ∈ zones, ∃ name, IsReverse name ∧ server.location name = none ∧
    (zoneCandidates name).head? = some zone

theorem Founded.refl (server : Nameserver) : Founded server server [] :=
  ⟨by simp, fun _ => rfl, by simp⟩

theorem Founded.location_none (h : Founded server after zones)
    (hnone : after.location name = none) : server.location name = none := by
  rw [location_eq_none] at hnone ⊢
  intro zone hzone
  refine Bool.eq_false_iff.mpr fun hserved => ?_
  have hkept := (h.hasZone zone).mpr (Or.inl hserved)
  rw [hnone zone hzone] at hkept
  cases hkept

/-- A zone that is created where none was found is one more that was founded. -/
theorem Founded.create {type : String} (h : Founded server middle zones) (hname : IsReverse name)
    (hnone : middle.location name = none) (hnarrowest : (zoneCandidates name).head? = some zone)
    (hcreate : middle.create zone type = (.ok (), after)) :
    Founded server after (zones ++ [zone]) := by
  obtain ⟨hhas, hrrsets⟩ := of_create_ok hcreate
  have hzone : relative zone = zone := hname.relative_candidate (List.mem_of_mem_head? hnarrowest)
  refine ⟨fun other => ?_, fun other => (hrrsets other).trans (h.rrsetsOf other),
    List.forall_mem_append.mpr ⟨h.narrowest, List.forall_mem_singleton.mpr
      ⟨name, hname, h.location_none hnone, hnarrowest⟩⟩⟩
  rw [hhas, h.hasZone, SameZone, hzone, List.mem_append, List.mem_singleton, or_assoc]

section Location

variable (h : Founded server after zones) (hname : IsReverse name)
include h hname

/-- A name none of whose candidates was founded is located where it was. -/
theorem Founded.location_of_disjoint (hdisjoint : ∀ zone ∈ zones, zone ∉ zoneCandidates name) :
    after.location name = server.location name := by
  refine location_congr fun zone hzone => ?_
  rw [Bool.eq_iff_iff, h.hasZone, hname.relative_candidate hzone]
  exact or_iff_left fun hfounded => hdisjoint zone hfounded hzone

/-- A name shares its candidates with no founded zone, or had no reverse zone and has it now. -/
theorem Founded.location_of_mem (hzone : zone ∈ zones) (hmem : zone ∈ zoneCandidates name) :
    server.location name = none ∧ after.location name = some zone ∧
      (zoneCandidates name).head? = some zone := by
  obtain ⟨first, hfirst, hnone, hnarrowest⟩ := h.narrowest zone hzone
  have hsame := zoneCandidates_eq_of_narrowest_mem hfirst hname hnarrowest hmem
  rw [← hsame] at hnarrowest
  refine ⟨(location_eq_of_candidates hsame).trans hnone, location_of_narrowest hnarrowest ?_,
    hnarrowest⟩
  rw [h.hasZone, hname.relative_candidate hmem]
  exact Or.inr hzone

/-- **A name that is located stays where it is.** -/
theorem Founded.location_of_some (hlocated : server.location name = some zone) :
    after.location name = some zone := by
  rw [h.location_of_disjoint hname, hlocated]
  intro founded hfounded hmem
  rw [(h.location_of_mem hname hfounded hmem).1] at hlocated
  cases hlocated

/-- **A name that comes to be located is so in its narrowest candidate, which was founded.** -/
theorem Founded.location_of_none (hnone : server.location name = none)
    (hlocated : after.location name = some zone) :
    zone ∈ zones ∧ (zoneCandidates name).head? = some zone := by
  obtain ⟨hmem, hserved⟩ := location_eq_some hlocated
  rw [h.hasZone, hname.relative_candidate hmem] at hserved
  rcases hserved with hold | hfounded
  · rw [location_eq_none.mp hnone zone hmem] at hold
    cases hold
  · exact ⟨hfounded, (h.location_of_mem hname hfounded hmem).2.2⟩

end Location

end Nameserver

/-! ### Failures before anything is sent -/

namespace ReverseSync

/-- The failure is told in words that begin otherwise than those for a patch. -/
def Unsent (message : String) : Prop :=
  ∃ c, message.toList.head? = some c ∧ c ≠ 'r'

theorem Unsent.append {message : String} (h : Unsent message) (rest : String) :
    Unsent (message ++ rest) := by
  obtain ⟨c, hhead, hc⟩ := h
  refine ⟨c, ?_, hc⟩
  rw [String.toList_append, List.head?_append, hhead]
  rfl

theorem not_unsent_reverseZone (rest : String) : ¬Unsent ("reverse zone " ++ rest) := by
  rintro ⟨c, hhead, hc⟩
  rw [String.toList_append] at hhead
  exact hc (Option.some.inj hhead).symm

theorem unsent_of_reverseName {target : PtrTarget} {e : String}
    (h : reverseName target = .error e) : Unsent e := by
  unfold reverseName at h
  split at h
  · cases h
  · obtain rfl := Except.error.inj h
    have hquote : Unsent "'" := ⟨_, rfl, by decide⟩
    exact (((hquote.append _).append _).append _).append _

/-! ### Looking for zones and founding them -/

/-- What is remembered under a narrowest candidate is where its names are located. -/
def Accurate (known : Locations) (server : Nameserver) : Prop :=
  ∀ name narrowest found, IsReverse name → (zoneCandidates name).head? = some narrowest →
    known.lookup narrowest = some found → found = server.location name

variable {setup : Sandbox.Setup} {known : Locations} {box : Sandbox} {server after : Nameserver}
  {name narrowest : String}

theorem accurate_nil (server : Nameserver) : Accurate [] server := by
  intro name narrowest found _ _ hlookup
  simp at hlookup

theorem Accurate.remember (h : Accurate known server) (hname : IsReverse name)
    (hnarrowest : (zoneCandidates name).head? = some narrowest) :
    Accurate ((narrowest, server.location name) :: known) server := by
  intro other first found hother hfirst hlookup
  rw [List.lookup_cons] at hlookup
  split at hlookup
  · next hsame =>
    obtain rfl : first = narrowest := eq_of_beq hsame
    obtain rfl := Option.some.inj hlookup
    exact Nameserver.location_eq_of_candidates
      (zoneCandidates_eq_of_narrowest_mem hother hname hfirst (List.mem_of_mem_head? hnarrowest))
  · exact h other first found hother hfirst hlookup

/-- A zone that was founded is remembered, and the names that were located stay where they are. -/
theorem Accurate.found (h : Accurate known server)
    (hfounded : server.Founded after [narrowest]) :
    Accurate ((narrowest, some narrowest) :: known) after := by
  intro other first found hother hfirst hlookup
  rw [List.lookup_cons] at hlookup
  split at hlookup
  · next hsame =>
    obtain rfl : first = narrowest := eq_of_beq hsame
    obtain rfl := Option.some.inj hlookup
    exact (hfounded.location_of_mem hother List.mem_cons_self
      (List.mem_of_mem_head? hfirst)).2.1.symm
  · next hne =>
    rw [h other first found hother hfirst hlookup]
    refine (hfounded.location_of_disjoint hother fun zone hzone hmem => ?_).symm
    -- the founded zone would be the narrowest candidate of the name
    have hhead := (hfounded.location_of_mem hother hzone hmem).2.2
    rw [List.mem_singleton.mp hzone, hfirst] at hhead
    simp [Option.some.inj hhead] at hne

theorem ends_firstExisting (zones : List String) (known : Locations) (box : Sandbox) :
    Ends known box (firstExisting setup.services.toControlApi zones)
      (fun found known' box' => known' = known ∧ box' = box ∧
        found = zones.find? box.server.hasZone)
      fun _ _ _ => True := by
  induction zones with
  | nil => exact ends_pure ⟨rfl, rfl, rfl⟩
  | cons zone zones ih =>
    refine ends_bind (ends_call (answers_of_run fun answer after hrun => ?_))
    obtain ⟨rfl, ⟨-, rfl⟩ | ⟨e, rfl⟩⟩ := Sandbox.Setup.zoneExists_run hrun
    · simp only [List.find?_cons]
      cases after.server.hasZone zone with
      | true => exact ends_pure ⟨rfl, rfl, rfl⟩
      | false => exact ih
    · trivial

/-- **A name is looked up where it is located.** -/
theorem ends_locate (hname : IsReverse name) (hknown : Accurate known box.server) :
    Ends known box (locate setup.services.toControlApi name)
      (fun found known' box' => box' = box ∧ Accurate known' box.server ∧
        found = box.server.location name)
      fun e _ _ => Unsent e := by
  obtain ⟨narrowest, hnarrowest⟩ := hname.exists_narrowest
  obtain ⟨wider, hcandidates⟩ := List.head?_eq_some_iff.mp hnarrowest
  have hwords : Unsent "locating reverse zone for " := ⟨_, rfl, by decide⟩
  have htold : ∀ e : ApiError, Unsent s!"locating reverse zone for {name}: {e.message}" :=
    fun e => ((hwords.append _).append _).append _
  refine ends_adapt ?_
  unfold findReverseZone
  rw [hcandidates]
  refine ends_bind (ends_get ?_)
  cases hlookup : known.lookup narrowest with
  | some found => exact ends_pure ⟨rfl, hknown, hknown name _ found hname hnarrowest hlookup⟩
  | none =>
    refine ends_bind ((ends_firstExisting (narrowest :: wider) known box).mono ?_
      fun e _ _ _ => htold e)
    rintro found known₁ box₁ ⟨rfl, rfl, hfound⟩
    obtain rfl : found = box₁.server.location name := by
      unfold Nameserver.location
      rw [hfound, hcandidates]
    exact ends_bind (ends_remember (ends_pure ⟨rfl, hknown.remember hname hnarrowest, rfl⟩))

/-- A name without a reverse zone gets its narrowest candidate. -/
theorem ends_createNarrowest (hname : IsReverse name) (hknown : Accurate known box.server)
    (hnone : box.server.location name = none) :
    Ends known box (createNarrowest setup.services setup.reverseZones name)
      (fun zone known' box' => Accurate known' box'.server ∧
        (zoneCandidates name).head? = some zone ∧ ∃ type,
          box.server.create zone type = (.ok (), box'.server))
      fun e _ _ => Unsent e := by
  obtain ⟨narrowest, hnarrowest⟩ := hname.exists_narrowest
  obtain ⟨wider, hcandidates⟩ := List.head?_eq_some_iff.mp hnarrowest
  have hwords : Unsent "creating reverse zone " := ⟨_, rfl, by decide⟩
  unfold createNarrowest
  rw [hcandidates]
  refine ends_bind (ends_adapt (ends_call (answers_of_run fun result after hrun => ?_)))
  cases result with
  | error e => exact ((hwords.append _).append _).append _
  | ok _ =>
    rcases Sandbox.Setup.createZone_run hrun with ⟨-, e, hrefused⟩ | ⟨server, hcreate, rfl⟩
    · cases hrefused
    have hfound : Accurate ((narrowest, some narrowest) :: known) server :=
      hknown.found ((Nameserver.Founded.refl _).create hname hnone hnarrowest hcreate)
    refine ends_bind (ends_liftM (answers_of_run fun _ counted hcount => ?_))
    cases hcount
    exact ends_bind (ends_remember (ends_pure ⟨hfound, rfl, _, hcreate⟩))

end ReverseSync

end ZoneKeeper
