/-
Changes that are sent to a nameserver and what it finds in them.

A request sends its changes as the items of one array.  Each item is read twice: as a record set,
by a reader that does not ask for the way of change, and for the way of change alone.  What a
deletion leaves out is what the reader puts in for an absent field.  So the record set that is read
is the one that was sent, or the bare key of one that goes, whatever else the change had of it
(`Change.carried`).  Nothing else of a change is sent, so two requests send the same text exactly
if their changes agree in that and in their ways.
-/
import ZoneKeeper.Change
import ZoneKeeper.Proofs.Stored

namespace ZoneKeeper

open Json

/-! ### One change -/

/-- The way of change that an item of a request names. -/
def ChangeType.ofItem? (item : Json) : Option ChangeType := do
  (← item.fields? ["changetype"]).required? "changetype"

namespace Change

variable {change other : Change}

/-- What a change says of its record set: all of it, or the key only of one that is deleted. -/
def carried (change : Change) : RRset :=
  match change.type with
  | .replace => change.rrset
  | .delete => .bare change.key

/-- Two changes of one way to record sets with one key, and with one content unless they go. -/
structure Alike (change other : Change) : Prop where
  type : change.type = other.type
  key : change.key = other.key
  rrset : change.type = .replace → change.rrset = other.rrset

theorem key_carried (change : Change) : change.carried.key = change.key := by
  unfold carried
  cases change.type <;> rfl

theorem alike_iff :
    change.Alike other ↔ change.type = other.type ∧ change.carried = other.carried := by
  constructor
  · intro ⟨htype, hkey, hrrset⟩
    refine ⟨htype, ?_⟩
    unfold carried
    rw [← htype, hkey]
    cases h : change.type with
    | replace => exact hrrset h
    | delete => rfl
  · intro ⟨htype, hcarried⟩
    refine ⟨htype, ?_, fun hreplace => ?_⟩
    · rw [← key_carried, hcarried, key_carried]
    · unfold carried at hcarried
      rwa [← htype, hreplace] at hcarried

/-- What a change does not say of its record set is not written. -/
theorem toJson_carried (change : Change) :
    toJson (⟨change.type, change.carried⟩ : Change) = toJson change := by
  obtain ⟨type, rrset⟩ := change
  cases type <;> rfl

theorem toJson_congr (h : change.Alike other) : toJson change = toJson other := by
  obtain ⟨htype, hcarried⟩ := alike_iff.mp h
  rw [← toJson_carried change, ← toJson_carried other, htype, hcarried]

theorem ofItem?_toJson (change : Change) :
    ChangeType.ofItem? (toJson change) = some change.type := by
  obtain ⟨type, rrset⟩ := change
  have hfields : (toJson (⟨type, rrset⟩ : Change)).fields? ["changetype"] =
      some [("changetype", toJson type)] := by
    cases type <;> exact fields?_object_eq_some_iff.mpr ⟨_, rfl, by simp, by simp⟩
  rw [ChangeType.ofItem?, hfields]
  cases type <;> rfl

/-- What is written of a change is read as what it says of the record set, but for the type, which
is read as a report. -/
theorem ofJson?_toJson (change : Change) : ofJson? (toJson change) =
    (RRType.ofReport? change.rrset.type.mnemonic).map fun type => { change.carried with type } := by
  obtain ⟨type, rrset⟩ := change
  cases type with
  | replace =>
    rw [carried, ← rrset.ofJson?_toJson]
    have hfields : (toJson (⟨.replace, rrset⟩ : Change)).fields?
        ["name", "type", "ttl", "records", "comments"] =
        (toJson rrset).fields? ["name", "type", "ttl", "records", "comments"] := by
      rw [rrset.fields?_toJson]
      exact fields?_object_eq_some_iff.mpr ⟨_, rfl, by simp; rfl, by simp⟩
    simp only [ofJson?, hfields]
  | delete =>
    have hfields : (toJson (⟨.delete, rrset⟩ : Change)).fields?
        ["name", "type", "ttl", "records", "comments"] =
        some [("name", toJson rrset.name), ("type", toJson rrset.type),
          ("records", .array [])] :=
      fields?_object_eq_some_iff.mpr ⟨_, rfl, by simp, by simp⟩
    simp only [ofJson?, hfields, Option.bind_eq_bind, Option.bind_some]
    rw [required?_restored (restored_string rrset.type.mnemonic) rfl, Option.bind_some,
      required?_restored (restored_string rrset.name) rfl]
    cases RRType.ofReport? rrset.type.mnemonic <;> rfl

/-- A record set of a reported type is read as what the change says of it. -/
theorem ofJson?_of_reported (h : change.rrset.IsReported) :
    ofJson? (toJson change) = some change.carried := by
  obtain ⟨s, hs⟩ := h
  rw [ofJson?_toJson, RRType.ofReport?_mnemonic hs, Option.map_some]
  obtain ⟨type, rrset⟩ := change
  cases type <;> rfl

theorem writable (change : Change) : (toJson change).Writable := by
  obtain ⟨type, rrset⟩ := change
  have hname := (restored_string rrset.name).writable
  have htype : (toJson rrset.type).Writable := (restored_string rrset.type.mnemonic).writable
  have hway : (toJson type).Writable := (restored_string type.label).writable
  have httl := (restored_uint32 rrset.ttl).writable
  have hrecords : (toJson rrset.records).Writable := writable_list fun v _ => v.restored.writable
  have hcomments : (toJson rrset.comments).Writable :=
    writable_list fun c _ => c.restored.writable
  cases type with
  | replace =>
    exact writable_ofFields (by simp [hname, htype, hway, httl, hrecords, hcomments])
  | delete =>
    have hempty : (array []).Writable := trivial
    exact writable_ofFields (by simp [hname, htype, hway, hempty])

/-! ### All changes of a request -/

variable {changes others : List Change}

theorem patchBody_eq (changes : List Change) :
    patchBody changes = ofFields [("rrsets", .array (changes.map toJson))] := rfl

theorem parse?_patchBody (changes : List Change) : parse? (patchBody changes).compact =
    some (ofFields [("rrsets", .array (changes.map toJson))]) := by
  have hwritable : (toJson changes).Writable := writable_list fun change _ => change.writable
  exact parse?_compact (writable_ofFields (by simp [hwritable]))

theorem mapM_ofItem?_toJson (changes : List Change) :
    (changes.map toJson).mapM ChangeType.ofItem? = some (changes.map Change.type) := by
  rw [List.mapM_map]
  exact mapM_eq_some fun change _ => change.ofItem?_toJson

theorem mapM_ofJson?_toJson (h : ∀ change ∈ changes, change.rrset.IsReported) :
    (changes.map toJson).mapM ofJson? = some (changes.map carried) := by
  rw [List.mapM_map]
  exact mapM_eq_some fun change hchange => ofJson?_of_reported (h change hchange)

theorem forall₂_alike_iff : List.Forall₂ Alike changes others ↔
    changes.map Change.type = others.map Change.type ∧
      changes.map carried = others.map carried := by
  induction changes generalizing others with
  | nil => cases others <;> simp
  | cons change changes ih =>
    cases others with
    | nil => simp
    | cons other others =>
      rw [List.forall₂_cons, alike_iff, ih]
      simp only [List.map_cons, List.cons.injEq]
      constructor
      · intro ⟨⟨htype, hcarried⟩, htypes, hcarrieds⟩
        exact ⟨⟨htype, htypes⟩, hcarried, hcarrieds⟩
      · intro ⟨⟨htype, htypes⟩, hcarried, hcarrieds⟩
        exact ⟨⟨htype, hcarried⟩, htypes, hcarrieds⟩

theorem map_toJson_congr (h : List.Forall₂ Alike changes others) :
    changes.map toJson = others.map toJson := by
  induction h with
  | nil => rfl
  | cons hchange _ ih => rw [List.map_cons, List.map_cons, toJson_congr hchange, ih]

/-- **A request carries its changes.**  Its text is read as one array, and from the items of the
array are read the way of every change, and the record set of every one that replaces it, and the
bare key of every one that deletes it, as long as their types were reported.  Two requests have the
same text exactly if their changes agree one by one in the way and the key, and in the record sets
that replace others. -/
theorem patchBody_carries (changes : List Change)
    (h : ∀ change ∈ changes, change.rrset.IsReported) :
    ∃ items, parse? (patchBody changes).compact = some (ofFields [("rrsets", .array items)]) ∧
      items.mapM ChangeType.ofItem? = some (changes.map Change.type) ∧
      items.mapM ofJson? = some (changes.map carried) ∧
      ∀ others : List Change, (∀ other ∈ others, other.rrset.IsReported) →
        ((patchBody changes).compact = (patchBody others).compact ↔
          List.Forall₂ Alike changes others) := by
  refine ⟨_, parse?_patchBody changes, mapM_ofItem?_toJson changes, mapM_ofJson?_toJson h, ?_⟩
  intro others hothers
  constructor
  · intro htext
    have hread := (parse?_patchBody changes).symm.trans (htext ▸ parse?_patchBody others)
    have hitems : changes.map toJson = others.map toJson := by
      simpa [ofFields] using hread
    have htypes := (mapM_ofItem?_toJson changes).symm.trans (hitems ▸ mapM_ofItem?_toJson others)
    have hcarried := (mapM_ofJson?_toJson h).symm.trans (hitems ▸ mapM_ofJson?_toJson hothers)
    exact forall₂_alike_iff.mpr ⟨Option.some.inj htypes, Option.some.inj hcarried⟩
  · intro halike
    rw [patchBody_eq, patchBody_eq, map_toJson_congr halike]

/-- A record set of an unfamiliar type, with a value and a comment that are escaped. -/
def unfamiliar : RRset :=
  ⟨"\"a\\b\".example.com.", RRType.ofMnemonic "X-NEW", 4294967295, [⟨"line\nline\u0001", true⟩],
    [⟨"\u2028", ""⟩]⟩

/-- A deletion that was made from a record set with content sends what one of its key sends. -/
theorem patchBody_carries_unfamiliar :
    let changes := [replace unfamiliar, ⟨.delete, unfamiliar⟩]
    let others := [replace unfamiliar, delete unfamiliar.key]
    (∀ change ∈ changes, change.rrset.IsReported) ∧
      (∀ other ∈ others, other.rrset.IsReported) ∧
      (∃ items, parse? (patchBody changes).compact = some (ofFields [("rrsets", .array items)]) ∧
        items.mapM ChangeType.ofItem? = some [.replace, .delete] ∧
        items.mapM ofJson? = some [unfamiliar, RRset.bare unfamiliar.key]) ∧
      (patchBody changes).compact = (patchBody others).compact := by
  intro changes others
  have hone : unfamiliar.IsReported := ⟨" x-new", by decide +kernel⟩
  have hchanges : ∀ change ∈ changes, change.rrset.IsReported :=
    List.forall_mem_cons.mpr ⟨hone, List.forall_mem_singleton.mpr hone⟩
  have hothers : ∀ other ∈ others, other.rrset.IsReported :=
    List.forall_mem_cons.mpr ⟨hone, List.forall_mem_singleton.mpr hone⟩
  obtain ⟨items, hitems, htypes, hrrsets, htext⟩ := patchBody_carries changes hchanges
  have hdelete : Alike ⟨.delete, unfamiliar⟩ (delete unfamiliar.key) :=
    ⟨rfl, rfl, fun hreplace => nomatch hreplace⟩
  exact ⟨hchanges, hothers, ⟨items, hitems, htypes, hrrsets⟩,
    (htext others hothers).mpr (.cons ⟨rfl, rfl, fun _ => rfl⟩ (.cons hdelete .nil))⟩

end Change
end ZoneKeeper
