/-
The changes of values are a partition of them.

As long as no content is written twice in either list there is exactly one change for every content
that occurs, and it carries every value of that content: so no old value and no new one is listed
twice or left out, and a change has an old side only if there was one.

What makes this so is that the three passes list distinct contents.  The first is about old contents
and lists each once, the second about contents that are not old, and what the third lists has been
passed over by the first and kept from the second.
-/
import ZoneKeeper.Proofs.ValueChanges

namespace ZoneKeeper

/-- What passes twice was there before, in the same order. -/
theorem filterMap_filterMap_sublist {α β γ : Type} {f : α → Option β} {g : β → Option γ} {h : α → γ}
    {xs : List α} (hsame : ∀ x ∈ xs, ∀ y, f x = some y → g y = some (h x)) :
    ((xs.filterMap f).filterMap g).Sublist (xs.map h) := by
  induction xs with
  | nil => exact .slnil
  | cons x xs ih =>
    have hrest := ih fun y hy => hsame y (List.mem_cons_of_mem x hy)
    cases hx : f x with
    | none =>
      rw [List.filterMap_cons_none hx]
      exact hrest.cons (h x)
    | some y =>
      rw [List.filterMap_cons_some hx,
        List.filterMap_cons_some (hsame x List.mem_cons_self y hx)]
      exact hrest.cons_cons (h x)

namespace ValueChange

/-- The content that a change is about. -/
def content : ValueChange → String
  | addition new => new.content
  | deletion old => old.content
  | status old _ => old.content
  | unchanged value => value.content

/-- The changes tell what became of the old values and where the new ones come from. -/
structure Partitions (old new : List RecordValue) (changes : List ValueChange) : Prop where
  /-- Every old value is on the old side of one change. -/
  old_side : (changes.filterMap old?).Perm old
  /-- Every new value is on the new side of one change. -/
  new_side : (changes.filterMap new?).Perm new
  deletion : ∀ o ∈ old, (∀ v ∈ new, v.content ≠ o.content) →
    changes.filter (fun change => change.content = o.content) = [.deletion o]
  addition : ∀ v ∈ new, (∀ o ∈ old, o.content ≠ v.content) →
    changes.filter (fun change => change.content = v.content) = [.addition v]
  status : ∀ o ∈ old, ∀ v ∈ new, v.content = o.content → v.disabled ≠ o.disabled →
    changes.filter (fun change => change.content = o.content) = [.status o v]
  unchanged : ∀ o ∈ old, ∀ v ∈ new, v.content = o.content → v.disabled = o.disabled →
    o = v ∧ changes.filter (fun change => change.content = v.content) = [.unchanged v]
  /-- What was deleted or has another status comes first, in the old order, then what was added and
  then what stays, both in the new order. -/
  ordered : ∃ (fates : List ValueChange) (came stayed : List RecordValue),
    changes = fates ++ came.map .addition ++ stayed.map .unchanged ∧
      (∀ change ∈ fates, (∃ o, change = .deletion o) ∨ ∃ o v, change = .status o v) ∧
      (fates.filterMap old?).Sublist old ∧ came.Sublist new ∧ stayed.Sublist new

end ValueChange

variable {old new : List RecordValue} {o v : RecordValue} {change : ValueChange}

/-! ### One change for every content -/

theorem RecordValue.stays_iff (hold : (old.map content).Nodup) : v.Stays old ↔ v ∈ old := by
  constructor
  · rintro ⟨⟨o, ho, hcontent⟩, hsame⟩
    exact hsame o ho hcontent ▸ ho
  · intro hv
    exact ⟨⟨v, hv, rfl⟩, fun o ho hcontent => List.inj_on_of_nodup_map hold ho hv hcontent⟩

/-- An old value that does not stay was deleted or has another status. -/
theorem RecordValue.eq_of_fate? (h : o.fate? new = some change) :
    change = .deletion o ∨ ∃ v, change = .status o v := by
  unfold fate? at h
  split at h
  · split at h
    · contradiction
    · exact .inr ⟨_, (Option.some.inj h).symm⟩
  · exact .inl (Option.some.inj h).symm

theorem RecordValue.old?_of_fate? (h : o.fate? new = some change) : change.old? = some o := by
  rcases eq_of_fate? h with rfl | ⟨v, rfl⟩ <;> rfl

theorem RecordValue.content_of_fate? (h : o.fate? new = some change) :
    change.content = o.content := by
  rcases eq_of_fate? h with rfl | ⟨v, rfl⟩ <;> rfl

/-- A difference is about no value that stays. -/
theorem content_ne_of_difference (hnew : (new.map RecordValue.content).Nodup)
    (hchange : change ∈ valueDifferences old new) (hv : v ∈ new) (hstays : v.Stays old) :
    change.content ≠ v.content := by
  obtain ⟨⟨p, hp, hpContent⟩, hsame⟩ := hstays
  rcases (mem_valueDifferences hnew).mp hchange with ⟨o, -, rfl, hgone⟩ |
    ⟨o, ho, w, hw, hcontent, hflag, rfl⟩ | ⟨w, -, rfl, hfresh⟩
  · exact (hgone v hv).symm
  · intro hvContent
    have hwv : w = v := List.inj_on_of_nodup_map hnew hw hv (hcontent.trans hvContent)
    rw [hwv, hsame o ho hvContent] at hflag
    contradiction
  · intro hvContent
    exact hfresh p hp (hpContent.trans hvContent.symm)

theorem fates_sublist {β : Type} {g : ValueChange → Option β} {h : RecordValue → β}
    (hsame : ∀ o change, o.fate? new = some change → g change = some (h o)) :
    ((old.filterMap (RecordValue.fate? new)).filterMap g).Sublist (old.map h) :=
  filterMap_filterMap_sublist fun o _ change hchange => hsame o change hchange

theorem nodup_content_valueDifferences (hold : (old.map RecordValue.content).Nodup)
    (hnew : (new.map RecordValue.content).Nodup) :
    ((valueDifferences old new).map ValueChange.content).Nodup := by
  have hfates : ((old.filterMap (RecordValue.fate? new)).map ValueChange.content).Sublist
      (old.map RecordValue.content) := by
    rw [← List.filterMap_eq_map]
    exact fates_sublist fun o change hchange => congrArg some (RecordValue.content_of_fate? hchange)
  have hcame : ((new.filter fun v => !(old.any fun o => o.content = v.content)).map
      RecordValue.content).Sublist (new.map RecordValue.content) :=
    List.filter_sublist.map _
  rw [valueDifferences, List.map_append, List.map_map]
  refine (hold.sublist hfates).append (hnew.sublist hcame) ?_
  -- what was added has no old content
  intro content hfate hadded
  obtain ⟨o, ho, rfl⟩ := List.mem_map.mp (hfates.subset hfate)
  obtain ⟨v, hv, hcontent⟩ := List.mem_map.mp hadded
  have hfresh := (List.mem_filter.mp hv).2
  simp only [Bool.not_eq_true', List.any_eq_false, decide_eq_true_eq] at hfresh
  exact hfresh o ho hcontent.symm

/-- **No two changes are about one content.** -/
theorem nodup_content_valueChanges (hold : (old.map RecordValue.content).Nodup)
    (hnew : (new.map RecordValue.content).Nodup) :
    ((valueChanges old new).map ValueChange.content).Nodup := by
  rw [valueChanges_eq, RecordValue.firstOfEach_eq_self (hnew.sublist (List.filter_sublist.map _)),
    List.map_append, List.map_map]
  refine (nodup_content_valueDifferences hold hnew).append
    (hnew.sublist (List.filter_sublist.map _)) ?_
  intro content hdifference hstays
  obtain ⟨change, hchange, rfl⟩ := List.mem_map.mp hdifference
  obtain ⟨v, hv, hcontent⟩ := List.mem_map.mp hstays
  obtain ⟨hmem, hunwritten⟩ := List.mem_filter.mp hv
  have hstays := (writes_valueDifferences hnew hmem).mp (by simpa using hunwritten)
  exact content_ne_of_difference hnew hchange hmem hstays hcontent.symm

/-- A change is the only one about its content. -/
theorem filter_valueChanges_eq (hold : (old.map RecordValue.content).Nodup)
    (hnew : (new.map RecordValue.content).Nodup) (h : change ∈ valueChanges old new) :
    (valueChanges old new).filter (fun other => other.content = change.content) = [change] :=
  filter_eq_singleton_of_nodup_map (nodup_content_valueChanges hold hnew) h

/-! ### Both sides -/

/-- **The old sides are the old values.** -/
theorem mem_old?_valueChanges (hold : (old.map RecordValue.content).Nodup)
    (hnew : (new.map RecordValue.content).Nodup) :
    o ∈ (valueChanges old new).filterMap ValueChange.old? ↔ o ∈ old := by
  rw [List.mem_filterMap]
  simp only [mem_valueChanges hnew, mem_valueDifferences hnew]
  constructor
  · rintro ⟨change, (⟨p, hp, rfl, -⟩ | ⟨p, hp, v, -, -, -, rfl⟩ | ⟨v, -, rfl, -⟩) |
      ⟨v, -, hstays, rfl⟩, hside⟩
    · exact Option.some.inj hside ▸ hp
    · exact Option.some.inj hside ▸ hp
    · contradiction
    · exact Option.some.inj hside ▸ (RecordValue.stays_iff hold).mp hstays
  · intro ho
    by_cases hgone : ∀ v ∈ new, v.content ≠ o.content
    · exact ⟨.deletion o, .inl (.inl ⟨o, ho, rfl, hgone⟩), rfl⟩
    · obtain ⟨v, hv, hcontent⟩ : ∃ v ∈ new, v.content = o.content := by simpa using hgone
      by_cases hflag : v.disabled = o.disabled
      · obtain rfl : v = o := congrArg₂ RecordValue.mk hcontent hflag
        exact ⟨.unchanged v, .inr ⟨v, hv, (RecordValue.stays_iff hold).mpr ho, rfl⟩, rfl⟩
      · exact ⟨.status o v, .inl (.inr (.inl ⟨o, ho, v, hv, hcontent, hflag, rfl⟩)), rfl⟩

/-- **The new sides are the new values.** -/
theorem mem_new?_valueChanges (hnew : (new.map RecordValue.content).Nodup) :
    v ∈ (valueChanges old new).filterMap ValueChange.new? ↔ v ∈ new := by
  rw [List.mem_filterMap]
  constructor
  · rintro ⟨change, hchange, hside⟩
    exact (exists_change_iff_mem hnew).mp
      ⟨change, hchange, ValueChange.kind_ne_deletion hside, hside⟩
  · intro hv
    obtain ⟨change, hchange, -, hside⟩ : ∃ change ∈ valueChanges old new,
        change.kind ≠ "deletion" ∧ change.new? = some v := (exists_change_iff_mem hnew).mpr hv
    exact ⟨change, hchange, hside⟩

/-- A change of status is about one content. -/
theorem content_of_status (hnew : (new.map RecordValue.content).Nodup)
    (h : .status o v ∈ valueChanges old new) : v.content = o.content := by
  rcases (mem_valueChanges hnew).mp h with hdifference | ⟨w, -, -, hchange⟩
  · rcases (mem_valueDifferences hnew).mp hdifference with ⟨p, -, hchange, -⟩ |
      ⟨p, -, w, -, hcontent, -, hchange⟩ | ⟨w, -, hchange, -⟩
    · contradiction
    · obtain ⟨rfl, rfl⟩ := ValueChange.status.inj hchange
      exact hcontent
    · contradiction
  · contradiction

/-- Both sides of a change are about its content. -/
theorem content_of_side (hnew : (new.map RecordValue.content).Nodup)
    (hchange : change ∈ valueChanges old new)
    (hside : change.old? = some v ∨ change.new? = some v) : v.content = change.content := by
  cases change with
  | addition w | deletion w | unchanged w =>
    rcases hside with hside | hside <;> cases hside <;> rfl
  | status o w =>
    rcases hside with hside | hside
    · cases hside
      rfl
    · cases hside
      exact content_of_status hnew hchange

/-- No value is twice on one side. -/
theorem nodup_side {changes : List ValueChange} {side : ValueChange → Option RecordValue}
    (hside : ∀ change ∈ changes, ∀ value, side change = some value →
      value.content = change.content)
    (h : (changes.map ValueChange.content).Nodup) : (changes.filterMap side).Nodup := by
  have hsub : ((changes.filterMap side).map RecordValue.content).Sublist
      (changes.map ValueChange.content) := by
    rw [← List.filterMap_eq_map]
    exact filterMap_filterMap_sublist fun change hchange value hvalue =>
      congrArg some (hside change hchange value hvalue)
  exact (h.sublist hsub).of_map _

/-- **The changes of values are a partition of them,** as long as no content is written twice in
either list. -/
theorem valueChanges_partition (old new : List RecordValue)
    (hold : (old.map RecordValue.content).Nodup) (hnew : (new.map RecordValue.content).Nodup) :
    ValueChange.Partitions old new (valueChanges old new) where
  old_side := by
    have hnodup : ((valueChanges old new).filterMap ValueChange.old?).Nodup :=
      nodup_side (fun change hchange value hvalue => content_of_side hnew hchange (.inl hvalue))
        (nodup_content_valueChanges hold hnew)
    exact (List.perm_ext_iff_of_nodup hnodup (hold.of_map _)).mpr fun o =>
      mem_old?_valueChanges hold hnew
  new_side := by
    have hnodup : ((valueChanges old new).filterMap ValueChange.new?).Nodup :=
      nodup_side (fun change hchange value hvalue => content_of_side hnew hchange (.inr hvalue))
        (nodup_content_valueChanges hold hnew)
    exact (List.perm_ext_iff_of_nodup hnodup (hnew.of_map _)).mpr fun v =>
      mem_new?_valueChanges hnew
  deletion o ho hgone := by
    have hdifference : .deletion o ∈ valueDifferences old new :=
      (mem_valueDifferences hnew).mpr (.inl ⟨o, ho, rfl, hgone⟩)
    exact filter_valueChanges_eq hold hnew ((mem_valueChanges hnew).mpr (.inl hdifference))
  addition v hv hfresh := by
    have hdifference : .addition v ∈ valueDifferences old new :=
      (mem_valueDifferences hnew).mpr (.inr (.inr ⟨v, hv, rfl, hfresh⟩))
    exact filter_valueChanges_eq hold hnew ((mem_valueChanges hnew).mpr (.inl hdifference))
  status o ho v hv hcontent hflag := by
    have hdifference : .status o v ∈ valueDifferences old new :=
      (mem_valueDifferences hnew).mpr (.inr (.inl ⟨o, ho, v, hv, hcontent, hflag, rfl⟩))
    exact filter_valueChanges_eq hold hnew ((mem_valueChanges hnew).mpr (.inl hdifference))
  unchanged o ho v hv hcontent hflag := by
    obtain rfl : v = o := congrArg₂ RecordValue.mk hcontent hflag
    have hstays := (RecordValue.stays_iff hold).mpr ho
    exact ⟨rfl, filter_valueChanges_eq hold hnew
      ((mem_valueChanges hnew).mpr (.inr ⟨v, hv, hstays, rfl⟩))⟩
  ordered := by
    refine ⟨_, _, _, rfl, ?_, ?_, List.filter_sublist,
      (RecordValue.firstOfEach_sublist _).trans List.filter_sublist⟩
    · intro change hchange
      obtain ⟨o, -, hfate⟩ := List.mem_filterMap.mp hchange
      exact (RecordValue.eq_of_fate? hfate).imp (fun h => ⟨o, h⟩) (fun h => ⟨o, h⟩)
    · have hsub : ((old.filterMap (RecordValue.fate? new)).filterMap ValueChange.old?).Sublist
          (old.map id) :=
        fates_sublist fun o change hchange => RecordValue.old?_of_fate? hchange
      rwa [List.map_id] at hsub

/-- One address stays, one goes, one is switched off and one comes. -/
theorem valueChanges_partition_fourAddresses :
    let old : List RecordValue :=
      [⟨"192.0.2.1", false⟩, ⟨"192.0.2.2", false⟩, ⟨"192.0.2.3", false⟩]
    let new : List RecordValue :=
      [⟨"192.0.2.4", false⟩, ⟨"192.0.2.3", true⟩, ⟨"192.0.2.1", false⟩]
    (old.map RecordValue.content).Nodup ∧ (new.map RecordValue.content).Nodup ∧
      valueChanges old new =
        [.deletion ⟨"192.0.2.2", false⟩, .status ⟨"192.0.2.3", false⟩ ⟨"192.0.2.3", true⟩,
          .addition ⟨"192.0.2.4", false⟩, .unchanged ⟨"192.0.2.1", false⟩] ∧
      ValueChange.Partitions old new (valueChanges old new) := by
  intro old new
  have hold : (old.map RecordValue.content).Nodup := by decide
  have hnew : (new.map RecordValue.content).Nodup := by decide
  exact ⟨hold, hnew, by decide +kernel, valueChanges_partition old new hold hnew⟩

end ZoneKeeper
