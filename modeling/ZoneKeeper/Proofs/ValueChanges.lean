/-
What happened to the values of a record set.

Values are matched by their contents, so as long as no content is written twice there is one
change for each: `mem_valueChanges` says which, without the order in which they are found and
without the look back at what was listed before.  Read forwards it says that what is not deleted
is what is written, and read backwards that two lists without any change have the same values.
-/
import ZoneKeeper.Changelog
import ZoneKeeper.Proofs.Grouping

namespace ZoneKeeper

variable {old new : List RecordValue} {o v : RecordValue} {change : ValueChange}

/-! ### Old values -/

/-- An old value is deleted if its content is not there any longer, and has another status if its
flag is not the same. -/
theorem RecordValue.fate?_eq_some (hnew : (new.map content).Nodup) :
    o.fate? new = some change ↔
      (change = .deletion o ∧ ∀ v ∈ new, v.content ≠ o.content) ∨
        ∃ v ∈ new, v.content = o.content ∧ v.disabled ≠ o.disabled ∧ change = .status o v := by
  unfold fate?
  cases hfind : new.find? fun v => v.content = o.content with
  | none =>
    have hnone : ∀ v ∈ new, v.content ≠ o.content := by simpa using hfind
    simp only [Option.some.injEq]
    constructor
    · rintro rfl
      exact Or.inl ⟨rfl, hnone⟩
    · rintro (⟨rfl, -⟩ | ⟨v, hv, hcontent, -⟩)
      · rfl
      · exact absurd hcontent (hnone v hv)
  | some v =>
    obtain ⟨hv, hcontent⟩ := (find?_eq_some_iff_of_nodup_map hnew).mp hfind
    dsimp only
    constructor
    · intro h
      by_cases hflag : v.disabled = o.disabled
      · rw [if_pos hflag] at h
        contradiction
      · rw [if_neg hflag] at h
        exact Or.inr ⟨v, hv, hcontent, hflag, (Option.some.inj h).symm⟩
    · rintro (⟨-, hnone⟩ | ⟨w, hw, hsame, hflag, rfl⟩)
      · exact absurd hcontent (hnone v hv)
      · obtain rfl : v = w :=
          List.inj_on_of_nodup_map hnew hv hw (hcontent.trans hsame.symm)
        rw [if_neg hflag]

/-! ### The changes of two lists -/

/-- The values that were deleted, that have another status and that were added. -/
def valueDifferences (old new : List RecordValue) : List ValueChange :=
  old.filterMap (RecordValue.fate? new) ++
    (new.filter fun v => !(old.any fun o => o.content = v.content)).map .addition

/-- One of the changes writes a value of this content. -/
def ValueChange.writes (changes : List ValueChange) (content : String) : Bool :=
  changes.any fun change => change.new?.any fun n => n.content = content

/-- The values that stay are those that no difference writes. -/
theorem valueChanges_eq (old new : List RecordValue) :
    valueChanges old new = valueDifferences old new ++
      (RecordValue.firstOfEach (new.filter fun v =>
        !(ValueChange.writes (valueDifferences old new) v.content))).map .unchanged := rfl

/-- A new value stays as it was if there is an old one of its content, and every such one is the
value itself. -/
def RecordValue.Stays (old : List RecordValue) (v : RecordValue) : Prop :=
  (∃ o ∈ old, o.content = v.content) ∧ ∀ o ∈ old, o.content = v.content → o = v

theorem mem_valueDifferences (hnew : (new.map RecordValue.content).Nodup) :
    change ∈ valueDifferences old new ↔
      (∃ o ∈ old, change = .deletion o ∧ ∀ v ∈ new, v.content ≠ o.content) ∨
      (∃ o ∈ old, ∃ v ∈ new, v.content = o.content ∧ v.disabled ≠ o.disabled ∧
        change = .status o v) ∨
      ∃ v ∈ new, change = .addition v ∧ ∀ o ∈ old, o.content ≠ v.content := by
  have hfates : change ∈ old.filterMap (RecordValue.fate? new) ↔
      ∃ o ∈ old, o.fate? new = some change := List.mem_filterMap
  have hcame : change ∈ (new.filter fun v => !(old.any fun o => o.content = v.content)).map
      ValueChange.addition ↔ ∃ v ∈ new, change = .addition v ∧ ∀ o ∈ old, o.content ≠ v.content := by
    simp only [List.mem_map, List.mem_filter, Bool.not_eq_true', List.any_eq_false,
      decide_eq_true_eq]
    constructor
    · rintro ⟨v, ⟨hv, hfresh⟩, rfl⟩
      exact ⟨v, hv, rfl, hfresh⟩
    · rintro ⟨v, hv, rfl, hfresh⟩
      exact ⟨v, ⟨hv, hfresh⟩, rfl⟩
  rw [valueDifferences, List.mem_append, hfates, hcame, ← or_assoc]
  refine or_congr ?_ Iff.rfl
  simp only [RecordValue.fate?_eq_some hnew, and_or_left, exists_or]

theorem ValueChange.writes_iff {changes : List ValueChange} {content : String} :
    writes changes content = true ↔
      ∃ change ∈ changes, ∃ n, change.new? = some n ∧ n.content = content := by
  simp [writes, Option.any_eq_true]

/-- What a difference writes is a new value. -/
theorem mem_of_new?_difference (hnew : (new.map RecordValue.content).Nodup)
    (hchange : change ∈ valueDifferences old new) (h : change.new? = some v) : v ∈ new := by
  rcases (mem_valueDifferences hnew).mp hchange with ⟨o, _, rfl, _⟩ | ⟨o, _, w, hw, _, _, rfl⟩ |
    ⟨w, hw, rfl, _⟩
  · contradiction
  · exact Option.some.inj h ▸ hw
  · exact Option.some.inj h ▸ hw

/-- No difference writes a value that stays, and one of them writes any other. -/
theorem writes_valueDifferences (hnew : (new.map RecordValue.content).Nodup) (hv : v ∈ new) :
    ValueChange.writes (valueDifferences old new) v.content = false ↔ v.Stays old := by
  rw [← Bool.not_eq_true, ValueChange.writes_iff]
  constructor
  · intro hunwritten
    by_cases hfresh : ∀ o ∈ old, o.content ≠ v.content
    · refine absurd ⟨.addition v, (mem_valueDifferences hnew).mpr ?_, v, rfl, rfl⟩ hunwritten
      exact Or.inr (Or.inr ⟨v, hv, rfl, hfresh⟩)
    refine ⟨by simpa using hfresh, fun o ho hcontent => ?_⟩
    by_cases hflag : v.disabled = o.disabled
    · exact RecordValue.sortKey_injective (by rw [RecordValue.sortKey, hcontent, ← hflag]; rfl)
    · refine absurd ⟨.status o v, (mem_valueDifferences hnew).mpr ?_, v, rfl, rfl⟩ hunwritten
      exact Or.inr (Or.inl ⟨o, ho, v, hv, hcontent.symm, hflag, rfl⟩)
  · rintro ⟨⟨o, ho, hcontent⟩, hsame⟩ ⟨change, hchange, n, hn, hwritten⟩
    obtain rfl : n = v :=
      List.inj_on_of_nodup_map hnew (mem_of_new?_difference hnew hchange hn) hv hwritten
    rcases (mem_valueDifferences hnew).mp hchange with ⟨p, -, rfl, -⟩ |
      ⟨p, hp, w, -, hpContent, hflag, rfl⟩ | ⟨w, -, rfl, hfresh⟩
    · contradiction
    · obtain rfl := Option.some.inj hn
      exact hflag (congrArg RecordValue.disabled (hsame p hp hpContent.symm)).symm
    · obtain rfl := Option.some.inj hn
      exact hfresh o ho hcontent

/-- **What happened to the values,** where no content is written twice. -/
theorem mem_valueChanges (hnew : (new.map RecordValue.content).Nodup) :
    change ∈ valueChanges old new ↔
      change ∈ valueDifferences old new ∨ ∃ v ∈ new, v.Stays old ∧ change = .unchanged v := by
  rw [valueChanges_eq, RecordValue.firstOfEach_eq_self (hnew.sublist (List.filter_sublist.map _)),
    List.mem_append, List.mem_map]
  refine or_congr Iff.rfl ⟨?_, ?_⟩
  · rintro ⟨v, hv, rfl⟩
    obtain ⟨hmem, hunwritten⟩ := List.mem_filter.mp hv
    exact ⟨v, hmem, (writes_valueDifferences hnew hmem).mp (by simpa using hunwritten), rfl⟩
  · rintro ⟨v, hv, hstays, rfl⟩
    have hunwritten := (writes_valueDifferences hnew hv).mpr hstays
    exact ⟨v, List.mem_filter.mpr ⟨hv, by simp [hunwritten]⟩, rfl⟩

theorem ValueChange.kind_ne_deletion (h : change.new? = some v) : change.kind ≠ "deletion" := by
  cases change with
  | deletion o => contradiction
  | addition | status | unchanged => simp [kind]

/-- **What is not deleted is what is written.** -/
theorem exists_change_iff_mem (hnew : (new.map RecordValue.content).Nodup) :
    (∃ change ∈ valueChanges old new, change.kind ≠ "deletion" ∧ change.new? = some v) ↔
      v ∈ new := by
  constructor
  · rintro ⟨change, hchange, -, hwritten⟩
    rcases (mem_valueChanges hnew).mp hchange with hdifference | ⟨w, hw, -, rfl⟩
    · exact mem_of_new?_difference hnew hdifference hwritten
    · exact Option.some.inj hwritten ▸ hw
  · intro hv
    obtain ⟨change, hchange, hwritten⟩ : ∃ change ∈ valueChanges old new, change.new? = some v := by
      cases hfound : ValueChange.writes (valueDifferences old new) v.content with
      | false =>
        have hstays := (writes_valueDifferences hnew hv).mp hfound
        exact ⟨.unchanged v, (mem_valueChanges hnew).mpr (Or.inr ⟨v, hv, hstays, rfl⟩), rfl⟩
      | true =>
        obtain ⟨change, hchange, n, hn, hcontent⟩ := ValueChange.writes_iff.mp hfound
        obtain rfl : n = v :=
          List.inj_on_of_nodup_map hnew (mem_of_new?_difference hnew hchange hn) hv hcontent
        exact ⟨change, (mem_valueChanges hnew).mpr (Or.inl hchange), hn⟩
    exact ⟨change, hchange, ValueChange.kind_ne_deletion hwritten, hwritten⟩

/-- **Without a change of any value both lists have the same values,** as long as neither has a
content twice. -/
theorem perm_of_unchanged (hold : (old.map RecordValue.content).Nodup)
    (hnew : (new.map RecordValue.content).Nodup)
    (h : ∀ change ∈ valueChanges old new, change.kind = "unchanged") : old.Perm new := by
  have hnone : ∀ change, change ∉ valueDifferences old new := by
    intro change hchange
    have hkind := h change ((mem_valueChanges hnew).mpr (Or.inl hchange))
    rcases (mem_valueDifferences hnew).mp hchange with ⟨o, _, rfl, _⟩ | ⟨o, _, w, _, _, _, rfl⟩ |
      ⟨w, _, rfl, _⟩
    · simp [ValueChange.kind] at hkind
    · simp [ValueChange.kind] at hkind
    · simp [ValueChange.kind] at hkind
  have hstays : ∀ v ∈ new, v.Stays old := by
    intro v hv
    refine (writes_valueDifferences hnew hv).mp (Bool.eq_false_iff.mpr fun hwrites => ?_)
    obtain ⟨change, hchange, -⟩ := ValueChange.writes_iff.mp hwrites
    exact hnone change hchange
  refine (List.perm_ext_iff_of_nodup (hold.of_map _) (hnew.of_map _)).mpr fun v => ⟨?_, ?_⟩
  · intro hv
    -- an old value whose content is gone would have been deleted
    obtain ⟨w, hw, hcontent⟩ : ∃ w ∈ new, w.content = v.content := by
      by_contra hgone
      refine hnone (.deletion v) ((mem_valueDifferences hnew).mpr (Or.inl ⟨v, hv, rfl, ?_⟩))
      simpa using hgone
    rwa [(hstays w hw).2 v hv hcontent.symm]
  · intro hv
    obtain ⟨⟨o, ho, hcontent⟩, hsame⟩ := hstays v hv
    exact hsame o ho hcontent ▸ ho

end ZoneKeeper
