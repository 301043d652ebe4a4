/-
What a changelog tells of any record.

A record may have several record sets under one key, on either side, and in any order.  Its
changelog has one entry for each key nevertheless, the keys ascending, and an entry is about the
first record set that each side has under its key.  `Tells` says this of any list of entries.

It leaves no choice: ascending keys are determined by which they are, and an entry by what it has
on its two sides.  So a record whose record sets are rearranged, those under one key keeping their
order, has the same changelog.  Nothing is left to be seen of the order in which the keys were met,
because what the changelog tells does not mention it.
-/
import ZoneKeeper.Proofs.Changelog
import ZoneKeeper.Proofs.Gathering

namespace ZoneKeeper

/-! ### Record sets in another order -/

namespace RRset

variable {xs ys : List RRset} {key : RRsetKey}

/-- The lists differ only in how record sets of different keys are mixed: those under one key are
in the same order. -/
def Rearranged (xs ys : List RRset) : Prop :=
  ∀ key, withKey xs key = withKey ys key

/-- Neighbours with different keys may change places. -/
theorem rearranged_swap {r s : RRset} (h : r.key ≠ s.key) (front back : List RRset) :
    Rearranged (front ++ r :: s :: back) (front ++ s :: r :: back) := by
  intro key
  rw [withKey_append, withKey_append]
  refine congrArg (withKey front key ++ ·) ?_
  by_cases hr : r.key = key
  · have hs : s.key ≠ key := fun hs => h (hr.trans hs.symm)
    simp [withKey, hr, hs]
  · simp [withKey, hr, List.filter_cons]

theorem Rearranged.mem_map_key_iff (h : Rearranged xs ys) :
    key ∈ xs.map RRset.key ↔ key ∈ ys.map RRset.key := by
  have hmem : ∀ zs : List RRset, key ∈ zs.map RRset.key ↔ withKey zs key ≠ [] := fun zs => by
    simp [withKey_eq_nil]
  rw [hmem, hmem, h key]

theorem Rearranged.find?_eq (h : Rearranged xs ys) :
    (xs.find? fun r => r.key = key) = ys.find? fun r => r.key = key := by
  rw [← List.head?_filter, ← List.head?_filter]
  exact congrArg List.head? (h key)

end RRset

/-! ### One entry -/

namespace ChangelogEntry

variable {old new : Option RRset} {entry other : ChangelogEntry}

/-- The entry tells how `new` came out of `old`, at least one of them being there. -/
structure Tells (old new : Option RRset) (entry : ChangelogEntry) : Prop where
  old_side : entry.old? = old
  new_side : entry.new? = new
  added : old = none → entry.symbol = "+" ∧ entry.changedFields = [.name, .type, .ttl]
  deleted : new = none → entry.symbol = "-" ∧ entry.changedFields = [.name, .type, .ttl]
  edited : ∀ o ∈ old, ∀ n ∈ new,
    entry.symbol = "*" ∧ entry.changedFields = if o.ttl = n.ttl then [] else [.ttl]
  /-- A side that is not there has no values. -/
  values : entry.values =
    valueChanges ((old.map RRset.records).getD []) ((new.map RRset.records).getD [])

/-- An entry tells of its two sides. -/
theorem tells_sides (entry : ChangelogEntry) : entry.Tells entry.old? entry.new? where
  old_side := rfl
  new_side := rfl
  added h := by
    cases entry with
    | added new => exact ⟨rfl, rfl⟩
    | deleted old | edited old new => contradiction
  deleted h := by
    cases entry with
    | deleted old => exact ⟨rfl, rfl⟩
    | added new | edited old new => contradiction
  edited o ho n hn := by
    cases entry with
    | edited old new =>
      cases ho
      cases hn
      exact ⟨rfl, rfl⟩
    | added new | deleted old => contradiction
  values := rfl

/-- Two sides can be told of in one way only. -/
theorem Tells.unique (h : entry.Tells old new) (h' : other.Tells old new) : entry = other := by
  have hentry := ofSides?_eq_some.mpr ⟨h.old_side, h.new_side⟩
  have hother := ofSides?_eq_some.mpr ⟨h'.old_side, h'.new_side⟩
  exact Option.some.inj (hentry.symm.trans hother)

instance (old new : Option RRset) (entry : ChangelogEntry) : Decidable (entry.Tells old new) :=
  decidable_of_iff (entry.old? = old ∧ entry.new? = new)
    ⟨fun ⟨hold, hnew⟩ => hold ▸ hnew ▸ entry.tells_sides, fun h => ⟨h.old_side, h.new_side⟩⟩

end ChangelogEntry

/-! ### The changelog -/

namespace HistoryRecord

variable {record : HistoryRecord} {entries others : List ChangelogEntry}

/-- The entries tell of every key of the record, each once and in order. -/
structure Tells (record : HistoryRecord) (entries : List ChangelogEntry) : Prop where
  ascending : (entries.map ChangelogEntry.key).Pairwise RRsetKey.Before
  mem_keys : ∀ key, key ∈ entries.map ChangelogEntry.key ↔
    key ∈ record.removed.map RRset.key ∨ key ∈ record.added.map RRset.key
  /-- Where a side has several record sets under a key, the first one counts. -/
  entry : ∀ entry ∈ entries,
    entry.Tells (record.priorOf? entry.key) (record.writtenOf? entry.key)

/-- Whether entries are about the keys of a record can be told key by key. -/
theorem forall_mem_keys_iff {keys prior written : List RRsetKey} :
    (∀ key, key ∈ keys ↔ key ∈ prior ∨ key ∈ written) ↔
      keys ⊆ prior ++ written ∧ prior ⊆ keys ∧ written ⊆ keys := by
  simp only [List.subset_def, List.mem_append]
  constructor
  · intro h
    exact ⟨fun hkey => (h _).mp hkey, fun hkey => (h _).mpr (.inl hkey),
      fun hkey => (h _).mpr (.inr hkey)⟩
  · rintro ⟨hkeys, hprior, hwritten⟩ key
    exact ⟨hkeys, fun hkey => hkey.elim (hprior ·) (hwritten ·)⟩

instance (record : HistoryRecord) (entries : List ChangelogEntry) :
    Decidable (record.Tells entries) :=
  decidable_of_iff
    ((entries.map ChangelogEntry.key).Pairwise RRsetKey.Before ∧
      (entries.map ChangelogEntry.key ⊆
          record.removed.map RRset.key ++ record.added.map RRset.key ∧
        record.removed.map RRset.key ⊆ entries.map ChangelogEntry.key ∧
        record.added.map RRset.key ⊆ entries.map ChangelogEntry.key) ∧
      ∀ entry ∈ entries, entry.Tells (record.priorOf? entry.key) (record.writtenOf? entry.key))
    ⟨fun ⟨h₁, h₂, h₃⟩ => ⟨h₁, forall_mem_keys_iff.mpr h₂, h₃⟩,
      fun ⟨h₁, h₂, h₃⟩ => ⟨h₁, forall_mem_keys_iff.mp h₂, h₃⟩⟩

theorem keys_ascending (record : HistoryRecord) : record.keys.Pairwise RRsetKey.Before := by
  rw [RRsetKey.before_eq]
  exact ascending_mergeSort (f := RRsetKey.sortKey) (fun _ _ => RRsetKey.atMost_iff)
    (fun _ _ => RRsetKey.sortKey_injective) (nodup_eraseDups _)

/-- The changelog of a record tells of it. -/
theorem tells_changelog (record : HistoryRecord) : record.Tells record.changelog where
  ascending := by
    rw [map_key_changelog]
    exact record.keys_ascending
  mem_keys key := by
    rw [map_key_changelog, keys, List.mem_mergeSort, List.mem_eraseDups, List.map_append,
      List.mem_append]
  entry entry hentry := by
    obtain ⟨hold, hnew⟩ := mem_changelog.mp hentry
    rw [← hold, ← hnew]
    exact entry.tells_sides

/-- A record can be told of in one way only. -/
theorem Tells.unique (h : record.Tells entries) (h' : record.Tells others) : entries = others := by
  refine RRsetKey.eq_of_pairwise_before h.ascending h'.ascending
    (fun key => (h.mem_keys key).trans (h'.mem_keys key).symm) ?_
  intro entry hentry other hother hkey
  have htells := h'.entry other hother
  rw [← hkey] at htells
  exact (h.entry entry hentry).unique htells

/-- What tells of a record tells of it in any order that keeps the first one of every key. -/
theorem Tells.rearranged (h : record.Tells entries) {removed added : List RRset}
    (hremoved : RRset.Rearranged record.removed removed)
    (hadded : RRset.Rearranged record.added added) :
    Tells { record with removed, added } entries where
  ascending := h.ascending
  mem_keys key := by
    rw [h.mem_keys, hremoved.mem_map_key_iff, hadded.mem_map_key_iff]
  entry entry hentry := by
    have htells := h.entry entry hentry
    rw [priorOf?, writtenOf?, hremoved.find?_eq, hadded.find?_eq] at htells
    exact htells

/-- **A changelog tells of every key of its record,** once and in order, whatever is repeated on
either side; and in which order record sets of different keys are in the record makes no
difference. -/
theorem changelog_tells (record : HistoryRecord) :
    record.Tells record.changelog ∧
      ∀ removed added : List RRset, RRset.Rearranged record.removed removed →
        RRset.Rearranged record.added added →
          { record with removed, added }.changelog = record.changelog := by
  refine ⟨record.tells_changelog, fun removed added hremoved hadded => ?_⟩
  exact (tells_changelog _).unique (record.tells_changelog.rearranged hremoved hadded)

/-- The mail exchanger is gone and the note is new.  The web address is there twice on either side,
and of these only the first two record sets count; so they do when the others change places with
their neighbours. -/
theorem changelog_tells_repeatedAddress :
    let web : RRset := ⟨"www.example.com.", .named .a, 300, [⟨"192.0.2.1", false⟩], []⟩
    let again : RRset := { web with ttl := 60 }
    let off : RRset := { web with ttl := 600, records := [⟨"192.0.2.1", true⟩] }
    let mail : RRset := ⟨"example.com.", .named .mx, 300, [⟨"10 mail.example.com.", false⟩], []⟩
    let note : RRset := ⟨"example.com.", .named .txt, 60, [⟨"\"moved\"", true⟩], []⟩
    let record : HistoryRecord :=
      ⟨"example.com.", [off, again, note], [web, mail, again], "operator", .epoch⟩
    let removed := [mail, web, again]
    let added := [off, note, again]
    RRset.Rearranged record.removed removed ∧ RRset.Rearranged record.added added ∧
      record.changelog = [.deleted mail, .added note, .edited web off] ∧
      record.Tells record.changelog ∧
      { record with removed, added }.changelog = record.changelog := by
  intro web again off mail note record removed added
  have hremoved : RRset.Rearranged record.removed removed :=
    RRset.rearranged_swap (by decide) [] [again]
  have hadded : RRset.Rearranged record.added added :=
    RRset.rearranged_swap (by decide) [off] []
  have hentries : record.Tells [.deleted mail, .added note, .edited web off] := by
    decide +kernel
  obtain ⟨htells, hsame⟩ := changelog_tells record
  exact ⟨hremoved, hadded, htells.unique hentries, htells,
    hsame removed added hremoved hadded⟩

end HistoryRecord

end ZoneKeeper
