/-
The changelog of what a run records.

A changelog has one entry for every key of its record, with the first record set that each side
has under the key.  A run records what it wrote and what was there before, so its changelog tells
the changes that it made: a deleted key as gone, a written one as new or as edited, and of the
values that are not told as deleted it tells all that were written and no others.  As what is
equal is never written, every edit that is told changed something.
-/
import ZoneKeeper.Proofs.Convergence
import ZoneKeeper.Proofs.ValueChanges

namespace ZoneKeeper

/-! ### The entries of a changelog -/

namespace ChangelogEntry

variable {old new : Option RRset} {entry : ChangelogEntry}

/-- An entry has both of its sides, and something on one of them. -/
theorem ofSides?_eq_some :
    ofSides? old new = some entry ↔ entry.old? = old ∧ entry.new? = new := by
  cases old <;> cases new <;> cases entry <;> simp [ofSides?, old?, new?, eq_comm]

end ChangelogEntry

namespace HistoryRecord

variable {record : HistoryRecord} {key : RRsetKey} {entry : ChangelogEntry}

/-- What the record keeps of a key from before, the first of several. -/
def priorOf? (record : HistoryRecord) (key : RRsetKey) : Option RRset :=
  record.removed.find? fun r => r.key = key

/-- What the record has written under a key, the first of several. -/
def writtenOf? (record : HistoryRecord) (key : RRsetKey) : Option RRset :=
  record.added.find? fun r => r.key = key

theorem key_of_priorOf? {r : RRset} (h : record.priorOf? key = some r) :
    r ∈ record.removed ∧ r.key = key :=
  ⟨List.mem_of_find?_eq_some h, by simpa using List.find?_some h⟩

theorem key_of_writtenOf? {r : RRset} (h : record.writtenOf? key = some r) :
    r ∈ record.added ∧ r.key = key :=
  ⟨List.mem_of_find?_eq_some h, by simpa using List.find?_some h⟩

theorem mem_keys :
    key ∈ record.keys ↔ record.priorOf? key ≠ none ∨ record.writtenOf? key ≠ none := by
  simp [keys, priorOf?, writtenOf?, List.mem_mergeSort, List.mem_eraseDups]

theorem keys_nodup (record : HistoryRecord) : record.keys.Nodup :=
  (List.mergeSort_perm _ _).nodup_iff.mpr (nodup_eraseDups _)

/-- An entry with what a record has under a key is about the key. -/
theorem key_of_sides (hold : entry.old? = record.priorOf? key)
    (hnew : entry.new? = record.writtenOf? key) : entry.key = key ∧ key ∈ record.keys := by
  rw [mem_keys, ← hold, ← hnew]
  cases entry with
  | added new => exact ⟨(key_of_writtenOf? hnew.symm).2, by simp [ChangelogEntry.new?]⟩
  | deleted old => exact ⟨(key_of_priorOf? hold.symm).2, by simp [ChangelogEntry.old?]⟩
  | edited old new => exact ⟨(key_of_writtenOf? hnew.symm).2, by simp [ChangelogEntry.new?]⟩

/-- **An entry of the changelog has what the record has under its key.** -/
theorem mem_changelog : entry ∈ record.changelog ↔
    entry.old? = record.priorOf? entry.key ∧ entry.new? = record.writtenOf? entry.key := by
  have hmem : entry ∈ record.changelog ↔ ∃ key ∈ record.keys,
      ChangelogEntry.ofSides? (record.priorOf? key) (record.writtenOf? key) = some entry :=
    List.mem_filterMap
  rw [hmem]
  constructor
  · rintro ⟨key, -, hsides⟩
    obtain ⟨hold, hnew⟩ := ChangelogEntry.ofSides?_eq_some.mp hsides
    rw [(key_of_sides hold hnew).1]
    exact ⟨hold, hnew⟩
  · rintro ⟨hold, hnew⟩
    exact ⟨entry.key, (key_of_sides hold hnew).2, ChangelogEntry.ofSides?_eq_some.mpr ⟨hold, hnew⟩⟩

/-- **There is one entry for every key of the record.** -/
theorem map_key_changelog (record : HistoryRecord) :
    record.changelog.map ChangelogEntry.key = record.keys := by
  have hentry : ∀ key ∈ record.keys,
      (ChangelogEntry.ofSides? (record.priorOf? key) (record.writtenOf? key)).map
        ChangelogEntry.key = some key := by
    intro key hkey
    cases hsides : ChangelogEntry.ofSides? (record.priorOf? key) (record.writtenOf? key) with
    | none =>
      rw [mem_keys] at hkey
      revert hsides hkey
      cases record.priorOf? key <;> cases record.writtenOf? key <;> simp [ChangelogEntry.ofSides?]
    | some entry =>
      obtain ⟨hold, hnew⟩ := ChangelogEntry.ofSides?_eq_some.mp hsides
      exact congrArg some (key_of_sides hold hnew).1
  have hmap : record.changelog.map ChangelogEntry.key = record.keys.filterMap fun key =>
      (ChangelogEntry.ofSides? (record.priorOf? key) (record.writtenOf? key)).map
        ChangelogEntry.key := List.map_filterMap
  rw [hmap, List.filterMap_congr hentry, List.filterMap_some]

end HistoryRecord

/-! ### What a run records -/

/-- A changelog accounts for batches: it tells of every change that they make to the record sets
`current`, and of nothing else. -/
structure HistoryRecord.Accounts (record : HistoryRecord) (current : List RRset)
    (batches : Batches) : Prop where
  /-- There is exactly one entry for every key that is deleted or written. -/
  keys : (record.changelog.map ChangelogEntry.key).Perm
    (batches.deletes ++ batches.replaces.map RRset.key)
  nodup : (record.changelog.map ChangelogEntry.key).Nodup
  deleted : ∀ key, (∃ entry ∈ record.changelog, entry.key = key ∧ entry.symbol = "-") ↔
    key ∈ batches.deletes
  added : ∀ key, (∃ entry ∈ record.changelog, entry.key = key ∧ entry.symbol = "+") ↔
    key ∈ batches.replaces.map RRset.key ∧ key ∉ current.map RRset.key
  edited : ∀ key, (∃ entry ∈ record.changelog, entry.key = key ∧ entry.symbol = "*") ↔
    key ∈ batches.replaces.map RRset.key ∧ key ∈ current.map RRset.key
  /-- The values that are not told as deleted are those that were written. -/
  values : ∀ w ∈ batches.replaces, ∀ entry ∈ record.changelog, entry.key = w.key → ∀ value,
    (∃ change ∈ entry.values, change.kind ≠ "deletion" ∧ change.new? = some value) ↔
      value ∈ w.records
  /-- An edit is a change, of the time to live, of a value or of the remark. -/
  real : ∀ entry ∈ record.changelog, entry.symbol = "*" →
    (∀ old ∈ entry.old?, (old.records.map RecordValue.content).Nodup) →
      .ttl ∈ entry.changedFields ∨ (∃ change ∈ entry.values, change.kind ≠ "unchanged") ∨
        entry.old?.bind RRset.remark ≠ entry.new?.bind RRset.remark

namespace ChangelogEntry

variable {entry : ChangelogEntry}

theorem symbol_eq_deleted : entry.symbol = "-" ↔ entry.new? = none := by
  cases entry <;> simp [symbol, new?]

theorem symbol_eq_added : entry.symbol = "+" ↔ entry.old? = none := by
  cases entry <;> simp [symbol, old?]

theorem symbol_eq_edited : entry.symbol = "*" ↔ entry.old? ≠ none ∧ entry.new? ≠ none := by
  cases entry <;> simp [symbol, old?, new?]

end ChangelogEntry

namespace HistoryRecord

variable {record : HistoryRecord} {key : RRsetKey}

/-- There is an entry about a key with a property of its sides if the record has the key and its
sides have the property. -/
theorem exists_entry_iff (P : Option RRset → Option RRset → Prop) :
    (∃ entry ∈ record.changelog, entry.key = key ∧ P entry.old? entry.new?) ↔
      key ∈ record.keys ∧ P (record.priorOf? key) (record.writtenOf? key) := by
  constructor
  · rintro ⟨entry, hentry, rfl, hP⟩
    obtain ⟨hold, hnew⟩ := mem_changelog.mp hentry
    exact ⟨(key_of_sides hold hnew).2, by rwa [← hold, ← hnew]⟩
  · rintro ⟨hkey, hP⟩
    rw [← map_key_changelog] at hkey
    obtain ⟨entry, hentry, rfl⟩ := List.mem_map.mp hkey
    obtain ⟨hold, hnew⟩ := mem_changelog.mp hentry
    exact ⟨entry, hentry, rfl, by rwa [hold, hnew]⟩

end HistoryRecord

/-! ### The record of a reconciliation -/

namespace Reconciliation

variable {policy : Policy} {desired : List FlatRow} {current : List RRset} {key : RRsetKey}
  {w : RRset}

/-- What a run keeps that becomes what is desired. -/
def record (policy : Policy) (desired : List FlatRow) (current : List RRset) (zone actor : String)
    (timestamp : Timestamp) : HistoryRecord where
  zone := zone
  added := ((between policy desired current).batches policy).replaces
  removed := (between policy desired current).prior
  actor := actor
  timestamp := timestamp

section Record

variable {zone actor : String} {timestamp : Timestamp}

/-- What the record has as written is what is written. -/
theorem writtenOf?_record :
    (record policy desired current zone actor timestamp).writtenOf? key = some w ↔
      w ∈ ((between policy desired current).batches policy).replaces ∧ w.key = key :=
  find?_eq_some_iff_of_nodup_map Batches.replaces_nodup

/-- What the record has from before is what was there, under the keys that are touched. -/
theorem priorOf?_record (hsteady : Steady policy desired current)
    (hnodup : (current.map RRset.key).Nodup) {r : RRset} :
    (record policy desired current zone actor timestamp).priorOf? key = some r ↔
      r ∈ current ∧ r.key = key ∧
        (key ∈ ((between policy desired current).batches policy).deletes ∨
          key ∈ ((between policy desired current).batches policy).replaces.map RRset.key) := by
  constructor
  · intro h
    obtain ⟨hmem, rfl⟩ := HistoryRecord.key_of_priorOf? h
    obtain ⟨hcurrent, htouched⟩ := (mem_prior hsteady hnodup).mp hmem
    exact ⟨hcurrent, rfl, htouched⟩
  · rintro ⟨hcurrent, rfl, htouched⟩
    have hmem : r ∈ (between policy desired current).prior :=
      (mem_prior hsteady hnodup).mpr ⟨hcurrent, htouched⟩
    obtain ⟨found, hfound⟩ : ∃ found,
        (record policy desired current zone actor timestamp).priorOf? r.key = some found :=
      Option.isSome_iff_exists.mp (List.find?_isSome.mpr ⟨r, hmem, by simp⟩)
    obtain ⟨hfoundMem, hfoundKey⟩ := HistoryRecord.key_of_priorOf? hfound
    have hfoundCurrent := ((mem_prior hsteady hnodup).mp hfoundMem).1
    rw [hfound, RRset.eq_of_key_eq hnodup hfoundCurrent hcurrent hfoundKey]

/-- A key that is deleted was there, and is not written. -/
theorem mem_deletes_between_key (hsteady : Steady policy desired current)
    (hdeleted : key ∈ ((between policy desired current).batches policy).deletes) :
    key ∈ current.map RRset.key ∧
      key ∉ ((between policy desired current).batches policy).replaces.map RRset.key := by
  obtain ⟨r, hr, rfl⟩ := (mem_deletes_between (hsteady.steadyAt _)).mp hdeleted
  obtain ⟨hcurrent, hunwanted, -⟩ := mem_removed.mp hr
  exact ⟨List.mem_map_of_mem hcurrent, not_mem_replaces_of_unwanted (hsteady.steadyAt _) hunwanted⟩

theorem writtenOf?_record_eq_none :
    (record policy desired current zone actor timestamp).writtenOf? key = none ↔
      key ∉ ((between policy desired current).batches policy).replaces.map RRset.key := by
  rw [Option.eq_none_iff_forall_not_mem, List.mem_map]
  simp only [Option.mem_def, writtenOf?_record, not_exists]

theorem priorOf?_record_eq_none (hsteady : Steady policy desired current)
    (hnodup : (current.map RRset.key).Nodup)
    (hwritten : key ∈ ((between policy desired current).batches policy).replaces.map RRset.key) :
    (record policy desired current zone actor timestamp).priorOf? key = none ↔
      key ∉ current.map RRset.key := by
  rw [Option.eq_none_iff_forall_not_mem, List.mem_map]
  simp only [Option.mem_def, priorOf?_record hsteady hnodup, hwritten, or_true, and_true,
    not_exists]

/-- The record is about the keys that are deleted and those that are written. -/
theorem mem_keys_record (hsteady : Steady policy desired current)
    (hnodup : (current.map RRset.key).Nodup) :
    key ∈ (record policy desired current zone actor timestamp).keys ↔
      key ∈ ((between policy desired current).batches policy).deletes ∨
        key ∈ ((between policy desired current).batches policy).replaces.map RRset.key := by
  rw [HistoryRecord.mem_keys, Ne, Ne, writtenOf?_record_eq_none, not_not]
  constructor
  · rintro (hprior | hwritten)
    · obtain ⟨r, hr⟩ := Option.ne_none_iff_exists'.mp hprior
      exact ((priorOf?_record hsteady hnodup).mp hr).2.2
    · exact Or.inr hwritten
  · rintro (hdeleted | hwritten)
    · obtain ⟨r, hr, rfl⟩ := List.mem_map.mp (mem_deletes_between_key hsteady hdeleted).1
      refine Or.inl (Option.ne_none_iff_exists'.mpr ⟨r, ?_⟩)
      exact (priorOf?_record hsteady hnodup).mpr ⟨hr, rfl, Or.inl hdeleted⟩
    · exact Or.inr hwritten

/-- **An edit that is recorded is a change,** of the time to live, of a value or of the remark. -/
theorem real_of_edited (hsteady : Steady policy desired current)
    (hnodup : (current.map RRset.key).Nodup) {old new : RRset}
    (hold : (record policy desired current zone actor timestamp).priorOf? new.key = some old)
    (hnew : (record policy desired current zone actor timestamp).writtenOf? new.key = some new)
    (hcontents : (old.records.map RecordValue.content).Nodup) :
    old.ttl ≠ new.ttl ∨
      (∃ change ∈ valueChanges old.records new.records, change.kind ≠ "unchanged") ∨
        old.remark ≠ new.remark := by
  obtain ⟨hwritten, -⟩ := writtenOf?_record.mp hnew
  obtain ⟨hcurrent, hkey, -⟩ := (priorOf?_record hsteady hnodup).mp hold
  have hneeds : needsWrite current new = true := by
    rw [replaces_between hsteady] at hwritten
    exact (mem_changed.mp hwritten).2
  have hdiffers : old.sameContent new = false := by
    rw [needsWrite, currentWithKey?_eq, ← hkey, RRset.withKey_of_mem hnodup hcurrent,
      List.getLast?_singleton] at hneeds
    simpa using hneeds
  by_contra hsame
  simp only [ne_eq, not_or, not_not, not_exists, not_and] at hsame
  obtain ⟨httl, hvalues, hremark⟩ := hsame
  have hperm : old.records.Perm new.records :=
    perm_of_unchanged hcontents (Batches.nodup_contents hwritten) hvalues
  rw [RRset.sameContent_iff.mpr ⟨httl, hperm, hremark⟩] at hdiffers
  contradiction

/-- **The changelog of what is recorded accounts for what is sent.** -/
theorem accounts_record (hsteady : Steady policy desired current)
    (hnodup : (current.map RRset.key).Nodup) :
    (record policy desired current zone actor timestamp).Accounts current
      ((between policy desired current).batches policy) where
  keys := by
    rw [HistoryRecord.map_key_changelog]
    refine (List.perm_ext_iff_of_nodup (HistoryRecord.keys_nodup _) ?_).mpr fun key => ?_
    · refine List.Nodup.append Batches.deletes_nodup Batches.replaces_nodup ?_
      exact fun key hdeleted => (mem_deletes_between_key hsteady hdeleted).2
    · rw [mem_keys_record hsteady hnodup, List.mem_append]
  nodup := by
    rw [HistoryRecord.map_key_changelog]
    exact HistoryRecord.keys_nodup _
  deleted key := by
    simp only [ChangelogEntry.symbol_eq_deleted]
    rw [HistoryRecord.exists_entry_iff fun _ new => new = none, mem_keys_record hsteady hnodup,
      writtenOf?_record_eq_none, or_and_right]
    constructor
    · rintro (⟨hdeleted, -⟩ | ⟨hwritten, hunwritten⟩)
      · exact hdeleted
      · exact absurd hwritten hunwritten
    · exact fun hdeleted => Or.inl ⟨hdeleted, (mem_deletes_between_key hsteady hdeleted).2⟩
  added key := by
    simp only [ChangelogEntry.symbol_eq_added]
    rw [HistoryRecord.exists_entry_iff fun old _ => old = none, mem_keys_record hsteady hnodup]
    constructor
    · rintro ⟨hdeleted | hwritten, hprior⟩
      · -- what is deleted was there before
        obtain ⟨r, hr, rfl⟩ := List.mem_map.mp (mem_deletes_between_key hsteady hdeleted).1
        rw [(priorOf?_record hsteady hnodup).mpr ⟨hr, rfl, Or.inl hdeleted⟩] at hprior
        contradiction
      · exact ⟨hwritten, (priorOf?_record_eq_none hsteady hnodup hwritten).mp hprior⟩
    · rintro ⟨hwritten, hfresh⟩
      exact ⟨Or.inr hwritten, (priorOf?_record_eq_none hsteady hnodup hwritten).mpr hfresh⟩
  edited key := by
    simp only [ChangelogEntry.symbol_eq_edited]
    rw [HistoryRecord.exists_entry_iff fun old new => old ≠ none ∧ new ≠ none, Ne, Ne,
      writtenOf?_record_eq_none, not_not]
    constructor
    · rintro ⟨-, hprior, hwritten⟩
      rw [priorOf?_record_eq_none hsteady hnodup hwritten, not_not] at hprior
      exact ⟨hwritten, hprior⟩
    · rintro ⟨hwritten, hheld⟩
      refine ⟨(mem_keys_record hsteady hnodup).mpr (Or.inr hwritten), ?_, hwritten⟩
      rwa [priorOf?_record_eq_none hsteady hnodup hwritten, not_not]
  values w hw entry hentry hkey value := by
    obtain ⟨-, hnew⟩ := HistoryRecord.mem_changelog.mp hentry
    rw [hkey, writtenOf?_record.mpr ⟨hw, rfl⟩] at hnew
    rw [ChangelogEntry.values, hnew]
    exact exists_change_iff_mem (Batches.nodup_contents hw)
  real entry hentry hedited hcontents := by
    obtain ⟨hold, hnew⟩ := HistoryRecord.mem_changelog.mp hentry
    cases entry with
    | added _ | deleted _ => simp [ChangelogEntry.symbol] at hedited
    | edited old new =>
      refine (real_of_edited hsteady hnodup hold.symm hnew.symm (hcontents old rfl)).imp_left ?_
      intro httl
      simp [ChangelogEntry.changedFields, httl]

end Record

/-- **The record of a run accounts for what the run sent.**  The desired rows are any that can be
used, and grouping leaves the names of the zone and of the rows as they are. -/
theorem record_accounts (zone : String) (policy : Policy) (rows : List Row)
    (current : List RRset) (hnodup : (current.map RRset.key).Nodup)
    (hkeeps : policy.KeepsOwners zone rows current) (r : Reconciliation)
    (hr : reconcile zone policy rows current = .ok r) (actor : String) (timestamp : Timestamp) :
    HistoryRecord.Accounts
      { zone, added := (r.batches policy).replaces, removed := r.prior, actor, timestamp }
      current (r.batches policy) := by
  rw [reconcile_eq] at hr
  cases hdesired : desiredRows zone policy rows with
  | error e =>
    rw [hdesired] at hr
    cases hr
  | ok desired =>
    rw [hdesired] at hr
    obtain rfl := Except.ok.inj hr
    exact accounts_record (hkeeps.steady hdesired) hnodup

/-- A zone with an address that changes, a text that goes and an address that is switched off. -/
def officeZone : List RRset :=
  [⟨"www.example.com.", .named .a, 300, [⟨"192.0.2.1", false⟩, ⟨"192.0.2.2", false⟩], []⟩,
    ⟨"gone.example.com.", .named .txt, 300, [⟨"gone", false⟩], []⟩,
    ⟨"mail.example.com.", .named .a, 300, [⟨"192.0.2.25", false⟩], []⟩]

/-- What is desired of the zone, and a mail exchanger besides. -/
def officeRows : List Row :=
  [{ Row.plain "www" (.named .a) "192.0.2.2" with ttl := some 300 },
    { Row.plain "www" (.named .a) "192.0.2.3" with ttl := some 300 },
    { Row.plain "mail" (.named .a) "192.0.2.25" with ttl := some 300, status := .disabled },
    .plain "@" (.named .mx) "10 mail"]

theorem record_accounts_office :
    let policy : Policy := ⟨false, false, [.named .a, .named .mx, .named .txt]⟩
    let r := between policy (officeRows.map (Row.flatten "example.com" policy)) officeZone
    (officeZone.map RRset.key).Nodup ∧
      reconcile "example.com" policy officeRows officeZone = .ok r ∧
      HistoryRecord.Accounts
        ⟨"example.com", (r.batches policy).replaces, r.prior, "operator", .epoch⟩
        officeZone (r.batches policy) := by
  intro policy r
  have hnodup : (officeZone.map RRset.key).Nodup := by decide
  have hdesired : desiredRows "example.com" policy officeRows =
      .ok (officeRows.map (Row.flatten "example.com" policy)) := by
    decide +kernel
  have hr : reconcile "example.com" policy officeRows officeZone = .ok r := by
    rw [reconcile_eq, hdesired]
    rfl
  have hkeeps : policy.KeepsOwners "example.com" officeRows officeZone :=
    Policy.keepsOwners_of_plain rfl _ _ _
  refine ⟨hnodup, hr, ?_⟩
  exact record_accounts "example.com" policy officeRows officeZone hnodup hkeeps r hr
    "operator" .epoch

end Reconciliation

end ZoneKeeper
