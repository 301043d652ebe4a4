/-
The audit history replays and undoes the zones.

A record has what was written and what was there before under the keys that were written or
deleted.  That is enough to go either way: taking out every key that the record names and
putting in what was written leads from the zone before the run to the zone after it, and
taking out what was written and putting in what was there before leads back.

One run leaves at most one record, and none unless it changed its zone, so the records of a
zone lead through any number of runs.  Only a run that ends half way breaks this, because its
deletions are made and not recorded.
-/
import ZoneKeeper.Proofs.Convergence
import ZoneKeeper.Journal

namespace ZoneKeeper

/-! ### Zones as maps -/

/-- A zone as a map from keys to record sets. -/
abbrev ZoneMap := RRsetKey → Option RRset

namespace ZoneMap

/-- The map of a list of record sets. -/
def ofRRsets (rrsets : List RRset) : ZoneMap :=
  currentWithKey? rrsets

/-- The map without the keys of some record sets. -/
def eraseAll (rrsets : List RRset) (map : ZoneMap) : ZoneMap :=
  rrsets.foldl (fun map r => Function.update map r.key none) map

/-- The map with some record sets put in, one after another. -/
def insertAll (rrsets : List RRset) (map : ZoneMap) : ZoneMap :=
  rrsets.foldl (fun map r => Function.update map r.key (some r)) map

theorem ofRRsets_apply (rrsets : List RRset) (key : RRsetKey) :
    ofRRsets rrsets key = (RRset.withKey rrsets key).getLast? :=
  currentWithKey?_eq rrsets key

theorem eraseAll_apply (rrsets : List RRset) (map : ZoneMap) (key : RRsetKey) :
    eraseAll rrsets map key = if key ∈ rrsets.map RRset.key then none else map key := by
  induction rrsets generalizing map with
  | nil => rfl
  | cons r rest ih =>
    rw [eraseAll, List.foldl_cons, ← eraseAll, ih, List.map_cons]
    by_cases hrest : key ∈ rest.map RRset.key
    · simp [hrest]
    · by_cases hkey : key = r.key <;> simp [hrest, hkey]

theorem insertAll_apply (rrsets : List RRset) (map : ZoneMap) (key : RRsetKey) :
    insertAll rrsets map key = ((RRset.withKey rrsets key).getLast?).or (map key) := by
  induction rrsets generalizing map with
  | nil => rfl
  | cons r rest ih =>
    rw [insertAll, List.foldl_cons, ← insertAll, ih]
    by_cases hkey : r.key = key
    · subst hkey
      simp [RRset.withKey, List.getLast?_cons]
    · simp [RRset.withKey, hkey, Ne.symm hkey]

end ZoneMap

namespace HistoryRecord

/-- What the record makes of the zone before the run. -/
def redo (record : HistoryRecord) (map : ZoneMap) : ZoneMap :=
  ZoneMap.insertAll record.added (ZoneMap.eraseAll (record.removed ++ record.added) map)

/-- What the record makes of the zone after the run. -/
def undo (record : HistoryRecord) (map : ZoneMap) : ZoneMap :=
  ZoneMap.insertAll record.removed (ZoneMap.eraseAll record.added map)

end HistoryRecord

/-! ### One record -/

namespace Reconciliation

section Record

variable {policy : Policy} {desired : List FlatRow} {current : List RRset} {key : RRsetKey}
  {r : RRset} {record : HistoryRecord}

/-- The key is deleted or written. -/
def Touches (policy : Policy) (desired : List FlatRow) (current : List RRset) (key : RRsetKey) :
    Prop :=
  key ∈ ((between policy desired current).batches policy).deletes ∨
    key ∈ ((between policy desired current).batches policy).replaces.map RRset.key

/-- The record is the one that a run leaves of these changes. -/
structure Records (policy : Policy) (desired : List FlatRow) (current : List RRset)
    (record : HistoryRecord) : Prop where
  added : record.added = ((between policy desired current).batches policy).replaces
  removed : record.removed = (between policy desired current).prior

/-- What was there under a key that is touched is the only thing that is kept for it. -/
theorem getLast?_withKey_prior (hsteady : Steady policy desired current)
    (hnodup : (current.map RRset.key).Nodup) (hr : r ∈ current)
    (htouched : Touches policy desired current r.key) :
    (RRset.withKey (between policy desired current).prior r.key).getLast? = some r := by
  have hprior : r ∈ RRset.withKey (between policy desired current).prior r.key :=
    RRset.mem_withKey.mpr ⟨(mem_prior hsteady hnodup).mpr ⟨hr, htouched⟩, rfl⟩
  have hlast := List.getLast?_eq_some_getLast (List.ne_nil_of_mem hprior)
  obtain ⟨hmem, hkey⟩ := RRset.mem_withKey.mp (List.mem_of_getLast? hlast)
  rw [hlast, RRset.eq_of_key_eq hnodup ((mem_prior hsteady hnodup).mp hmem).1 hr hkey]

/-- Nothing is kept under a key that is not touched. -/
theorem withKey_prior_of_not_touched (hsteady : Steady policy desired current)
    (hnodup : (current.map RRset.key).Nodup) (huntouched : ¬Touches policy desired current key) :
    RRset.withKey (between policy desired current).prior key = [] := by
  refine RRset.withKey_eq_nil.mpr ?_
  rintro s hs rfl
  exact huntouched ((mem_prior hsteady hnodup).mp hs).2

/-- A key that is not touched has in the zone what it had. -/
theorem withKey_outcome_of_not_touched (huntouched : ¬Touches policy desired current key) :
    RRset.withKey (outcome policy desired current) key = RRset.withKey current key :=
  Batches.withKey_leave_of_not_mem (fun h => huntouched (Or.inl h)) fun h => huntouched (Or.inr h)

/-- **The record leads from the zone before the run to the zone after it.** -/
theorem redo_of_records (hsteady : Steady policy desired current)
    (hnodup : (current.map RRset.key).Nodup) (hrecord : Records policy desired current record) :
    record.redo (ZoneMap.ofRRsets current) = ZoneMap.ofRRsets (outcome policy desired current) := by
  have hformed : ((between policy desired current).batches policy).WellFormed :=
    Batches.wellFormed_ofRows _ _
  funext key
  rw [HistoryRecord.redo, ZoneMap.insertAll_apply, ZoneMap.eraseAll_apply, ZoneMap.ofRRsets_apply,
    ZoneMap.ofRRsets_apply, hrecord.added, hrecord.removed]
  by_cases hwritten : key ∈ ((between policy desired current).batches policy).replaces.map RRset.key
  · obtain ⟨w, hw, rfl⟩ := List.mem_map.mp hwritten
    rw [RRset.withKey_of_mem hformed.replaces_nodup hw, outcome,
      Batches.withKey_leave_of_written hformed hw]
    rfl
  have hadded : RRset.withKey ((between policy desired current).batches policy).replaces key =
      [] := RRset.withKey_eq_nil.mpr fun w hw hkey => hwritten (List.mem_map.mpr ⟨w, hw, hkey⟩)
  rw [hadded, List.getLast?_nil, Option.none_or, List.map_append]
  by_cases hdeleted : key ∈ ((between policy desired current).batches policy).deletes
  · obtain ⟨r, hr, rfl⟩ := (mem_deletes_between (hsteady.steadyAt _)).mp hdeleted
    have hprior : r ∈ (between policy desired current).prior := List.mem_append_left _ hr
    rw [if_pos (List.mem_append_left _ (List.mem_map_of_mem hprior)), outcome,
      Batches.withKey_leave_of_deleted hdeleted hwritten]
    rfl
  · have huntouched : ¬Touches policy desired current key := not_or.mpr ⟨hdeleted, hwritten⟩
    have hprior : key ∉ (between policy desired current).prior.map RRset.key := by
      rintro hmem
      obtain ⟨s, hs, rfl⟩ := List.mem_map.mp hmem
      exact huntouched ((mem_prior hsteady hnodup).mp hs).2
    rw [if_neg (by simpa using ⟨by simpa using hprior, by simpa using hwritten⟩),
      withKey_outcome_of_not_touched huntouched]

/-- **The record leads back from the zone after the run to the zone before it.** -/
theorem undo_of_records (hsteady : Steady policy desired current)
    (hnodup : (current.map RRset.key).Nodup) (hrecord : Records policy desired current record) :
    record.undo (ZoneMap.ofRRsets (outcome policy desired current)) = ZoneMap.ofRRsets current := by
  funext key
  rw [HistoryRecord.undo, ZoneMap.insertAll_apply, ZoneMap.eraseAll_apply, ZoneMap.ofRRsets_apply,
    ZoneMap.ofRRsets_apply, hrecord.added, hrecord.removed]
  by_cases htouched : Touches policy desired current key
  · by_cases hheld : ∃ r ∈ current, r.key = key
    · obtain ⟨r, hr, rfl⟩ := hheld
      rw [getLast?_withKey_prior hsteady hnodup hr htouched,
        RRset.withKey_of_mem hnodup hr]
      rfl
    · have hnone : RRset.withKey current key = [] :=
        RRset.withKey_eq_nil.mpr fun r hr hkey => hheld ⟨r, hr, hkey⟩
      have hprior : RRset.withKey (between policy desired current).prior key = [] :=
        RRset.withKey_eq_nil.mpr fun r hr hkey =>
          hheld ⟨r, ((mem_prior hsteady hnodup).mp hr).1, hkey⟩
      rw [hnone, hprior]
      rcases htouched with hdeleted | hwritten
      · -- only what the zone holds is deleted
        obtain ⟨r, hr, hkey⟩ := (mem_deletes_between (hsteady.steadyAt _)).mp hdeleted
        exact absurd ⟨r, (mem_removed.mp hr).1, hkey⟩ hheld
      · rw [if_pos hwritten]
        rfl
  · rw [withKey_prior_of_not_touched hsteady hnodup htouched,
      withKey_outcome_of_not_touched htouched, if_neg fun h => htouched (Or.inr h)]
    rfl

end Record

end Reconciliation

/-! ### Runs one after another -/

/-- A request, and the setup of the sandbox for its run. -/
structure Call where
  setup : Sandbox.Setup
  request : ApplyRequest

namespace Call

/-- The run of a call. -/
def run (call : Call) (box : Sandbox) : Except SyncError ApplySummary × Sandbox :=
  call.setup.run call.request box

/-- The history is the sandbox's own and in order, reverse names are not brought up to date, and
owner names are not written as addresses.  Everything else is open. -/
structure Plain (call : Call) : Prop where
  store : call.setup.store = Sandbox.persist call.setup.faults
  history : call.setup.faults.history = none
  autoPtr : (call.setup.policyFor call.request.zone).autoPtr = false
  prettyIPv6Ptr : (call.setup.policyFor call.request.zone).prettyIPv6Ptr = false

/-- The results of calls, one after another. -/
def results : List Call → Sandbox → List (Except SyncError ApplySummary)
  | [], _ => []
  | call :: calls, box => (call.run box).1 :: results calls (call.run box).2

/-- The sandbox after calls, one after another. -/
def leave : List Call → Sandbox → Sandbox
  | [], box => box
  | call :: calls, box => leave calls (call.run box).2

end Call

namespace Nameserver

/-- No zone has two record sets with one key. -/
def KeysDistinct (server : Nameserver) : Prop :=
  ∀ zone snapshot, server.zone? zone = some snapshot → (snapshot.rrsets.map RRset.key).Nodup

/-- A zone as a map, which is empty if there is no such zone. -/
def zoneMap (server : Nameserver) (zone : String) : ZoneMap :=
  match server.zone? zone with
  | some snapshot => .ofRRsets snapshot.rrsets
  | none => fun _ => none

theorem zoneMap_of_some {server : Nameserver} {zone : String} {snapshot : Snapshot}
    (h : server.zone? zone = some snapshot) : server.zoneMap zone = .ofRRsets snapshot.rrsets := by
  rw [zoneMap, h]

theorem zoneMap_congr {server after : Nameserver} {zone : String}
    (h : after.zone? zone = server.zone? zone) : after.zoneMap zone = server.zoneMap zone := by
  rw [zoneMap, zoneMap, h]

theorem isAbout_iff {zone : String} {record : HistoryRecord} :
    Journal.isAbout zone record = true ↔ SameZone zone record.zone := by
  unfold Journal.isAbout SameZone
  rw [beq_iff_eq]
  exact eq_comm

end Nameserver

/-- Some records lead every zone from one sandbox to another and back. -/
structure Sandbox.Recorded (box after : Sandbox) (records : List HistoryRecord) : Prop where
  distinct : after.server.KeysDistinct
  history : after.history = box.history ++ records
  redo : ∀ zone, (records.filter (Journal.isAbout zone)).foldl (fun map r => r.redo map)
    (box.server.zoneMap zone) = after.server.zoneMap zone
  undo : ∀ zone, (records.filter (Journal.isAbout zone)).foldr HistoryRecord.undo
    (after.server.zoneMap zone) = box.server.zoneMap zone

namespace Sandbox.Recorded

open Nameserver

variable {box middle after : Sandbox} {records more : List HistoryRecord}

/-- Nothing is recorded where nothing changed. -/
theorem of_alike (hdistinct : box.server.KeysDistinct) (h : box.Alike after) :
    box.Recorded after [] where
  distinct zone snapshot hzone := hdistinct zone snapshot (h.server.zone? zone ▸ hzone)
  history := by rw [h.history, List.append_nil]
  redo zone := (zoneMap_congr (h.server.zone? zone)).symm
  undo zone := zoneMap_congr (h.server.zone? zone)

theorem trans (h₁ : box.Recorded middle records) (h₂ : middle.Recorded after more) :
    box.Recorded after (records ++ more) where
  distinct := h₂.distinct
  history := by rw [h₂.history, h₁.history, List.append_assoc]
  redo zone := by rw [List.filter_append, List.foldl_append, h₁.redo, h₂.redo]
  undo zone := by rw [List.filter_append, List.foldr_append, h₂.undo, h₁.undo]

/-- A record leads its own zone there and back, and all others stay. -/
theorem of_moved {record : HistoryRecord} {before snapshot : Snapshot}
    (hdistinct : box.server.KeysDistinct) (hnodup : (snapshot.rrsets.map RRset.key).Nodup)
    (hzone : box.server.zone? record.zone = some before)
    (hmoved : box.server.Moved after.server record.zone snapshot)
    (hhistory : after.history = box.history ++ [record])
    (hredo : record.redo (.ofRRsets before.rrsets) = .ofRRsets snapshot.rrsets)
    (hundo : record.undo (.ofRRsets snapshot.rrsets) = .ofRRsets before.rrsets) :
    box.Recorded after [record] := by
  have hmap : ∀ zone, SameZone zone record.zone →
      box.server.zoneMap zone = .ofRRsets before.rrsets ∧
        after.server.zoneMap zone = .ofRRsets snapshot.rrsets := fun zone hsame =>
    ⟨zoneMap_of_some ((zone?_congr hsame).trans hzone),
      zoneMap_of_some ((zone?_congr hsame).trans hmoved.own)⟩
  refine ⟨fun zone other hother => ?_, hhistory, fun zone => ?_, fun zone => ?_⟩
  · by_cases hsame : SameZone zone record.zone
    · rw [zone?_congr hsame, hmoved.own] at hother
      exact Option.some.inj hother ▸ hnodup
    · rw [hmoved.others zone hsame] at hother
      exact hdistinct zone other hother
  · by_cases hsame : SameZone zone record.zone
    · rw [List.filter_cons_of_pos (isAbout_iff.mpr hsame), (hmap zone hsame).1,
        (hmap zone hsame).2]
      exact hredo
    · rw [List.filter_cons_of_neg (mt isAbout_iff.mp hsame)]
      exact (zoneMap_congr (hmoved.others zone hsame)).symm
  · by_cases hsame : SameZone zone record.zone
    · rw [List.filter_cons_of_pos (isAbout_iff.mpr hsame), (hmap zone hsame).1,
        (hmap zone hsame).2]
      exact hundo
    · rw [List.filter_cons_of_neg (mt isAbout_iff.mp hsame)]
      exact zoneMap_congr (hmoved.others zone hsame)

end Sandbox.Recorded

namespace Call

open Sandbox.Setup

variable {call : Call} {calls : List Call} {box : Sandbox}

/-- A run that does not end half way leaves the records that lead there and back. -/
theorem recorded_of_run (hplain : call.Plain) (hdistinct : box.server.KeysDistinct)
    (hwhole : ∀ zone applied failed message,
      (call.run box).1 ≠ .error (.partialFailure zone applied failed message)) :
    ∃ records, box.Recorded (call.run box).2 records := by
  have hended := run_ended (recording_of_persist hplain.store hplain.history) call.request box
  unfold run at hwhole ⊢
  generalize (call.setup.run call.request box).2 = after at hended ⊢
  generalize (call.setup.run call.request box).1 = result at hended hwhole
  cases hended with
  | refused _ halike => exact ⟨[], .of_alike hdistinct halike⟩
  | settled _ _ halike => exact ⟨[], .of_alike hdistinct halike⟩
  | halfway => exact absurd rfl (hwhole _ _ _ _)
  | unrecorded _ _ _ _ hrefused =>
    rw [hplain.store, Sandbox.persist, hplain.history] at hrefused
    cases hrefused
  | @recorded before prepared changed _ _ hprepares _ hmoved hreverse hserver hhistory =>
    have hnone := hprepares.ptrChanges_isEmpty hplain.autoPtr
    obtain ⟨rfl, -⟩ := syncReverse_of_isEmpty (by rw [hnone]; rfl) hreverse
    obtain ⟨desired, hdesired, rfl⟩ := hprepares.eq_between
    have hnodup := hdistinct _ _ hprepares.zone
    have hkeeps := Policy.keepsOwners_of_plain hplain.prettyIPv6Ptr call.request.zone
      call.request.rows before.rrsets
    have hsteady := hkeeps.steady hdesired
    rw [hmoved.history] at hhistory
    obtain ⟨record, hrecordZone, hrecords, hhistory⟩ : ∃ record : HistoryRecord,
        record.zone = call.request.zone ∧
        Reconciliation.Records (call.setup.policyFor call.request.zone) desired before.rrsets
          record ∧
        after.history = box.history ++ [record] := ⟨_, rfl, ⟨rfl, rfl⟩, hhistory⟩
    obtain ⟨snapshot, hrrsets, hmoved⟩ : ∃ snapshot : Snapshot,
        snapshot.rrsets = Reconciliation.outcome (call.setup.policyFor call.request.zone) desired
          before.rrsets ∧
        box.server.Moved after.server record.zone snapshot :=
      ⟨_, rfl, by rw [hserver, hrecordZone]; exact hmoved.server⟩
    refine ⟨[record], .of_moved hdistinct ?_ (hrecordZone ▸ hprepares.zone) hmoved hhistory ?_ ?_⟩
    · rw [hrrsets]
      exact Batches.nodup_leave (Batches.wellFormed_ofRows _ _) hnodup
    · rw [hrrsets]
      exact Reconciliation.redo_of_records hsteady hnodup hrecords
    · rw [hrrsets]
      exact Reconciliation.undo_of_records hsteady hnodup hrecords

/-- **The history replays and undoes the zones.** -/
theorem history_replays (calls : List Call) (hplain : ∀ call ∈ calls, call.Plain)
    (box : Sandbox) (hdistinct : box.server.KeysDistinct)
    (hwhole : ∀ zone applied failed message,
      .error (.partialFailure zone applied failed message) ∉ results calls box) :
    ∃ records, box.Recorded (leave calls box) records := by
  induction calls generalizing box with
  | nil => exact ⟨[], .of_alike hdistinct (.refl box)⟩
  | cons call calls ih =>
    have hfirst : ∀ zone applied failed message,
        (call.run box).1 ≠ .error (.partialFailure zone applied failed message) := by
      intro zone applied failed message hpartial
      refine hwhole zone applied failed message ?_
      rw [results, hpartial]
      exact List.mem_cons_self
    have hrest : ∀ zone applied failed message,
        .error (.partialFailure zone applied failed message) ∉ results calls (call.run box).2 :=
      fun zone applied failed message hmem =>
        hwhole zone applied failed message (List.mem_cons_of_mem _ hmem)
    obtain ⟨records, hrecords⟩ :=
      recorded_of_run (hplain call List.mem_cons_self) hdistinct hfirst
    obtain ⟨more, hmore⟩ := ih (fun other hother => hplain other (List.mem_cons_of_mem _ hother))
      (call.run box).2 hrecords.distinct hrest
    exact ⟨records ++ more, hrecords.trans hmore⟩

theorem keysDistinct_serving {zone : String} {rrsets : List RRset}
    (hnodup : (rrsets.map RRset.key).Nodup) :
    (Sandbox.serving zone rrsets).server.KeysDistinct := by
  intro other snapshot hother
  by_cases hsame : Nameserver.SameZone other zone
  · have hfound : (Sandbox.serving zone rrsets).server.zone? zone =
        some ⟨DomainName.absolute zone, 1, rrsets⟩ := Table.lookup_put_self _ _ _
    rw [Nameserver.zone?_congr hsame, hfound] at hother
    obtain rfl := Option.some.inj hother
    exact hnodup
  · have hnone : (Sandbox.serving zone rrsets).server.zone? other = none :=
      Table.lookup_put_of_ne hsame _ _
    rw [hnone] at hother
    contradiction

/-- A run that deletes, a run that writes, and one that comes too late. -/
def threeCalls : List Call :=
  let setup := plain ⟨false, false, [.named .a]⟩
  [⟨setup, oneAddress⟩,
    ⟨setup, ⟨"example.com.", [.plain "www" (.named .a) "192.0.2.3"], "operator", some 2⟩⟩,
    ⟨setup, ⟨"example.com", [], "operator", some 2⟩⟩]

theorem history_replays_threeCalls :
    let box := Sandbox.serving "example.com" mixedZone
    results threeCalls box =
      [.ok ⟨"example.com", 1, 0, none⟩, .ok ⟨"example.com.", 0, 1, none⟩,
        .error (.conflict "example.com" 2 3)] ∧
      ∃ records, box.Recorded (leave threeCalls box) records := by
  intro box
  have hplain : ∀ call ∈ threeCalls, call.Plain := by
    intro call hcall
    simp only [threeCalls, List.mem_cons, List.not_mem_nil, or_false] at hcall
    rcases hcall with rfl | rfl | rfl <;> exact ⟨rfl, rfl, rfl, rfl⟩
  have hdistinct : box.server.KeysDistinct := keysDistinct_serving (by decide)
  have hresults : results threeCalls box =
      [.ok ⟨"example.com", 1, 0, none⟩, .ok ⟨"example.com.", 0, 1, none⟩,
        .error (.conflict "example.com" 2 3)] := by
    decide +kernel
  refine ⟨hresults, history_replays threeCalls hplain box hdistinct ?_⟩
  intro zone applied failed message
  rw [hresults]
  simp

end Call

end ZoneKeeper
