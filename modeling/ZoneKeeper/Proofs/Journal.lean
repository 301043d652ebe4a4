/-
Journals that give back what was put into them.

The text of a journal is the lines of its records, one after the other.  Putting one more record
into it adds the record's line at the end, so after any number of records the path holds the text
of all of them.  A line has no line feed or carriage return inside, because compact JSON has no
control characters at all.  So the text falls apart into the lines it was made of, and each line is
read as the record that was written.
-/
import ZoneKeeper.Journal
import ZoneKeeper.Proofs.Stored

namespace ZoneKeeper.Journal

open Text Json

variable {record : HistoryRecord} {records more : List HistoryRecord} {path : String}
  {place next : Place}

/-! ### One line -/

/-- What is written of a record starts with the zone. -/
theorem exists_chars_record (record : HistoryRecord) :
    ∃ after, (toJson record).chars = '{' :: '"' :: 'z' :: after :=
  ⟨_, rfl⟩

/-- **A record is read again from its line.** -/
theorem record?_compact (h : record.IsReported) :
    record? (toJson record).compact = some record := by
  have hblank : isBlankText (toJson record).compact = false := by
    obtain ⟨after, hafter⟩ := exists_chars_record record
    rw [isBlankText, compact, String.toList_ofList, hafter, List.all_cons]
    rfl
  rw [record?, hblank, if_neg (by decide), parse?_compact record.writable, Option.bind_some,
    record.read_iff.mpr h]

/-- A line has no line feed before its end, and no carriage return. -/
theorem clean_record (record : HistoryRecord) : Clean (toJson record).chars :=
  clean_chars _ record.writable

theorem toList_line (record : HistoryRecord) :
    (line record).toList = (toJson record).chars ++ ['\n'] := by
  simp [line, compact]

theorem feed_not_mem_record (record : HistoryRecord) : '\n' ∉ (toJson record).chars := fun hfeed =>
  absurd (clean_record record '\n' hfeed) (by decide)

/-- The line that a record is put on has no carriage return at its end. -/
theorem dropReturn_append_record (cs : List Char) (record : HistoryRecord) :
    dropReturn (cs ++ (toJson record).chars) = cs ++ (toJson record).chars := by
  have hne : (toJson record).chars ≠ [] := by
    obtain ⟨after, hafter⟩ := exists_chars_record record
    simp [hafter]
  have hlast : (cs ++ (toJson record).chars).getLast? ≠ some '\r' := by
    rw [List.getLast?_append_of_ne_nil _ hne]
    intro hlast
    exact absurd (clean_record record '\r' (List.mem_of_getLast? hlast)) (by decide)
  rw [dropReturn, if_neg hlast]

/-! ### The text of a journal -/

/-- The text of a journal with these records. -/
def text (records : List HistoryRecord) : String :=
  String.ofList (records.flatMap fun record => (line record).toList)

theorem text_append_singleton (records : List HistoryRecord) (record : HistoryRecord) :
    text (records ++ [record]) = text records ++ line record := by
  simp [text, String.ofList_append]

/-- What is cut at line feeds is the lines, and nothing after the last one. -/
theorem cutAt_text (records : List HistoryRecord) :
    cutAt '\n' (text records).toList =
      records.map (fun record => (toJson record).chars) ++ [[]] := by
  rw [text, String.toList_ofList]
  induction records with
  | nil => rfl
  | cons record records ih =>
    rw [List.flatMap_cons, toList_line, List.append_assoc, List.singleton_append, cutAt_append_sep,
      cutAt_of_not_mem (feed_not_mem_record record), ih]
    rfl

theorem lines_text (records : List HistoryRecord) :
    lines (text records) = records.map fun record => (toJson record).compact := by
  have hended : records.map (dropReturn ∘ fun record => (toJson record).chars) =
      records.map fun record => (toJson record).chars := by
    refine List.map_congr_left fun record _ => ?_
    rw [Function.comp_apply, ← List.nil_append (toJson record).chars, dropReturn_append_record]
  have hnothing : (some []).filter (fun (piece : List Char) => !piece.isEmpty) = none := rfl
  simp [lines, cutAt_text, hended, hnothing, compact]

theorem filterMap_record? (h : ∀ record ∈ records, record.IsReported) :
    (records.map fun record => (toJson record).compact).filterMap record? = records := by
  induction records with
  | nil => rfl
  | cons record records ih =>
    obtain ⟨hrecord, hrecords⟩ := List.forall_mem_cons.mp h
    rw [List.map_cons, List.filterMap_cons_some (record?_compact hrecord), ih hrecords]

/-- **The records of a journal are found again,** all of them or those of one zone. -/
theorem records_text (h : ∀ record ∈ records, record.IsReported) (zone : Option String) :
    Journal.records (text records) zone = records.filter fun record =>
      ∀ name ∈ zone, DomainName.relative record.zone = DomainName.relative name := by
  rw [Journal.records, lines_text, filterMap_record? h]
  cases zone <;> simp [isAbout, beq_eq_decide]

/-! ### What a path holds -/

/-- The path holds these records and nothing else. -/
def Place.Holds : Place → List HistoryRecord → Prop
  | .file none, records | .nowhere, records => records = []
  | .file (some bytes), records => bytes = (text records).toUTF8
  | .directory, _ => False

/-- One more record is held after it was put there. -/
theorem Place.Holds.persist (h : place.Holds records)
    (hpersist : persist path record place = .ok next) : next.Holds (records ++ [record]) := by
  cases place with
  | file contents =>
    have hcontents : contents.getD .empty = (text records).toUTF8 := by
      cases contents with
      | none =>
        obtain rfl : records = [] := h
        rfl
      | some bytes => exact h
    obtain rfl := Except.ok.inj hpersist
    show contents.getD .empty ++ (line record).toUTF8 = (text (records ++ [record])).toUTF8
    rw [text_append_singleton, hcontents]
    exact String.toByteArray_append.symm
  | directory => cases hpersist
  | nowhere => cases hpersist

/-- The path after these records were put there, one after the other. -/
def persistAll (path : String) (records : List HistoryRecord) (place : Place) :
    Except SyncError Place :=
  records.foldlM (fun place record => persist path record place) place

/-- All records are held after they were put there. -/
theorem Place.Holds.persistAll (h : place.Holds records)
    (hpersist : persistAll path more place = .ok next) : next.Holds (records ++ more) := by
  induction more generalizing place records with
  | nil =>
    obtain rfl := Except.ok.inj hpersist
    rwa [List.append_nil]
  | cons record more ih =>
    rw [Journal.persistAll, List.foldlM_cons] at hpersist
    cases hfirst : Journal.persist path record place with
    | error e =>
      rw [hfirst] at hpersist
      cases hpersist
    | ok middle =>
      rw [hfirst] at hpersist
      have hmore := ih (h.persist hfirst) hpersist
      rwa [List.append_assoc] at hmore

/-- Where there may be a file, records can be put. -/
theorem persistAll_file (path : String) (records : List HistoryRecord)
    (contents : Option ByteArray) :
    ∃ bytes, persistAll path records (.file contents) = .ok (.file bytes) := by
  induction records generalizing contents with
  | nil => exact ⟨contents, rfl⟩
  | cons record records ih => exact ih _

/-- A file that is a text is read as that text. -/
theorem load_toUTF8 (path : String) (zone : Option String) (contents : String) :
    load path zone (.file (some contents.toUTF8)) = .ok (Journal.records contents zone) := by
  have hread : String.fromUTF8? contents.toUTF8 = some contents := by
    rw [String.fromUTF8?, String.toUTF8_eq_toByteArray, dif_pos contents.isValidUTF8]
    rfl
  simp only [load, hread]

/-- What is held is loaded. -/
theorem Place.Holds.load (h : place.Holds records)
    (hreported : ∀ record ∈ records, record.IsReported) (path : String) (zone : Option String) :
    load path zone place = .ok (records.filter fun record =>
      ∀ name ∈ zone, DomainName.relative record.zone = DomainName.relative name) := by
  cases place with
  | file contents =>
    cases contents with
    | none =>
      obtain rfl : records = [] := h
      rfl
    | some bytes =>
      obtain rfl : bytes = (text records).toUTF8 := h
      rw [load_toUTF8, records_text hreported]
  | directory => cases h
  | nowhere =>
    obtain rfl : records = [] := h
    rfl

/-! ### From the beginning -/

/-- There is no file at the path, whether or not one may be made there. -/
def Place.IsVacant : Place → Prop
  | .file none | .nowhere => True
  | .file (some _) | .directory => False

theorem Place.IsVacant.holds (h : place.IsVacant) : place.Holds [] := by
  cases place with
  | file contents =>
    cases contents with
    | none => rfl
    | some bytes => cases h
  | directory => cases h
  | nowhere => rfl

/-- **A journal loses and alters nothing.**  Records can be put where a file may be made.  When all
of them could be put where there was none, they are loaded again in their order, and so are those
of one zone, however many dots the zone's name ends in. -/
theorem load_persistAll (path : String) (h : ∀ record ∈ records, record.IsReported) :
    (∃ final, persistAll path records (.file none) = .ok final) ∧
    ∀ start final : Place, start.IsVacant → persistAll path records start = .ok final →
      load path none final = .ok records ∧
      ∀ zone, load path (some zone) final = .ok (records.filter fun record =>
        DomainName.relative record.zone = DomainName.relative zone) := by
  constructor
  · obtain ⟨bytes, hbytes⟩ := persistAll_file path records none
    exact ⟨.file bytes, hbytes⟩
  · intro start final hvacant hall
    have hheld : final.Holds records := hvacant.holds.persistAll hall
    constructor
    · simpa using hheld.load h path none
    · intro zone
      simpa using hheld.load h path (some zone)

/-- A record with an unfamiliar type, characters that are escaped, and a leap second. -/
def unfamiliar : HistoryRecord where
  zone := "example.com."
  added := [⟨"\"a\\b\".example.com.", RRType.ofMnemonic "X-NEW", 4294967295,
    [⟨"line\nline\t\u0001\u00fc\u2028", true⟩], [⟨"\u2028", ""⟩]⟩]
  removed := []
  actor := ""
  timestamp := ⟨⟨-44, 3, 15, by decide, by decide, by decide⟩,
    ⟨23, 59, 60, 1, by decide, by decide, by decide, by decide⟩⟩

theorem load_persistAll_unfamiliar :
    (∀ record ∈ [unfamiliar, { unfamiliar with zone := "org" }], record.IsReported) ∧
    ∃ final, persistAll "log" [unfamiliar, { unfamiliar with zone := "org" }] (.file none) =
        .ok final ∧
      load "log" none final = .ok [unfamiliar, { unfamiliar with zone := "org" }] ∧
      load "log" (some "example.com") final = .ok [unfamiliar] := by
  have hreported : ∀ record ∈ [unfamiliar, { unfamiliar with zone := "org" }],
      record.IsReported := by
    have hone : unfamiliar.IsReported := fun rrset hrrset => by
      obtain rfl := List.mem_singleton.mp hrrset
      exact ⟨" x-new", by decide +kernel⟩
    simpa using ⟨hone, hone⟩
  obtain ⟨⟨final, hfinal⟩, hload⟩ := load_persistAll "log" hreported
  obtain ⟨hall, hzone⟩ := hload (.file none) final trivial hfinal
  refine ⟨hreported, final, hfinal, hall, (hzone "example.com").trans ?_⟩
  decide +kernel

end ZoneKeeper.Journal
