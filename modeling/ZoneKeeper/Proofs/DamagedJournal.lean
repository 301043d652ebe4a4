/-
Records that are put into a damaged journal.

A journal is only ever written at its end, so nothing happens to the lines that are ended: what
was read from them is read from them again, whatever else stands in the journal.  What stands
behind the last line feed is different, since a record that is put there continues it.  Spaces do
no harm, and without a type that nobody reported the record is read behind them.  Behind anything
else it is lost, and so is a record that lacked nothing but its line feed.
-/
import ZoneKeeper.Proofs.JoinedJson
import ZoneKeeper.Proofs.Journal

namespace ZoneKeeper.Journal

open Text Json

variable {contents path : String} {record : HistoryRecord} {cs : List Char}

/-! ### Lines that are ended, and what is not -/

/-- What stands behind the last line feed. -/
def unended (contents : String) : List Char :=
  (cutAt '\n' contents.toList).getLastD []

/-- The records on the lines that are ended. -/
def endedRecords (contents : String) : List HistoryRecord :=
  (cutAt '\n' contents.toList).dropLast.filterMap fun piece =>
    record? (String.ofList (dropReturn piece))

theorem filterMap_record?_last (last? : Option (List Char)) :
    (((last?.filter fun piece => !piece.isEmpty).toList.map String.ofList).filterMap record?) =
      (record? (String.ofList (last?.getD []))).toList := by
  match last? with
  | none | some [] => rfl
  | some (c :: cs) =>
    show [String.ofList (c :: cs)].filterMap record? = _
    rw [List.filterMap_eq_flatMap_toList, List.flatMap_singleton, Option.getD_some]

/-- A journal has the records of its ended lines, and maybe one that lacks its line feed. -/
theorem records_eq (contents : String) : records contents none =
    endedRecords contents ++ (record? (String.ofList (unended contents))).toList := by
  rw [unended, List.getLastD_eq_getLast?, ← filterMap_record?_last, records, List.filter_true,
    lines, List.map_append, List.filterMap_append, List.map_map, List.filterMap_map]
  rfl

/-- A record's line ends what stood behind the last line feed, with the record behind it. -/
theorem cutAt_append_line (contents : String) (record : HistoryRecord) :
    cutAt '\n' (contents ++ line record).toList = (cutAt '\n' contents.toList).dropLast ++
      [unended contents ++ (toJson record).chars, []] := by
  rw [String.toList_append, toList_line, ← List.append_assoc, cutAt_append_sep,
    cutAt_append_of_not_mem (feed_not_mem_record record), cutAt_nil, List.append_assoc]
  rfl

theorem unended_append_line (contents : String) (record : HistoryRecord) :
    unended (contents ++ line record) = [] := by
  rw [unended, cutAt_append_line, List.append_cons, List.getLastD_concat]

theorem endedRecords_append_line (contents : String) (record : HistoryRecord) :
    endedRecords (contents ++ line record) = endedRecords contents ++
      (record? (String.ofList (unended contents ++ (toJson record).chars))).toList := by
  rw [endedRecords, cutAt_append_line, List.dropLast_append_of_ne_nil (by simp),
    List.filterMap_append, endedRecords, List.dropLast_cons_cons, List.dropLast_singleton,
    List.filterMap_eq_flatMap_toList _ [_], List.flatMap_singleton, dropReturn_append_record]

/-! ### One record behind what is not ended -/

/-- Spaces of JSON are blanks, and blanks alone are no record. -/
theorem record?_spaces (h : cs.all isSpace = true) : record? (String.ofList cs) = none := by
  have hblank : isBlankText (String.ofList cs) = true := by
    rw [isBlankText, String.toList_ofList, List.all_eq_true]
    intro c hc
    have hspace := List.all_eq_true.mp h c hc
    simp only [isSpace, Bool.or_eq_true, beq_iff_eq] at hspace
    rcases hspace with ((rfl | rfl) | rfl) | rfl <;> rfl
  rw [record?, hblank, if_pos rfl]

/-- **A record is read behind spaces, and behind nothing else.** -/
theorem record?_joined (cs : List Char) (record : HistoryRecord) :
    record? (String.ofList (cs ++ (toJson record).chars)) =
      if cs.all isSpace then ofJson? (toJson record) else none := by
  obtain ⟨after, hafter⟩ := exists_chars_record record
  have hblank : isBlankText (String.ofList (cs ++ (toJson record).chars)) = false := by
    rw [isBlankText, String.toList_ofList, List.all_append, hafter, List.all_cons]
    simp [isBlank]
  rw [record?, hblank, if_neg (by decide), parse?_joined record.writable hafter rfl rfl]
  split <;> rfl

theorem record?_empty : record? (String.ofList []) = none := rfl

/-- A record that is put behind spaces is read as what was written of it. -/
theorem records_append_line_of_spaces (record : HistoryRecord)
    (h : (unended contents).all isSpace = true) :
    records (contents ++ line record) none =
      records contents none ++ (ofJson? (toJson record)).toList := by
  rw [records_eq, unended_append_line, endedRecords_append_line, record?_joined, if_pos h,
    records_eq contents, record?_spaces h, record?_empty]
  simp

/-- A record that is put behind anything else takes what stood there with it. -/
theorem records_append_line_of_not_spaces (record : HistoryRecord)
    (h : (unended contents).all isSpace = false) :
    records (contents ++ line record) none = endedRecords contents := by
  rw [records_eq, unended_append_line, endedRecords_append_line, record?_joined, h, record?_empty]
  simp

theorem persist_toUTF8 (path : String) (record : HistoryRecord) (contents : String) :
    persist path record (.file (some contents.toUTF8)) =
      .ok (.file (some (contents ++ line record).toUTF8)) :=
  congrArg (fun bytes => Except.ok (Place.file (some bytes))) String.toByteArray_append.symm

/-- **What a damaged journal gives back.**  A record can be put into any journal that is a text.
What was read before is read again, and the new record behind it, exactly if the types in it were
reported and nothing but spaces stood behind the last line feed.  If anything else stood there, the
records of the ended lines are all that is left of what was read and what was put. -/
theorem load_persist_iff (path contents : String) (record : HistoryRecord) :
    ∃ next, persist path record (.file (some contents.toUTF8)) = .ok next ∧
      load path none (.file (some contents.toUTF8)) = .ok (endedRecords contents ++
        (record? (String.ofList (unended contents))).toList) ∧
      (load path none next =
          (load path none (.file (some contents.toUTF8))).map (· ++ [record]) ↔
        record.IsReported ∧ (unended contents).all isSpace = true) ∧
      ((unended contents).all isSpace = true ∨
        load path none next = .ok (endedRecords contents)) := by
  refine ⟨_, persist_toUTF8 path record contents, ?_⟩
  rw [load_toUTF8, load_toUTF8, ← records_eq]
  cases hspaces : (unended contents).all isSpace with
  | true =>
    have hread : (ofJson? (toJson record) : Option HistoryRecord).toList = [record] ↔
        record.IsReported := by
      rw [Option.toList_eq_singleton_iff, record.read_iff]
    simp [records_append_line_of_spaces record hspaces, Except.map, hread]
  | false =>
    rw [records_append_line_of_not_spaces record hspaces, records_eq]
    simp [Except.map]

/-- A record of a run that changed nothing. -/
def idle : HistoryRecord where
  zone := "example.com."
  added := []
  removed := []
  actor := "ops"
  timestamp := .epoch

/-- The line feed is all that the only record in the journal lacks.  It is read before another
record is put behind it, and neither is read then. -/
theorem load_persist_loses_both : ∃ next,
    persist "log" idle (.file (some (toJson idle).compact.toUTF8)) = .ok next ∧
      load "log" none (.file (some (toJson idle).compact.toUTF8)) = .ok [idle] ∧
      load "log" none next = .ok [] := by
  have hreported : idle.IsReported := by simp [HistoryRecord.IsReported, idle]
  have hpieces : cutAt '\n' (toJson idle).compact.toList = [(toJson idle).chars] := by
    rw [compact, String.toList_ofList, cutAt_of_not_mem (feed_not_mem_record idle)]
  have hunended : unended (toJson idle).compact = (toJson idle).chars := by
    rw [unended, hpieces]
    rfl
  have hended : endedRecords (toJson idle).compact = [] := by
    rw [endedRecords, hpieces]
    rfl
  have hspaces : (unended (toJson idle).compact).all isSpace = false := by
    rw [hunended]
    rfl
  have hread : record? (String.ofList (toJson idle).chars) = some idle :=
    record?_compact hreported
  refine ⟨_, persist_toUTF8 "log" idle _, ?_, ?_⟩
  · rw [load_toUTF8, records_eq, hended, hunended, hread, List.nil_append, Option.toList_some]
  · rw [load_toUTF8, records_append_line_of_not_spaces idle hspaces, hended]

end ZoneKeeper.Journal
