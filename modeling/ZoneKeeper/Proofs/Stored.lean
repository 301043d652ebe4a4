/-
Values that survive being stored.

A value is restored when its JSON can be written down and is read as the same value again.  Texts,
truth values, numbers and points in time are restored, and a list is when its items are.  A record
is restored field by field, because its fields have different names and stand where the reader
looks for them.

A record set is read with more tolerance than it is written with: its type may be any mnemonic that
a nameserver reports.  So a record set is read again exactly if its type is one that was reported,
however the report spelled it.
-/
import ZoneKeeper.History
import ZoneKeeper.Proofs.DomainName
import ZoneKeeper.Proofs.JsonText
import ZoneKeeper.Proofs.Timestamp

namespace ZoneKeeper

/-! ### Case and blanks -/

namespace Text

/-- A character that changes in upper case is a lower-case letter of ASCII, and becomes an
upper-case one. -/
theorem toUpper_eq_or (c : Char) : c.toUpper = c ∨
    97 ≤ c.toNat ∧ c.toNat ≤ 122 ∧ 65 ≤ c.toUpper.toNat ∧ c.toUpper.toNat ≤ 90 := by
  unfold Char.toUpper
  split
  · next h =>
    have hlow : 97 ≤ c.toNat := UInt32.le_iff_toNat_le.mp h.1
    have hhigh : c.toNat ≤ 122 := UInt32.le_iff_toNat_le.mp h.2
    have hupper : (c.val + ('A'.val - 'a'.val)).toNat = c.toNat - 32 := by
      rw [UInt32.toNat_add]
      show (c.toNat + 4294967264) % 4294967296 = c.toNat - 32
      omega
    refine .inr ⟨hlow, hhigh, ?_⟩
    show 65 ≤ (c.val + ('A'.val - 'a'.val)).toNat ∧ (c.val + ('A'.val - 'a'.val)).toNat ≤ 90
    omega
  · exact .inl rfl

theorem toUpper_toUpper (c : Char) : c.toUpper.toUpper = c.toUpper := by
  rcases toUpper_eq_or c with h | ⟨-, -, -, hhigh⟩
  · rw [h, h]
  · rcases toUpper_eq_or c.toUpper with h | ⟨hlow, -⟩
    · exact h
    · omega

theorem upper_upper (s : String) : upper (upper s) = upper s := by
  simp only [upper, String.toList_ofList, List.map_map, Function.comp_def, toUpper_toUpper]

/-- Letters are no blanks in either case. -/
theorem isBlank_toUpper (c : Char) : isBlank c.toUpper = isBlank c := by
  rcases toUpper_eq_or c with h | ⟨hlow, hhigh, hlowUpper, hhighUpper⟩
  · rw [h]
  · have hletter : ∀ d : Char, 65 ≤ d.toNat → d.toNat ≤ 122 → isBlank d = false := by
      intro d hlow hhigh
      simp [isBlank]
      omega
    rw [hletter c (by omega) hhigh, hletter c.toUpper hlowUpper (by omega)]

theorem trim_upper (s : String) : trim (upper s) = upper (trim s) := by
  have hblank : isBlank ∘ Char.toUpper = isBlank := funext isBlank_toUpper
  simp only [trim, upper, trimChars, dropEndWhile, String.toList_ofList, List.dropWhile_map,
    ← List.map_reverse, hblank]

end Text

/-! ### Types -/

namespace RRType

variable {s : String} {type : RRType}

/-- A mnemonic spells itself. -/
theorem mnemonicOf_mnemonicOf (s : String) : mnemonicOf (mnemonicOf s) = mnemonicOf s := by
  rw [mnemonicOf, mnemonicOf, Text.trim_upper, Text.trim_trim, Text.upper_upper]

/-- **A reported type is read again from its mnemonic.** -/
theorem ofReport?_mnemonic (h : ofReport? s = some type) :
    ofReport? type.mnemonic = some type := by
  unfold ofReport? at h
  simp only [Option.ite_none_right_eq_some, Option.some.injEq] at h
  obtain ⟨haccepted, rfl⟩ := h
  rw [mnemonic_ofMnemonic]
  unfold ofReport?
  simp only [mnemonicOf_mnemonicOf, haccepted, if_true]

end RRType

/-! ### Restored values -/

namespace Json

open Numeral

/-- The value can be written down, and what is written is read as the value. -/
structure Restored {α : Type} [ToJson α] [OfJson α] (a : α) : Prop where
  writable : (toJson a).Writable
  read : ofJson? (toJson a) = some a

theorem restored_string (s : String) : Restored s := ⟨trivial, rfl⟩

theorem restored_bool (b : Bool) : Restored b := ⟨trivial, rfl⟩

/-- A numeral is a number literal. -/
theorem isNumber_toString (n : Nat) : isNumber (toString n).toList = true := by
  have hdigits : ∀ c ∈ (toString n).toList, c.isDigit = true := fun _ => isDigit_of_mem_toString
  have htake : (toString n).toList.takeWhile Char.isDigit = (toString n).toList :=
    List.takeWhile_eq_self_iff.mpr hdigits
  have hdrop : (toString n).toList.dropWhile Char.isDigit = [] :=
    List.dropWhile_eq_nil_iff.mpr hdigits
  have hsign : (toString n).toList.head? ≠ some '-' := by
    intro hhead
    exact absurd (hdigits '-' (List.mem_of_head? hhead)) (by decide)
  have hempty : (toString n).toList.isEmpty = false := by
    simpa only [List.isEmpty_eq_false_iff] using toList_toString_ne_nil n
  have hwhole : ((toString n).toList.head? != some '0' || (toString n).toList == ['0']) = true := by
    rcases Nat.eq_zero_or_pos n with rfl | hpos
    · rfl
    · exact Bool.or_eq_true_iff.mpr (.inl (bne_iff_ne.mpr (head?_toString_ne_zero hpos)))
  simp only [isNumber, if_neg hsign, htake, hdrop, hempty, hwhole]
  rfl

theorem restored_uint32 (n : UInt32) : Restored n := by
  refine ⟨isNumber_toString n.toNat, ?_⟩
  have hbound : n.toNat ≤ UInt32.size - 1 := by
    have := n.toNat_lt
    simp [UInt32.size] at *
    omega
  show (natUpTo? (UInt32.size - 1) (.number (toString n.toNat))).map UInt32.ofNat = some n
  rw [natUpTo?, decimal?_toString, Option.filter_some, if_pos (by simpa using hbound),
    Option.map_some, UInt32.ofNat_toNat]

theorem writableItems_iff {items : List Json} :
    WritableItems items ↔ ∀ item ∈ items, item.Writable := by
  induction items with
  | nil => simp [WritableItems]
  | cons item items ih => simp [WritableItems, ih]

theorem writable_list {α : Type} [ToJson α] {xs : List α} (h : ∀ x ∈ xs, (toJson x).Writable) :
    (toJson xs).Writable := by
  refine writableItems_iff.mpr fun item hitem => ?_
  obtain ⟨x, hx, rfl⟩ := List.mem_map.mp hitem
  exact h x hx

/-- A list is restored when its items are. -/
theorem restored_list {α : Type} [ToJson α] [OfJson α] {xs : List α}
    (h : ∀ x ∈ xs, Restored x) : Restored xs :=
  ⟨writable_list fun x hx => (h x hx).writable, mapM_map_eq_some fun x hx => (h x hx).read⟩

/-! ### Records -/

section Records

variable {fields : Fields} {name : String}

theorem writable_ofFields (h : ∀ field ∈ fields, field.2.Writable) :
    (ofFields fields).Writable := by
  show WritableMembers (fields.map _)
  induction fields with
  | nil => trivial
  | cons field fields ih =>
    obtain ⟨hfield, hfields⟩ := List.forall_mem_cons.mp h
    exact ⟨hfield, ih hfields⟩

/-- The members of an object are fields if all of them have a name. -/
theorem mapM_named_eq_some_iff {members : List (Option String × Json)} :
    members.mapM (fun (member : Option String × Json) => member.1.map fun key => (key, member.2)) =
      some fields ↔ ofFields fields = .object members := by
  have hmember : (fun (member : Option String × Json) (field : String × Json) =>
      (member.1.map fun key => (key, member.2)) = some field) =
      fun member field => member = (some field.1, field.2) := by
    funext member field
    obtain ⟨key, value⟩ := member
    cases key <;> simp [Prod.ext_iff]
  rw [mapM_eq_some_iff, hmember, ofFields, object.injEq, eq_comm, ← List.forall₂_eq_eq_eq,
    List.forall₂_map_right_iff]

/-- The fields of an object are those of its members that are asked for, if all members have a
name and none of those that are asked for is repeated. -/
theorem fields?_object_eq_some_iff {names : List String} {members : List (Option String × Json)}
    {known : Fields} : (object members).fields? names = some known ↔
      ∃ fields, ofFields fields = .object members ∧
        (fields.filter fun field => names.contains field.1) = known ∧
        (known.map Prod.fst).Nodup := by
  show Option.bind (members.mapM fun (member : Option String × Json) =>
      member.1.map fun key => (key, member.2))
    (fun members =>
      let known := members.filter fun (member : String × Json) => names.contains member.1
      if (known.map Prod.fst).Nodup then some known else none) = some known ↔ _
  simp only [Option.bind_eq_some_iff, mapM_named_eq_some_iff, Option.ite_none_right_eq_some,
    Option.some.injEq]
  refine exists_congr fun fields => and_congr_right fun _ => ?_
  constructor
  · rintro ⟨hnodup, rfl⟩
    exact ⟨rfl, hnodup⟩
  · rintro ⟨rfl, hnodup⟩
    exact ⟨hnodup, rfl⟩

/-- Fields of different names are all found, each with its value. -/
theorem fields?_ofFields {names : List String} (hnames : fields.map Prod.fst = names)
    (h : names.Nodup) : (ofFields fields).fields? names = some fields := by
  refine fields?_object_eq_some_iff.mpr ⟨fields, rfl, ?_, hnames ▸ h⟩
  refine List.filter_eq_self.mpr fun field hfield => ?_
  rw [← hnames, List.contains_iff_mem]
  exact List.mem_map_of_mem hfield

theorem required?_restored {α : Type} [ToJson α] [OfJson α] {a : α} (h : Restored a)
    (hlookup : fields.lookup name = some (toJson a)) : fields.required? name = some a := by
  rw [Fields.required?, hlookup, Option.bind_some, h.read]

/-- A field that is there is read as what it holds. -/
theorem withDefault?_of_lookup {α : Type} [OfJson α] {value : Json}
    (hlookup : fields.lookup name = some value) (default : α) :
    fields.withDefault? name default = ofJson? value := by
  simp only [Fields.withDefault?, hlookup]

theorem withDefault?_restored {α : Type} [ToJson α] [OfJson α] {a : α} (h : Restored a)
    (hlookup : fields.lookup name = some (toJson a)) (default : α) :
    fields.withDefault? name default = some a := by
  rw [withDefault?_of_lookup hlookup, h.read]

end Records

end Json

open Json

theorem RecordValue.restored (v : RecordValue) : Restored v := by
  have hcontent := restored_string v.content
  have hdisabled := restored_bool v.disabled
  have hfields : (toJson v).fields? ["content", "disabled"] =
      some [("content", toJson v.content), ("disabled", toJson v.disabled)] :=
    fields?_ofFields rfl (by decide)
  refine ⟨writable_ofFields (by simp [hcontent.writable, hdisabled.writable]), ?_⟩
  simp only [ofJson?, hfields, Option.bind_eq_bind, Option.bind_some]
  rw [required?_restored hcontent rfl, withDefault?_restored hdisabled rfl]
  rfl

theorem Comment.restored (c : Comment) : Restored c := by
  have hcontent := restored_string c.content
  have haccount := restored_string c.account
  have hfields : (toJson c).fields? ["content", "account"] =
      some [("content", toJson c.content), ("account", toJson c.account)] :=
    fields?_ofFields rfl (by decide)
  refine ⟨writable_ofFields (by simp [hcontent.writable, haccount.writable]), ?_⟩
  simp only [ofJson?, hfields, Option.bind_eq_bind, Option.bind_some]
  rw [required?_restored hcontent rfl, withDefault?_restored haccount rfl]
  rfl

/-- The type of the record set is one that a nameserver's text names. -/
def RRset.IsReported (rrset : RRset) : Prop :=
  ∃ s, RRType.ofReport? s = some rrset.type

namespace RRset

theorem writable (rrset : RRset) : (toJson rrset).Writable := by
  have htype : (toJson rrset.type).Writable := (restored_string rrset.type.mnemonic).writable
  have hrecords : Restored rrset.records := restored_list fun v _ => v.restored
  have hcomments : Restored rrset.comments := restored_list fun c _ => c.restored
  exact writable_ofFields (by simp [(restored_string rrset.name).writable, htype,
    (restored_uint32 rrset.ttl).writable, hrecords.writable, hcomments.writable])

theorem fields?_toJson (rrset : RRset) :
    (toJson rrset).fields? ["name", "type", "ttl", "records", "comments"] =
      some [("name", toJson rrset.name), ("type", toJson rrset.type.mnemonic),
        ("ttl", toJson rrset.ttl), ("records", toJson rrset.records),
        ("comments", toJson rrset.comments)] :=
  fields?_ofFields rfl (by decide)

/-- What is written of a record set is read but for its type, which is read as a report. -/
theorem ofJson?_toJson (rrset : RRset) : ofJson? (toJson rrset) =
    (RRType.ofReport? rrset.type.mnemonic).map fun type => { rrset with type } := by
  have hname := restored_string rrset.name
  have hmnemonic := restored_string rrset.type.mnemonic
  have httl := restored_uint32 rrset.ttl
  have hrecords : Restored rrset.records := restored_list fun v _ => v.restored
  have hcomments : Restored rrset.comments := restored_list fun c _ => c.restored
  simp only [ofJson?, fields?_toJson, Option.bind_eq_bind, Option.bind_some]
  rw [required?_restored hmnemonic rfl, Option.bind_some, required?_restored hname rfl,
    withDefault?_restored httl rfl, withDefault?_restored hrecords rfl,
    withDefault?_restored hcomments rfl]
  cases RRType.ofReport? rrset.type.mnemonic <;> rfl

/-- **A record set is read again exactly if its type was reported,** in whatever spelling. -/
theorem read_iff (rrset : RRset) :
    ofJson? (toJson rrset) = some rrset ↔ rrset.IsReported := by
  rw [ofJson?_toJson]
  constructor
  · intro h
    obtain ⟨type, htype, hsame⟩ := Option.map_eq_some_iff.mp h
    exact ⟨rrset.type.mnemonic, htype.trans (congrArg (fun rrset => some rrset.type) hsame)⟩
  · rintro ⟨s, hs⟩
    rw [RRType.ofReport?_mnemonic hs]
    rfl

/-- A list of record sets is read again exactly if all their types were reported. -/
theorem read_list_iff (rrsets : List RRset) :
    ofJson? (toJson rrsets) = some rrsets ↔ ∀ rrset ∈ rrsets, rrset.IsReported := by
  show (rrsets.map toJson).mapM ofJson? = some rrsets ↔ _
  simp only [mapM_eq_some_iff, List.forall₂_map_left_iff, List.forall₂_same, read_iff]

end RRset

theorem Timestamp.restored (t : Timestamp) : Restored t := by
  refine ⟨trivial, ?_⟩
  show (Json.text? (.string (some t.text))).bind ofString? = some t
  rw [Json.text?, Option.bind_some, ofString?_text]

/-- The types of all record sets in the record were reported. -/
def HistoryRecord.IsReported (record : HistoryRecord) : Prop :=
  ∀ rrset ∈ record.added ++ record.removed, rrset.IsReported

namespace HistoryRecord

theorem writable (record : HistoryRecord) : (toJson record).Writable := by
  have hrrsets (rrsets : List RRset) : (toJson rrsets).Writable :=
    writable_list fun rrset _ => rrset.writable
  exact writable_ofFields (by simp [(restored_string record.zone).writable, hrrsets record.added,
    hrrsets record.removed, (restored_string record.actor).writable,
    record.timestamp.restored.writable])

/-- What is written of a record is read but for its record sets, which are read one by one. -/
theorem ofJson?_toJson (record : HistoryRecord) : ofJson? (toJson record) =
    (ofJson? (toJson record.added)).bind fun added =>
      (ofJson? (toJson record.removed)).map fun removed => { record with added, removed } := by
  have hzone := restored_string record.zone
  have hactor := restored_string record.actor
  have htimestamp := record.timestamp.restored
  have hfields : (toJson record).fields?
      ["zone", "add_rrsets", "del_rrsets", "actor", "timestamp"] =
      some [("zone", toJson record.zone), ("add_rrsets", toJson record.added),
        ("del_rrsets", toJson record.removed), ("actor", toJson record.actor),
        ("timestamp", toJson record.timestamp)] :=
    fields?_ofFields rfl (by decide)
  generalize hadded : (ofJson? (toJson record.added) : Option (List RRset)) = added?
  generalize hremoved : (ofJson? (toJson record.removed) : Option (List RRset)) = removed?
  simp only [ofJson?, hfields, Option.bind_eq_bind, Option.bind_some]
  rw [required?_restored hzone rfl, required?_restored hactor rfl,
    required?_restored htimestamp rfl, withDefault?_of_lookup rfl, hadded,
    withDefault?_of_lookup rfl, hremoved]
  cases added? <;> cases removed? <;> rfl

/-- **A record of the history is read again exactly if the types in it were reported.** -/
theorem read_iff (record : HistoryRecord) :
    ofJson? (toJson record) = some record ↔ record.IsReported := by
  rw [ofJson?_toJson, IsReported, List.forall_mem_append, ← RRset.read_list_iff,
    ← RRset.read_list_iff]
  constructor
  · intro h
    obtain ⟨added, hadded, h⟩ := Option.bind_eq_some_iff.mp h
    obtain ⟨removed, hremoved, hsame⟩ := Option.map_eq_some_iff.mp h
    exact ⟨hadded.trans (congrArg (fun record => some record.added) hsame),
      hremoved.trans (congrArg (fun record => some record.removed) hsame)⟩
  · rintro ⟨hadded, hremoved⟩
    rw [hadded, hremoved]
    rfl

end HistoryRecord

end ZoneKeeper
