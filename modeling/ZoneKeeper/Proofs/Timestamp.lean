/-
Timestamps that are written and read again.

A reader of a timestamp takes one part after the other off the front of the text, and so does the
proof: `Reads` says of a reader what it takes from which characters and what it leaves, with one
lemma for each part that a writer makes.  Blanks may stand in many places where a writer puts
none, so each lemma has to know that the part before it ends where it does.
-/
import ZoneKeeper.Proofs.Numeral

namespace ZoneKeeper

open Text Numeral

namespace Timestamp

/-! ### Readers -/

section Reads

variable {α β : Type} {x : Scan α} {f : α → Scan β} {a : α} {b : β}
  {cs middle rest : List Char}

/-- The reader takes `a` off the front of the characters and leaves the rest. -/
def Reads (x : Scan α) (cs : List Char) (a : α) (rest : List Char) : Prop :=
  x.run cs = some (a, rest)

theorem Reads.bind (hx : Reads x cs a middle) (hf : Reads (f a) middle b rest) :
    Reads (x >>= f) cs b rest := by
  rw [Reads, StateT.run_bind, hx]
  exact hf

theorem reads_pure : Reads (pure a) cs a cs := rfl

theorem reads_set : Reads (set rest) cs ⟨⟩ rest := rfl

theorem reads_get : Reads get cs cs cs := rfl

theorem reads_lift {result : Option α} (h : result = some a) : Reads (liftM result) cs a cs := by
  rw [h]
  rfl

theorem reads_skipBlanks (h : Apart isBlank cs) : Reads skipBlanks cs ⟨⟩ cs :=
  congrArg (fun cs => some (PUnit.unit, cs)) (dropWhile_of_apart h)

theorem reads_oneOf {p : Char → Bool} {c : Char} (h : p c = true) :
    Reads (oneOf p) (c :: cs) c cs := by
  show (if p c then some (c, cs) else none) = _
  rw [if_pos h]

theorem reads_separator {c : Char} (h : isBlank c = false) :
    Reads (separator c) (c :: cs) ⟨⟩ cs :=
  (reads_skipBlanks (by simpa [Apart] using h)).bind ((reads_oneOf (by simp)).bind reads_pure)

end Reads

/-! ### Numbers -/

section Numbers

variable {ds rest : List Char} {most width n : Nat}

theorem isBlank_of_isDigit {c : Char} (h : c.isDigit = true) : isBlank c = false := by
  simp only [Char.isDigit, Bool.and_eq_true, decide_eq_true_eq] at h
  have hlow : 48 ≤ c.toNat := UInt32.le_iff_toNat_le.mp h.1
  have hhigh : c.toNat ≤ 57 := UInt32.le_iff_toNat_le.mp h.2
  unfold isBlank
  grind

/-- Digits are taken as far as they go, or as many as may be. -/
theorem reads_digits (hne : ds ≠ []) (hdigits : ∀ c ∈ ds, c.isDigit = true)
    (hmost : ds.length ≤ most) (hend : ds.length = most ∨ Apart Char.isDigit rest) :
    Reads (digits most) (ds ++ rest) ds rest := by
  have htaken : ((ds ++ rest).take most).takeWhile Char.isDigit = ds := by
    rw [List.take_append, List.take_of_length_le hmost, List.takeWhile_append_of_pos hdigits]
    rcases hend with hlength | hapart
    · simp [hlength]
    · cases hsize : most - ds.length with
      | zero => simp
      | succ size =>
        cases rest with
        | nil => simp
        | cons c rest => simp [hapart c rfl]
  show (if _ then none else some _) = _
  rw [htaken, if_neg (by simpa using hne), List.drop_left]

theorem apart_isBlank_of_digits (hne : ds ≠ []) (hdigits : ∀ c ∈ ds, c.isDigit = true) :
    Apart isBlank (ds ++ rest) := by
  cases ds with
  | nil => contradiction
  | cons d ds =>
    intro c hc
    obtain rfl : d = c := by simpa using hc
    exact isBlank_of_isDigit (hdigits d List.mem_cons_self)

/-- A number of a fixed width is read without looking at what follows. -/
theorem reads_number (hwidth : 0 < width) (h : n < 10 ^ width) :
    Reads (number width) ((padded width n).toList ++ rest) n rest := by
  have hlength := length_padded hwidth h
  have hvalue : decimal? (padded width n).toList = some n := by
    simpa using decimal?_padded width n 0
  refine (reads_skipBlanks (apart_isBlank_of_digits (toList_padded_ne_nil width n)
    fun _ => isDigit_of_mem_padded)).bind ?_
  exact (reads_digits (toList_padded_ne_nil width n) (fun _ => isDigit_of_mem_padded)
    (Nat.le_of_eq hlength) (.inl hlength)).bind (reads_lift hvalue)

/-- The digits of a year behind its sign. -/
theorem reads_signed (year : Int) (hend : Apart Char.isDigit rest) :
    Reads (digits ((padded 4 year.natAbs).toList ++ rest).length)
      ((padded 4 year.natAbs).toList ++ rest) (padded 4 year.natAbs).toList rest :=
  reads_digits (toList_padded_ne_nil 4 _) (fun _ => isDigit_of_mem_padded) (by simp) (.inr hend)

/-- A year has a sign exactly if it needs one. -/
theorem reads_yearNumber (year : Int) (hend : Apart Char.isDigit rest) :
    Reads yearNumber ((yearText year).toList ++ rest) year rest := by
  have hvalue : decimal? (padded 4 year.natAbs).toList = some year.natAbs := by
    simpa using decimal?_padded 4 year.natAbs 0
  unfold yearText
  split
  · next hfour =>
    obtain ⟨y, rfl⟩ := Int.eq_ofNat_of_zero_le hfour.1
    rw [Int.toNat_natCast]
    have hread : Reads (number 4) ((padded 4 y).toList ++ rest) y rest :=
      reads_number (by decide) (by omega)
    have happart : Apart isBlank ((padded 4 y).toList ++ rest) :=
      apart_isBlank_of_digits (toList_padded_ne_nil 4 y) fun _ => isDigit_of_mem_padded
    unfold yearNumber
    refine (reads_skipBlanks happart).bind (reads_get.bind ?_)
    obtain ⟨d, ds, hdigits⟩ := List.exists_cons_of_ne_nil (toList_padded_ne_nil 4 y)
    have hd : d.isDigit = true := isDigit_of_mem_padded (hdigits ▸ List.mem_cons_self)
    rw [hdigits] at hread ⊢
    split
    · next hsign =>
      obtain rfl : d = '-' := (List.cons.inj hsign).1
      exact absurd hd (by decide)
    · next hsign =>
      obtain rfl : d = '+' := (List.cons.inj hsign).1
      exact absurd hd (by decide)
    · exact hread.bind reads_pure
  · by_cases hnegative : year < 0
    · have hchars : ("-" ++ padded 4 year.natAbs).toList ++ rest =
          '-' :: ((padded 4 year.natAbs).toList ++ rest) := by simp
      rw [if_pos hnegative, hchars]
      refine (reads_skipBlanks (by simp [Apart]; decide)).bind (reads_get.bind ?_)
      refine reads_set.bind ((reads_signed year hend).bind ((reads_lift hvalue).bind ?_))
      rw [show -(year.natAbs : Int) = year by omega]
      exact reads_pure
    · have hchars : ("+" ++ padded 4 year.natAbs).toList ++ rest =
          '+' :: ((padded 4 year.natAbs).toList ++ rest) := by simp
      rw [if_neg hnegative, hchars]
      refine (reads_skipBlanks (by simp [Apart]; decide)).bind (reads_get.bind ?_)
      refine reads_set.bind ((reads_signed year hend).bind ((reads_lift hvalue).bind ?_))
      rw [show (year.natAbs : Int) = year by omega]
      exact reads_pure

/-- A fraction of some digits, of which there are at most nine. -/
theorem reads_point (width n : Nat) (hwidth : 0 < width) (hnine : width ≤ 9) (h : n < 10 ^ width)
    (hend : Apart Char.isDigit rest) :
    Reads fraction (("." ++ padded width n).toList ++ rest) (10 ^ (9 - width) * n) rest := by
  have hchars : ("." ++ padded width n).toList ++ rest =
      '.' :: ((padded width n).toList ++ rest) := by simp
  have hlength := length_padded hwidth h
  have hvalue : decimal? ((padded width n).toList.rightpad 9 '0') =
      some (10 ^ (9 - width) * n) := by
    rw [List.rightpad, hlength]
    exact decimal?_padded width n (9 - width)
  rw [hchars]
  unfold fraction
  refine reads_get.bind (reads_set.bind ((reads_digits (toList_padded_ne_nil width n)
    (fun _ => isDigit_of_mem_padded) (by omega) (.inr hend)).bind ?_))
  have hnone : Reads (modify fun cs => cs.dropWhile Char.isDigit) rest ⟨⟩ rest :=
    congrArg (fun rest => some (PUnit.unit, rest)) (dropWhile_of_apart hend)
  exact hnone.bind (reads_lift hvalue)

/-- A fraction is read with as many digits as it has. -/
theorem reads_fraction {nano : Nat} (hnano : nano < 1000000000)
    (hend : ∀ c ∈ rest.head?, c.isDigit = false ∧ c ≠ '.') :
    Reads fraction ((fractionText nano).toList ++ rest) nano rest := by
  have happart : Apart Char.isDigit rest := fun c hc => (hend c hc).1
  unfold fractionText
  split
  · next hzero =>
    subst hzero
    show Reads fraction rest 0 rest
    unfold fraction
    refine reads_get.bind ?_
    split
    · exact absurd rfl (hend '.' rfl).2
    · exact reads_pure
  split
  · next hmilli =>
    have hread := reads_point 3 (nano / 1000000) (by decide) (by decide)
      (by omega) happart
    rwa [show 10 ^ (9 - 3) * (nano / 1000000) = nano by omega] at hread
  split
  · next hmicro =>
    have hread := reads_point 6 (nano / 1000) (by decide) (by decide)
      (by omega) happart
    rwa [show 10 ^ (9 - 6) * (nano / 1000) = nano by omega] at hread
  · have hread := reads_point 9 nano (by decide) (by decide) (by omega) happart
    rwa [show 10 ^ (9 - 9) * nano = nano by omega] at hread

end Numbers

/-! ### Timestamps -/

/-- The letter for universal time. -/
theorem reads_offset : Reads offset ['Z'] 0 [] := rfl

theorem of?_date (date : Date) : Date.of? date.year date.month date.day = some date := by
  rw [Date.of?, dif_pos ⟨date.year_mem, date.month_mem, date.day_mem⟩]

theorem of?_time (time : TimeOfDay) :
    TimeOfDay.of? time.hour time.minute time.second time.nano = some time := by
  rw [TimeOfDay.of?, dif_pos ⟨time.hour_lt, time.minute_lt, time.second_le, time.nano_lt⟩]

/-- Universal time is local time without an offset. -/
theorem ofLocal?_zero (t : Timestamp) : ofLocal? t.date t.time 0 = some t := by
  have hhour := t.time.hour_lt
  have hminute := t.time.minute_lt
  have hminutes : ((t.time.hour * 60 + t.time.minute : Nat) : Int) - 0 < 1440 := by omega
  have hday : ((((t.time.hour * 60 + t.time.minute : Nat) : Int) - 0) % 1440).toNat =
      t.time.hour * 60 + t.time.minute := by omega
  have hdivide : (t.time.hour * 60 + t.time.minute) / 60 = t.time.hour := by omega
  have hmod : (t.time.hour * 60 + t.time.minute) % 60 = t.time.minute := by omega
  simp only [ofLocal?, if_neg (show ¬((t.time.hour * 60 + t.time.minute : Nat) : Int) - 0 < 0 by
    omega), if_pos hminutes, hday, hdivide, hmod, of?_time]
  rfl

theorem reads_stamp (t : Timestamp) : Reads stamp t.text.toList t [] := by
  have hchars : t.text.toList = (yearText t.date.year).toList ++ '-' ::
      ((padded 2 t.date.month).toList ++ '-' :: ((padded 2 t.date.day).toList ++ 'T' ::
        ((padded 2 t.time.hour).toList ++ ':' :: ((padded 2 t.time.minute).toList ++ ':' ::
          ((padded 2 t.time.second).toList ++ ((fractionText t.time.nano).toList ++ ['Z'])))))) := by
    simp [text, localText, toString]
  have hmonth := t.date.month_mem
  have hday := t.date.day_mem
  have hdays : daysInMonth t.date.year t.date.month ≤ 31 := by
    unfold daysInMonth
    split <;> try split
    all_goals omega
  have hhour := t.time.hour_lt
  have hminute := t.time.minute_lt
  have hsecond := t.time.second_le
  rw [hchars]
  unfold stamp
  refine (reads_yearNumber _ (by simp [Apart])).bind ?_
  refine (reads_separator (by decide)).bind ?_
  refine (reads_number (by decide) (by omega)).bind ?_
  refine (reads_separator (by decide)).bind ?_
  refine (reads_number (by decide) (by omega)).bind ?_
  refine (reads_oneOf (by decide)).bind ?_
  refine (reads_number (by decide) (by omega)).bind ?_
  refine (reads_separator (by decide)).bind ?_
  refine (reads_number (by decide) (by omega)).bind ?_
  refine (reads_separator (by decide)).bind ?_
  refine (reads_number (by decide) (by omega)).bind ?_
  refine (reads_fraction t.time.nano_lt (by simp)).bind ?_
  refine reads_offset.bind ?_
  refine (reads_lift (of?_date t.date)).bind ?_
  refine (reads_lift (of?_time t.time)).bind ?_
  exact reads_lift (ofLocal?_zero t)

/-- **A timestamp is read again from its text.** -/
theorem ofString?_text (t : Timestamp) : ofString? t.text = some t := by
  rw [ofString?, show stamp.run t.text.toList = some (t, []) from reads_stamp t]
  rfl

end Timestamp

end ZoneKeeper
