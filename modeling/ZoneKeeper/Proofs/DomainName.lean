/-
Names as lists of labels.

Cutting a text at dots and joining labels with dots undo each other, as long as there is a
label and no label has a dot in it.  A name is its relative form under another spelling, and
the labels of two names that are joined are the labels of the one and then of the other.  What
was trimmed has no blanks left at its ends.
-/
import Mathlib.Data.List.DropRight
import ZoneKeeper.DomainName

namespace ZoneKeeper

/-! ### Cutting and joining -/

namespace Text

variable {sep : Char}

/-- Cutting is the library's splitting of a list. -/
theorem cutAt_eq_splitOn (sep : Char) (cs : List Char) : cutAt sep cs = cs.splitOn sep := by
  induction cs with
  | nil => simp [cutAt_nil]
  | cons c cs ih =>
    rw [cutAt_cons, List.splitOn_cons_eq_if_modifyHead, ih]
    by_cases h : c = sep
    · simp [h]
    · rw [if_neg h, if_neg (by simpa using h)]
      cases hp : cs.splitOn sep with
      | nil => exact absurd hp (List.splitOn_ne_nil sep cs)
      | cons piece pieces => rfl

theorem cutAt_append_sep (cs ds : List Char) :
    cutAt sep (cs ++ sep :: ds) = cutAt sep cs ++ cutAt sep ds := by
  simp only [cutAt_eq_splitOn, List.splitOn_append_cons_self]

theorem cutAt_of_not_mem {cs : List Char} (h : sep ∉ cs) : cutAt sep cs = [cs] := by
  rw [cutAt_eq_splitOn, List.splitOn_eq_singleton h]

/-- What is put at the end goes to the last piece. -/
theorem cutAt_append_of_not_mem {ds : List Char} (h : sep ∉ ds) (cs : List Char) :
    cutAt sep (cs ++ ds) = (cutAt sep cs).dropLast ++ [(cutAt sep cs).getLastD [] ++ ds] := by
  induction cs with
  | nil => simp [cutAt_of_not_mem h, cutAt_nil]
  | cons c cs ih =>
    rw [List.cons_append, cutAt_cons, cutAt_cons, ih]
    cases hpieces : cutAt sep cs with
    | nil => exact absurd hpieces (cutAt_ne_nil sep cs)
    | cons piece pieces =>
      by_cases hc : c = sep
      · simp [hc]
      · cases pieces <;> simp [hc, consPiece]

/-- Pieces without the character are found again after they were joined. -/
theorem cutAt_joinWith {pieces : List (List Char)} (hne : pieces ≠ [])
    (hclean : ∀ piece ∈ pieces, sep ∉ piece) : cutAt sep (joinWith sep pieces) = pieces := by
  rw [cutAt_eq_splitOn, joinWith]
  exact List.splitOn_intercalate sep hclean hne

/-- The character that is cut at is in no piece. -/
theorem not_mem_of_mem_cutAt {cs piece : List Char} (h : piece ∈ cutAt sep cs) : sep ∉ piece := by
  induction cs generalizing piece with
  | nil => simp_all [cutAt_nil]
  | cons c cs ih =>
    rw [cutAt_cons] at h
    split at h
    · rcases List.mem_cons.mp h with rfl | h
      · simp
      · exact ih h
    · next hc =>
      cases hp : cutAt sep cs with
      | nil => exact absurd hp (cutAt_ne_nil sep cs)
      | cons first rest =>
        rw [hp, consPiece] at h
        rw [hp] at ih
        rcases List.mem_cons.mp h with rfl | h
        · simpa [Ne.symm hc] using ih List.mem_cons_self
        · exact ih (List.mem_cons_of_mem _ h)

/-- A character that is not cut at is in one of the pieces. -/
theorem exists_mem_cutAt {c : Char} {cs : List Char} (hc : c ∈ cs) (hne : c ≠ sep) :
    ∃ piece ∈ cutAt sep cs, c ∈ piece := by
  induction cs with
  | nil => contradiction
  | cons d cs ih =>
    rw [cutAt_cons]
    cases hp : cutAt sep cs with
    | nil => exact absurd hp (cutAt_ne_nil sep cs)
    | cons first rest =>
      rw [hp] at ih
      rcases List.mem_cons.mp hc with rfl | hc
      · rw [if_neg hne]
        exact ⟨c :: first, List.mem_cons_self, List.mem_cons_self⟩
      · obtain ⟨piece, hpiece, hmem⟩ := ih hc
        split
        · exact ⟨piece, List.mem_cons_of_mem _ hpiece, hmem⟩
        · rcases List.mem_cons.mp hpiece with rfl | hpiece
          · exact ⟨d :: piece, List.mem_cons_self, List.mem_cons_of_mem d hmem⟩
          · exact ⟨piece, List.mem_cons_of_mem _ hpiece, hmem⟩

theorem joinWith_append {ps qs : List (List Char)} (hps : ps ≠ []) (hqs : qs ≠ []) :
    joinWith sep (ps ++ qs) = joinWith sep ps ++ sep :: joinWith sep qs := by
  induction ps with
  | nil => contradiction
  | cons p ps ih =>
    unfold joinWith at ih ⊢
    rw [List.cons_append, List.intercalate_cons_of_ne_nil (by simp [hqs])]
    by_cases h : ps = []
    · simp [h]
    · rw [ih h, List.intercalate_cons_of_ne_nil h]
      simp

/-- A text ends in a mark, a separator and some rest exactly if its last pieces are those of the
rest, and the piece before them ends in the mark. -/
theorem suffix_iff_cutAt {mark : List Char} (h : sep ∉ mark) {rest cs : List Char} :
    mark ++ sep :: rest <:+ cs ↔
      ∃ pieces front, cutAt sep cs = pieces ++ (front ++ mark) :: cutAt sep rest := by
  constructor
  · rintro ⟨before, rfl⟩
    refine ⟨(cutAt sep before).dropLast, (cutAt sep before).getLastD [], ?_⟩
    rw [← List.append_assoc, cutAt_append_sep, cutAt_append_of_not_mem h, List.append_assoc,
      List.singleton_append]
  · rintro ⟨pieces, front, hcut⟩
    have hlast : joinWith sep ((front ++ mark) :: cutAt sep rest) =
        front ++ (mark ++ sep :: rest) := by
      have hjoin : joinWith sep ([front ++ mark] ++ cutAt sep rest) =
          joinWith sep [front ++ mark] ++ sep :: joinWith sep (cutAt sep rest) :=
        joinWith_append (List.cons_ne_nil _ _) (cutAt_ne_nil sep rest)
      rw [joinWith_cutAt] at hjoin
      simpa [joinWith] using hjoin
    have hcs : cs = joinWith sep (pieces ++ (front ++ mark) :: cutAt sep rest) := by
      rw [← hcut, joinWith_cutAt]
    by_cases hpieces : pieces = []
    · rw [hcs, hpieces, List.nil_append, hlast]
      exact List.suffix_append _ _
    · rw [hcs, joinWith_append hpieces (List.cons_ne_nil _ _), hlast]
      exact (List.suffix_append _ _).trans
        ((List.suffix_cons _ _).trans (List.suffix_append _ _))

/-- A change of characters that makes and unmakes no separator changes every piece alike. -/
theorem cutAt_map {f : Char → Char} (hf : ∀ c, f c = sep ↔ c = sep) (cs : List Char) :
    cutAt sep (cs.map f) = (cutAt sep cs).map (List.map f) := by
  induction cs with
  | nil => rfl
  | cons c cs ih =>
    rw [List.map_cons, cutAt_cons, cutAt_cons, ih]
    by_cases h : c = sep
    · simp [hf, h]
    · rw [if_neg h, if_neg (mt (hf c).mp h)]
      cases cutAt sep cs <;> rfl

theorem dropEndWhile_eq_rdropWhile {α : Type} (p : α → Bool) (xs : List α) :
    dropEndWhile p xs = xs.rdropWhile p := rfl

/-- What does not occur in a text is not where the text is broken. -/
theorem breakOn?_eq_none {α : Type} [BEq α] [LawfulBEq α] {a : α} {mark cs : List α}
    (h : a ∉ cs) : breakOn? (a :: mark) cs = none := by
  induction cs with
  | nil => rfl
  | cons c cs ih =>
    rw [List.mem_cons, not_or] at h
    have hno : (a :: mark).isPrefixOf (c :: cs) = false := by
      simp [List.isPrefixOf, h.1]
    rw [breakOn?, hno, ih h.2]
    rfl

theorem toLower_eq_dot (c : Char) : c.toLower = '.' ↔ c = '.' := by
  refine ⟨fun h => ?_, fun h => by rw [h]; rfl⟩
  unfold Char.toLower at h
  split at h
  · next hupper =>
    have hval : c.val + 32 = 46 := congrArg Char.val h
    have hlow : 65 ≤ c.val := hupper.1
    have hhigh : c.val ≤ 90 := hupper.2
    rw [UInt32.le_iff_toNat_le] at hlow hhigh
    have hnat := congrArg UInt32.toNat hval
    rw [UInt32.toNat_add] at hnat
    simp at hlow hhigh hnat
    omega
  · exact h

theorem toLower_of_isDigit {c : Char} (h : c.isDigit = true) : c.toLower = c := by
  unfold Char.toLower
  rw [dif_neg]
  rintro ⟨hlow, -⟩
  simp only [Char.isDigit, Bool.and_eq_true, decide_eq_true_eq] at h
  have hhigh : c.val ≤ 57 := h.2
  have hlow : 65 ≤ c.val := hlow
  rw [UInt32.le_iff_toNat_le] at hlow hhigh
  simp at hlow hhigh
  omega

/-! ### Blanks -/

theorem rdropWhile_dropWhile_eq {α : Type} (p : α → Bool) (xs : List α) :
    ((xs.dropWhile p).rdropWhile p).dropWhile p = (xs.dropWhile p).rdropWhile p := by
  cases h : (xs.dropWhile p).rdropWhile p with
  | nil => rfl
  | cons x rest =>
    -- the first element is the first of the list without its blanks at the front
    obtain ⟨tail, htail⟩ : x :: rest <+: xs.dropWhile p := h ▸ List.rdropWhile_prefix p _
    have hx : p x = false := by
      have hhead := List.head?_dropWhile_not p xs
      rw [← htail] at hhead
      simpa using hhead
    rw [List.dropWhile_cons_of_neg (by simp [hx])]

/-- Nothing is left to trim from a text that was trimmed. -/
theorem trim_trim (s : String) : trim (trim s) = trim s := by
  simp only [trim, trimChars, String.toList_ofList, dropEndWhile_eq_rdropWhile]
  rw [rdropWhile_dropWhile_eq, List.rdropWhile_idempotent]

end Text

/-! ### Labels -/

namespace DomainName

open Text

theorem labels_ne_nil (name : String) : labels name ≠ [] := by
  simp [labels, cutAt_ne_nil]

theorem not_dot_mem_of_mem_labels {name label : String} (h : label ∈ labels name) :
    '.' ∉ label.toList := by
  obtain ⟨piece, hpiece, rfl⟩ := List.mem_map.mp h
  rw [String.toList_ofList]
  exact not_mem_of_mem_cutAt hpiece

/-- A name is made of its labels. -/
theorem ofLabels_labels (name : String) : ofLabels (labels name) = name := by
  have h : ((cutAt '.' name.toList).map String.ofList).map String.toList =
      cutAt '.' name.toList := by
    simp [List.map_map, Function.comp_def]
  rw [ofLabels, labels, h, joinWith_cutAt, String.ofList_toList]

/-- Labels are found again in the name that is made of them. -/
theorem labels_ofLabels {ls : List String} (hne : ls ≠ [])
    (hclean : ∀ label ∈ ls, '.' ∉ label.toList) : labels (ofLabels ls) = ls := by
  have hcut : cutAt '.' (joinWith '.' (ls.map String.toList)) = ls.map String.toList := by
    refine cutAt_joinWith (by simpa using hne) fun piece hpiece => ?_
    obtain ⟨label, hlabel, rfl⟩ := List.mem_map.mp hpiece
    exact hclean label hlabel
  rw [labels, ofLabels, String.toList_ofList, hcut]
  simp [List.map_map, Function.comp_def]

/-- The labels of a name that is put together, whatever its parts contain. -/
theorem labels_ofLabels_append {ks ls : List String} (hks : ks ≠ []) (hls : ls ≠ []) :
    labels (ofLabels (ks ++ ls)) = labels (ofLabels ks) ++ labels (ofLabels ls) := by
  simp only [labels, ofLabels, String.toList_ofList, List.map_append]
  rw [joinWith_append (by simpa using hks) (by simpa using hls), cutAt_append_sep,
    List.map_append]

theorem labels_lower (name : String) : labels (lower name) = (labels name).map lower := by
  rw [labels, lower, String.toList_ofList, cutAt_map toLower_eq_dot, labels, List.map_map,
    List.map_map]
  simp [Function.comp_def, lower]

/-- The texts that end in a label and a name behind it are the names whose last labels are those
of the name, with one before them that ends in the label. -/
theorem suffix_iff_labels {label : String} (h : '.' ∉ label.toList) {tail name : String} :
    (label ++ "." ++ tail).toList <:+ name.toList ↔
      ∃ above front, labels name = above ++ (front ++ label) :: labels tail := by
  have htext : (label ++ "." ++ tail).toList = label.toList ++ '.' :: tail.toList := by
    simp [String.toList_append]
  rw [htext, suffix_iff_cutAt h]
  constructor
  · rintro ⟨pieces, front, hcut⟩
    refine ⟨pieces.map String.ofList, String.ofList front, ?_⟩
    rw [labels, hcut, List.map_append, List.map_cons, String.ofList_append, String.ofList_toList,
      labels]
  · rintro ⟨above, front, hlabels⟩
    refine ⟨above.map String.toList, front.toList, ?_⟩
    have hcut := congrArg (List.map String.toList) hlabels
    simpa [labels, List.map_map, Function.comp_def] using hcut

/-! ### Spellings -/

theorem relative_absolute (name : String) : relative (absolute name) = relative name := by
  have hdots : ∀ cs : List Char, (cs.rdropWhile (· == '.') ++ ['.']).rdropWhile (· == '.') =
      cs.rdropWhile (· == '.') := by
    intro cs
    rw [List.rdropWhile_concat_pos _ _ _ (by simp), List.rdropWhile_idempotent]
  simp only [absolute, relative, dropEndWhile_eq_rdropWhile, String.toList_append,
    String.toList_ofList]
  exact congrArg String.ofList (hdots name.toList)

/-- Letters change their case in front of the dots that are left out. -/
theorem relative_lower (name : String) : relative (lower name) = lower (relative name) := by
  have hdots : (fun c => c == '.') ∘ Char.toLower = fun c => c == '.' := by
    funext c
    rw [Function.comp_apply, Bool.eq_iff_iff, beq_iff_eq, beq_iff_eq, toLower_eq_dot]
  rw [relative, lower, lower, relative, String.toList_ofList, String.toList_ofList, dropEndWhile,
    dropEndWhile, ← List.map_reverse, List.dropWhile_map, hdots, List.map_reverse]

/-- A name that ends in something other than a dot is relative. -/
theorem relative_eq_self {name : String} (h : name.toList.getLast? ≠ some '.') :
    relative name = name := by
  have hdrop : name.toList.rdropWhile (· == '.') = name.toList := by
    refine List.rdropWhile_eq_self_iff.mpr fun hne hdot => h ?_
    rw [List.getLast?_eq_some_getLast hne]
    simpa using hdot
  rw [relative, dropEndWhile_eq_rdropWhile, hdrop, String.ofList_toList]

/-- A name whose last label says something is relative. -/
theorem relative_eq_self_of_labels {name label : String}
    (hlast : (labels name).getLast? = some label) (hne : label ≠ "") : relative name = name := by
  refine relative_eq_self fun hdot => hne ?_
  obtain ⟨cs, hcs⟩ := List.getLast?_eq_some_iff.mp hdot
  rw [labels, hcs, cutAt_append_sep, cutAt_nil, List.map_append, List.map_singleton,
    List.getLast?_concat] at hlast
  exact (Option.some.inj hlast).symm

theorem getLast?_absolute (name : String) : (absolute name).toList.getLast? = some '.' := by
  simp [absolute]

/-- An owner name is absolute, whatever the label. -/
theorem getLast?_ofLabel (zone label : String) :
    (ofLabel zone label).toList.getLast? = some '.' := by
  unfold ofLabel
  dsimp only
  split
  · exact getLast?_absolute zone
  · rw [String.toList_append, List.getLast?_append, getLast?_absolute]
    rfl

end DomainName

end ZoneKeeper
