/-
Which owner names are well formed.

A label is put in front of its zone's name with a dot between them, and the zone's name ends in a
dot.  So a label of non-empty labels in a zone of non-empty labels makes an absolute name with no
empty label in it, below the zone by whole labels.  The one zone that has no labels is the root:
its name is the dot alone, and whatever is put in front of it ends in two dots.
-/
import ZoneKeeper.Proofs.ReverseRemoval
import ZoneKeeper.Proofs.EditPolicy

namespace ZoneKeeper

open Text

/-! ### Texts without empty pieces -/

namespace Text

variable {sep : Char} {cs : List Char}

/-- Where separators are neighbours, an empty piece is between them. -/
theorem nil_mem_dropLast_of_infix (h : [sep, sep] <:+: cs) : [] ∈ (cutAt sep cs).dropLast := by
  obtain ⟨front, back, rfl⟩ := h
  have hcut : cutAt sep (front ++ [sep, sep] ++ back) =
      cutAt sep front ++ ([] :: cutAt sep back) := by
    rw [List.append_assoc, List.cons_append, List.cons_append, List.nil_append, cutAt_append_sep,
      cutAt_cons, if_pos rfl]
  rw [hcut, List.dropLast_append_of_ne_nil (List.cons_ne_nil _ _),
    List.dropLast_cons_of_ne_nil (cutAt_ne_nil sep back)]
  exact List.mem_append_right _ List.mem_cons_self

/-- What begins with a separator begins with an empty piece. -/
theorem nil_mem_cutAt_of_head? (h : cs.head? = some sep) : [] ∈ cutAt sep cs := by
  obtain ⟨rest, rfl⟩ := List.head?_eq_some_iff.mp h
  rw [cutAt_cons, if_pos rfl]
  exact List.mem_cons_self

/-- There is nothing to trim from a text without blanks. -/
theorem trim_of_unblank {s : String} (h : ∀ c ∈ s.toList, isBlank c = false) : trim s = s := by
  have hfront : s.toList.dropWhile isBlank = s.toList :=
    List.dropWhile_eq_self_iff.mpr fun hne => by simp [h _ (List.getElem_mem hne)]
  have hback : s.toList.rdropWhile isBlank = s.toList :=
    List.rdropWhile_eq_self_iff.mpr fun hne => by simp [h _ (List.getLast_mem hne)]
  rw [trim, trimChars, hfront, dropEndWhile_eq_rdropWhile, hback, String.ofList_toList]

end Text

namespace DomainName

/-! ### Names -/

/-- Labels with single dots between them, where each says something and holds no blank. -/
def IsDotted (name : String) : Prop :=
  ∀ label ∈ labels name, label ≠ "" ∧ ∀ c ∈ label.toList, isBlank c = false

instance (name : String) : Decidable (IsDotted name) :=
  decidable_of_iff
    ((labels name).all fun label => label ≠ "" && label.toList.all fun c => !isBlank c)
    (by simp [IsDotted])

/-- The root, or labels with or without a dot at the end. -/
def IsZoneName (zone : String) : Prop :=
  zone = "" ∨ zone = "." ∨ IsDotted zone ∨ ∃ name, IsDotted name ∧ zone = name ++ "."

/-- A label of a row: the apex, or labels without a dot at the end. -/
def IsRowName (name : String) : Prop :=
  name = "" ∨ name = apexLabel ∨ IsDotted name

instance (name : String) : Decidable (IsRowName name) :=
  inferInstanceAs (Decidable (name = "" ∨ name = apexLabel ∨ IsDotted name))

/-- An absolute name that is well formed. -/
structure IsAbsolute (name : String) : Prop where
  ends : name.toList.getLast? = some '.'
  /-- No two dots are neighbours. -/
  single : ¬['.', '.'] <:+: name.toList
  /-- Only the root begins with a dot. -/
  begins : name.toList.head? = some '.' → name = "."

/-- The name is that of the zone or is below it, by whole labels.  Every name is below the
root. -/
def LiesIn (zone name : String) : Prop :=
  relative zone = "" ∨ labels (relative zone) <:+ labels (relative name)

variable {zone name label : String}

/-- The labels of two names with a dot between them. -/
theorem labels_append_dot (front back : String) :
    labels (front ++ "." ++ back) = labels front ++ labels back := by
  have hlist : (front ++ "." ++ back).toList = front.toList ++ '.' :: back.toList := by
    simp
  rw [labels, hlist, cutAt_append_sep, List.map_append, labels, labels]

theorem labels_empty : labels "" = [""] := rfl

theorem IsDotted.ne_empty (h : IsDotted name) : name ≠ "" := by
  rintro rfl
  exact (h "" (by simp [labels_empty])).1 rfl

theorem IsDotted.append (hlabel : IsDotted label) (hname : IsDotted name) :
    IsDotted (label ++ "." ++ name) := by
  rw [IsDotted, labels_append_dot]
  exact List.forall_mem_append.mpr ⟨hlabel, hname⟩

theorem IsDotted.unblank (h : IsDotted name) : ∀ c ∈ name.toList, isBlank c = false := by
  intro c hc
  by_cases hdot : c = '.'
  · rw [hdot]
    decide
  · obtain ⟨piece, hpiece, hmem⟩ := exists_mem_cutAt hc hdot
    exact (h (String.ofList piece) (List.mem_map_of_mem hpiece)).2 c (by simpa using hmem)

theorem IsDotted.nil_not_mem (h : IsDotted name) : [] ∉ cutAt '.' name.toList := by
  intro hnil
  exact (h (String.ofList []) (List.mem_map_of_mem hnil)).1 rfl

/-- A dot behind labels makes an absolute name. -/
theorem IsDotted.isAbsolute (h : IsDotted name) : IsAbsolute (name ++ ".") where
  ends := by simp
  single hinfix := by
    have hnil := nil_mem_dropLast_of_infix hinfix
    rw [String.toList_append, show ".".toList = '.' :: [] from rfl, cutAt_append_sep, cutAt_nil,
      List.dropLast_concat] at hnil
    exact h.nil_not_mem hnil
  begins hhead := by
    have hfirst : name.toList.head? = some '.' := by
      have hne : name.toList ≠ [] := fun hnil => h.ne_empty (String.toList_eq_nil_iff.mp hnil)
      rwa [String.toList_append, List.head?_append_of_ne_nil _ hne] at hhead
    exact absurd (nil_mem_cutAt_of_head? hfirst) h.nil_not_mem

/-- A dotted name is relative. -/
theorem IsDotted.relative (h : IsDotted name) : relative name = name :=
  relative_eq_self_of_labels (List.getLast?_eq_some_getLast (labels_ne_nil name))
    (h _ (List.getLast_mem _)).1

theorem relative_append_dot (name : String) : relative (name ++ ".") = relative name := by
  rw [relative, relative, dropEndWhile_eq_rdropWhile, dropEndWhile_eq_rdropWhile,
    String.toList_append, show ".".toList = ['.'] from rfl,
    List.rdropWhile_concat_pos _ _ _ (by rfl)]

/-- A zone has no labels or is named by its labels. -/
theorem IsZoneName.relative (h : IsZoneName zone) :
    relative zone = "" ∨ IsDotted (relative zone) := by
  rcases h with rfl | rfl | hdotted | ⟨name, hdotted, rfl⟩
  · exact Or.inl rfl
  · exact Or.inl rfl
  · exact Or.inr (hdotted.relative.symm ▸ hdotted)
  · rw [relative_append_dot, hdotted.relative]
    exact Or.inr hdotted

/-! ### Owner names -/

theorem isAbsolute_root : IsAbsolute "." :=
  ⟨rfl, by decide, fun _ => rfl⟩

/-- Two dots at the end are one too many. -/
theorem not_isAbsolute_append_dots (label : String) : ¬IsAbsolute (label ++ "." ++ ".") := by
  intro h
  refine h.single ⟨label.toList, [], ?_⟩
  simp

/-- A label of a row means the zone itself, or it is put in front of the zone's name. -/
theorem ofLabel_cases (zone : String) (h : IsRowName label) : ofLabel zone label = absolute zone ∨
    IsDotted label ∧ ofLabel zone label = label ++ "." ++ absolute zone := by
  by_cases hapex : label = "" ∨ label = apexLabel
  · have htrim : trim label = label := by
      rcases hapex with rfl | rfl <;> decide
    left
    rw [ofLabel, htrim, if_pos hapex]
  · have hdotted : IsDotted label := by
      rcases h with hempty | happex | hdotted
      · exact absurd (Or.inl hempty) hapex
      · exact absurd (Or.inr happex) hapex
      · exact hdotted
    right
    refine ⟨hdotted, ?_⟩
    rw [ofLabel, trim_of_unblank hdotted.unblank, if_neg hapex]

/-- **An owner name is absolute and in its zone,** unless it is a label below the root. -/
theorem isAbsolute_ofLabel_iff (hzone : IsZoneName zone) (hlabel : IsRowName label) :
    IsAbsolute (ofLabel zone label) ∧ LiesIn zone (ofLabel zone label) ↔
      relative zone ≠ "" ∨ ofLabel zone label = "." := by
  rcases hzone.relative with hroot | hdotted
  · have habsolute : absolute zone = "." := by rw [absolute, hroot, String.empty_append]
    rw [hroot]
    rcases ofLabel_cases zone hlabel with happex | ⟨hlabels, hbelow⟩
    · rw [happex, habsolute]
      exact iff_of_true ⟨isAbsolute_root, Or.inl hroot⟩ (Or.inr rfl)
    · rw [hbelow, habsolute]
      refine iff_of_false (fun h => not_isAbsolute_append_dots label h.1) ?_
      rintro (hne | hdot)
      · exact hne rfl
      · exact not_isAbsolute_append_dots label (hdot.symm ▸ isAbsolute_root)
  · refine iff_of_true ?_ (Or.inl hdotted.ne_empty)
    rcases ofLabel_cases zone hlabel with happex | ⟨hlabels, hbelow⟩
    · rw [happex, LiesIn, relative_absolute]
      exact ⟨hdotted.isAbsolute, Or.inr (List.suffix_refl _)⟩
    · have hname : ofLabel zone label = label ++ "." ++ relative zone ++ "." := by
        rw [hbelow, absolute, String.append_assoc, String.append_assoc, String.append_assoc]
      rw [hname, LiesIn, relative_append_dot, (hlabels.append hdotted).relative, labels_append_dot]
      exact ⟨(hlabels.append hdotted).isAbsolute, Or.inr (List.suffix_append _ _)⟩

end DomainName

/-! ### What a run writes -/

namespace Reconciliation

open DomainName

variable {zone : String} {policy : Policy} {rows : List Row} {current : List RRset}
  {desired : List FlatRow} {w : RRset}

/-- Where names are not read as addresses, what is written is named by the label of a row. -/
theorem exists_label_of_mem_replaces (hplain : policy.prettyIPv6Ptr = false)
    (hdesired : desiredRows zone policy rows = .ok desired)
    (hw : w ∈ ((between policy desired current).batches policy).replaces) :
    ∃ row ∈ rows, w.name = ofLabel zone row.name := by
  obtain ⟨row, hrow, hkey⟩ := exists_added_of_mem_replaces hw
  obtain ⟨source, hsource, -, rfl⟩ := exists_row_of_desired hdesired (mem_added.mp hrow).1
  obtain ⟨hname, -⟩ := RRsetKey.mk.inj hkey
  refine ⟨source, hsource, hname.symm.trans ?_⟩
  rw [Row.flatten, Row.ownerName, if_neg (by simp [hplain])]

end Reconciliation

namespace Sandbox.Setup

open DomainName

/-- **Owner names are well-formed absolute names in their zone,** in every zone but the root.  In
the root that is so of the root's own name and of no other. -/
theorem run_names_absolute (setup : Setup) (hstore : setup.Recording) (request : ApplyRequest)
    (box : Sandbox) (summary : ApplySummary) (hok : (setup.run request box).1 = .ok summary)
    (hplain : (setup.policyFor request.zone).prettyIPv6Ptr = false)
    (hzone : IsZoneName request.zone) (hrows : ∀ row ∈ request.rows, IsRowName row.name) :
    ∃ before prepared reverse, setup.Prepares request box before prepared ∧
      (setup.run request box).2.server.patches =
        box.server.patches ++ prepared.calls request.zone ++ reverse ∧
      ∀ w ∈ prepared.batches.replaces,
        (IsAbsolute w.name ∧ LiesIn request.zone w.name ↔
          relative request.zone ≠ "" ∨ w.name = ".") := by
  obtain ⟨before, prepared, changed, hprepares, hcalls, -, hsending⟩ := sending_of_ok hstore hok
  obtain ⟨reverse, hpatches, -⟩ := hsending.calls
  refine ⟨before, prepared, reverse, hprepares, by rw [hpatches, hcalls], fun w hw => ?_⟩
  obtain ⟨desired, hdesired, rfl⟩ := hprepares.eq_between
  obtain ⟨row, hrow, hname⟩ :=
    Reconciliation.exists_label_of_mem_replaces hplain hdesired hw
  rw [hname]
  exact isAbsolute_ofLabel_iff hzone (hrows row hrow)

/-- A label of two labels, in a zone that is spelled with its dot. -/
theorem run_names_absolute_twoLabels :
    let setup := plain ⟨false, false, []⟩
    let box := Sandbox.serving "example.com" []
    let request : ApplyRequest :=
      ⟨"example.com.", [.plain "www.office" (.named .a) "192.0.2.1"], "operator", none⟩
    (setup.run request box).1 = .ok ⟨"example.com.", 0, 1, none⟩ ∧
      IsZoneName request.zone ∧ (∀ row ∈ request.rows, IsRowName row.name) ∧
      ∃ before prepared reverse, setup.Prepares request box before prepared ∧
        (setup.run request box).2.server.patches =
          box.server.patches ++ prepared.calls request.zone ++ reverse ∧
        ∀ w ∈ prepared.batches.replaces,
          (IsAbsolute w.name ∧ LiesIn request.zone w.name ↔
            relative request.zone ≠ "" ∨ w.name = ".") := by
  intro setup box request
  have hzone : IsZoneName request.zone :=
    Or.inr (Or.inr (Or.inr ⟨"example.com", by decide, rfl⟩))
  have hrows : ∀ row ∈ request.rows, IsRowName row.name := by decide
  have hok : (setup.run request box).1 = .ok ⟨"example.com.", 0, 1, none⟩ := by decide +kernel
  exact ⟨hok, hzone, hrows,
    run_names_absolute setup (recording_plain _) request box _ hok rfl hzone hrows⟩

/-- In the root a label is written with two dots behind it. -/
theorem run_names_doubled_dot :
    let request : ApplyRequest := ⟨".", [.plain "www" (.named .a) "192.0.2.1"], "operator", none⟩
    let ended := (plain ⟨false, false, []⟩).run request (Sandbox.serving "." [])
    IsZoneName request.zone ∧ (∀ row ∈ request.rows, IsRowName row.name) ∧
      ended.1 = .ok ⟨".", 0, 1, none⟩ ∧
      ended.2.server.patches =
        [⟨"", [.replace ⟨"www..", .named .a, 3600, [⟨"192.0.2.1", false⟩], []⟩]⟩] ∧
      ¬IsAbsolute "www.." := by
  intro request ended
  have hrun : ended.1 = .ok ⟨".", 0, 1, none⟩ ∧ ended.2.server.patches =
      [⟨"", [.replace ⟨"www..", .named .a, 3600, [⟨"192.0.2.1", false⟩], []⟩]⟩] := by
    decide +kernel
  exact ⟨Or.inr (Or.inl rfl), by decide, hrun.1, hrun.2, not_isAbsolute_append_dots "www"⟩

end Sandbox.Setup

end ZoneKeeper
