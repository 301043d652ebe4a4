/-
Whether the zones above a name are in a tree of reverse names.

A name is taken to be in a tree if its text ends in the text of the tree, while labels are what is
left out of it.  The two views agree where a dot stands in front of the tree's text, and so they do
for the reverse name of every address.  They part where the text runs on: a label that only ends in
the first label of a tree, as in `notip6.arpa`, is taken for that label.  `Lookalike` says which
names these are.  From them one climbs as from a name below the tree, to zones that are in no tree.
From every other name one gets to zones of the tree that the name is in, or to none.
-/
import ZoneKeeper.Proofs.ReverseLabels

namespace ZoneKeeper.ReverseName

open Text DomainName

variable {name zone family : String} {above : List String} {front : String} {most : Nat}

/-- The labels of a name, in lower case and without the dots at its end. -/
def plainLabels (name : String) : List String :=
  labels (lower (relative name))

/-- The zones above a name are where they should be. -/
structure StaysInside (name : String) : Prop where
  /-- There are some only if the labels of the name end in the labels of a tree. -/
  inside : zoneCandidates name ≠ [] → InTree (lower name)
  /-- Each of them is the name without its first labels, and has a label above the tree. -/
  climbs : ∀ zone ∈ zoneCandidates name, ∃ family most stripped above,
    (family, most) ∈ families ∧ 1 ≤ stripped ∧ stripped ≤ most ∧
      labels zone = (plainLabels name).drop stripped ∧
      above ≠ [] ∧ labels zone = above ++ [family, "arpa"]
  /-- Each has fewer labels than the one before. -/
  narrowestFirst : (zoneCandidates name).Pairwise fun zone wider =>
    (labels wider).length < (labels zone).length

/-- A label that ends in the first label of a tree, and is longer, stands in its place, and there
are at least two labels in front. -/
def Lookalike (name : String) : Prop :=
  ∃ family most above front, (family, most) ∈ families ∧ front ≠ "" ∧ 2 ≤ above.length ∧
    plainLabels name = above ++ [front ++ family, "arpa"]

/-! ### Labels that are taken for those of a tree -/

theorem dot_not_mem_family (h : (family, most) ∈ families) : '.' ∉ family.toList := by
  have hall : ∀ entry ∈ families, '.' ∉ entry.1.toList := by decide
  exact hall _ h

/-- A longer label is the first label of no tree. -/
theorem append_family_ne {other : String} {most' : Nat} (h : (family, most) ∈ families)
    (hother : (other, most') ∈ families) (hfront : front ≠ "") : front ++ family ≠ other := by
  intro heq
  have hall : ∀ entry ∈ families, ∀ entry' ∈ families,
      entry.1.toList <:+ entry'.1.toList → entry.1 = entry'.1 := by decide
  have htext : front.toList ++ family.toList = other.toList := by
    rw [← String.toList_append, heq]
  have hsame : family = other := hall _ h _ hother ⟨_, htext⟩
  rw [hsame, List.append_left_eq_self, String.toList_eq_nil_iff] at htext
  exact hfront htext

theorem inTree_iff : InTree zone ↔
    ∃ family most, (family, most) ∈ families ∧ [family, "arpa"] <:+ labels (relative zone) := by
  constructor
  · rintro ⟨tree, htree, hsuffix⟩
    rcases List.mem_pair.mp htree with rfl | rfl
    · rw [labels_ipv4Tree] at hsuffix
      exact ⟨"in-addr", 3, by decide, hsuffix⟩
    · rw [labels_ipv6Tree] at hsuffix
      exact ⟨"ip6", 31, by decide, hsuffix⟩
  · rintro ⟨family, most, hfamily, hsuffix⟩
    rcases List.mem_pair.mp hfamily with h | h <;> obtain ⟨rfl, rfl⟩ := Prod.mk.inj h
    · rw [← labels_ipv4Tree] at hsuffix
      exact ⟨ipv4Tree, List.mem_cons_self, hsuffix⟩
    · rw [← labels_ipv6Tree] at hsuffix
      exact ⟨ipv6Tree, List.mem_cons_of_mem _ List.mem_cons_self, hsuffix⟩

/-- Where a longer label stands in place of a tree's first, the name is in no tree. -/
theorem not_inTree_of_labels (hfamily : (family, most) ∈ families) (hfront : front ≠ "")
    (hlabels : labels (relative zone) = above ++ [front ++ family, "arpa"]) : ¬InTree zone := by
  rw [inTree_iff]
  rintro ⟨other, most', hother, hsuffix⟩
  have hends : [front ++ family, "arpa"] <:+ labels (relative zone) := by
    rw [hlabels]
    exact List.suffix_append _ _
  have hlast : [other, "arpa"] = [front ++ family, "arpa"] :=
    (List.suffix_of_suffix_length_le hsuffix hends (by simp)).eq_of_length (by simp)
  exact append_family_ne hfamily hother hfront (List.cons.inj hlast).1.symm

theorem inTree_lower_iff : InTree (lower name) ↔
    ∃ family most, (family, most) ∈ families ∧ [family, "arpa"] <:+ plainLabels name := by
  rw [inTree_iff, relative_lower, plainLabels]

/-- A name whose last label is `arpa` ends in no dot. -/
theorem relative_of_arpa {label : String} (h : labels zone = above ++ [label, "arpa"]) :
    relative zone = zone := by
  have hne : "arpa" ≠ "" := by decide
  refine relative_eq_self_of_labels ?_ hne
  rw [h]
  simp

/-- The tree of a name is told by how the label before the last one ends. -/
theorem treeOfName?_iff_labels {tree : String} :
    treeOfName? (lower (relative name)) = some (tree, most) ↔
      ∃ family, (family, most) ∈ families ∧ tree = family ++ "." ++ "arpa" ∧
        ∃ above front, plainLabels name = above ++ [front ++ family, "arpa"] := by
  have harpa : labels "arpa" = ["arpa"] := by decide
  rw [treeOfName?_eq_some_iff]
  constructor
  · rintro ⟨family, hfamily, rfl, hsuffix⟩
    rw [suffix_iff_labels (dot_not_mem_family hfamily), harpa] at hsuffix
    exact ⟨family, hfamily, rfl, hsuffix⟩
  · rintro ⟨family, hfamily, rfl, hlabels⟩
    refine ⟨family, hfamily, rfl, ?_⟩
    rwa [suffix_iff_labels (dot_not_mem_family hfamily), harpa]

/-! ### What is above a name -/

/-- The labels of a candidate are those of the name without the first ones. -/
theorem exists_labels_of_mem (h : zone ∈ zoneCandidates name) :
    ∃ family most above front stripped, (family, most) ∈ families ∧
      plainLabels name = above ++ [front ++ family, "arpa"] ∧
      1 ≤ stripped ∧ stripped ≤ most ∧ stripped < above.length ∧
      labels zone = above.drop stripped ++ [front ++ family, "arpa"] := by
  obtain ⟨tree, most, stripped, htree, hfirst, hlast, hkept, hzone⟩ :=
    labels_of_mem_zoneCandidates h
  obtain ⟨family, hfamily, -, above, front, hlabels⟩ := treeOfName?_iff_labels.mp htree
  have hkept' : stripped + 3 ≤ (plainLabels name).length := hkept
  have hzone' : labels zone = (plainLabels name).drop stripped := hzone
  rw [hlabels, List.length_append, List.length_cons, List.length_singleton] at hkept'
  rw [hlabels, List.drop_append_of_le_length (by omega)] at hzone'
  exact ⟨family, most, above, front, stripped, hfamily, hlabels, hfirst, hlast, by omega, hzone'⟩

/-- There is a zone above a name with two labels in front of what is taken for a tree. -/
theorem zoneCandidates_ne_nil_of_labels (hfamily : (family, most) ∈ families)
    (hlabels : plainLabels name = above ++ [front ++ family, "arpa"]) (habove : 2 ≤ above.length) :
    zoneCandidates name ≠ [] := by
  have hmost : 1 ≤ most := by
    have hall : ∀ entry ∈ families, 1 ≤ entry.2 := by decide
    exact hall _ hfamily
  have hmap := map_labels_zoneCandidates
    (treeOfName?_iff_labels.mpr ⟨family, hfamily, rfl, above, front, hlabels⟩)
  have hlength := congrArg List.length hmap
  rw [List.length_map, List.length_map, List.length_range', ← plainLabels, hlabels,
    List.length_append, List.length_cons, List.length_singleton] at hlength
  rw [← List.length_pos_iff, hlength]
  omega

/-- Each zone has fewer labels than the one before. -/
theorem pairwise_zoneCandidates (name : String) :
    (zoneCandidates name).Pairwise fun zone wider =>
      (labels wider).length < (labels zone).length := by
  cases htree : treeOfName? (lower (relative name)) with
  | none =>
    rw [zoneCandidates_of_none htree]
    exact .nil
  | some found =>
    obtain ⟨tree, most⟩ := found
    have hpairs : ((zoneCandidates name).map labels).Pairwise fun ls ks =>
        ks.length < ls.length := by
      have hascending (n : Nat) : (List.range' 1 n).Pairwise (· < ·) := List.pairwise_lt_range'
      rw [map_labels_zoneCandidates htree, List.pairwise_map]
      refine (hascending _).imp_of_mem fun {i j} _ hj hlt => ?_
      rw [List.mem_range'_1] at hj
      rw [List.length_drop, List.length_drop]
      omega
    exact List.pairwise_map.mp hpairs

/-! ### Lookalikes, and all other names -/

/-- Above a lookalike there are zones, and like the name itself they are in no tree. -/
theorem Lookalike.outside (h : Lookalike name) : zoneCandidates name ≠ [] ∧
    ¬InTree (lower name) ∧ ∀ zone ∈ zoneCandidates name, ¬InTree zone := by
  obtain ⟨family, most, above, front, hfamily, hfront, habove, hlabels⟩ := h
  refine ⟨zoneCandidates_ne_nil_of_labels hfamily hlabels habove, ?_, fun zone hzone => ?_⟩
  · have hname : labels (relative (lower name)) = above ++ [front ++ family, "arpa"] := by
      rw [relative_lower]
      exact hlabels
    exact not_inTree_of_labels hfamily hfront hname
  · obtain ⟨family', most', above', front', stripped, -, hlabels', -, -, -, hzone⟩ :=
      exists_labels_of_mem hzone
    -- the name has one end only, so the zone ends as the lookalike does
    have hlast : [front ++ family, "arpa"] = [front' ++ family', "arpa"] :=
      (List.append_inj' (hlabels.symm.trans hlabels') rfl).2
    rw [← hlast] at hzone
    exact not_inTree_of_labels hfamily hfront ((relative_of_arpa hzone).symm ▸ hzone)

/-- What is taken for the first label of a tree is that label, if the name is no lookalike. -/
theorem front_eq_empty (h : ¬Lookalike name) (hfamily : (family, most) ∈ families)
    (habove : 2 ≤ above.length) (hlabels : plainLabels name = above ++ [front ++ family, "arpa"]) :
    front = "" := by
  by_contra hfront
  exact h ⟨family, most, above, front, hfamily, hfront, habove, hlabels⟩

/-- A name that is no lookalike and has zones above it is below a tree, as these zones are. -/
theorem exists_labels_of_not_lookalike (h : ¬Lookalike name) (hzone : zone ∈ zoneCandidates name) :
    ∃ family most above stripped, (family, most) ∈ families ∧
      plainLabels name = above ++ [family, "arpa"] ∧
      1 ≤ stripped ∧ stripped ≤ most ∧ stripped < above.length ∧
      labels zone = above.drop stripped ++ [family, "arpa"] := by
  obtain ⟨family, most, above, front, stripped, hfamily, hlabels, hfirst, hlast, hkept, hzone⟩ :=
    exists_labels_of_mem hzone
  have hfront : front = "" := front_eq_empty h hfamily (by omega) hlabels
  rw [hfront, String.empty_append] at hlabels hzone
  exact ⟨family, most, above, stripped, hfamily, hlabels, hfirst, hlast, hkept, hzone⟩

theorem staysInside_of_not_lookalike (h : ¬Lookalike name) : StaysInside name where
  inside hne := by
    obtain ⟨zone, hzone⟩ := List.exists_mem_of_ne_nil _ hne
    obtain ⟨family, most, above, -, hfamily, hlabels, -⟩ := exists_labels_of_not_lookalike h hzone
    refine inTree_lower_iff.mpr ⟨family, most, hfamily, ?_⟩
    rw [hlabels]
    exact List.suffix_append _ _
  climbs zone hzone := by
    obtain ⟨family, most, above, stripped, hfamily, hlabels, hfirst, hlast, hkept, hzone⟩ :=
      exists_labels_of_not_lookalike h hzone
    refine ⟨family, most, stripped, above.drop stripped, hfamily, hfirst, hlast, ?_, ?_, hzone⟩
    · rw [hzone, hlabels, List.drop_append_of_le_length hkept.le]
    · rw [Ne, List.drop_eq_nil_iff]
      omega
  narrowestFirst := pairwise_zoneCandidates name

/-- There are zones above a name exactly if two labels stand in front of what ends it. -/
theorem zoneCandidates_ne_nil_iff : zoneCandidates name ≠ [] ↔
    Lookalike name ∨ InTree (lower name) ∧ 4 ≤ (plainLabels name).length := by
  constructor
  · intro hne
    by_cases hlike : Lookalike name
    · exact Or.inl hlike
    · obtain ⟨zone, hzone⟩ := List.exists_mem_of_ne_nil _ hne
      obtain ⟨family, most, above, stripped, -, hlabels, hfirst, -, hkept, -⟩ :=
        exists_labels_of_not_lookalike hlike hzone
      refine Or.inr ⟨(staysInside_of_not_lookalike hlike).inside hne, ?_⟩
      rw [hlabels, List.length_append, List.length_cons, List.length_singleton]
      omega
  · rintro (hlike | ⟨htree, hlength⟩)
    · exact hlike.outside.1
    · obtain ⟨family, most, hfamily, above, hlabels⟩ := inTree_lower_iff.mp htree
      rw [← hlabels, List.length_append, List.length_cons, List.length_singleton] at hlength
      have hempty : plainLabels name = above ++ ["" ++ family, "arpa"] := by
        rw [String.empty_append, hlabels]
      exact zoneCandidates_ne_nil_of_labels hfamily hempty (by omega)

/-- The reverse name of an address is no lookalike, since the zones above it are in its tree. -/
theorem not_lookalike_ofAddress (address : Address) : ¬Lookalike (ofAddress address) := by
  intro hlike
  obtain ⟨zone, hzone⟩ := List.exists_mem_of_ne_nil _ (zoneCandidates_ne_nil address)
  exact hlike.outside.2.2 zone hzone (inTree_of_mem_zoneCandidates hzone)

/-- From the reverse name of an address one stays inside its tree. -/
theorem staysInside_ofAddress (address : Address) : StaysInside (ofAddress address) :=
  staysInside_of_not_lookalike (not_lookalike_ofAddress address)

/-- **One stays inside the trees from every name but a lookalike.**  There are zones above a
lookalike, which is in no tree itself, and above every name with two labels in front of a tree.
They are in that tree, and in none above a lookalike. -/
theorem staysInside_iff (name : String) :
    (StaysInside name ↔ ¬Lookalike name) ∧
    (zoneCandidates name ≠ [] ↔
      Lookalike name ∨ InTree (lower name) ∧ 4 ≤ (plainLabels name).length) ∧
    ∀ zone ∈ zoneCandidates name, (InTree zone ↔ ¬Lookalike name) := by
  refine ⟨⟨fun hinside hlike => ?_, staysInside_of_not_lookalike⟩, zoneCandidates_ne_nil_iff,
    fun zone hzone => ⟨fun htree hlike => ?_, fun hlike => ?_⟩⟩
  · obtain ⟨hne, houtside, -⟩ := hlike.outside
    exact houtside (hinside.inside hne)
  · exact hlike.outside.2.2 zone hzone htree
  · obtain ⟨family, most, above, stripped, hfamily, -, -, -, -, hzone⟩ :=
      exists_labels_of_not_lookalike hlike hzone
    refine inTree_iff.mpr ⟨family, most, hfamily, ?_⟩
    rw [relative_of_arpa hzone, hzone]
    exact List.suffix_append _ _

/-- A name in upper case with the dot at its end. -/
theorem staysInside_iff_upperCase :
    let name := "3.2.1.IN-ADDR.ARPA."
    "1.in-addr.arpa" ∈ zoneCandidates name ∧ InTree "1.in-addr.arpa" ∧ StaysInside name := by
  intro name
  have hzone : "1.in-addr.arpa" ∈ zoneCandidates name := by decide +kernel
  have htree : InTree "1.in-addr.arpa" := by decide
  obtain ⟨hinside, -, hzones⟩ := staysInside_iff name
  exact ⟨hzone, htree, hinside.mpr ((hzones _ hzone).mp htree)⟩

/-- A name that runs on in front of a tree's text has a zone above it. -/
theorem zoneCandidates_notip6 :
    let name := "a.b.notip6.arpa"
    zoneCandidates name = ["b.notip6.arpa"] ∧ ¬InTree (lower name) ∧ ¬StaysInside name := by
  intro name
  have hzones : zoneCandidates name = ["b.notip6.arpa"] := by decide +kernel
  have houtside : ¬InTree (lower name) := by decide +kernel
  refine ⟨hzones, houtside, fun h => houtside (h.inside ?_)⟩
  rw [hzones]
  exact List.cons_ne_nil _ _

end ZoneKeeper.ReverseName
