/-
Where the reverse zones of an address are.

The zones that could hold the reverse name of an address are found by removing labels from
its front, and at least one label is kept above the tree.  So each of them is in the tree that
the reverse name is in, label by label, and no other zone is ever asked about.
-/
import ZoneKeeper.Proofs.DomainName
import ZoneKeeper.ReverseName

namespace ZoneKeeper.ReverseName

open Text DomainName

/-- The zone is a tree of reverse names or is below one. -/
def InTree (zone : String) : Prop :=
  ∃ tree ∈ [ipv4Tree, ipv6Tree], labels tree <:+ labels (relative zone)

instance (zone : String) : Decidable (InTree zone) :=
  inferInstanceAs
    (Decidable (∃ tree ∈ [ipv4Tree, ipv6Tree], labels tree <:+ labels (relative zone)))

theorem labels_ipv4Tree : labels ipv4Tree = ["in-addr", "arpa"] := by decide

theorem labels_ipv6Tree : labels ipv6Tree = ["ip6", "arpa"] := by decide

/-- Both trees have two labels, of which the last is the same. -/
theorem labels_of_mem_trees {tree : String} (h : tree ∈ [ipv4Tree, ipv6Tree]) :
    ∃ label, labels tree = [label, "arpa"] := by
  rcases List.mem_pair.mp h with rfl | rfl
  · exact ⟨_, labels_ipv4Tree⟩
  · exact ⟨_, labels_ipv6Tree⟩

theorem length_labels_of_mem_trees {tree : String} (h : tree ∈ [ipv4Tree, ipv6Tree]) :
    (labels tree).length = 2 := by
  obtain ⟨label, hlabels⟩ := labels_of_mem_trees h
  rw [hlabels]
  rfl

theorem map_lower_labels_of_mem_trees {tree : String} (h : tree ∈ [ipv4Tree, ipv6Tree]) :
    (labels tree).map lower = labels tree := by
  rcases List.mem_pair.mp h with rfl | rfl <;> decide

/-- A name whose labels end in those of a tree ends in no dot. -/
theorem relative_of_labels_suffix {name tree : String} (htree : tree ∈ [ipv4Tree, ipv6Tree])
    (h : labels tree <:+ labels name) : relative name = name := by
  obtain ⟨label, hlabels⟩ := labels_of_mem_trees htree
  obtain ⟨front, hfront⟩ := h
  have hne : "arpa" ≠ "" := by decide
  refine relative_eq_self_of_labels ?_ hne
  rw [← hfront, hlabels]
  simp

theorem inTree_of_labels_suffix {name tree : String} (htree : tree ∈ [ipv4Tree, ipv6Tree])
    (h : labels tree <:+ labels name) : InTree name :=
  ⟨tree, htree, by rwa [relative_of_labels_suffix htree h]⟩

theorem inTree_congr {zone other : String} (h : relative zone = relative other) :
    InTree zone ↔ InTree other := by
  rw [InTree, InTree, h]

/-! ### The name of an address -/

theorem treeOf_mem (address : Address) : treeOf address ∈ [ipv4Tree, ipv6Tree] := by
  cases address <;> simp [treeOf]

theorem addressLabels_ne_nil (address : Address) : addressLabels address ≠ [] := by
  cases address with
  | v4 address =>
    intro h
    have hlength := congrArg List.length h
    simp [addressLabels] at hlength
  | v6 address =>
    have hgroup : address.groups[0] ∈ address.groups.toList := by simp
    have hnibble : address.groups[0].toNat / 4096 % 16 ∈ address.nibbles :=
      List.mem_flatMap.mpr ⟨_, hgroup, by simp [IPv6.nibblesOfGroup]⟩
    intro h
    have hnil : address.nibbles = [] := by simpa [addressLabels] using h
    rw [hnil] at hnibble
    contradiction

/-- The labels of a reverse name end in those of its tree. -/
theorem labels_treeOf_suffix (address : Address) :
    labels (treeOf address) <:+ labels (lower (relative (ofAddress address))) := by
  have hlabels : labels (ofLabels (addressLabels address ++ labels (treeOf address))) =
      labels (ofLabels (addressLabels address)) ++ labels (treeOf address) := by
    rw [labels_ofLabels_append (addressLabels_ne_nil address) (labels_ne_nil _), ofLabels_labels]
  have hsuffix : labels (treeOf address) <:+
      labels (ofLabels (addressLabels address ++ labels (treeOf address))) := by
    rw [hlabels]
    exact List.suffix_append _ _
  have hlower := hsuffix.map lower
  rw [map_lower_labels_of_mem_trees (treeOf_mem address)] at hlower
  rw [ofAddress, relative_absolute, relative_of_labels_suffix (treeOf_mem address) hsuffix,
    labels_lower]
  exact hlower

/-! ### The tree of a name -/

/-- The labels that tell the trees apart, each with the most labels that a zone below its tree
leaves out of a name. -/
def families : List (String × Nat) := [("in-addr", 3), ("ip6", 31)]

variable {name tree family : String} {most : Nat}

/-- No text ends in both trees. -/
theorem not_ipv6Tree_suffix {cs : List Char} (h : ipv4Tree.toList <:+ cs) :
    ¬ipv6Tree.toList <:+ cs := by
  intro hother
  have hshort : ipv6Tree.toList <:+ ipv4Tree.toList :=
    List.suffix_of_suffix_length_le hother h (by decide)
  exact absurd hshort (by decide)

/-- The tree of a name is the one that its text ends in. -/
theorem treeOfName?_eq_some_iff : treeOfName? name = some (tree, most) ↔
    ∃ family, (family, most) ∈ families ∧ tree = family ++ "." ++ "arpa" ∧
      tree.toList <:+ name.toList := by
  unfold treeOfName?
  constructor
  · intro h
    split at h
    · next hsuffix =>
      obtain ⟨rfl, rfl⟩ := Prod.mk.inj (Option.some.inj h)
      exact ⟨"ip6", by decide, rfl, List.isSuffixOf_iff_suffix.mp hsuffix⟩
    · split at h
      · next hsuffix =>
        obtain ⟨rfl, rfl⟩ := Prod.mk.inj (Option.some.inj h)
        exact ⟨"in-addr", by decide, rfl, List.isSuffixOf_iff_suffix.mp hsuffix⟩
      · cases h
  · rintro ⟨family, hfamily, htree, hsuffix⟩
    rcases List.mem_pair.mp hfamily with h | h
    · obtain ⟨rfl, rfl⟩ := Prod.mk.inj h
      obtain rfl : tree = ipv4Tree := htree
      rw [if_neg (by simpa using not_ipv6Tree_suffix hsuffix), if_pos (by simpa using hsuffix)]
    · obtain ⟨rfl, rfl⟩ := Prod.mk.inj h
      obtain rfl : tree = ipv6Tree := htree
      rw [if_pos (by simpa using hsuffix)]

theorem mem_trees_of_treeOfName? (h : treeOfName? name = some (tree, most)) :
    tree ∈ [ipv4Tree, ipv6Tree] := by
  obtain ⟨family, hfamily, rfl, -⟩ := treeOfName?_eq_some_iff.mp h
  rcases List.mem_pair.mp hfamily with h | h
  · obtain ⟨rfl, -⟩ := Prod.mk.inj h
    exact List.mem_cons_self
  · obtain ⟨rfl, -⟩ := Prod.mk.inj h
    exact List.mem_cons_of_mem _ List.mem_cons_self

/-! ### The zones above a name -/

theorem zoneCandidates_of_none (h : treeOfName? (lower (relative name)) = none) :
    zoneCandidates name = [] := by
  unfold zoneCandidates
  simp only [h]

/-- One label after the other is left out, but three are kept. -/
theorem map_labels_zoneCandidates (h : treeOfName? (lower (relative name)) = some (tree, most)) :
    (zoneCandidates name).map labels =
      (List.range' 1 (min most ((labels (lower (relative name))).length - 3))).map
        (labels (lower (relative name))).drop := by
  have htree : (labels tree).length = 2 := length_labels_of_mem_trees (mem_trees_of_treeOfName? h)
  unfold zoneCandidates
  simp only [h, htree, Nat.sub_sub, List.map_map]
  refine List.map_congr_left fun stripped hstripped => ?_
  rw [List.mem_range'_1] at hstripped
  refine labels_ofLabels ?_ fun label hlabel => ?_
  · rw [Ne, List.drop_eq_nil_iff]
    omega
  · exact not_dot_mem_of_mem_labels (List.mem_of_mem_drop hlabel)

/-- A candidate leaves out labels at the front of the name, but keeps at least three. -/
theorem labels_of_mem_zoneCandidates {name zone : String} (h : zone ∈ zoneCandidates name) :
    ∃ tree most stripped, treeOfName? (lower (relative name)) = some (tree, most) ∧
      1 ≤ stripped ∧ stripped ≤ most ∧
      stripped + 3 ≤ (labels (lower (relative name))).length ∧
      labels zone = (labels (lower (relative name))).drop stripped := by
  cases htree : treeOfName? (lower (relative name)) with
  | none =>
    rw [zoneCandidates_of_none htree] at h
    exact absurd h List.not_mem_nil
  | some found =>
    obtain ⟨tree, most⟩ := found
    have hzone : labels zone ∈ (zoneCandidates name).map labels := List.mem_map_of_mem h
    rw [map_labels_zoneCandidates htree] at hzone
    obtain ⟨stripped, hrange, hlabels⟩ := List.mem_map.mp hzone
    rw [List.mem_range'_1] at hrange
    exact ⟨tree, most, stripped, rfl, hrange.1, by omega, by omega, hlabels.symm⟩

/-- The zones above a reverse name are in the tree that it is in. -/
theorem labels_treeOf_suffix_of_mem_zoneCandidates {address : Address} {zone : String}
    (h : zone ∈ zoneCandidates (ofAddress address)) : labels (treeOf address) <:+ labels zone := by
  obtain ⟨-, -, stripped, -, -, -, hkept, hlabels⟩ := labels_of_mem_zoneCandidates h
  rw [hlabels]
  refine List.suffix_of_suffix_length_le (labels_treeOf_suffix address)
    (List.drop_suffix stripped _) ?_
  rw [length_labels_of_mem_trees (treeOf_mem address), List.length_drop]
  omega

/-- **The zones that could hold the reverse name of an address are in the trees.** -/
theorem inTree_of_mem_zoneCandidates {address : Address} {zone : String}
    (h : zone ∈ zoneCandidates (ofAddress address)) : InTree zone :=
  inTree_of_labels_suffix (treeOf_mem address) (labels_treeOf_suffix_of_mem_zoneCandidates h)

/-- They are named as zones are, without a dot at the end. -/
theorem relative_of_mem_zoneCandidates {address : Address} {zone : String}
    (h : zone ∈ zoneCandidates (ofAddress address)) : relative zone = zone :=
  relative_of_labels_suffix (treeOf_mem address) (labels_treeOf_suffix_of_mem_zoneCandidates h)

end ZoneKeeper.ReverseName
