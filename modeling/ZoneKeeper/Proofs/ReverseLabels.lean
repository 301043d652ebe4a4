/-
What a reverse name is made of.

The labels of a reverse name are the parts of its address, which are lower-case letters and
digits and nothing else, and then the two labels of its tree.  From this follows what the zones
above it are, one by one, and that there always is one.  A colon occurs nowhere in it, while no
IPv6 address can be written without, so a reverse name is never taken for an address itself.
-/
import ZoneKeeper.Proofs.Address
import ZoneKeeper.Proofs.ReverseName

namespace ZoneKeeper

open Text DomainName

namespace ReverseName

/-- A label of lower-case letters and digits, as the parts of an address are written. -/
def IsPart (label : String) : Prop :=
  ∀ c ∈ label.toList, c.isAlphanum = true ∧ c.toLower = c

theorem isPart_hexDigit {n : Nat} (h : n < 16) :
    IsPart (String.singleton (Numeral.hexDigit n)) := by
  have hall : ∀ m < 16, (Numeral.hexDigit m).isAlphanum = true ∧
      (Numeral.hexDigit m).toLower = Numeral.hexDigit m := by decide
  intro c hc
  obtain rfl : c = Numeral.hexDigit n := by simpa using hc
  exact hall n h

theorem isPart_decimal (n : Nat) : IsPart (toString n) := by
  intro c hc
  rw [show toString n = n.repr from rfl, Nat.toList_repr] at hc
  have hdigit : c.isDigit = true := Nat.isDigit_of_mem_toDigits (by decide) (by decide) hc
  exact ⟨by simp [Char.isAlphanum, hdigit], toLower_of_isDigit hdigit⟩

theorem isPart_of_mem_addressLabels {address : Address} {label : String}
    (h : label ∈ addressLabels address) : IsPart label := by
  cases address with
  | v4 address =>
    obtain ⟨octet, -, rfl⟩ := List.mem_map.mp (List.mem_reverse.mp h)
    exact isPart_decimal _
  | v6 address =>
    obtain ⟨n, hn, rfl⟩ := List.mem_map.mp (List.mem_reverse.mp h)
    obtain ⟨group, -, hgroup⟩ := List.mem_flatMap.mp hn
    refine isPart_hexDigit ?_
    simp only [IPv6.nibblesOfGroup, List.mem_cons, List.not_mem_nil, or_false] at hgroup
    omega

theorem IsPart.dot_not_mem {label : String} (h : IsPart label) : '.' ∉ label.toList :=
  fun hdot => absurd (h '.' hdot).1 (by decide)

theorem IsPart.colon_not_mem {label : String} (h : IsPart label) : ':' ∉ label.toList :=
  fun hcolon => absurd (h ':' hcolon).1 (by decide)

theorem IsPart.lower {label : String} (h : IsPart label) : lower label = label := by
  have hmap : label.toList.map Char.toLower = label.toList :=
    (List.map_congr_left fun c hc => (h c hc).2).trans (List.map_id _)
  rw [Text.lower, hmap, String.ofList_toList]

theorem length_addressLabels : ∀ address : Address, (addressLabels address).length =
    match address with
    | .v4 _ => 4
    | .v6 _ => 32
  | .v4 address => by simp [addressLabels]
  | .v6 address => by
    have hnibbles : ∀ groups : List UInt16,
        (groups.flatMap IPv6.nibblesOfGroup).length = 4 * groups.length := by
      intro groups
      simp [List.length_flatMap, IPv6.nibblesOfGroup, List.map_const', Nat.mul_comm]
    simp [addressLabels, IPv6.nibbles, hnibbles]

/-! ### The labels of a reverse name -/

variable {address : Address} {zone : String}

/-- The relative form of a reverse name. -/
def relativeName (address : Address) : String :=
  ofLabels (addressLabels address ++ labels (treeOf address))

theorem labels_relativeName (address : Address) :
    labels (relativeName address) = addressLabels address ++ labels (treeOf address) := by
  refine labels_ofLabels (by simp [labels_ne_nil]) fun label hlabel => ?_
  rcases List.mem_append.mp hlabel with hpart | htree
  · exact (isPart_of_mem_addressLabels hpart).dot_not_mem
  · exact not_dot_mem_of_mem_labels htree

/-- A reverse name is its relative form with a dot behind it. -/
theorem relative_ofAddress (address : Address) :
    relative (ofAddress address) = relativeName address := by
  have hsuffix : labels (treeOf address) <:+ labels (relativeName address) := by
    rw [labels_relativeName]
    exact List.suffix_append _ _
  rw [ofAddress, relative_absolute]
  exact relative_of_labels_suffix (treeOf_mem address) hsuffix

/-- Reverse names are written in lower case. -/
theorem lower_relativeName (address : Address) :
    lower (relativeName address) = relativeName address := by
  have hlabels : (labels (relativeName address)).map lower = labels (relativeName address) := by
    rw [labels_relativeName, List.map_append, map_lower_labels_of_mem_trees (treeOf_mem address)]
    congr 1
    refine (List.map_congr_left fun label hlabel => ?_).trans (List.map_id _)
    exact (isPart_of_mem_addressLabels hlabel).lower
  rw [← ofLabels_labels (lower (relativeName address)), labels_lower, hlabels, ofLabels_labels]

theorem colon_not_mem_relativeName (address : Address) : ':' ∉ (relativeName address).toList := by
  intro hcolon
  have hne : ':' ≠ '.' := by decide
  obtain ⟨piece, hpiece, hmem⟩ := exists_mem_cutAt hcolon hne
  have hlabel : String.ofList piece ∈ labels (relativeName address) :=
    List.mem_map_of_mem hpiece
  rw [labels_relativeName] at hlabel
  rcases List.mem_append.mp hlabel with hpart | htree
  · exact (isPart_of_mem_addressLabels hpart).colon_not_mem (by simpa using hmem)
  · have hclean : ∀ tree ∈ [ipv4Tree, ipv6Tree], ∀ label ∈ labels tree, ':' ∉ label.toList := by
      decide
    exact hclean _ (treeOf_mem address) _ htree (by simpa using hmem)

/-- No reverse name is the text of an IPv6 address. -/
theorem ofIPv6Literal?_ofAddress (address : Address) :
    ofIPv6Literal? (ofAddress address) = none := by
  rw [ofIPv6Literal?, IPv6.ofString?, relative_ofAddress,
    IPv6.ofChars?_eq_none (colon_not_mem_relativeName address)]
  rfl

/-! ### The zones above a reverse name -/

theorem toList_treeOf_suffix (address : Address) :
    (treeOf address).toList <:+ (relativeName address).toList := by
  rw [relativeName, ofLabels, String.toList_ofList, List.map_append,
    joinWith_append (by simpa using addressLabels_ne_nil address) (by simpa using labels_ne_nil _)]
  have htree : joinWith '.' ((labels (treeOf address)).map String.toList) =
      (treeOf address).toList := by
    have h := congrArg String.toList (ofLabels_labels (treeOf address))
    rwa [ofLabels, String.toList_ofList] at h
  rw [htree]
  exact (List.suffix_cons '.' _).trans (List.suffix_append _ _)

/-- The number of labels that the widest zone below a tree leaves out of a full reverse name. -/
def depth : Address → Nat
  | .v4 _ => 3
  | .v6 _ => 31

theorem treeOfName?_relativeName (address : Address) :
    treeOfName? (relativeName address) = some (treeOf address, depth address) := by
  rw [treeOfName?_eq_some_iff]
  cases address with
  | v4 address => exact ⟨"in-addr", List.mem_cons_self, rfl, toList_treeOf_suffix _⟩
  | v6 address =>
    exact ⟨"ip6", List.mem_cons_of_mem _ List.mem_cons_self, rfl, toList_treeOf_suffix _⟩

/-- **The zones above the reverse name of an address,** narrowest first. -/
theorem zoneCandidates_ofAddress (address : Address) :
    zoneCandidates (ofAddress address) = (List.range' 1 (depth address)).map fun stripped =>
      ofLabels ((addressLabels address ++ labels (treeOf address)).drop stripped) := by
  unfold zoneCandidates
  simp only [relative_ofAddress, lower_relativeName, treeOfName?_relativeName, labels_relativeName,
    List.length_append, length_addressLabels]
  cases address <;> simp [depth]

theorem zoneCandidates_ne_nil (address : Address) : zoneCandidates (ofAddress address) ≠ [] := by
  rw [zoneCandidates_ofAddress]
  cases address <;> simp [depth]

end ReverseName

end ZoneKeeper
