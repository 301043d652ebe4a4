/-
What the names above a reverse name say about its address.

A reverse name lists the parts of its address from the least significant one, so what is left
when labels are taken from its front are the leading parts of the address: its prefix.  A label
can be read back as the part that it was written from, and the tree says which family the address
is of.  So a name on the way up from a reverse name is reached from exactly the addresses that
share a prefix, and a full reverse name from one address only.
-/
import ZoneKeeper.Proofs.ReverseLocation

namespace ZoneKeeper

open DomainName

/-! ### Addresses by their parts -/

namespace IPv6

theorem lt_of_mem_nibbles {address : IPv6} {n : Nat} (h : n ∈ address.nibbles) : n < 16 := by
  obtain ⟨group, -, hn⟩ := List.mem_flatMap.mp h
  simp only [nibblesOfGroup, List.mem_cons, List.not_mem_nil, or_false] at hn
  omega

theorem nibblesOfGroup_injective : Function.Injective nibblesOfGroup := by
  intro g k h
  simp only [nibblesOfGroup, List.cons.injEq, and_true] at h
  have hg : g.toNat < 65536 := g.toNat_lt
  have hk : k.toNat < 65536 := k.toNat_lt
  exact UInt16.toNat_inj.mp (by omega)

/-- Groups can be told from their digits, since each has four. -/
theorem flatMap_nibblesOfGroup_injective :
    Function.Injective (List.flatMap nibblesOfGroup) := by
  intro gs
  induction gs with
  | nil =>
    intro ks h
    cases ks with
    | nil => rfl
    | cons k ks => cases h
  | cons g gs ih =>
    intro ks h
    cases ks with
    | nil => cases h
    | cons k ks =>
      rw [List.flatMap_cons, List.flatMap_cons] at h
      obtain ⟨hgroup, hrest⟩ := List.append_inj h rfl
      rw [nibblesOfGroup_injective hgroup, ih hrest]

theorem nibbles_injective : Function.Injective nibbles := by
  rintro ⟨gs⟩ ⟨ks⟩ h
  exact congrArg IPv6.mk (Vector.toList_inj.mp (flatMap_nibblesOfGroup_injective h))

theorem length_nibbles (address : IPv6) : address.nibbles.length = 32 := by
  have h := ReverseName.length_addressLabels (.v6 address)
  simpa [ReverseName.addressLabels] using h

end IPv6

/-- The addresses are of one family and have the same leading parts, all but `i` of the four
octets or of the thirty-two hexadecimal digits. -/
def Address.SharePrefix (i : Nat) : Address → Address → Prop
  | .v4 a, .v4 b => a.octets.toList.take (4 - i) = b.octets.toList.take (4 - i)
  | .v6 a, .v6 b => a.nibbles.take (32 - i) = b.nibbles.take (32 - i)
  | .v4 _, .v6 _ => False
  | .v6 _, .v4 _ => False

instance (i : Nat) : ∀ a b : Address, Decidable (a.SharePrefix i b)
  | .v4 a, .v4 b =>
    inferInstanceAs (Decidable (a.octets.toList.take (4 - i) = b.octets.toList.take (4 - i)))
  | .v6 a, .v6 b => inferInstanceAs (Decidable (a.nibbles.take (32 - i) = b.nibbles.take (32 - i)))
  | .v4 _, .v6 _ => inferInstanceAs (Decidable False)
  | .v6 _, .v4 _ => inferInstanceAs (Decidable False)

/-- The addresses that share all parts are the same. -/
theorem Address.sharePrefix_zero {a b : Address} : a.SharePrefix 0 b ↔ a = b := by
  cases a with
  | v4 a =>
    cases b with
    | v4 b =>
      have hfull : ∀ c : IPv4, c.octets.toList.take (4 - 0) = c.octets.toList := fun c =>
        List.take_of_length_le (by simp)
      rw [SharePrefix, hfull, hfull, Vector.toList_inj, Address.v4.injEq, IPv4.mk.injEq]
    | v6 b => simp [SharePrefix]
  | v6 a =>
    cases b with
    | v4 b => simp [SharePrefix]
    | v6 b =>
      have hfull : ∀ c : IPv6, c.nibbles.take (32 - 0) = c.nibbles := fun c =>
        List.take_of_length_le (IPv6.length_nibbles c).le
      rw [SharePrefix, hfull, hfull, IPv6.nibbles_injective.eq_iff, Address.v6.injEq]

/-! ### Labels that can be read back -/

namespace ReverseName

/-- Texts that can be read back are only written from one list. -/
theorem eq_of_map_eq {α : Type} {write : α → String} {read : String → Option α} {xs ys : List α}
    (hxs : ∀ x ∈ xs, read (write x) = some x) (hys : ∀ y ∈ ys, read (write y) = some y)
    (h : xs.map write = ys.map write) : xs = ys := by
  have hread : (xs.map write).mapM read = some ys := h ▸ mapM_map_eq_some hys
  exact Option.some.inj ((mapM_map_eq_some hxs).symm.trans hread)

/-- The octet that a label is the decimal numeral of. -/
def octetOfLabel? (label : String) : Option UInt8 :=
  (Numeral.decimal? label.toList).map UInt8.ofNat

/-- The hexadecimal digit that a label begins with. -/
def nibbleOfLabel? (label : String) : Option Nat :=
  label.toList.head?.bind Numeral.hexDigit?

theorem octetOfLabel?_toString (octet : UInt8) :
    octetOfLabel? (toString octet.toNat) = some octet := by
  rw [octetOfLabel?, Numeral.decimal?_toString, Option.map_some, UInt8.ofNat_toNat]

theorem nibbleOfLabel?_hexDigit {n : Nat} (h : n < 16) :
    nibbleOfLabel? (String.singleton (Numeral.hexDigit n)) = some n := by
  have hall : ∀ m < 16, Numeral.hexDigit? (Numeral.hexDigit m) = some m := by decide
  rw [nibbleOfLabel?, String.toList_singleton]
  exact hall n h

variable {a b : Address} {i : Nat}

/-- The labels that stand for the leading parts of an address are those of the parts. -/
theorem drop_addressLabels_v4 (address : IPv4) (i : Nat) :
    (addressLabels (.v4 address)).drop i =
      ((address.octets.toList.take (4 - i)).map fun octet => toString octet.toNat).reverse := by
  rw [addressLabels, List.drop_reverse, List.length_map, Vector.length_toList, List.map_take]

theorem drop_addressLabels_v6 (address : IPv6) (i : Nat) :
    (addressLabels (.v6 address)).drop i =
      ((address.nibbles.take (32 - i)).map fun n =>
        String.singleton (Numeral.hexDigit n)).reverse := by
  rw [addressLabels, List.drop_reverse, List.length_map, IPv6.length_nibbles, List.map_take]

/-- The labels of the name that is reached by leaving out the first `i`. -/
def labelsAbove (address : Address) (i : Nat) : List String :=
  (addressLabels address ++ labels (treeOf address)).drop i

/-- Where labels are left, they are those of leading parts and of the tree. -/
theorem labelsAbove_eq_iff_drop (ha : i ≤ depth a) (hb : i ≤ depth b) :
    labelsAbove a i = labelsAbove b i ↔
      (addressLabels a).drop i = (addressLabels b).drop i ∧ treeOf a = treeOf b := by
  rw [labelsAbove, labelsAbove, List.drop_append_of_le_length (ha.trans (depth_bounds a).2.le),
    List.drop_append_of_le_length (hb.trans (depth_bounds b).2.le)]
  constructor
  · intro h
    obtain ⟨hparts, htrees⟩ := List.append_inj' h (by
      rw [length_labels_of_mem_trees (treeOf_mem a), length_labels_of_mem_trees (treeOf_mem b)])
    refine ⟨hparts, ?_⟩
    rw [← ofLabels_labels (treeOf a), htrees, ofLabels_labels]
  · rintro ⟨hparts, htrees⟩
    rw [hparts, htrees]

/-- **The labels above a reverse name tell a prefix of the address,** and its family. -/
theorem labelsAbove_eq_iff (ha : i ≤ depth a) (hb : i ≤ depth b) :
    labelsAbove a i = labelsAbove b i ↔ a.SharePrefix i b := by
  have htrees : ipv4Tree ≠ ipv6Tree := by decide
  rw [labelsAbove_eq_iff_drop ha hb]
  cases a with
  | v4 a =>
    cases b with
    | v4 b =>
      rw [drop_addressLabels_v4, drop_addressLabels_v4, List.reverse_inj, Address.SharePrefix]
      refine ⟨fun h => ?_, fun h => ⟨congrArg _ h, rfl⟩⟩
      exact eq_of_map_eq (fun octet _ => octetOfLabel?_toString octet)
        (fun octet _ => octetOfLabel?_toString octet) h.1
    | v6 b => simp [treeOf, Address.SharePrefix, htrees]
  | v6 a =>
    cases b with
    | v4 b => simp [treeOf, Address.SharePrefix, htrees.symm]
    | v6 b =>
      have hread : ∀ (address : IPv6), ∀ n ∈ address.nibbles.take (32 - i),
          nibbleOfLabel? (String.singleton (Numeral.hexDigit n)) = some n := fun address n hn =>
        nibbleOfLabel?_hexDigit (IPv6.lt_of_mem_nibbles (List.mem_of_mem_take hn))
      rw [drop_addressLabels_v6, drop_addressLabels_v6, List.reverse_inj, Address.SharePrefix]
      refine ⟨fun h => ?_, fun h => ⟨congrArg _ h, rfl⟩⟩
      exact eq_of_map_eq (hread a) (hread b) h.1

/-! ### The names on the way up -/

/-- The reverse name of an address, and then the zones above it, narrowest first. -/
def namesUp (address : Address) : List String :=
  ofAddress address :: zoneCandidates (ofAddress address)

theorem length_zoneCandidates (address : Address) :
    (zoneCandidates (ofAddress address)).length = depth address := by
  rw [zoneCandidates_ofAddress, List.length_map, List.length_range']

theorem ofAddress_eq (address : Address) :
    ofAddress address = ofLabels (labelsAbove address 0) ++ "." := by
  rw [ofAddress, absolute, ← relative_absolute]
  exact congrArg (· ++ ".") (relative_ofAddress address)

/-- On the way up the labels are left out one by one. -/
theorem getElem?_namesUp (h : i ≤ depth a) : (namesUp a)[i]? =
    some (ofLabels (labelsAbove a i) ++ if i = 0 then "." else "") := by
  cases i with
  | zero => rw [namesUp, List.getElem?_cons_zero, ofAddress_eq, if_pos rfl]
  | succ i =>
    rw [namesUp, List.getElem?_cons_succ, zoneCandidates_ofAddress, List.getElem?_map,
      List.getElem?_range' h, if_neg (Nat.succ_ne_zero i), String.append_empty, Option.map_some,
      labelsAbove, Nat.one_mul, Nat.add_comm]

/-- Addresses that share a prefix are of one family. -/
theorem depth_eq_of_sharePrefix (h : a.SharePrefix i b) : depth a = depth b := by
  cases a <;> cases b <;> first | rfl | exact h.elim

theorem getElem?_namesUp_eq_iff (h : i ≤ depth a) :
    (namesUp a)[i]? = (namesUp b)[i]? ↔ a.SharePrefix i b := by
  by_cases hb : i ≤ depth b
  · rw [getElem?_namesUp h, getElem?_namesUp hb, ← labelsAbove_eq_iff h hb, Option.some.injEq,
      String.append_left_inj]
    refine ⟨fun hnames => ?_, congrArg ofLabels⟩
    rw [labelsAbove, labelsAbove, ← labels_candidate a h, ← labels_candidate b hb]
    exact congrArg labels hnames
  · -- the other name has no such height, so the families differ
    have hnone : (namesUp b)[i]? = none := by
      rw [List.getElem?_eq_none_iff, namesUp, List.length_cons, length_zoneCandidates]
      omega
    rw [hnone, getElem?_namesUp h]
    refine ⟨fun hsome => (by cases hsome), fun hshare => ?_⟩
    exact absurd (depth_eq_of_sharePrefix hshare ▸ h) hb

/-- **The names above a reverse name are faithful to the prefixes of its address.** -/
theorem namesUp_faithful (a : Address) :
    (zoneCandidates (ofAddress a)).length = (match a with
      | .v4 _ => 3
      | .v6 _ => 31) ∧
    (∀ i, 1 ≤ i → i ≤ depth a → (namesUp a)[i]? =
      some (ofLabels ((labels (relative (ofAddress a))).drop i))) ∧
    (∀ b i, i ≤ depth a → ((namesUp a)[i]? = (namesUp b)[i]? ↔ a.SharePrefix i b)) ∧
    ∀ b, ofAddress a = ofAddress b ↔ a = b := by
  refine ⟨?_, fun i hfirst hlast => ?_, fun b i h => getElem?_namesUp_eq_iff h, fun b => ?_⟩
  · rw [length_zoneCandidates]
    cases a <;> rfl
  · rw [getElem?_namesUp hlast, if_neg (by omega), String.append_empty, relative_ofAddress,
      labels_relativeName, labelsAbove]
  · have hname := getElem?_namesUp_eq_iff (a := a) (b := b) (Nat.zero_le _)
    rw [namesUp, namesUp, List.getElem?_cons_zero, List.getElem?_cons_zero, Option.some.injEq,
      Address.sharePrefix_zero] at hname
    exact hname

/-- Two addresses that differ in the last digit but one. -/
theorem namesUp_faithful_neighbours :
    let a : Address := .v6 ⟨#v[0x2001, 0xdb8, 0, 0, 0, 0, 0, 0x12]⟩
    let b : Address := .v6 ⟨#v[0x2001, 0xdb8, 0, 0, 0, 0, 0, 0xa2]⟩
    2 ≤ depth a ∧ (namesUp a)[2]? = (namesUp b)[2]? ∧ (namesUp a)[1]? ≠ (namesUp b)[1]? ∧
      (namesUp a)[2]? = some (ofLabels ((labels (relative (ofAddress a))).drop 2)) := by
  intro a b
  have hdepth : 2 ≤ depth a := by decide
  obtain ⟨-, hnames, hshare, -⟩ := namesUp_faithful a
  refine ⟨hdepth, (hshare b 2 hdepth).mpr (by decide), fun hone => ?_, hnames 2 (by decide) hdepth⟩
  exact absurd ((hshare b 1 (by decide)).mp hone) (by decide)

end ReverseName

end ZoneKeeper
