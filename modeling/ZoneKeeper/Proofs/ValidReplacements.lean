/-
What the record sets that are sent look like.

Rows are checked before they are grouped, and what is checked is not what is sent: contents are
made absolute afterwards, owner names are turned around, and what is repeated is left out.  None of
this spoils what the check has found.  Contents that end in a name gain a dot at most, addresses are
sent as they were checked, and a name is absolute in whatever way it was made.

Every address that is sent has a reverse name, in the tree of its family.  The check reads a content
with the reader of its type and the search for the reverse name with the one that tries both, but
no text is an address of both families.
-/
import ZoneKeeper.Proofs.EditPolicy
import ZoneKeeper.Proofs.Gathering

namespace ZoneKeeper

open DomainName ReverseName

/-- What a record of this type can hold, in the form in which it is sent. -/
structure RRType.Suits (type : RRType) (content : String) : Prop where
  ipv4 : type = .named .a → ∃ address, IPv4.ofString? content = some address ∧
    ofContent? content = some (ofAddress (.v4 address)) ∧
    ["in-addr", "arpa"] <:+ labels (relative (ofAddress (.v4 address)))
  ipv6 : type = .named .aaaa → ∃ address, IPv6.ofString? content = some address ∧
    ofContent? content = some (ofAddress (.v6 address)) ∧
    ["ip6", "arpa"] <:+ labels (relative (ofAddress (.v6 address)))
  /-- What is no address says something. -/
  filled : type.isAddress = false → content ≠ ""
  /-- A content that ends in a name is absolute. -/
  absolute : type ∈ [.named .mx, .named .cname, .named .srv, .named .ns] →
    content.toList.getLast? = some '.'

/-- A record set that a nameserver can take over as it is. -/
structure RRset.Valid (rrset : RRset) : Prop where
  absolute : rrset.name.toList.getLast? = some '.'
  editable : rrset.type ≠ .named .soa
  nonempty : rrset.records ≠ []
  distinct : (rrset.records.map RecordValue.content).Nodup
  suitable : ∀ value ∈ rrset.records, rrset.type.Suits value.content
  /-- There is at most one comment. -/
  single : rrset.comments.length ≤ 1
  /-- It says something, and nobody's account is named. -/
  remark : ∀ comment ∈ rrset.comments, comment.content ≠ "" ∧ comment.account = ""

/-! ### Contents -/

/-- The reverse name of an address ends in the labels of its tree. -/
theorem ReverseName.labels_treeOf_suffix_relative (address : Address) :
    labels (treeOf address) <:+ labels (relative (ofAddress address)) := by
  rw [relative_ofAddress, labels_relativeName]
  exact List.suffix_append _ _

theorem ReverseName.ofContent?_of_trimmed {content : String} {address : Address}
    (htrim : Text.trim content = content) (h : Address.ofString? content = some address) :
    ofContent? content = some (ofAddress address) := by
  rw [ofContent?, htrim, h]
  rfl

namespace RRType

variable {type : RRType} {content : String}

theorem ne_empty_of_contentFault? (hplain : type.isAddress = false)
    (hfault : type.contentFault? content = none) : content ≠ "" := by
  unfold contentFault? at hfault
  split at hfault
  · contradiction
  · contradiction
  · exact fun hempty => absurd hfault (by simp [hempty])

/-- **A content that passes the check suits its type** in the form in which it is sent. -/
theorem suits_of_contentFault? (hfault : type.contentFault? content = none)
    (htrim : type.isAddress = true → Text.trim content = content) :
    type.Suits (type.canonicalContent content) where
  ipv4 := by
    rintro rfl
    have hread : IPv4.ofString? content ≠ none := by simpa [contentFault?] using hfault
    obtain ⟨address, haddress⟩ := Option.ne_none_iff_exists'.mp hread
    rw [canonicalContent_of_not_endsInName rfl]
    exact ⟨address, haddress,
      ofContent?_of_trimmed (htrim rfl) (Address.ofString?_of_v4 haddress),
      labels_ipv4Tree ▸ labels_treeOf_suffix_relative (.v4 address)⟩
  ipv6 := by
    rintro rfl
    have hread : IPv6.ofString? content ≠ none := by simpa [contentFault?] using hfault
    obtain ⟨address, haddress⟩ := Option.ne_none_iff_exists'.mp hread
    rw [canonicalContent_of_not_endsInName rfl]
    exact ⟨address, haddress,
      ofContent?_of_trimmed (htrim rfl) (Address.ofString?_of_v6 haddress),
      labels_ipv6Tree ▸ labels_treeOf_suffix_relative (.v6 address)⟩
  filled hplain := canonicalContent_ne_empty (ne_empty_of_contentFault? hplain hfault)
  absolute hname := by
    have hends : ∀ t ∈ [named .mx, named .cname, named .srv, named .ns],
        t.endsInName = true ∧ t.isAddress = false := by
      decide
    obtain ⟨hends, hplain⟩ := hends type hname
    exact getLast?_canonicalContent hends (ne_empty_of_contentFault? hplain hfault)

/-- Every address has a reverse name. -/
theorem Suits.exists_name (h : type.Suits content) (htype : type.isAddress = true) :
    ∃ name, ofContent? content = some name := by
  unfold isAddress at htype
  split at htype
  · obtain ⟨address, -, hname, -⟩ := h.ipv4 rfl
    exact ⟨_, hname⟩
  · obtain ⟨address, -, hname, -⟩ := h.ipv6 rfl
    exact ⟨_, hname⟩
  · contradiction

end RRType

/-! ### Rows -/

namespace Row

/-- The name of a row's record is absolute, be it a label in the zone or an address. -/
theorem getLast?_ownerName (zone : String) (policy : Policy) (row : Row) :
    (row.ownerName zone policy).toList.getLast? = some '.' := by
  unfold ownerName
  dsimp only
  split
  · cases haddress : ofIPv6Literal? (Text.trim row.name) with
    | none => exact getLast?_ofLabel zone row.name
    | some name =>
      obtain ⟨address, -, rfl⟩ := Option.map_eq_some_iff.mp haddress
      exact getLast?_absolute _
  · exact getLast?_ofLabel zone row.name

/-- There are no blanks around the content of an address. -/
theorem trim_content {row : Row} (h : row.type.isAddress = true) (zone : String) :
    Text.trim (row.content zone) = row.content zone := by
  have hplain : row.type ≠ .named .cname := by
    intro htype
    rw [htype] at h
    contradiction
  simp [content, hplain, Text.trim_trim]

end Row

namespace Reconciliation

variable {zone : String} {policy : Policy} {rows : List Row} {current : List RRset}
  {desired : List FlatRow} {w : RRset}

/-- A desired row has passed the check. -/
theorem contentFault?_of_desired (hdesired : desiredRows zone policy rows = .ok desired)
    {row : FlatRow} (hrow : row ∈ desired) : row.type.contentFault? row.content = none := by
  obtain ⟨source, hsource, htype, rfl⟩ := exists_row_of_desired hdesired hrow
  obtain ⟨checked, -, hcheck⟩ :=
    exists_of_mapM_ok hdesired (List.mem_filter.mpr ⟨hsource, by simpa using htype⟩)
  exact (FlatRow.check_eq_ok_iff.mp hcheck).1

/-- **What is sent is valid,** whatever the zone holds and whatever the policy allows. -/
theorem valid_of_mem_replaces (hdesired : desiredRows zone policy rows = .ok desired)
    (hw : w ∈ ((between policy desired current).batches policy).replaces) : w.Valid where
  absolute := by
    obtain ⟨row, hrow, hkey⟩ := exists_added_of_mem_replaces hw
    obtain ⟨source, -, -, rfl⟩ := exists_row_of_desired hdesired (mem_added.mp hrow).1
    obtain ⟨hname, -⟩ := RRsetKey.mk.inj hkey
    rw [← hname]
    exact Row.getLast?_ownerName zone policy source
  editable := ((permitted_between hdesired).replaces w hw).1
  nonempty := Batches.records_ne_nil hw
  distinct := Batches.nodup_contents hw
  suitable value hvalue := by
    obtain ⟨row, hrow, hkey, rfl⟩ := exists_added_of_value hw hvalue
    have hmem := (mem_added.mp hrow).1
    obtain ⟨source, -, -, rfl⟩ := exists_row_of_desired hdesired hmem
    obtain ⟨-, htype⟩ := RRsetKey.mk.inj hkey
    rw [← htype]
    exact RRType.suits_of_contentFault? (contentFault?_of_desired hdesired hmem)
      fun haddress => Row.trim_content haddress zone
  single := by
    rcases Batches.comments_of_mem_replaces hw with hnone | ⟨text, -, hone⟩
    · simp [hnone]
    · simp [hone]
  remark comment hcomment := by
    rcases Batches.comments_of_mem_replaces hw with hnone | ⟨text, htext, hone⟩
    · simp [hnone] at hcomment
    · rw [hone, List.mem_singleton] at hcomment
      exact hcomment ▸ ⟨htext, rfl⟩

/-- **Every replacement that is sent is well formed,** for any zone, rows, answer and policy on
which the reconciliation succeeds: its record set is valid, with addresses that have their reverse
names.  A deletion is a name and a type and nothing else. -/
theorem reconcile_valid (zone : String) (policy : Policy) (rows : List Row) (current : List RRset)
    (r : Reconciliation) (hr : reconcile zone policy rows current = .ok r) :
    (∀ change ∈ (r.batches policy).replaceChanges,
      change.type = .replace ∧ change.rrset.Valid) ∧
    ∀ change ∈ (r.batches policy).deleteChanges, change.type = .delete ∧
      change.rrset.ttl = 0 ∧ change.rrset.records = [] ∧ change.rrset.comments = [] := by
  obtain ⟨desired, hdesired, rfl⟩ := eq_between_of_reconcile hr
  constructor
  · intro change hchange
    obtain ⟨w, hw, rfl⟩ := List.mem_map.mp hchange
    exact ⟨rfl, valid_of_mem_replaces hdesired hw⟩
  · intro change hchange
    obtain ⟨key, -, rfl⟩ := List.mem_map.mp hchange
    exact ⟨rfl, rfl, rfl, rfl⟩

/-- A mail exchanger without its last dot, an address between blanks, and a name written as an
address. -/
def mailRows : List Row :=
  [.plain "@" (.named .mx) "10 mail", .plain "www" (.named .aaaa) " 2001:db8::1 ",
    { Row.plain "2001:db8::1" (.named .ptr) "www.example.com." with comment := some "router" }]

/-- The rows as they are checked. -/
def mailDesired : List FlatRow :=
  [⟨"example.com.", .named .mx, .replace, 3600, "10 mail", false, none⟩,
    ⟨"www.example.com.", .named .aaaa, .replace, 3600, "2001:db8::1", false, none⟩,
    ⟨"1.0.0.0.0.0.0.0.0.0.0.0.0.0.0.0.0.0.0.0.0.0.0.0.8.b.d.0.1.0.0.2.ip6.arpa.", .named .ptr,
      .replace, 3600, "www.example.com.", false, some "router"⟩]

/-- A zone with another mail exchanger and a text that nobody wants. -/
def mailZone : List RRset :=
  [⟨"example.com.", .named .mx, 60, [⟨"10 mail.example.com.", false⟩], []⟩,
    ⟨"old.example.com.", .named .txt, 60, [⟨"gone", false⟩], []⟩]

/-- What is sent. -/
def mailBatches : Batches where
  deletes := [⟨"old.example.com.", .named .txt⟩]
  replaces :=
    [⟨"1.0.0.0.0.0.0.0.0.0.0.0.0.0.0.0.0.0.0.0.0.0.0.0.8.b.d.0.1.0.0.2.ip6.arpa.", .named .ptr, 3600,
        [⟨"www.example.com.", false⟩], [⟨"router", ""⟩]⟩,
      ⟨"example.com.", .named .mx, 3600, [⟨"10 mail.", false⟩], []⟩,
      ⟨"www.example.com.", .named .aaaa, 3600, [⟨"2001:db8::1", false⟩], []⟩]

theorem reconcile_valid_mailRows :
    let policy : Policy := ⟨true, false, [.named .txt]⟩
    ∃ r, reconcile "example.com" policy mailRows mailZone = .ok r ∧
      r.batches policy = mailBatches ∧
      (∀ change ∈ mailBatches.replaceChanges, change.type = .replace ∧ change.rrset.Valid) ∧
      ∀ change ∈ mailBatches.deleteChanges, change.type = .delete ∧
        change.rrset.ttl = 0 ∧ change.rrset.records = [] ∧ change.rrset.comments = [] := by
  intro policy
  have hdesired : desiredRows "example.com" policy mailRows = .ok mailDesired := by decide +kernel
  have hwanted : Batches.ofRows policy mailDesired = ⟨[], mailBatches.replaces⟩ :=
    Batches.Gathered.ofRows_eq (by decide +kernel)
  have hr : reconcile "example.com" policy mailRows mailZone =
      .ok (between policy mailDesired mailZone) := by
    rw [reconcile_eq, hdesired]
    rfl
  have hbatches : (between policy mailDesired mailZone).batches policy = mailBatches := by
    refine Batches.Gathered.ofRows_eq ?_
    simp only [between, removed, changed, wanted, hwanted]
    decide +kernel
  have hvalid := reconcile_valid "example.com" policy mailRows mailZone _ hr
  rw [hbatches] at hvalid
  exact ⟨_, hr, hbatches, hvalid⟩

end Reconciliation

end ZoneKeeper
