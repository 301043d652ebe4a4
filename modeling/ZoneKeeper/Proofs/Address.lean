/-
Which texts are addresses.

An IPv4 address is written with digits and dots and nothing else, while no IPv6 address can be
written without a colon.  So no text is an address of both families, and a text that one of the two
readers takes is the same address for the reader that tries both.
-/
import ZoneKeeper.Address
import ZoneKeeper.Proofs.DomainName
import ZoneKeeper.Proofs.Numeral

namespace ZoneKeeper

open Text

namespace IPv4

theorem isDigit_of_octet? {cs : List Char} {octet : UInt8} (h : octet? cs = some octet) :
    ∀ c ∈ cs, c.isDigit = true := by
  unfold octet? at h
  split at h
  · contradiction
  · obtain ⟨n, hn, -⟩ := Option.map_eq_some_iff.mp h
    exact Numeral.isDigit_of_decimal? (Option.filter_eq_some_iff.mp hn).1

/-- An address is written with digits and dots. -/
theorem isDigit_of_ofChars? {cs : List Char} {address : IPv4} (h : ofChars? cs = some address) :
    ∀ c ∈ cs, c ≠ '.' → c.isDigit = true := by
  intro c hc hdot
  obtain ⟨piece, hpiece, hmem⟩ := exists_mem_cutAt hc hdot
  obtain ⟨octets, hoctets, -⟩ := Option.bind_eq_some_iff.mp h
  obtain ⟨octet, hoctet⟩ := exists_of_mapM_eq_some hoctets hpiece
  exact isDigit_of_octet? hoctet c hmem

theorem ofChars?_eq_none {cs : List Char} (h : ':' ∈ cs) : ofChars? cs = none := by
  rw [Option.eq_none_iff_forall_ne_some]
  intro address haddress
  exact absurd (isDigit_of_ofChars? haddress ':' h (by decide)) (by decide)

end IPv4

theorem IPv6.ofChars?_eq_none {cs : List Char} (h : ':' ∉ cs) : ofChars? cs = none := by
  unfold ofChars?
  rw [Text.breakOn?_eq_none h, cutAt_of_not_mem h]
  simp only [groupsOfPieces?]
  cases IPv4.ofChars? cs with
  | some address => rfl
  | none => cases group? cs <;> rfl

namespace Address

theorem ofString?_of_v4 {s : String} {address : IPv4} (h : IPv4.ofString? s = some address) :
    ofString? s = some (.v4 address) := by
  rw [ofString?, h]

/-- No IPv6 address is taken for one of the other family. -/
theorem ofString?_of_v6 {s : String} {address : IPv6} (h : IPv6.ofString? s = some address) :
    ofString? s = some (.v6 address) := by
  have hcolon : ':' ∈ s.toList := by
    by_contra hnone
    rw [IPv6.ofString?, IPv6.ofChars?_eq_none hnone] at h
    contradiction
  rw [ofString?, IPv4.ofString?, IPv4.ofChars?_eq_none hcolon, h]
  rfl

end Address

end ZoneKeeper
