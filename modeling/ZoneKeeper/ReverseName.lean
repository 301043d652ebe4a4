/-
Reverse names: the owner names under which the names of addresses are published.

The reverse name of an address lists its parts from the least to the most significant,
octets in decimal under in-addr.arpa and hexadecimal digits under ip6.arpa.  Reverse names
are absolute.  The zones that could hold a reverse name are found by removing labels
from its front, narrowest zone first; they are named without the trailing dot, as zones are.
-/
import ZoneKeeper.Address
import ZoneKeeper.DomainName

namespace ZoneKeeper.ReverseName

open Text DomainName

/-- The tree of IPv4 reverse names. -/
def ipv4Tree : String := "in-addr.arpa"

/-- The tree of IPv6 reverse names. -/
def ipv6Tree : String := "ip6.arpa"

/-- The labels of an address below its tree, least significant part first. -/
def addressLabels : Address → List String
  | .v4 address => (address.octets.toList.map fun octet => toString octet.toNat).reverse
  | .v6 address => (address.nibbles.map fun n => String.singleton (Numeral.hexDigit n)).reverse

/-- The tree that holds the reverse names of an address's family. -/
def treeOf : Address → String
  | .v4 _ => ipv4Tree
  | .v6 _ => ipv6Tree

/-- The reverse name of an address. -/
def ofAddress (address : Address) : String :=
  absolute (ofLabels (addressLabels address ++ labels (treeOf address)))

/-- The reverse name of the address that a record's content denotes. -/
def ofContent? (content : String) : Option String :=
  (Address.ofString? (trim content)).map ofAddress

/-- The reverse name of an IPv6 address written as an owner name, trailing dots or not. -/
def ofIPv6Literal? (name : String) : Option String :=
  (IPv6.ofString? (relative name)).map fun address => ofAddress (.v6 address)

/-- The tree that a lower-case relative name ends in, with the most labels that a zone
below it leaves out of a full reverse name. -/
def treeOfName? (name : String) : Option (String × Nat) :=
  if ipv6Tree.toList.isSuffixOf name.toList then some (ipv6Tree, 31)
  else if ipv4Tree.toList.isSuffixOf name.toList then some (ipv4Tree, 3)
  else none

/-- The zones that could hold a reverse name, narrowest first.  Each leaves out one label
more than the one before, and each keeps at least one label above the tree. -/
def zoneCandidates (name : String) : List String :=
  let name := lower (relative name)
  match treeOfName? name with
  | none => []
  | some (tree, most) =>
    let all := labels name
    let spare := all.length - (labels tree).length - 1
    (List.range' 1 (min most spare)).map fun stripped => ofLabels (all.drop stripped)

end ZoneKeeper.ReverseName
