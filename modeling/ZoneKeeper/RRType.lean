/-
Resource record types.

A type is known by its mnemonic, an upper-case word.  The types that zones commonly hold
have names of their own; every other mnemonic is carried as text, together with the fact
that it is not the mnemonic of a named type, so two types are equal exactly when their
mnemonics are.

Operators may write a named type, one of the further registered types, or the numeric
form, the word TYPE with a number.  What a nameserver reports may be any well-formed
mnemonic, so that one unfamiliar record set does not make its whole zone unreadable.
-/
import ZoneKeeper.Text
import ZoneKeeper.Numeral
import ZoneKeeper.Json.Fields
import ZoneKeeper.Yaml

namespace ZoneKeeper

open Text

/-- The types with a name of their own. -/
inductive NamedType
  | a
  | aaaa
  | apexAlias
  | caa
  | cname
  | dname
  | ds
  | hinfo
  | loc
  | mx
  | naptr
  | ns
  | ptr
  | soa
  | spf
  | srv
  | sshfp
  | tlsa
  | txt
  | uri
deriving DecidableEq, Repr

namespace NamedType

/-- The mnemonic of a named type. -/
def mnemonic : NamedType → String
  | a => "A"
  | aaaa => "AAAA"
  | apexAlias => "ALIAS"
  | caa => "CAA"
  | cname => "CNAME"
  | dname => "DNAME"
  | ds => "DS"
  | hinfo => "HINFO"
  | loc => "LOC"
  | mx => "MX"
  | naptr => "NAPTR"
  | ns => "NS"
  | ptr => "PTR"
  | soa => "SOA"
  | spf => "SPF"
  | srv => "SRV"
  | sshfp => "SSHFP"
  | tlsa => "TLSA"
  | txt => "TXT"
  | uri => "URI"

/-- Every named type. -/
def all : List NamedType :=
  [a, aaaa, apexAlias, caa, cname, dname, ds, hinfo, loc, mx, naptr, ns, ptr, soa, spf, srv,
    sshfp, tlsa, txt, uri]

/-- The named type with a mnemonic, if there is one. -/
def ofMnemonic? (mnemonic : String) : Option NamedType :=
  all.find? fun type => type.mnemonic == mnemonic

theorem mnemonic_of_ofMnemonic? {m : String} {type : NamedType} (h : ofMnemonic? m = some type) :
    type.mnemonic = m := by
  simpa using List.find?_some h

theorem ofMnemonic?_mnemonic (type : NamedType) : ofMnemonic? type.mnemonic = some type := by
  cases type <;> decide

theorem ofMnemonic?_isSome_iff {m : String} :
    (ofMnemonic? m).isSome = true ↔ m ∈ all.map mnemonic := by
  rw [ofMnemonic?, List.find?_isSome, List.mem_map]
  simp

end NamedType

/-- A resource record type. -/
inductive RRType
  | named (type : NamedType)
  | other (mnemonic : String) (unnamed : NamedType.ofMnemonic? mnemonic = none)
deriving DecidableEq, Repr

namespace RRType

/-- The upper-case mnemonic. -/
def mnemonic : RRType → String
  | named type => type.mnemonic
  | other mnemonic _ => mnemonic

/-- The type with a mnemonic. -/
def ofMnemonic (mnemonic : String) : RRType :=
  match h : NamedType.ofMnemonic? mnemonic with
  | some type => named type
  | none => other mnemonic h

theorem mnemonic_ofMnemonic (m : String) : (ofMnemonic m).mnemonic = m := by
  unfold ofMnemonic
  split
  · exact NamedType.mnemonic_of_ofMnemonic? ‹_›
  · rfl

theorem ofMnemonic_mnemonic (type : RRType) : ofMnemonic type.mnemonic = type := by
  unfold ofMnemonic
  cases type with
  | named type =>
    split
    · next found h =>
      rw [mnemonic, NamedType.ofMnemonic?_mnemonic] at h
      cases h
      rfl
    · next h =>
      rw [mnemonic, NamedType.ofMnemonic?_mnemonic] at h
      cases h
  | other m unnamed =>
    split
    · next found h =>
      rw [mnemonic, unnamed] at h
      cases h
    · rfl

/-- Types with the same mnemonic are the same type. -/
theorem mnemonic_injective {s t : RRType} (h : s.mnemonic = t.mnemonic) : s = t := by
  rw [← ofMnemonic_mnemonic s, h, ofMnemonic_mnemonic]

/-! ### What may be written -/

/-- The further types that operators may write. -/
def registered : List String :=
  ["A6", "AFSDB", "APL", "ATMA", "CDNSKEY", "CDS", "CERT", "CSYNC", "DHCID", "DLV", "DNSKEY",
    "EID", "ENT", "EUI48", "EUI64", "GPOS", "HTTPS", "IPSECKEY", "ISDN", "KEY", "KX", "L32",
    "L64", "LP", "LUA", "MAILA", "MAILB", "MB", "MD", "MF", "MG", "MINFO", "MR", "NID",
    "NIMLOC", "NINFO", "NSAP", "NSAP-PTR", "NSEC", "NSEC3", "NSEC3PARAM", "NULL", "NXT",
    "OPENPGPKEY", "PX", "RKEY", "RP", "RRSIG", "RT", "SIG", "SINK", "SMIMEA", "SVCB", "TALINK",
    "TKEY", "TSIG", "WKS", "X25", "ZONEMD"]

/-- The numeric form: TYPE followed by a number of sixteen bits, a leading plus allowed. -/
def isNumeric (mnemonic : String) : Bool :=
  match mnemonic.toList with
  | 'T' :: 'Y' :: 'P' :: 'E' :: digits => (Numeral.unsigned? (UInt16.size - 1) digits).isSome
  | _ => false

/-- The mnemonics that operators may write. -/
def isAccepted (mnemonic : String) : Bool :=
  (NamedType.ofMnemonic? mnemonic).isSome || registered.contains mnemonic || isNumeric mnemonic

/-- A well-formed mnemonic: at most sixteen ASCII letters, digits and hyphens, a letter first. -/
def isMnemonic (mnemonic : String) : Bool :=
  let cs := mnemonic.toList
  cs.head?.any Char.isAlpha && cs.length ≤ 16 && cs.all fun c => c.isAlphanum || c == '-'

/-- The mnemonic that a text spells in any case and between blanks. -/
def mnemonicOf (s : String) : String :=
  upper (trim s)

/-- The type that an operator's text names. -/
def ofString? (s : String) : Option RRType :=
  let mnemonic := mnemonicOf s
  if isAccepted mnemonic then some (ofMnemonic mnemonic) else none

/-- The type that a nameserver's text names. -/
def ofReport? (s : String) : Option RRType :=
  let mnemonic := mnemonicOf s
  if isAccepted mnemonic || isMnemonic mnemonic then some (ofMnemonic mnemonic) else none

/-! ### Properties and order -/

/-- Types whose content ends in a domain name that must be absolute. -/
def endsInName : RRType → Bool
  | named .mx | named .cname | named .srv | named .ns => true
  | _ => false

/-- The types of addresses. -/
def isAddress : RRType → Bool
  | named .a | named .aaaa => true
  | _ => false

/-- The type has no name of its own. -/
def isOther : RRType → Bool
  | named _ => false
  | other .. => true

/-- Types are ordered as their mnemonics are. -/
def atMost (s t : RRType) : Bool :=
  s.mnemonic ≤ t.mnemonic

instance : ToString RRType := ⟨mnemonic⟩
instance : ToJson RRType := ⟨fun type => toJson type.mnemonic⟩

/-- A type in JSON is one that an operator may write. -/
instance : OfJson RRType := ⟨fun j => j.text?.bind ofString?⟩
instance : OfYaml RRType := ⟨fun node => node.text?.bind ofString?⟩

end RRType
end ZoneKeeper
