/-
Policies: what one run may do to a zone.

A policy is settled once, before anything is read or sent: whether owner names may be
written as IPv6 addresses, whether reverse names are kept up to date, and which types of
record set may be taken away.  The start of authority is never taken away.
-/
import ZoneKeeper.RRType

namespace ZoneKeeper

/-- What one run may do to a zone. -/
structure Policy where
  /-- Owner names of PTR records may be written as IPv6 addresses. -/
  prettyIPv6Ptr : Bool
  /-- Reverse names follow the addresses of the zone. -/
  autoPtr : Bool
  /-- The types whose record sets may be taken away. -/
  editableTypes : List RRType
deriving DecidableEq, Repr

/-- A record set of this type may be taken away. -/
def Policy.mayDelete (policy : Policy) (type : RRType) : Bool :=
  type != .named .soa && policy.editableTypes.contains type

end ZoneKeeper
